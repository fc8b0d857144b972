import DatumConnect.Lib.JsonSame
import DatumConnect.Policies.Waf
import Mathlib.Data.UInt
/-!
# Equality of policies

What `json_eq` takes to be equal, and that the reading of a policy does not tell equal ones apart.
-/

namespace DatumConnect.Policies

open DatumConnect.Lib
open DatumConnect.Lib.Json

/-- The two are the same double. -/
def SameDouble (x y : Number) : Prop := x.asF64 = y.asF64

/-- The two are the same number. -/
def SameNumber (x y : Number) : Prop := x.value = y.value

/-! ## What is compared -/

theorem same_array_iff {r : Number → Number → Prop} {xs ys : List Value} :
    Same r (.array xs) (.array ys) ↔ xs.length = ys.length ∧
      ∀ (i : Nat) (x y : Value), xs[i]? = some x → ys[i]? = some y → Same r x y := by
  constructor
  · intro h
    cases h with
    | array hlength hitems => exact ⟨hlength, hitems⟩
  · rintro ⟨hlength, hitems⟩
    exact .array hlength hitems

/-- Every field of the one object has its counterpart, and there are as many in the other. -/
theorem same_object_iff {r : Number → Number → Prop} {fs gs : List (String × Value)}
    (hfs : (fs.map Prod.fst).Nodup) (hgs : (gs.map Prod.fst).Nodup) :
    Same r (.object fs) (.object gs) ↔ fs.length = gs.length ∧
      ∀ f ∈ fs, ∃ w, gs.lookup f.1 = some w ∧ Same r f.2 w := by
  constructor
  · intro h
    cases h with
    | object hkeys hfields =>
      have hperm : (fs.map Prod.fst).Perm (gs.map Prod.fst) := by
        rw [List.perm_ext_iff_of_nodup hfs hgs]
        intro k
        rw [← lookup_isSome_iff, ← lookup_isSome_iff, hkeys]
      have hlength := hperm.length_eq
      rw [List.length_map, List.length_map] at hlength
      refine ⟨hlength, fun f hf => ?_⟩
      have hlookup := lookup_of_mem hfs hf
      obtain ⟨w, hw⟩ := Option.isSome_iff_exists.mp ((hkeys f.1).symm.trans (by rw [hlookup]; rfl))
      exact ⟨w, hw, hfields f.1 f.2 w hlookup hw⟩
  · rintro ⟨hlength, hfields⟩
    have hsubset : fs.map Prod.fst ⊆ gs.map Prod.fst := by
      intro k hk
      obtain ⟨f, hf, rfl⟩ := List.mem_map.mp hk
      obtain ⟨w, hw, -⟩ := hfields f hf
      rw [← lookup_isSome_iff, hw]
      rfl
    have hperm : (fs.map Prod.fst).Perm (gs.map Prod.fst) := by
      apply (hfs.subperm hsubset).perm_of_length_le
      rw [List.length_map, List.length_map, hlength]
    refine .object (fun k => ?_) fun k v w hv hw => ?_
    · rw [Bool.eq_iff_iff, lookup_isSome_iff, lookup_isSome_iff]
      exact hperm.mem_iff
    · obtain ⟨w', hw', hsame⟩ := hfields (k, v) (mem_of_lookup hv)
      rw [hw] at hw'
      cases hw'
      exact hsame

theorem sameDouble_symm {a b : Value} (h : Same SameDouble a b) : Same SameDouble b a :=
  h.symm fun _ _ hxy => Eq.symm hxy

theorem sameDouble_trans {a b c : Value} (h : Same SameDouble a b) (h' : Same SameDouble b c) :
    Same SameDouble a c :=
  h.trans (fun x y z (hxy : SameDouble x y) (hyz : SameDouble y z) => Eq.trans hxy hyz) h'

mutual

theorem jsonEq_iff : ∀ {a b : Value}, a.WellFormed → b.WellFormed →
    (jsonEq a b = true ↔ Same SameDouble a b)
  | .null, b, _, _ => by
      have hnull : jsonEq .null b = b.isNull := by rw [jsonEq]
      rw [hnull]
      cases b with
      | null => exact ⟨fun _ => .null, fun _ => rfl⟩
      | bool _ => exact ⟨nofun, nofun⟩
      | number _ => exact ⟨nofun, nofun⟩
      | string _ => exact ⟨nofun, nofun⟩
      | array _ => exact ⟨nofun, nofun⟩
      | object _ => exact ⟨nofun, nofun⟩
  | .bool x, b, _, _ => by
      rw [jsonEq, Value.beq_iff]
      constructor
      · rintro rfl
        exact .bool x
      · intro h
        cases h
        rfl
  | .string s, b, _, _ => by
      rw [jsonEq, Value.isStr_iff]
      constructor
      · rintro rfl
        exact .string s
      · intro h
        cases h
        rfl
  | .number x, .number y, _, _ => by
      rw [jsonEq, decide_eq_true_eq]
      constructor
      · intro h
        exact .number h
      · intro h
        cases h with
        | number h => exact h
  | .array xs, .array ys, hxs, hys => by
      rw [jsonEq, Bool.and_eq_true, decide_eq_true_eq, same_array_iff]
      exact and_congr_right fun _ => jsonEqItems_iff hxs hys
  | .object fs, .object gs, hfs, hgs => by
      rw [jsonEq, Bool.and_eq_true, decide_eq_true_eq, same_object_iff hfs.1 hgs.1]
      exact and_congr_right fun _ => jsonEqFields_iff hfs.2 hgs.2
  | .number _, .null, _, _ | .number _, .bool _, _, _ | .number _, .string _, _, _
  | .number _, .array _, _, _ | .number _, .object _, _, _ | .array _, .null, _, _
  | .array _, .bool _, _, _ | .array _, .string _, _, _ | .array _, .number _, _, _
  | .array _, .object _, _, _ | .object _, .null, _, _ | .object _, .bool _, _, _
  | .object _, .string _, _, _ | .object _, .number _, _, _ | .object _, .array _, _, _ => by
      constructor
      · intro h
        simp [jsonEq] at h
      · intro h
        cases h

theorem jsonEqItems_iff : ∀ {xs ys : List Value}, wellFormedItems xs → wellFormedItems ys →
    (jsonEqItems xs ys = true ↔
      ∀ (i : Nat) (x y : Value), xs[i]? = some x → ys[i]? = some y → Same SameDouble x y)
  | [], ys, _, _ => by
      rw [jsonEqItems]
      exact ⟨fun _ i x y hx => by simp at hx, fun _ => rfl⟩
      all_goals simp
  | x :: xs, [], _, _ => by
      rw [jsonEqItems]
      exact ⟨fun _ i x y _ hy => by simp at hy, fun _ => rfl⟩
      all_goals simp
  | x :: xs, y :: ys, hxs, hys => by
      rw [jsonEqItems, Bool.and_eq_true, jsonEq_iff hxs.1 hys.1, jsonEqItems_iff hxs.2 hys.2]
      constructor
      · rintro ⟨hfirst, hrest⟩ i u v hu hv
        cases i with
        | zero =>
          rw [List.getElem?_cons_zero, Option.some.injEq] at hu hv
          exact hu ▸ hv ▸ hfirst
        | succ i => exact hrest i u v hu hv
      · intro h
        exact ⟨h 0 x y rfl rfl, fun i u v hu hv => h (i + 1) u v hu hv⟩

theorem jsonEqFields_iff : ∀ {fs gs : List (String × Value)}, wellFormedFields fs →
    wellFormedFields gs → (jsonEqFields fs gs = true ↔
      ∀ f ∈ fs, ∃ w, gs.lookup f.1 = some w ∧ Same SameDouble f.2 w)
  | [], gs, _, _ => by
      rw [jsonEqFields]
      exact ⟨fun _ f hf => absurd hf List.not_mem_nil, fun _ => rfl⟩
  | (k, v) :: fs, gs, hfs, hgs => by
      rw [jsonEqFields, Bool.and_eq_true, jsonEqFields_iff hfs.2 hgs, List.forall_mem_cons]
      apply and_congr_left'
      cases hlookup : gs.lookup k with
      | none => simp
      | some w =>
        have hw := wellFormedFields_iff.mp hgs (k, w) (mem_of_lookup hlookup)
        simp only [jsonEq_iff hfs.1 hw, Option.some.injEq, exists_eq_left']

end

/-! ## What is read of a policy -/

section

variable {r : Number → Number → Prop} {a b : Value}

theorem same_lookup {fs gs : List (String × Value)} (h : Same r (.object fs) (.object gs))
    (k : String) : fs.lookup k = none ∧ gs.lookup k = none ∨
      ∃ v w, fs.lookup k = some v ∧ gs.lookup k = some w ∧ Same r v w := by
  cases h with
  | object hkeys hfields =>
    cases hf : fs.lookup k with
    | none =>
      have hg := hkeys k
      rw [hf] at hg
      exact Or.inl ⟨rfl, Option.isNone_iff_eq_none.mp (by rw [← Option.not_isSome, ← hg]; rfl)⟩
    | some v =>
      obtain ⟨w, hw⟩ := Option.isSome_iff_exists.mp ((hkeys k).symm.trans (by rw [hf]; rfl))
      exact Or.inr ⟨v, w, rfl, hw, hfields k v w hf hw⟩

theorem same_get (h : Same r a b) (k : String) : a.get k = none ∧ b.get k = none ∨
    ∃ v w, a.get k = some v ∧ b.get k = some w ∧ Same r v w := by
  cases h with
  | object hkeys hfields => exact same_lookup (.object hkeys hfields) k
  | null => exact Or.inl ⟨rfl, rfl⟩
  | bool _ => exact Or.inl ⟨rfl, rfl⟩
  | string _ => exact Or.inl ⟨rfl, rfl⟩
  | number _ => exact Or.inl ⟨rfl, rfl⟩
  | array _ _ => exact Or.inl ⟨rfl, rfl⟩

theorem same_index (h : Same r a b) (k : String) : Same r (a.index k) (b.index k) := by
  unfold Value.index
  rcases same_get h k with ⟨ha, hb⟩ | ⟨v, w, ha, hb, hsame⟩
  · rw [ha, hb]
    exact .null
  · rw [ha, hb]
    exact hsame

theorem same_get_some (h : Same r a b) {k : String} {v : Value} (hget : a.get k = some v) :
    ∃ w, b.get k = some w ∧ Same r v w := by
  rcases same_get h k with ⟨ha, -⟩ | ⟨v', w, ha, hb, hsame⟩
  · rw [ha] at hget
    cases hget
  · rw [ha, Option.some.injEq] at hget
    exact ⟨w, hb, hget ▸ hsame⟩

theorem same_get_string (h : Same r a b) {k s : String} (hget : a.get k = some (.string s)) :
    b.get k = some (.string s) := by
  obtain ⟨w, hw, hsame⟩ := same_get_some h hget
  cases hsame
  exact hw

theorem same_get_array (h : Same r a b) {k : String} {x : Value}
    (hget : a.get k = some (.array [x])) : ∃ y, b.get k = some (.array [y]) ∧ Same r x y := by
  obtain ⟨w, hw, hsame⟩ := same_get_some h hget
  cases hsame with
  | array hlength hitems =>
    obtain ⟨y, rfl⟩ := List.length_eq_one_iff.mp hlength.symm
    exact ⟨y, hw, hitems 0 x y rfl rfl⟩

theorem same_unset (h : Same r a b) {k : String} (hunset : Unset (a.get k)) : Unset (b.get k) := by
  rcases same_get h k with ⟨-, hb⟩ | ⟨v, w, ha, hb, hsame⟩
  · exact Or.inl hb
  · rw [ha] at hunset
    rcases hunset with hnone | hnull | hfalse
    · cases hnone
    · rw [Option.some.injEq] at hnull
      subst hnull
      cases hsame
      exact Or.inr (Or.inl hb)
    · rw [Option.some.injEq] at hfalse
      subst hfalse
      cases hsame
      exact Or.inr (Or.inr hb)

theorem same_hasManagedBy (h : Same r a b) : hasManagedBy a = hasManagedBy b := by
  have hpath : ∀ v : Value, v.pointer ["metadata", "annotations"] =
      (v.get "metadata").bind fun m => m.get "annotations" := by
    intro v
    simp [Value.pointer]
  unfold hasManagedBy
  rw [hpath, hpath]
  rcases same_get h "metadata" with ⟨ha, hb⟩ | ⟨v, w, ha, hb, hmetadata⟩
  · rw [ha, hb]
  · rw [ha, hb]
    simp only [Option.bind_some]
    rcases same_get hmetadata "annotations" with ⟨hv, hw⟩ | ⟨v', w', hv, hw, hsame⟩
    · rw [hv, hw]
    · rw [hv, hw]
      cases hsame with
      | object hkeys _ => exact hkeys managedByAnnotation
      | null => rfl
      | bool _ => rfl
      | string _ => rfl
      | number _ => rfl
      | array _ _ => rfl

end

theorem wellFormed_index {v : Value} (h : v.WellFormed) (k : String) : (v.index k).WellFormed := by
  unfold Value.index
  cases hget : v.get k with
  | none => exact trivial
  | some w =>
    cases v with
    | object fields => exact wellFormedFields_iff.mp h.2 (k, w) (mem_of_lookup hget)
    | null => cases hget
    | bool _ => cases hget
    | string _ => cases hget
    | number _ => cases hget
    | array _ => cases hget

/-- A part that is compared with a value is the same part in the other policy. -/
theorem jsonEq_of_same {a b c : Value} (ha : a.WellFormed) (hb : b.WellFormed) (hc : c.WellFormed)
    (h : Same SameDouble a b) (heq : jsonEq a c = true) : jsonEq b c = true := by
  rw [jsonEq_iff ha hc] at heq
  rw [jsonEq_iff hb hc]
  exact sameDouble_trans (sameDouble_symm h) heq

theorem wellFormed_constants : paranoiaLevels.WellFormed ∧ scoreThresholds.WellFormed ∧
    ruleExclusions.WellFormed := by
  refine ⟨⟨by decide, trivial, trivial, trivial⟩, ⟨by decide, trivial, trivial, trivial⟩,
    ⟨by decide, ⟨trivial, trivial⟩, trivial⟩⟩

/-- What makes a policy look like the earlier add-on's is there in every policy that is equal. -/
theorem looksLegacy_of_same {a b : Value} {tunnelId : String} (ha : a.WellFormed)
    (hb : b.WellFormed) (h : Same SameDouble a b) (hlegacy : LooksLegacy a tunnelId) :
    LooksLegacy b tunnelId := by
  have hspec := same_index h "spec"
  obtain ⟨ref, href, hkind, hname, hsection⟩ := hlegacy.target
  obtain ⟨rule, hrule, htype, hlevels, hthresholds, hexclusions⟩ := hlegacy.rules
  obtain ⟨ref', href', hsameRef⟩ := same_get_array hspec href
  obtain ⟨rule', hrule', hsameRule⟩ := same_get_array hspec hrule
  have hitem : ∀ {v : Value} {key : String} {x : Value}, v.WellFormed →
      (v.index "spec").get key = some (.array [x]) → x.WellFormed := by
    intro v key x hv hget
    have hindex := wellFormed_index (wellFormed_index hv "spec") key
    unfold Value.index at hindex
    change (((v.index "spec").get key).getD .null).WellFormed at hindex
    rw [hget] at hindex
    exact hindex.1
  have hcrs := same_index hsameRule "owaspCoreRuleSet"
  have hwf := wellFormed_index (hitem ha hrule) "owaspCoreRuleSet"
  have hwf' := wellFormed_index (hitem hb hrule') "owaspCoreRuleSet"
  have hpart : ∀ (key : String) (c : Value), c.WellFormed →
      jsonEq ((rule.index "owaspCoreRuleSet").index key) c = true →
        jsonEq ((rule'.index "owaspCoreRuleSet").index key) c = true := fun key c hc =>
    jsonEq_of_same (wellFormed_index hwf key) (wellFormed_index hwf' key) hc (same_index hcrs key)
  refine {
    disabled := same_get_string hspec hlegacy.disabled
    unmanaged := (same_hasManagedBy h).symm.trans hlegacy.unmanaged
    sampling := ?_
    target := ⟨ref', href', same_get_string hsameRef hkind, same_get_string hsameRef hname,
      hsection.imp (same_unset hsameRef) (same_get_string hsameRef)⟩
    rules := ⟨rule', hrule', same_get_string hsameRule htype,
      hpart _ _ wellFormed_constants.1 hlevels, hpart _ _ wellFormed_constants.2.1 hthresholds,
      hpart _ _ wellFormed_constants.2.2 hexclusions⟩ }
  rcases hlegacy.sampling with hunset | ⟨n, hget, hn⟩
  · exact Or.inl (same_unset hspec hunset)
  · obtain ⟨w, hw, hsame⟩ := same_get_some hspec hget
    cases hsame with
    | number hxy => exact Or.inr ⟨_, hw, Eq.trans (Eq.symm hxy) hn⟩

theorem isLegacyAddonWaf_of_same {a b : Value} (ha : a.WellFormed) (hb : b.WellFormed)
    (h : Same SameDouble a b) (tunnelId : String) :
    isLegacyAddonWaf a tunnelId = isLegacyAddonWaf b tunnelId := by
  rw [Bool.eq_iff_iff, isLegacyAddonWaf_iff, isLegacyAddonWaf_iff]
  exact ⟨looksLegacy_of_same ha hb h, looksLegacy_of_same hb ha (sameDouble_symm h)⟩

/-! ## Equality -/

/-- `json_eq` is an equivalence: the same shape, whatever the order of the keys, with the same double
for the number at each place.  Numbers that a double holds exactly, which are those that were read as
doubles and the integers of up to 53 bits, have the same double only if they are the same number.
Policies that are equal number by number are read alike. -/
theorem jsonEq_equality :
    (∀ a : Value, a.WellFormed → jsonEq a a = true) ∧
    (∀ a b : Value, a.WellFormed → b.WellFormed → jsonEq a b = true → jsonEq b a = true) ∧
    (∀ a b c : Value, a.WellFormed → b.WellFormed → c.WellFormed →
      jsonEq a b = true → jsonEq b c = true → jsonEq a c = true) ∧
    (∀ a b : Value, a.WellFormed → b.WellFormed → (jsonEq a b = true ↔ Same SameDouble a b)) ∧
    (∀ x y : Number, x.Exact → y.Exact → (SameDouble x y ↔ SameNumber x y)) ∧
    (∀ v, (Number.float v).Exact) ∧
    (∀ n : UInt64, n.toNat ≤ 2 ^ 53 → (Number.posInt n).Exact) ∧
    (∀ n : Int64, n.toInt.natAbs ≤ 2 ^ 53 → (Number.negInt n).Exact) ∧
    (∀ a b : Value, a.WellFormed → b.WellFormed → Same SameNumber a b →
      jsonEq a b = true ∧ ∀ tunnelId, isLegacyAddonWaf a tunnelId = isLegacyAddonWaf b tunnelId) := by
  refine ⟨fun a ha => ?_, fun a b ha hb h => ?_, fun a b c ha hb hc h h' => ?_, fun a b ha hb => ?_,
    fun x y hx hy => ?_, Number.exact_float, fun n hn => Number.exact_posInt hn,
    fun n hn => Number.exact_negInt hn, fun a b ha hb h => ?_⟩
  · rw [jsonEq_iff ha ha]
    have hrefl : ∀ x, SameDouble x x := fun _ => rfl
    exact .refl hrefl a
  · rw [jsonEq_iff ha hb] at h
    rw [jsonEq_iff hb ha]
    exact sameDouble_symm h
  · rw [jsonEq_iff ha hb] at h
    rw [jsonEq_iff hb hc] at h'
    rw [jsonEq_iff ha hc]
    exact sameDouble_trans h h'
  · exact jsonEq_iff ha hb
  · unfold SameDouble SameNumber
    rw [hx, hy]
  · have hdouble : Same SameDouble a b :=
      h.mono ha hb fun x y hx hy hxy => Number.asF64_of_value_eq hx hy hxy
    exact ⟨(jsonEq_iff ha hb).mpr hdouble, isLegacyAddonWaf_of_same ha hb hdouble⟩

/-- An integer and a double, with the keys the other way round. -/
theorem jsonEq_equality_one :
    jsonEq (.object [("a", num 1), ("b", .null)])
      (.object [("b", .null), ("a", .number (.float 1))]) = true := by
  have hone : Number.IsDouble 1 := ⟨1, 0, by decide, Or.inl (by norm_num)⟩
  refine (jsonEq_equality.2.2.2.1 (.object [("a", num 1), ("b", .null)])
    (.object [("b", .null), ("a", .number (.float 1))]) ⟨by decide, trivial, trivial, trivial⟩
    ⟨by decide, trivial, hone, trivial⟩).mpr ?_
  refine .object (fun k => ?_) fun k v w hv hw => ?_
  · rw [Bool.eq_iff_iff, lookup_isSome_iff, lookup_isSome_iff]
    exact (List.Perm.swap _ _ _).mem_iff
  · rcases List.mem_cons.mp (mem_of_lookup hv) with heq | hmem
    · cases heq
      cases hw
      exact .number rfl
    · cases List.mem_singleton.mp hmem
      cases hw
      exact .null

/-- Two integers with the same nearest double are taken to be equal. -/
theorem jsonEq_neighbours :
    jsonEq (num (2 ^ 53)) (num (2 ^ 53 + 1)) = true ∧
      ¬ Same SameNumber (num (2 ^ 53)) (num (2 ^ 53 + 1)) := by
  constructor
  · decide +kernel
  · intro h
    cases h with
    | number hxy => exact absurd hxy (by unfold SameNumber Number.value; decide +kernel)

end DatumConnect.Policies
