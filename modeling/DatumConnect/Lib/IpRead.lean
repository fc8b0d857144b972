import DatumConnect.Lib.IpText
/-!
# Reading an address

`IpAddr::from_str` reads from the left, as much as it can; it takes the texts that stand for an
address and no others.
-/

namespace DatumConnect.Lib.IpAddr

/-- The parts as they stand at an index: all but the first part have a colon before them. -/
def placed (index : Nat) (texts : List (List Char)) : List Char :=
  if index = 0 then [':'].intercalate texts else led ':' texts

/-- No further group can be read: the text ends, or groups are left out. -/
def Stops (rest : List Char) : Prop := rest = [] ∨ ∃ more, rest = ':' :: ':' :: more

theorem Stops.ends {radix : Nat} {rest : List Char} (h : Stops rest) (hcolon : ¬ IsDigit radix ':') :
    Ends radix rest := by
  rcases h with rfl | ⟨more, rfl⟩
  · exact nofun
  · intro c hc
    cases hc
    exact hcolon

/-! ## One step -/

section Step

variable {limit left : Nat} {s rest : List Char}

theorem readGroups_dotted {octets : List Nat} (hroom : limit - (left + 1) < limit - 1)
    (h : readSeparator ':' (limit - (left + 1)) readIpv4Addr s = some (octets, rest))
    (hfour : octets.length = 4) :
    readGroups limit (left + 1) s = (words octets, true, rest) := by
  match octets, hfour with
  | [a, b, c, d], _ =>
      rw [readGroups, if_pos hroom, h]
      rfl

end Step

theorem readGivenChar_eq_some {c : Char} {s rest : List Char} (h : readGivenChar c s = some rest) :
    s = c :: rest := by
  unfold readGivenChar at h
  split at h
  · rename_i hhead
    cases s with
    | nil => cases hhead
    | cons c' cs =>
        cases hhead
        cases h
        rfl
  · cases h

/-- The groups that stand for a text: all eight, or fewer with "::" for those that are left out. -/
inductive Groups : List Char → List Nat → Prop
  | full {texts : List (List Char)} {gs : List Nat} (hgroups : groups? texts = some gs)
      (hlength : gs.length = 8) : Groups ([':'].intercalate texts) gs
  | short {his los : List (List Char)} {hi lo : List Nat} (hhi : his.mapM hextet? = some hi)
      (hlo : groups? los = some lo) (hlength : hi.length + lo.length ≤ 7) :
      Groups ([':'].intercalate his ++ ':' :: ':' :: [':'].intercalate los)
        (hi ++ List.replicate (8 - hi.length - lo.length) 0 ++ lo)

/-! ## The other steps -/

section Steps

variable {limit left : Nat} {s rest : List Char}

theorem readGroups_group {g : Nat}
    (hno : limit - (left + 1) < limit - 1 →
      readSeparator ':' (limit - (left + 1)) readIpv4Addr s = none)
    (h : readSeparator ':' (limit - (left + 1)) (readNumber 16 4 65536 true) s =
      some (g, rest)) :
    readGroups limit (left + 1) s = (g :: (readGroups limit left rest).1,
      (readGroups limit left rest).2.1, (readGroups limit left rest).2.2) := by
  rw [readGroups]
  split
  · rename_i a b c d rest' heq
    split at heq
    · rename_i hroom
      rw [hno hroom] at heq
      cases heq
    · cases heq
  · rw [h]

theorem readGroups_stop
    (hno : limit - (left + 1) < limit - 1 →
      readSeparator ':' (limit - (left + 1)) readIpv4Addr s = none)
    (h : readSeparator ':' (limit - (left + 1)) (readNumber 16 4 65536 true) s = none) :
    readGroups limit (left + 1) s = ([], false, s) := by
  rw [readGroups]
  split
  · rename_i a b c d rest' heq
    split at heq
    · rename_i hroom
      rw [hno hroom] at heq
      cases heq
    · cases heq
  · rw [h]

end Steps

/-! ## All groups -/

theorem readSeparator_placed {α : Type} {index : Nat} {inner : List Char → Option (α × List Char)}
    {t : List Char} {ts : List (List Char)} {rest : List Char} :
    readSeparator ':' index inner (placed index (t :: ts) ++ rest) =
      inner (t ++ (led ':' ts ++ rest)) := by
  unfold placed
  by_cases hindex : index = 0
  · rw [if_pos hindex, intercalate_cons, List.append_assoc]
    unfold readSeparator
    rw [if_pos hindex]
  · have hled : led ':' (t :: ts) ++ rest = ':' :: (t ++ (led ':' ts ++ rest)) := by
      simp [led]
    rw [if_neg hindex, hled, readSeparator_given hindex]

theorem readSeparator_stops {α : Type} {index : Nat} {inner : List Char → Option (α × List Char)}
    {rest : List Char} (hrest : Stops rest)
    (hinner : ∀ s, Ends 16 s → inner s = none) : readSeparator ':' index inner rest = none := by
  by_cases hindex : index = 0
  · unfold readSeparator
    rw [if_pos hindex]
    exact hinner rest (hrest.ends (by decide))
  · rcases hrest with rfl | ⟨more, rfl⟩
    · unfold readSeparator readGivenChar
      rw [if_neg hindex]
      rfl
    · rw [readSeparator_given hindex]
      apply hinner
      intro c hc
      cases hc
      decide

theorem isDigit_mono {radix radix' : Nat} (h : radix ≤ radix') {c : Char} (hc : IsDigit radix c) :
    IsDigit radix' c := by
  unfold IsDigit toDigit at hc ⊢
  revert hc
  simp only [Option.isSome_filter]
  generalize (if '0' ≤ c ∧ c ≤ '9' then some (c.toNat - '0'.toNat)
    else if 'a' ≤ c ∧ c ≤ 'z' then some (c.toNat - 'a'.toNat + 10)
    else if 'A' ≤ c ∧ c ≤ 'Z' then some (c.toNat - 'A'.toNat + 10) else none) = value
  cases value with
  | none => exact id
  | some n =>
      simp only [Option.any_some, decide_eq_true_eq]
      omega

theorem Ends.mono {radix radix' : Nat} (h : radix ≤ radix') {s : List Char} (hs : Ends radix' s) :
    Ends radix s := fun c hc hdigit => hs c hc (isDigit_mono h hdigit)

/-- Behind a group stands a colon, if anything. -/
theorem head_led {ts : List (List Char)} {rest : List Char} (hrest : Stops rest) :
    ∀ c ∈ (led ':' ts ++ rest).head?, c = ':' := by
  intro c hc
  cases ts with
  | nil =>
      rcases hrest with rfl | ⟨more, rfl⟩
      · cases hc
      · cases hc
        rfl
  | cons t ts =>
      cases hc
      rfl

/-- Reading finds the groups that stand there. -/
theorem readGroups_placed {limit left : Nat} {texts : List (List Char)} {gs : List Nat}
    {rest : List Char} (hleft : left ≤ limit) (hgroups : groups? texts = some gs)
    (hlength : gs.length ≤ left) (hrest : Stops rest)
    (hlast : texts.mapM hextet? = some gs ∨ rest = []) :
    ∃ b, readGroups limit left (placed (limit - left) texts ++ rest) = (gs, b, rest) ∧
      (texts.mapM hextet? = some gs → b = false) := by
  induction left generalizing texts gs with
  | zero =>
      have hgs : gs = [] := List.length_eq_zero_iff.mp (Nat.le_zero.mp hlength)
      cases texts with
      | nil =>
          rw [hgs]
          refine ⟨false, ?_, fun _ => rfl⟩
          unfold placed
          split <;> rfl
      | cons t ts => exact absurd hgs (groups?_ne_nil hgroups)
  | succ left ih =>
      cases texts with
      | nil =>
          cases hgroups
          have hplaced : placed (limit - (left + 1)) [] ++ rest = rest := by
            unfold placed
            split <;> rfl
          rw [hplaced]
          refine ⟨false, readGroups_stop (fun _ => ?_) ?_, fun _ => rfl⟩
          · exact readSeparator_stops hrest fun s hs => readIpv4Addr_of_ends (hs.mono (by decide))
          · exact readSeparator_stops hrest fun s hs => readNumber_of_ends hs
      | cons t ts =>
          rcases groups?_cons_eq_some hgroups with
            ⟨g, gs', ht, hts, rfl⟩ | ⟨rfl, octets, hoctets, rfl⟩
          · -- A group is not the beginning of an IPv4 address: a colon follows, or nothing.
            have hdotted : readIpv4Addr (t ++ (led ':' ts ++ rest)) = none := by
              apply readIpv4Addr_of_no_point (not_mem_hextet (by decide) ht)
              intro c hc
              rw [head_led hrest c hc]
              decide
            have hends : Ends 16 (led ':' ts ++ rest) :=
              ends_led (by decide) (hrest.ends (by decide))
            have hgroup := readNumber_append ht hends
            have hplaced : placed (limit - left) ts = led ':' ts := by
              unfold placed
              rw [if_neg (by omega)]
            have hlast' : ts.mapM hextet? = some gs' ∨ rest = [] := by
              refine hlast.imp_left fun hall => ?_
              obtain ⟨g', gs'', _, hgs'', heq⟩ := mapM_cons_eq_some.mp hall
              cases heq
              exact hgs''
            obtain ⟨b, hread, hb⟩ := ih (by omega) hts (Nat.le_of_succ_le_succ hlength) hlast'
            rw [hplaced] at hread
            refine ⟨b, ?_, fun hall => hb ?_⟩
            · rw [readGroups_group (fun _ => readSeparator_placed.trans hdotted)
                (readSeparator_placed.trans hgroup), hread]
            · obtain ⟨g', gs'', _, hgs'', heq⟩ := mapM_cons_eq_some.mp hall
              cases heq
              exact hgs''
          · have hno : ¬ [t].mapM hextet? = some (words octets) := by
              intro hall
              obtain ⟨g, _, hg, _, _⟩ := mapM_cons_eq_some.mp hall
              exact not_mem_hextet (by decide) hg (point_mem_of_dotted hoctets)
            have hnil : rest = [] := hlast.resolve_left hno
            have htwo := length_words hoctets
            have hfour : octets.length = 4 := by
              obtain ⟨texts, hlen, htexts, _⟩ := dotted?_eq_some.mp hoctets
              exact (length_of_mapM htexts).trans hlen
            refine ⟨true, ?_, fun hall => absurd hall hno⟩
            subst hnil
            apply readGroups_dotted (by omega) _ hfour
            rw [readSeparator_placed]
            exact readIpv4Addr_append hoctets nofun

theorem readSeparator_read {α : Type} {index : Nat} {inner : List Char → Option (α × List Char)}
    {s : List Char} {r : α × List Char} (h : readSeparator ':' index inner s = some r) :
    ∃ s', inner s' = some r ∧ ∀ (t : List Char) (ts : List (List Char)) (rest : List Char),
      s' = t ++ (led ':' ts ++ rest) → s = placed index (t :: ts) ++ rest := by
  by_cases hindex : index = 0
  · unfold readSeparator at h
    rw [if_pos hindex] at h
    refine ⟨s, h, fun t ts rest heq => ?_⟩
    rw [placed, if_pos hindex, intercalate_cons, List.append_assoc, heq]
  · obtain ⟨s', rfl, hinner⟩ := readSeparator_eq_some hindex h
    refine ⟨s', hinner, fun t ts rest heq => ?_⟩
    rw [placed, if_neg hindex, heq]
    simp [led]

/-- What is read are groups that stand there. -/
theorem readGroups_eq {limit left : Nat} {s rest : List Char} {gs : List Nat} {b : Bool}
    (hleft : left ≤ limit) (h : readGroups limit left s = (gs, b, rest)) :
    ∃ texts : List (List Char), s = placed (limit - left) texts ++ rest ∧
      groups? texts = some gs ∧ gs.length ≤ left ∧
      (b = false → texts.mapM hextet? = some gs) := by
  have hnil : placed (limit - left) [] = [] := by
    unfold placed
    split <;> rfl
  induction left generalizing s gs b with
  | zero =>
      cases h
      exact ⟨[], by rw [hnil]; rfl, rfl, Nat.le_refl _, fun _ => rfl⟩
  | succ left ih =>
      rw [readGroups] at h
      split at h
      · rename_i a b' c d rest' heq
        cases h
        split at heq
        · rename_i hroom
          obtain ⟨s', hinner, hplaced⟩ := readSeparator_read heq
          obtain ⟨t, ht, hdotted, _⟩ := readIpv4Addr_eq_some hinner
          refine ⟨[t], hplaced t [] rest ht, ?_, ?_, nofun⟩
          · rw [groups?, if_pos (point_mem_of_dotted hdotted), hdotted]
            rfl
          · show 2 ≤ left + 1
            omega
        · cases heq
      · split at h
        · rename_i g rest' hnumber
          obtain ⟨s', hinner, hplaced⟩ := readSeparator_read hnumber
          obtain ⟨t, ht, hgroup, _⟩ := readNumber_eq_some hinner
          cases hread : readGroups limit left rest' with
          | mk gs' r =>
              obtain ⟨b', rest''⟩ := r
              rw [hread] at h
              cases h
              have hnil' : placed (limit - left) [] = [] := by
                unfold placed
                split <;> rfl
              obtain ⟨ts, hts, hgroups, hlength, hall⟩ := ih (by omega) hread hnil'
              have hled : placed (limit - left) ts = led ':' ts := by
                unfold placed
                rw [if_neg (by omega)]
              rw [hled] at hts
              refine ⟨t :: ts, hplaced t ts rest (by rw [ht, hts]), groups?_cons hgroup hgroups,
                Nat.succ_le_succ hlength, fun hb => ?_⟩
              exact mapM_cons_eq_some.mpr ⟨g, gs', hgroup, hall hb, rfl⟩
        · cases h
          exact ⟨[], by rw [hnil]; rfl, rfl, Nat.zero_le _, fun _ => rfl⟩

/-! ## Whole addresses -/

theorem placed_zero (texts : List (List Char)) : placed 0 texts = [':'].intercalate texts :=
  if_pos rfl

theorem readIpv6Addr_iff {s : List Char} {gs : List Nat} :
    readIpv6Addr s = some (gs, []) ↔ Groups s gs := by
  constructor
  · intro h
    cases hhead : readGroups 8 8 s with
    | mk hi r =>
        obtain ⟨b, rest⟩ := r
        obtain ⟨his, hs, hgroups, hlength, hall⟩ := readGroups_eq (Nat.le_refl 8) hhead
        rw [Nat.sub_self, placed_zero] at hs
        rw [readIpv6Addr, hhead] at h
        simp only at h
        split at h
        · rename_i height
          cases h
          rw [hs, List.append_nil]
          exact .full hgroups height
        · rename_i hshort
          split at h
          · cases h
          · rename_i hb
            obtain ⟨rest₁, hrest₁, h⟩ := Option.bind_eq_some_iff.mp h
            obtain ⟨rest₂, hrest₂, h⟩ := Option.bind_eq_some_iff.mp h
            cases htail : readGroups (8 - (hi.length + 1)) (8 - (hi.length + 1)) rest₂ with
            | mk lo r' =>
                obtain ⟨b', rest₃⟩ := r'
                obtain ⟨los, hs', hgroups', hlength', _⟩ := readGroups_eq (Nat.le_refl _) htail
                rw [Nat.sub_self, placed_zero] at hs'
                have hseven : hi.length + lo.length ≤ 7 := by
                  have hlo : lo.length ≤ 8 - (hi.length + 1) := hlength'
                  omega
                rw [htail] at h
                cases h
                rw [hs, readGivenChar_eq_some hrest₁, readGivenChar_eq_some hrest₂, hs',
                  List.append_nil]
                exact .short (hall (Bool.eq_false_iff.mpr hb)) hgroups' hseven
  · intro h
    cases h with
    | @full texts gs hgroups hlength =>
        have hread : ∃ b, readGroups 8 8 (placed (8 - 8) texts ++ []) = (gs, b, []) ∧
            (texts.mapM hextet? = some gs → b = false) :=
          readGroups_placed (Nat.le_refl 8) hgroups hlength.le (Or.inl rfl) (Or.inr rfl)
        obtain ⟨b, hread, _⟩ := hread
        rw [Nat.sub_self, placed_zero, List.append_nil] at hread
        rw [readIpv6Addr, hread]
        simp only [hlength, if_true]
        rfl
    | @short his los hi lo hhi hlo hlength =>
        let tail := ':' :: ':' :: [':'].intercalate los
        let limit := 8 - (hi.length + 1)
        have hhead : ∃ b, readGroups 8 8 (placed (8 - 8) his ++ tail) = (hi, b, tail) ∧
            (his.mapM hextet? = some hi → b = false) :=
          readGroups_placed (Nat.le_refl 8) (groups?_of_mapM hhi) (by omega) (Or.inr ⟨_, rfl⟩)
            (Or.inl hhi)
        have htail : ∃ b, readGroups limit limit (placed (limit - limit) los ++ []) = (lo, b, []) ∧
            (los.mapM hextet? = some lo → b = false) :=
          readGroups_placed (Nat.le_refl _) hlo (by omega) (Or.inl rfl) (Or.inr rfl)
        obtain ⟨b, hread, hb⟩ := hhead
        obtain ⟨b', hread', _⟩ := htail
        rw [Nat.sub_self, placed_zero] at hread
        rw [Nat.sub_self, placed_zero, List.append_nil] at hread'
        rw [readIpv6Addr, hread, hb hhi]
        simp only
        rw [if_neg (by omega)]
        simp only [Bool.false_eq_true, if_false, tail, readGivenChar, List.head?_cons, if_true,
          List.tail_cons, Option.bind_eq_bind, Option.bind_some]
        rw [hread']
        rfl

theorem readIpv4Addr_of_groups {s : List Char} {gs : List Nat} (h : Groups s gs) :
    readIpv4Addr s = none := by
  have hcolon : ∀ (t : List Char) (ts : List (List Char)) (rest : List Char) (g : Nat),
      hextet? t = some g → Stops rest →
        readIpv4Addr ([':'].intercalate (t :: ts) ++ rest) = none := by
    intro t ts rest g ht hrest
    rw [intercalate_cons, List.append_assoc]
    apply readIpv4Addr_of_no_point (not_mem_hextet (by decide) ht)
    intro c hc
    rw [head_led hrest c hc]
    decide
  cases h with
  | @full texts _ hgroups hlength =>
      cases texts with
      | nil =>
          cases hgroups
          cases hlength
      | cons t ts =>
          rcases groups?_cons_eq_some hgroups with ⟨g, _, ht, _, _⟩ | ⟨_, octets, hoctets, rfl⟩
          · have hnone := hcolon t ts [] g ht (Or.inl rfl)
            rwa [List.append_nil] at hnone
          · rw [length_words hoctets] at hlength
            cases hlength
  | @short his los hi lo hhi hlo hlength =>
      cases his with
      | nil =>
          apply readIpv4Addr_of_ends
          intro c hc
          cases hc
          decide
      | cons t ts =>
          obtain ⟨g, _, ht, _, _⟩ := mapM_cons_eq_some.mp hhi
          exact hcolon t ts _ g ht (Or.inr ⟨_, rfl⟩)

/-- The address that a text stands for. -/
inductive Stands : List Char → IpAddr → Prop
  | v4 {s : List Char} {octets : List Nat} (h : dotted? s = some octets) :
      Stands s (.v4 (ofGroups 32 8 octets))
  | v6 {s : List Char} {gs : List Nat} (h : Groups s gs) : Stands s (.v6 (ofGroups 128 16 gs))

theorem parse_iff {s : List Char} {ip : IpAddr} : parse s = some ip ↔ Stands s ip := by
  constructor
  · intro h
    unfold parse at h
    split at h
    · rename_i octets rest hread
      obtain ⟨text, rfl, hdotted, _⟩ := readIpv4Addr_eq_some hread
      split at h
      · rename_i hrest
        cases h
        rw [hrest, List.append_nil]
        exact .v4 hdotted
      · cases h
    · split at h
      · rename_i gs hread
        cases h
        exact .v6 (readIpv6Addr_iff.mp hread)
      · cases h
  · intro h
    cases h with
    | v4 hdotted =>
        have hread : readIpv4Addr (s ++ []) = _ := readIpv4Addr_append hdotted nofun
        rw [List.append_nil] at hread
        rw [parse, hread]
        rfl
    | v6 hgroups => rw [parse, readIpv4Addr_of_groups hgroups, readIpv6Addr_iff.mpr hgroups]

/-! ## The characters of an address -/

def IsAddressChar (c : Char) : Prop := IsDigit 16 c ∨ c = ':' ∨ c = '.'

theorem mem_intercalate {sep c : Char} {texts : List (List Char)}
    (h : c ∈ [sep].intercalate texts) : c = sep ∨ ∃ t ∈ texts, c ∈ t := by
  cases texts with
  | nil => cases h
  | cons t ts =>
      rw [intercalate_cons, List.mem_append] at h
      rcases h with h | h
      · exact Or.inr ⟨t, List.mem_cons_self, h⟩
      · obtain ⟨t', ht', hc⟩ := List.mem_flatMap.mp h
        rcases List.mem_cons.mp hc with hc | hc
        · exact Or.inl hc
        · exact Or.inr ⟨t', List.mem_cons_of_mem _ ht', hc⟩

theorem isAddressChar_of_dotted {s : List Char} {octets : List Nat} (h : dotted? s = some octets) :
    ∀ c ∈ s, IsAddressChar c := by
  obtain ⟨texts, _, htexts, rfl⟩ := dotted?_eq_some.mp h
  intro c hc
  rcases mem_intercalate hc with rfl | ⟨t, ht, hct⟩
  · exact Or.inr (Or.inr rfl)
  · obtain ⟨octet, hoctet⟩ := mem_of_mapM htexts t ht
    exact Or.inl (isDigit_mono (by decide) ((numeral?_eq_some hoctet).2.2.2 c hct))

theorem isAddressChar_of_groups? {texts : List (List Char)} {gs : List Nat}
    (h : groups? texts = some gs) : ∀ c ∈ [':'].intercalate texts, IsAddressChar c := by
  have hparts : ∀ t ∈ texts, ∀ c ∈ t, IsAddressChar c := by
    induction texts generalizing gs with
    | nil => exact nofun
    | cons t ts ih =>
        rcases groups?_cons_eq_some h with ⟨g, gs', ht, hts, _⟩ | ⟨rfl, octets, hoctets, _⟩
        · exact List.forall_mem_cons.mpr
            ⟨fun c hc => Or.inl (isDigit_of_hextet ht c hc), ih hts⟩
        · exact List.forall_mem_singleton.mpr (isAddressChar_of_dotted hoctets)
  intro c hc
  rcases mem_intercalate hc with rfl | ⟨t, ht, hct⟩
  · exact Or.inr (Or.inl rfl)
  · exact hparts t ht c hct

theorem Stands.isAddressChar {s : List Char} {ip : IpAddr} (h : Stands s ip) :
    ∀ c ∈ s, IsAddressChar c := by
  cases h with
  | v4 hdotted => exact isAddressChar_of_dotted hdotted
  | v6 hgroups =>
      cases hgroups with
      | full htexts hlength => exact isAddressChar_of_groups? htexts
      | short hhi hlo hlength =>
          intro c hc
          rcases List.mem_append.mp hc with hc | hc
          · exact isAddressChar_of_groups? (groups?_of_mapM hhi) c hc
          · rcases List.mem_cons.mp hc with rfl | hc
            · exact Or.inr (Or.inl rfl)
            · rcases List.mem_cons.mp hc with rfl | hc
              · exact Or.inr (Or.inl rfl)
              · exact isAddressChar_of_groups? hlo c hc

end DatumConnect.Lib.IpAddr
