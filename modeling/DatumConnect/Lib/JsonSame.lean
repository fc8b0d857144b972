import Mathlib.Data.List.Perm.Subperm
import Mathlib.Data.List.Nodup
import Mathlib.Tactic.NormNum
import DatumConnect.Lib.Json
/-!
# Sameness of JSON values

Two values are the same when they have the same shape, whatever the order of the keys, and their
numbers are related at every place.  What a relation of numbers is, sameness is, too.
-/

namespace DatumConnect.Lib.Json

/-! ## Numbers -/

namespace Number

/-- What the number is, exactly. -/
def value : Number → Rat
  | .posInt n => n.toNat
  | .negInt n => n.toInt
  | .float value => value

/-- Few binary digits, and zeros before or after the point. -/
def IsDouble (value : Rat) : Prop :=
  ∃ (m : Int) (k : Nat), m.natAbs < 2 ^ 53 ∧ (value = m * 2 ^ k ∨ value * 2 ^ k = m)

/-- A number that was read as a double is one. -/
def WellFormed : Number → Prop
  | .posInt _ => True
  | .negInt _ => True
  | .float value => IsDouble value

/-- The nearest double of an integer. -/
def nearest (z : Int) : Rat := z.sign * nearestDouble z.natAbs

theorem nearestDouble_of_lt {n : Nat} (h : n < 2 ^ 53) : nearestDouble n = n := if_pos h

theorem nearestDouble_shifted {m : Nat} (hm : m < 2 ^ 53) (k : Nat) :
    nearestDouble (m * 2 ^ k) = m * 2 ^ k := by
  by_cases hsmall : m * 2 ^ k < 2 ^ 53
  · exact nearestDouble_of_lt hsmall
  have hpos : m * 2 ^ k ≠ 0 := by
    intro hzero
    rw [hzero] at hsmall
    exact hsmall (Nat.two_pow_pos 53)
  have hlog : (m * 2 ^ k).log2 < 53 + k := by
    rw [Nat.log2_lt hpos, Nat.pow_add]
    exact Nat.mul_lt_mul_of_pos_right hm (Nat.two_pow_pos k)
  have hdvd : 2 ^ ((m * 2 ^ k).log2 - 52) ∣ m * 2 ^ k := by
    apply Nat.dvd_mul_left_of_dvd
    apply Nat.pow_dvd_pow
    omega
  have hrest : m * 2 ^ k % 2 ^ ((m * 2 ^ k).log2 - 52) = 0 := Nat.mod_eq_zero_of_dvd hdvd
  unfold nearestDouble
  rw [if_neg hsmall]
  simp only [hrest]
  rw [if_pos (Or.inl (Nat.two_pow_pos _)), Nat.div_mul_cancel hdvd]

theorem nearest_of_natAbs {z : Int} (h : nearestDouble z.natAbs = z.natAbs) : nearest z = z := by
  unfold nearest
  rw [h]
  rw [← Int.cast_natCast, ← Int.cast_mul, Int.sign_mul_natAbs]

theorem nearest_natCast (n : Nat) : nearest (n : Int) = nearestDouble n := by
  unfold nearest
  rcases Nat.eq_zero_or_pos n with rfl | hpos
  · simp [nearestDouble]
  · rw [Int.sign_natCast_of_ne_zero (Nat.ne_of_gt hpos), Int.natAbs_natCast, Int.cast_one, one_mul]

/-- A double that is an integer is its own nearest double. -/
theorem nearest_of_isDouble {z : Int} (h : IsDouble z) : nearest z = z := by
  obtain ⟨m, k, hm, hz | hz⟩ := h
  · have hz' : z = m * 2 ^ k := by exact_mod_cast hz
    apply nearest_of_natAbs
    rw [hz', Int.natAbs_mul, Int.natAbs_pow]
    exact nearestDouble_shifted hm k
  · have hz' : z * 2 ^ k = m := by exact_mod_cast hz
    apply nearest_of_natAbs
    apply nearestDouble_of_lt
    have hle : z.natAbs ≤ m.natAbs := by
      rw [← hz', Int.natAbs_mul, Int.natAbs_pow]
      exact Nat.le_mul_of_pos_right _ (Nat.two_pow_pos k)
    omega

/-- A number that is an integer, however it was read, has the nearest double of that integer. -/
theorem asF64_of_value {x : Number} (hx : x.WellFormed) {z : Int} (h : x.value = z) :
    x.asF64 = nearest z := by
  cases x with
  | posInt n =>
    have hvalue : (n.toNat : Rat) = z := h
    have hz : (n.toNat : Int) = z := by exact_mod_cast hvalue
    rw [← hz, nearest_natCast]
    rfl
  | negInt n =>
    have hvalue : (n.toInt : Rat) = z := h
    have hz : n.toInt = z := by exact_mod_cast hvalue
    rw [← hz]
    rfl
  | float value =>
    have hz : value = z := h
    have hx : IsDouble value := hx
    rw [hz] at hx
    rw [nearest_of_isDouble hx]
    exact hz

theorem asF64_of_value_eq {x y : Number} (hx : x.WellFormed) (hy : y.WellFormed)
    (h : x.value = y.value) : x.asF64 = y.asF64 := by
  cases hint : x with
  | posInt n =>
    have hvalue : x.value = (n.toNat : Int) := by
      rw [hint]
      rfl
    rw [← hint, asF64_of_value hx hvalue, asF64_of_value hy (h ▸ hvalue)]
  | negInt n =>
    have hvalue : x.value = n.toInt := by
      rw [hint]
      rfl
    rw [← hint, asF64_of_value hx hvalue, asF64_of_value hy (h ▸ hvalue)]
  | float v =>
    cases hint' : y with
    | posInt n =>
      have hvalue : y.value = (n.toNat : Int) := by
        rw [hint']
        rfl
      rw [← hint, ← hint', asF64_of_value hx (h ▸ hvalue), asF64_of_value hy hvalue]
    | negInt n =>
      have hvalue : y.value = n.toInt := by
        rw [hint']
        rfl
      rw [← hint, ← hint', asF64_of_value hx (h ▸ hvalue), asF64_of_value hy hvalue]
    | float w =>
      rw [hint, hint'] at h
      exact h

/-- The number is the double that stands for it. -/
def Exact (x : Number) : Prop := x.asF64 = x.value

theorem exact_float (v : Rat) : (float v).Exact := rfl

theorem nearestDouble_of_le {n : Nat} (h : n ≤ 2 ^ 53) : nearestDouble n = n := by
  rcases Nat.lt_or_eq_of_le h with hlt | rfl
  · exact nearestDouble_of_lt hlt
  · decide

theorem exact_posInt {n : UInt64} (h : n.toNat ≤ 2 ^ 53) : (posInt n).Exact := by
  show (nearestDouble n.toNat : Rat) = n.toNat
  rw [nearestDouble_of_le h]

theorem exact_negInt {n : Int64} (h : n.toInt.natAbs ≤ 2 ^ 53) : (negInt n).Exact :=
  nearest_of_natAbs (nearestDouble_of_le h)

end Number

/-! ## Values -/

mutual

/-- A number that was read as a double is one, and an object has each key once. -/
def Value.WellFormed : Value → Prop
  | .null => True
  | .bool _ => True
  | .string _ => True
  | .number x => x.WellFormed
  | .array items => wellFormedItems items
  | .object fields => (fields.map Prod.fst).Nodup ∧ wellFormedFields fields

def wellFormedItems : List Value → Prop
  | [] => True
  | v :: items => v.WellFormed ∧ wellFormedItems items

def wellFormedFields : List (String × Value) → Prop
  | [] => True
  | (_, v) :: fields => v.WellFormed ∧ wellFormedFields fields

end

/-- The same value, with `r` between the numbers at each place. -/
inductive Same (r : Number → Number → Prop) : Value → Value → Prop where
  | null : Same r .null .null
  | bool (b : Bool) : Same r (.bool b) (.bool b)
  | string (s : String) : Same r (.string s) (.string s)
  | number {x y : Number} (h : r x y) : Same r (.number x) (.number y)
  | array {xs ys : List Value} (hlength : xs.length = ys.length)
      (hitems : ∀ (i : Nat) (x y : Value), xs[i]? = some x → ys[i]? = some y → Same r x y) :
      Same r (.array xs) (.array ys)
  | object {fs gs : List (String × Value)}
      (hkeys : ∀ k, (fs.lookup k).isSome = (gs.lookup k).isSome)
      (hfields : ∀ k v w, fs.lookup k = some v → gs.lookup k = some w → Same r v w) :
      Same r (.object fs) (.object gs)

theorem wellFormedItems_iff {items : List Value} :
    wellFormedItems items ↔ ∀ v ∈ items, v.WellFormed := by
  induction items with
  | nil => exact ⟨fun _ v hv => absurd hv List.not_mem_nil, fun _ => trivial⟩
  | cons v items ih => rw [wellFormedItems, ih, List.forall_mem_cons]

theorem wellFormedFields_iff {fields : List (String × Value)} :
    wellFormedFields fields ↔ ∀ f ∈ fields, f.2.WellFormed := by
  induction fields with
  | nil => exact ⟨fun _ v hv => absurd hv List.not_mem_nil, fun _ => trivial⟩
  | cons f fields ih =>
    obtain ⟨k, v⟩ := f
    rw [wellFormedFields, ih, List.forall_mem_cons]

theorem mem_of_lookup {fields : List (String × Value)} {k : String} {v : Value}
    (h : fields.lookup k = some v) : (k, v) ∈ fields := by
  induction fields with
  | nil => cases h
  | cons f fields ih =>
    obtain ⟨l, w⟩ := f
    rw [List.lookup_cons] at h
    split at h
    · rename_i heq
      rw [eq_of_beq heq, Option.some.inj h]
      exact List.mem_cons_self
    · exact List.mem_cons_of_mem _ (ih h)

theorem lookup_of_mem {fields : List (String × Value)} (hnodup : (fields.map Prod.fst).Nodup)
    {k : String} {v : Value} (h : (k, v) ∈ fields) : fields.lookup k = some v := by
  induction fields with
  | nil => cases h
  | cons f fields ih =>
    obtain ⟨l, w⟩ := f
    rw [List.map_cons, List.nodup_cons] at hnodup
    rw [List.lookup_cons]
    rcases List.mem_cons.mp h with heq | hmem
    · cases heq
      rw [beq_self_eq_true]
    · have hne : (k == l) = false := by
        rw [beq_eq_false_iff_ne]
        rintro rfl
        exact hnodup.1 (List.mem_map.mpr ⟨(k, v), hmem, rfl⟩)
      rw [hne]
      exact ih hnodup.2 hmem

theorem lookup_isSome_iff {fields : List (String × Value)} {k : String} :
    (fields.lookup k).isSome = true ↔ k ∈ fields.map Prod.fst := by
  induction fields with
  | nil => simp
  | cons f fields ih =>
    obtain ⟨l, w⟩ := f
    rw [List.lookup_cons, List.map_cons, List.mem_cons]
    by_cases h : k = l
    · subst h
      simp
    · rw [beq_eq_false_iff_ne.mpr h]
      exact ih.trans (or_iff_right h).symm

namespace Same

variable {r : Number → Number → Prop}

mutual

theorem refl (hr : ∀ x, r x x) : ∀ v : Value, Same r v v
  | .null => .null
  | .bool b => .bool b
  | .string s => .string s
  | .number x => .number (hr x)
  | .array items => .array rfl fun i x y hx hy => by
      rw [hx] at hy
      cases hy
      exact reflItems hr items x (List.mem_of_getElem? hx)
  | .object fields => .object (fun _ => rfl) fun k v w hv hw => by
      rw [hv] at hw
      cases hw
      exact reflFields hr fields (k, v) (mem_of_lookup hv)

theorem reflItems (hr : ∀ x, r x x) : ∀ (items : List Value), ∀ v ∈ items, Same r v v
  | [], _, h => absurd h List.not_mem_nil
  | first :: items, v, h =>
      (List.mem_cons.mp h).elim (fun heq => heq ▸ refl hr first) (reflItems hr items v)

theorem reflFields (hr : ∀ x, r x x) : ∀ (fields : List (String × Value)), ∀ f ∈ fields, Same r f.2 f.2
  | [], _, h => absurd h List.not_mem_nil
  | (_, first) :: fields, f, h =>
      (List.mem_cons.mp h).elim (fun heq => heq ▸ refl hr first) (reflFields hr fields f)

end

theorem symm (hr : ∀ x y, r x y → r y x) {a b : Value} (h : Same r a b) : Same r b a := by
  induction h with
  | null => exact .null
  | bool b => exact .bool b
  | string s => exact .string s
  | number h => exact .number (hr _ _ h)
  | array hlength _ ih => exact .array hlength.symm fun i x y hx hy => ih i y x hy hx
  | object hkeys _ ih => exact .object (fun k => (hkeys k).symm) fun k v w hv hw => ih k w v hw hv

theorem trans (hr : ∀ x y z, r x y → r y z → r x z) {a b c : Value} (h : Same r a b)
    (h' : Same r b c) : Same r a c := by
  induction h generalizing c with
  | null => exact h'
  | bool b => exact h'
  | string s => exact h'
  | number h =>
    cases h' with
    | number h' => exact .number (hr _ _ _ h h')
  | array hlength _ ih =>
    cases h' with
    | array hlength' hitems' =>
      refine .array (hlength.trans hlength') fun i x z hx hz => ?_
      obtain ⟨hi, -⟩ := List.getElem?_eq_some_iff.mp hx
      have hy := List.getElem?_eq_getElem (hlength ▸ hi)
      exact ih i x _ hx hy (hitems' i _ z hy hz)
  | object hkeys _ ih =>
    cases h' with
    | object hkeys' hfields' =>
      refine .object (fun k => (hkeys k).trans (hkeys' k)) fun k v w hv hw => ?_
      obtain ⟨u, hu⟩ := Option.isSome_iff_exists.mp ((hkeys k).symm.trans (by rw [hv]; rfl))
      exact ih k v u hv hu (hfields' k u w hu hw)

/-- A weaker relation of the numbers that there are. -/
theorem mono {r' : Number → Number → Prop} {a b : Value} (ha : a.WellFormed) (hb : b.WellFormed)
    (hr : ∀ x y, x.WellFormed → y.WellFormed → r x y → r' x y) (h : Same r a b) : Same r' a b := by
  induction h with
  | null => exact .null
  | bool b => exact .bool b
  | string s => exact .string s
  | number h => exact .number (hr _ _ ha hb h)
  | array hlength _ ih =>
    refine .array hlength fun i x y hx hy => ih i x y hx hy ?_ ?_
    · exact wellFormedItems_iff.mp ha x (List.mem_of_getElem? hx)
    · exact wellFormedItems_iff.mp hb y (List.mem_of_getElem? hy)
  | object hkeys _ ih =>
    refine .object hkeys fun k v w hv hw => ih k v w hv hw ?_ ?_
    · exact wellFormedFields_iff.mp ha.2 (k, v) (mem_of_lookup hv)
    · exact wellFormedFields_iff.mp hb.2 (k, w) (mem_of_lookup hw)

end Same

end DatumConnect.Lib.Json
