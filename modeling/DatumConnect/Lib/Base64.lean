import Mathlib.Data.List.Basic
import Mathlib.Tactic.IntervalCases
/-!
# Base64, URL-safe alphabet, no padding

Three bytes are four symbols of six bits; a rest of one or two bytes is two or
three symbols whose unused bits are zero.
-/

namespace DatumConnect.Lib.Base64

def symbol (n : Nat) : Char :=
  if n < 26 then Char.ofNat (65 + n)
  else if n < 52 then Char.ofNat (71 + n)
  else if n < 62 then Char.ofNat (n - 4)
  else if n = 62 then '-'
  else '_'

def value (c : Char) : Option Nat :=
  let n := c.toNat
  if 65 ≤ n ∧ n ≤ 90 then some (n - 65)
  else if 97 ≤ n ∧ n ≤ 122 then some (n - 71)
  else if 48 ≤ n ∧ n ≤ 57 then some (n + 4)
  else if c = '-' then some 62
  else if c = '_' then some 63
  else none

def toSextets : List UInt8 → List Nat
  | [] => []
  | [a] => [a.toNat / 4, a.toNat % 4 * 16]
  | [a, b] => [a.toNat / 4, a.toNat % 4 * 16 + b.toNat / 16, b.toNat % 16 * 4]
  | a :: b :: c :: rest =>
      a.toNat / 4 :: (a.toNat % 4 * 16 + b.toNat / 16) :: (b.toNat % 16 * 4 + c.toNat / 64) ::
        c.toNat % 64 :: toSextets rest

/-- Bits that belong to no byte must be zero. -/
def ofSextets : List Nat → Option (List UInt8)
  | [] => some []
  | [_] => none
  | [p, q] => if q % 16 = 0 then some [UInt8.ofNat (p * 4 + q / 16)] else none
  | [p, q, r] =>
      if r % 4 = 0 then
        some [UInt8.ofNat (p * 4 + q / 16), UInt8.ofNat (q % 16 * 16 + r / 4)]
      else none
  | p :: q :: r :: s :: rest =>
      (ofSextets rest).map fun bytes =>
        UInt8.ofNat (p * 4 + q / 16) :: UInt8.ofNat (q % 16 * 16 + r / 4) ::
          UInt8.ofNat (r % 4 * 64 + s) :: bytes

def encode (bytes : List UInt8) : String := String.ofList ((toSextets bytes).map symbol)

def decode (s : String) : Option (List UInt8) := (s.toList.mapM value).bind ofSextets

/-- The standard alphabet, padded to groups of four. -/
def decodeStandard (s : List Char) : Option (List UInt8) :=
  let symbols := if s.reverse.take 2 = ['=', '='] then s.dropLast.dropLast
    else if s.reverse.take 1 = ['='] then s.dropLast else s
  let value := fun c => if c = '+' then some 62 else if c = '/' then some 63
    else if c = '-' ∨ c = '_' then none else value c
  if s.length % 4 = 0 then (symbols.mapM value).bind ofSextets else none

theorem value_symbol {n : Nat} (h : n < 64) : value (symbol n) = some n := by
  interval_cases n <;> rfl

theorem toSextets_lt (bytes : List UInt8) : ∀ n ∈ toSextets bytes, n < 64 := by
  induction bytes using toSextets.induct with
  | case1 => simp [toSextets]
  | case2 a =>
      have := a.toNat_lt
      simp only [toSextets, List.mem_cons, List.not_mem_nil, or_false, forall_eq_or_imp, forall_eq]
      omega
  | case3 a b =>
      have := a.toNat_lt
      have := b.toNat_lt
      simp only [toSextets, List.mem_cons, List.not_mem_nil, or_false, forall_eq_or_imp, forall_eq]
      omega
  | case4 a b c rest ih =>
      have := a.toNat_lt
      have := b.toNat_lt
      have := c.toNat_lt
      simp only [toSextets, List.mem_cons, forall_eq_or_imp]
      exact ⟨by omega, by omega, by omega, by omega, ih⟩

theorem ofNat_eq {a : UInt8} {n : Nat} (h : n = a.toNat) : UInt8.ofNat n = a := by
  rw [h, UInt8.ofNat_toNat]

theorem ofSextets_toSextets (bytes : List UInt8) : ofSextets (toSextets bytes) = some bytes := by
  induction bytes using toSextets.induct with
  | case1 => rfl
  | case2 a =>
      have ha : UInt8.ofNat (a.toNat / 4 * 4 + a.toNat % 4 * 16 / 16) = a := ofNat_eq (by omega)
      simp only [toSextets, ofSextets, ha, Nat.mul_mod_left, if_true]
  | case3 a b =>
      have := b.toNat_lt
      have ha : UInt8.ofNat (a.toNat / 4 * 4 + (a.toNat % 4 * 16 + b.toNat / 16) / 16) = a :=
        ofNat_eq (by omega)
      have hb : UInt8.ofNat
          ((a.toNat % 4 * 16 + b.toNat / 16) % 16 * 16 + b.toNat % 16 * 4 / 4) = b :=
        ofNat_eq (by omega)
      simp only [toSextets, ofSextets, ha, hb, Nat.mul_mod_left, if_true]
  | case4 a b c rest ih =>
      have := b.toNat_lt
      have := c.toNat_lt
      have ha : UInt8.ofNat (a.toNat / 4 * 4 + (a.toNat % 4 * 16 + b.toNat / 16) / 16) = a :=
        ofNat_eq (by omega)
      have hb : UInt8.ofNat ((a.toNat % 4 * 16 + b.toNat / 16) % 16 * 16 +
          (b.toNat % 16 * 4 + c.toNat / 64) / 4) = b :=
        ofNat_eq (by omega)
      have hc : UInt8.ofNat ((b.toNat % 16 * 4 + c.toNat / 64) % 4 * 64 + c.toNat % 64) = c :=
        ofNat_eq (by omega)
      simp only [toSextets, ofSextets, ih, Option.map_some, ha, hb, hc]

theorem mapM_value_map_symbol {ns : List Nat} (h : ∀ n ∈ ns, n < 64) :
    (ns.map symbol).mapM value = some ns := by
  induction ns with
  | nil => rfl
  | cons n ns ih =>
      have hrest := ih fun m hm => h m (List.mem_cons_of_mem n hm)
      simp [List.mapM_cons, value_symbol (h n List.mem_cons_self), hrest]

theorem decode_encode (bytes : List UInt8) : decode (encode bytes) = some bytes := by
  rw [decode, encode, String.toList_ofList, mapM_value_map_symbol (toSextets_lt bytes)]
  exact ofSextets_toSextets bytes

/-- Encoded text is letters, digits, `-` and `_`. -/
theorem isSome_value_of_mem_encode {bytes : List UInt8} {c : Char}
    (h : c ∈ (encode bytes).toList) : (value c).isSome = true := by
  rw [encode, String.toList_ofList, List.mem_map] at h
  obtain ⟨n, hn, rfl⟩ := h
  rw [value_symbol (toSextets_lt bytes n hn)]
  rfl

theorem length_toSextets (bytes : List UInt8) :
    (toSextets bytes).length = (bytes.length * 4 + 2) / 3 := by
  induction bytes using toSextets.induct with
  | case1 => rfl
  | case2 a => simp [toSextets]
  | case3 a b => simp [toSextets]
  | case4 a b c rest ih =>
      simp only [toSextets, List.length_cons, ih]
      omega

theorem length_encode (bytes : List UInt8) :
    (encode bytes).toList.length = (bytes.length * 4 + 2) / 3 := by
  rw [encode, String.toList_ofList, List.length_map, length_toSextets]

end DatumConnect.Lib.Base64
