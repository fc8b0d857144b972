import Mathlib.Data.List.Basic
import Mathlib.Data.Rat.Defs
import Mathlib.Algebra.Group.Nat.Defs
/-!
# JSON values

Values as `serde_json` holds them.  The fields of an object are kept in the order
of their keys, each key once, so that equality does not depend on the order in
which they were written.
-/

namespace DatumConnect.Lib.Json

/-- A number as it was parsed: an integer that fits, or a double by its value. -/
inductive Number where
  | posInt (n : UInt64)
  | negInt (n : Int64)
  | float (value : Rat)
  deriving DecidableEq, Repr

namespace Number

/-- The nearest double, the even one of two as near. -/
def nearestDouble (n : Nat) : Nat :=
  if n < 2 ^ 53 then n
  else
    let unit := 2 ^ (n.log2 - 52)
    let below := n / unit
    if 2 * (n % unit) < unit ∨ 2 * (n % unit) = unit ∧ below % 2 = 0 then below * unit
    else (below + 1) * unit

/-- `Number::as_f64`. -/
def asF64 : Number → Rat
  | .posInt n => nearestDouble n.toNat
  | .negInt n => n.toInt.sign * nearestDouble n.toInt.natAbs
  | .float value => value

end Number

inductive Value where
  | null
  | bool (b : Bool)
  | number (n : Number)
  | string (s : String)
  | array (items : List Value)
  | object (fields : List (String × Value))
  deriving Repr

instance : Inhabited Value := ⟨.null⟩

/-! ## Equality -/

mutual

def Value.beq : Value → Value → Bool
  | .null, .null => true
  | .bool a, .bool b => a = b
  | .number a, .number b => a = b
  | .string a, .string b => a = b
  | .array as, .array bs => beqList as bs
  | .object fs, .object gs => beqFields fs gs
  | _, _ => false

def beqList : List Value → List Value → Bool
  | [], [] => true
  | a :: as, b :: bs => a.beq b && beqList as bs
  | _, _ => false

def beqFields : List (String × Value) → List (String × Value) → Bool
  | [], [] => true
  | (k, a) :: fs, (l, b) :: gs => k = l && a.beq b && beqFields fs gs
  | _, _ => false

end

mutual

theorem Value.beq_iff (a b : Value) : a.beq b = true ↔ a = b := by
  cases a with
  | null => cases b <;> simp [Value.beq]
  | bool x => cases b <;> simp [Value.beq]
  | number x => cases b <;> simp [Value.beq]
  | string x => cases b <;> simp [Value.beq]
  | array as => cases b <;> simp [Value.beq, beqList_iff]
  | object fs => cases b <;> simp [Value.beq, beqFields_iff]

theorem beqList_iff (as bs : List Value) : beqList as bs = true ↔ as = bs := by
  cases as with
  | nil => cases bs <;> simp [beqList]
  | cons a as =>
      cases bs with
      | nil => simp [beqList]
      | cons b bs => simp [beqList, Value.beq_iff a b, beqList_iff as bs]

theorem beqFields_iff (fs gs : List (String × Value)) : beqFields fs gs = true ↔ fs = gs := by
  cases fs with
  | nil => cases gs <;> simp [beqFields]
  | cons f fs =>
      obtain ⟨k, a⟩ := f
      cases gs with
      | nil => simp [beqFields]
      | cons g gs =>
          obtain ⟨l, b⟩ := g
          simp [beqFields, Value.beq_iff a b, beqFields_iff fs gs]

end

instance : DecidableEq Value := fun a b => decidable_of_iff (a.beq b = true) (Value.beq_iff a b)

/-! ## The fields of an object -/

/-- `Map::insert`. -/
def insertKey (key : String) (value : Value) : List (String × Value) → List (String × Value)
  | [] => [(key, value)]
  | (k, v) :: rest =>
      if key = k then (key, value) :: rest
      else if key < k then (key, value) :: (k, v) :: rest
      else (k, v) :: insertKey key value rest

theorem lookup_insertKey (key : String) (value : Value) (fields : List (String × Value))
    (k : String) :
    (insertKey key value fields).lookup k = if k = key then some value else fields.lookup k := by
  induction fields with
  | nil =>
      rw [insertKey, List.lookup_cons]
      by_cases h : k = key
      · simp [h]
      · simp [h, beq_eq_false_iff_ne.mpr h]
  | cons field rest ih =>
      obtain ⟨l, v⟩ := field
      rw [insertKey]
      by_cases hk : k = key
      · subst hk
        by_cases hl : k = l
        · simp [hl]
        · by_cases hlt : k < l
          · simp [hl, hlt]
          · have hne : (k == l) = false := beq_eq_false_iff_ne.mpr hl
            rw [if_neg hl, if_neg hlt, List.lookup_cons, hne, if_pos rfl]
            rw [if_pos rfl] at ih
            exact ih
      · have hne : (k == key) = false := beq_eq_false_iff_ne.mpr hk
        by_cases hl : key = l
        · subst hl
          rw [if_pos rfl, List.lookup_cons, List.lookup_cons, hne, if_neg hk]
        · by_cases hlt : key < l
          · rw [if_neg hl, if_pos hlt, List.lookup_cons, hne, if_neg hk]
          · rw [if_neg hl, if_neg hlt, List.lookup_cons, List.lookup_cons, if_neg hk]
            rw [if_neg hk] at ih
            rw [ih]

/-! ## Reading -/

namespace Value

/-- `Value::get`, by a key. -/
def get (v : Value) (key : String) : Option Value :=
  match v with
  | .object fields => fields.lookup key
  | _ => none

/-- `value[key]`. -/
def index (v : Value) (key : String) : Value := (v.get key).getD .null

/-- `value[i]`. -/
def item (v : Value) (i : Nat) : Value :=
  match v with
  | .array items => (items[i]?).getD .null
  | _ => .null

/-- The comparison with a text. -/
def isStr (v : Value) (s : String) : Bool :=
  match v with
  | .string t => t = s
  | _ => false

/-- `Value::pointer`, along keys that are not numbers. -/
def pointer (v : Value) (path : List String) : Option Value := path.foldlM get v

def isObject : Value → Bool
  | .object _ => true
  | _ => false

def isNull : Value → Bool
  | .null => true
  | _ => false

def asBool : Value → Option Bool
  | .bool b => some b
  | _ => none

def asStr : Value → Option String
  | .string s => some s
  | _ => none

def asU64 : Value → Option UInt64
  | .number (.posInt n) => some n
  | _ => none

def asArray : Value → Option (List Value)
  | .array items => some items
  | _ => none

theorem isStr_iff {v : Value} {s : String} : v.isStr s = true ↔ v = .string s := by
  cases v <;> simp [isStr]

theorem index_eq_string {v : Value} {key s : String} :
    v.index key = .string s ↔ v.get key = some (.string s) := by
  unfold index
  cases v.get key <;> simp

/-- An array of one, read as the empty one where it is missing. -/
theorem asArray_one_iff {v : Value} {key : String} :
    ((v.index key).asArray.getD []).length = 1 ↔ ∃ item, v.get key = some (.array [item]) := by
  unfold index
  constructor
  · intro h
    cases hv : v.get key with
    | none =>
        rw [hv] at h
        cases h
    | some w =>
        rw [hv] at h
        cases w with
        | array items =>
            obtain ⟨item, rfl⟩ := List.length_eq_one_iff.mp h
            exact ⟨item, rfl⟩
        | _ => cases h
  · rintro ⟨item, h⟩
    rw [h]
    rfl

end Value

/-! ## Insertions and removals -/

/-- `Map::remove`. -/
def removeKey (key : String) (fields : List (String × Value)) : List (String × Value) :=
  fields.filter fun field => field.1 ≠ key

theorem mem_insertKey {key : String} {value : Value} {fields : List (String × Value)}
    {field : String × Value} (h : field ∈ insertKey key value fields) :
    field = (key, value) ∨ field ∈ fields := by
  induction fields with
  | nil => exact .inl (List.mem_singleton.mp h)
  | cons first rest ih =>
      rw [insertKey] at h
      split at h
      · exact (List.mem_cons.mp h).imp_right (List.mem_cons_of_mem _)
      · split at h
        · exact List.mem_cons.mp h
        · rcases List.mem_cons.mp h with rfl | hrest
          · exact .inr List.mem_cons_self
          · exact (ih hrest).imp_right (List.mem_cons_of_mem _)

theorem filter_insertKey {p : String × Value → Bool} {key : String} {value : Value}
    (hp : ∀ v, p (key, v) = false) (fields : List (String × Value)) :
    (insertKey key value fields).filter p = fields.filter p := by
  induction fields with
  | nil => simp [insertKey, hp]
  | cons field rest ih =>
      obtain ⟨k, v⟩ := field
      unfold insertKey
      split
      · rename_i hk
        subst hk
        simp [hp]
      · split
        · simp [hp]
        · simp [List.filter_cons, ih]

/-- The later of two insertions of a key is the one that counts. -/
theorem insertKey_insertKey (key : String) (value before : Value)
    (fields : List (String × Value)) :
    insertKey key value (insertKey key before fields) = insertKey key value fields := by
  induction fields with
  | nil => simp [insertKey]
  | cons field rest ih =>
      obtain ⟨k, v⟩ := field
      by_cases hk : key = k
      · simp [insertKey, hk]
      · by_cases hlt : key < k
        · simp [insertKey, hk, hlt]
        · simp [insertKey, hk, hlt, ih]

/-- Two keys are inserted in either order. -/
theorem insertKey_comm {key other : String} (horder : key < other) (value value' : Value)
    (fields : List (String × Value)) :
    insertKey other value' (insertKey key value fields) =
      insertKey key value (insertKey other value' fields) := by
  have hne : other ≠ key := by
    rintro rfl
    exact String.lt_irrefl _ horder
  have hnot : ¬other < key := String.lt_asymm horder
  induction fields with
  | nil => simp [insertKey, hne, hnot, hne.symm, horder]
  | cons field rest ih =>
      obtain ⟨k, v⟩ := field
      by_cases hk : key = k
      · subst hk
        simp [insertKey, hne, hnot]
      · by_cases hlt : key < k
        · by_cases hother : other = k
          · subst hother
            simp [insertKey, hk, hlt, hne, hnot]
          · by_cases hother' : other < k
            · simp [insertKey, hk, hlt, hne, hnot, hother, hother', horder, hne.symm]
            · simp [insertKey, hk, hlt, hne, hnot, hother, hother']
        · have hother : other ≠ k := by
            rintro rfl
            exact hlt horder
          have hother' : ¬other < k := fun h => hlt (String.lt_trans horder h)
          simp [insertKey, hk, hlt, hother, hother', ih]

theorem lookup_removeKey (key : String) (fields : List (String × Value)) (k : String) :
    (removeKey key fields).lookup k = if k = key then none else fields.lookup k := by
  induction fields with
  | nil => simp [removeKey]
  | cons field rest ih =>
      obtain ⟨l, v⟩ := field
      rw [removeKey] at ih ⊢
      rw [List.filter_cons, List.lookup_cons]
      by_cases hl : l = key
      · subst hl
        rw [if_neg (by simp), ih]
        by_cases hk : k = l
        · simp [hk]
        · rw [if_neg hk, if_neg hk, beq_eq_false_iff_ne.mpr hk]
      · rw [if_pos (by simpa using hl), List.lookup_cons, ih]
        by_cases hk : k = l
        · subst hk
          simp [hl]
        · simp only [beq_eq_false_iff_ne.mpr hk]

end DatumConnect.Lib.Json
