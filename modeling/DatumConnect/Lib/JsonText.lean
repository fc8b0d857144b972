import DatumConnect.Lib.Json
import DatumConnect.Lib.Text
import Mathlib.Tactic.IntervalCases
/-!
# JSON texts

A reader of JSON texts, and what it reads of strings, numbers and objects that have been written
compactly.
-/

namespace DatumConnect.Lib.Json

/-! ## Reading -/

def isSpace (c : Char) : Bool := c = ' ' || c = '\n' || c = '\r' || c = '\t'

def skipSpace (s : List Char) : List Char := s.dropWhile isSpace

def hexDigit (c : Char) : Option Nat :=
  if c.isDigit then some (c.toNat - 48)
  else if 97 ≤ c.toNat ∧ c.toNat ≤ 102 then some (c.toNat - 87)
  else if 65 ≤ c.toNat ∧ c.toNat ≤ 70 then some (c.toNat - 55)
  else none

/-- The four digits after `\u`. -/
def readUnit : List Char → Option (Nat × List Char)
  | a :: b :: c :: d :: rest => do
      let a ← hexDigit a
      let b ← hexDigit b
      let c ← hexDigit c
      let d ← hexDigit d
      some (4096 * a + 256 * b + 16 * c + d, rest)
  | _ => none

/-- The second of two surrogates, and the character of both. -/
def readLow (high : Nat) : List Char → Option (Char × List Char)
  | '\\' :: 'u' :: rest => do
      let (low, rest) ← readUnit rest
      if 0xdc00 ≤ low ∧ low < 0xe000 then
        some (Char.ofNat (0x10000 + 0x400 * (high - 0xd800) + (low - 0xdc00)), rest)
      else none
  | _ => none

/-- The short escapes, by what stands after the backslash. -/
def shortEscapes : List (Char × Char) :=
  [('"', '"'), ('\\', '\\'), ('/', '/'), ('b', '\x08'), ('f', '\x0c'), ('n', '\n'), ('r', '\r'),
    ('t', '\t')]

/-- What stands after a backslash. -/
def readEscape : List Char → Option (Char × List Char)
  | [] => none
  | c :: rest =>
      if c = 'u' then do
        let (unit, rest) ← readUnit rest
        if 0xd800 ≤ unit ∧ unit < 0xdc00 then readLow unit rest
        else if 0xdc00 ≤ unit ∧ unit < 0xe000 then none
        else some (Char.ofNat unit, rest)
      else (shortEscapes.lookup c).map fun c => (c, rest)

/-- The rest of a string, with its closing quote. -/
def readString : (fuel : Nat) → List Char → Option (List Char × List Char)
  | 0, _ => none
  | _ + 1, [] => none
  | fuel + 1, c :: rest =>
      if c = '"' then some ([], rest)
      else if c = '\\' then do
        let (c, rest) ← readEscape rest
        (readString fuel rest).map fun (s, rest) => (c :: s, rest)
      else if c.toNat < 0x20 then none
      else (readString fuel rest).map fun (s, rest) => (c :: s, rest)

def natOf (digits : List Char) : Nat := Nat.ofDigitChars 10 digits 0

/-- What stands after the point, and there must be something. -/
def readFraction : List Char → Option (List Char × List Char)
  | '.' :: rest =>
      let (digits, rest) := rest.span Char.isDigit
      if digits = [] then none else some (digits, rest)
  | rest => some ([], rest)

def readExponent : List Char → Option (Option Int × List Char)
  | [] => some (none, [])
  | c :: rest =>
      if c = 'e' ∨ c = 'E' then
        let (sign, rest) : Int × List Char :=
          match rest with
          | '-' :: rest => (-1, rest)
          | '+' :: rest => (1, rest)
          | rest => (1, rest)
        let (digits, rest) := rest.span Char.isDigit
        if digits = [] then none else some (some (sign * natOf digits), rest)
      else some (none, c :: rest)

/-- An integer that fits, or else the number it is. -/
def Number.ofParts (negative : Bool) (whole fraction : List Char) (exponent : Option Int) :
    Number :=
  let n := natOf (whole ++ fraction)
  if fraction = [] ∧ exponent = none ∧ !negative ∧ n < 2 ^ 64 then .posInt (UInt64.ofNat n)
  else if fraction = [] ∧ exponent = none ∧ negative ∧ 0 < n ∧ n ≤ 2 ^ 63 then
    .negInt (Int64.ofInt (-n))
  else
    let shift := exponent.getD 0 - fraction.length
    let sign : Int := if negative then -1 else 1
    .float (mkRat (sign * n * 10 ^ shift.toNat) (10 ^ (-shift).toNat))

def readSign (s : List Char) : Bool × List Char :=
  if s.head? = some '-' then (true, s.tail) else (false, s)

def readNumber (s : List Char) : Option (Number × List Char) := do
  let (negative, s) := readSign s
  let (whole, rest) := s.span Char.isDigit
  -- no digit stands behind a leading zero
  if whole = [] ∨ whole.head? = some '0' ∧ whole ≠ ['0'] then none
  else do
    let (fraction, rest) ← readFraction rest
    let (exponent, rest) ← readExponent rest
    some (.ofParts negative whole fraction exponent, rest)

/-- The literal that stands here. -/
def readLiteral (s : List Char) : Option (Value × List Char) :=
  let literals : List (String × Value) :=
    [("null", .null), ("true", .bool true), ("false", .bool false)]
  (literals.find? fun (text, _) => text.toList.isPrefixOf s).map fun (text, value) =>
    (value, s.drop text.toList.length)

def objectOf (members : List (String × Value)) : Value :=
  .object (members.foldl (fun fields (key, value) => insertKey key value fields) [])

/-- The key of a member, with its colon. -/
def readKey : List Char → Option (String × List Char)
  | [] => none
  | c :: rest =>
      if c = '"' then do
        let (key, rest) ← readString (rest.length + 1) rest
        match skipSpace rest with
        | ':' :: rest => some (String.ofList key, skipSpace rest)
        | _ => none
      else none

mutual

def readValue : (fuel : Nat) → List Char → Option (Value × List Char)
  | 0, _ => none
  | _ + 1, [] => none
  | fuel + 1, c :: rest =>
      if c = '"' then
        (readString (rest.length + 1) rest).map fun (s, rest) => (.string (String.ofList s), rest)
      else if c = '[' then
        match skipSpace rest with
        | ']' :: rest => some (.array [], rest)
        | rest => (readItems fuel rest).map fun (items, rest) => (.array items, rest)
      else if c = '\x7b' then
        match skipSpace rest with
        | '\x7d' :: rest => some (objectOf [], rest)
        | rest => (readMembers fuel rest).map fun (members, rest) => (objectOf members, rest)
      else (readLiteral (c :: rest)).or ((readNumber (c :: rest)).map fun (n, rest) =>
        (.number n, rest))

def readItems : (fuel : Nat) → List Char → Option (List Value × List Char)
  | 0, _ => none
  | fuel + 1, s => do
      let (value, rest) ← readValue fuel s
      match skipSpace rest with
      | ',' :: rest =>
          (readItems fuel (skipSpace rest)).map fun (items, rest) => (value :: items, rest)
      | ']' :: rest => some ([value], rest)
      | _ => none

def readMembers : (fuel : Nat) → List Char → Option (List (String × Value) × List Char)
  | 0, _ => none
  | fuel + 1, s => do
      let (key, rest) ← readKey s
      let (value, rest) ← readValue fuel rest
      match skipSpace rest with
      | ',' :: rest =>
          (readMembers fuel (skipSpace rest)).map fun (members, rest) =>
            ((key, value) :: members, rest)
      | '\x7d' :: rest => some ([(key, value)], rest)
      | _ => none

end

/-- A whole text that is one value. -/
def parse (text : String) : Option Value := do
  let s := skipSpace text.toList
  let (value, rest) ← readValue (s.length + 1) s
  if skipSpace rest = [] then some value else none

/-! ## Writing -/

/-- The short escapes that are written. -/
def writtenEscapes : List (Char × Char) :=
  [('"', '"'), ('\\', '\\'), ('\x08', 'b'), ('\t', 't'), ('\n', 'n'), ('\x0c', 'f'), ('\r', 'r')]

def escapeChar (c : Char) : List Char :=
  match writtenEscapes.lookup c with
  | some escape => ['\\', escape]
  | none =>
      if c.toNat < 0x20 then
        ['\\', 'u', '0', '0', Nat.digitChar (c.toNat / 16), Nat.digitChar (c.toNat % 16)]
      else [c]

/-- `Value::to_string`, of a string. -/
def quote (s : List Char) : List Char := '"' :: s.flatMap escapeChar ++ ['"']

def memberText (key text : List Char) : List Char := quote key ++ ':' :: text

/-- An object, from the texts of its members. -/
def objectText (members : List (List Char)) : List Char :=
  '\x7b' :: [','].intercalate members ++ ['\x7d']

/-! ## What is read of what has been written -/

theorem length_escapeChar (c : Char) : 1 ≤ (escapeChar c).length := by
  unfold escapeChar
  split
  · exact Nat.succ_pos _
  · split <;> exact Nat.succ_pos _

theorem length_le_flatMap (s : List Char) : s.length ≤ (s.flatMap escapeChar).length := by
  induction s with
  | nil => exact Nat.le_refl 0
  | cons c s ih =>
    have hc := length_escapeChar c
    rw [List.flatMap_cons, List.length_append, List.length_cons]
    omega

theorem readString_plain {c : Char} (hlow : 0x20 ≤ c.toNat) (hquote : c ≠ '"') (hback : c ≠ '\\')
    (fuel : Nat) (rest : List Char) :
    readString (fuel + 1) (escapeChar c ++ rest) =
      (readString fuel rest).map fun (s, rest) => (c :: s, rest) := by
  have hnone : writtenEscapes.lookup c = none := by
    rw [List.lookup_eq_none_iff]
    have hall : writtenEscapes.all
        (fun p => p.1 == '"' || p.1 == '\\' || decide (p.1.toNat < 0x20)) = true := by decide
    intro p hp
    have hkind := List.all_eq_true.mp hall p hp
    simp only [Bool.or_eq_true, beq_iff_eq, decide_eq_true_eq] at hkind
    rw [bne_iff_ne]
    rintro rfl
    rcases hkind with (hkind | hkind) | hkind
    · exact hquote hkind
    · exact hback hkind
    · omega
  unfold escapeChar
  simp only [hnone, if_neg (Nat.not_lt.mpr hlow)]
  show readString (fuel + 1) (c :: rest) = _
  rw [readString, if_neg hquote, if_neg hback, if_neg (Nat.not_lt.mpr hlow)]

theorem readString_control {n : Nat} (h : n < 0x20) (fuel : Nat) (rest : List Char) :
    readString (fuel + 1) (escapeChar (Char.ofNat n) ++ rest) =
      (readString fuel rest).map fun (s, rest) => (Char.ofNat n :: s, rest) := by
  interval_cases n <;> rfl

/-- An escaped character is read back, whatever follows. -/
theorem readString_escapeChar (c : Char) (fuel : Nat) (rest : List Char) :
    readString (fuel + 1) (escapeChar c ++ rest) =
      (readString fuel rest).map fun (s, rest) => (c :: s, rest) := by
  by_cases hlow : c.toNat < 0x20
  · have hc := readString_control hlow fuel rest
    rwa [Char.ofNat_toNat] at hc
  · by_cases hquote : c = '"'
    · rw [hquote]
      rfl
    · by_cases hback : c = '\\'
      · rw [hback]
        rfl
      · exact readString_plain (Nat.le_of_not_lt hlow) hquote hback fuel rest

theorem readString_flatMap (s rest : List Char) {fuel : Nat} (hfuel : s.length < fuel) :
    readString fuel (s.flatMap escapeChar ++ '"' :: rest) = some (s, rest) := by
  induction s generalizing fuel with
  | nil =>
    obtain ⟨fuel, rfl⟩ := Nat.exists_eq_succ_of_ne_zero hfuel.ne'
    rfl
  | cons c s ih =>
    obtain ⟨fuel, rfl⟩ := Nat.exists_eq_succ_of_ne_zero (Nat.ne_of_gt (Nat.zero_lt_of_lt hfuel))
    rw [List.flatMap_cons, List.append_assoc, readString_escapeChar,
      ih (Nat.lt_of_succ_lt_succ hfuel)]
    rfl

/-- What may follow a value within an object. -/
def Ends (rest : List Char) : Prop := ∀ c, rest.head? = some c → c = ',' ∨ c = '\x7d'

/-- The text is read as the value wherever it stands. -/
structure Reads (text : List Char) (value : Value) : Prop where
  starts : ∃ c tail, text = c :: tail ∧ isSpace c = false
  reads : ∀ {fuel : Nat} {rest : List Char}, text.length < fuel → Ends rest →
    readValue fuel (text ++ rest) = some (value, rest)

theorem skipSpace_cons {c : Char} (h : isSpace c = false) (rest : List Char) :
    skipSpace (c :: rest) = c :: rest := by
  unfold skipSpace
  rw [List.dropWhile_cons_of_neg (by rw [h]; exact Bool.false_ne_true)]

theorem Reads.skipSpace_eq {text : List Char} {value : Value} (h : Reads text value)
    (rest : List Char) : skipSpace (text ++ rest) = text ++ rest := by
  obtain ⟨c, tail, rfl, hc⟩ := h.starts
  exact skipSpace_cons hc _

theorem reads_quote (s : List Char) : Reads (quote s) (.string (String.ofList s)) where
  starts := ⟨'"', _, rfl, rfl⟩
  reads {fuel rest} hfuel _ := by
    have hlength := length_le_flatMap s
    obtain ⟨fuel, rfl⟩ := Nat.exists_eq_succ_of_ne_zero (Nat.ne_of_gt (Nat.zero_lt_of_lt hfuel))
    unfold quote at hfuel ⊢
    rw [List.cons_append, List.length_cons, List.length_append, List.length_singleton] at hfuel
    rw [List.cons_append, List.cons_append, List.append_assoc, List.singleton_append, readValue,
      if_pos rfl, readString_flatMap s rest (by rw [List.length_append]; omega)]
    rfl

theorem head_toDigits_ne {n : Nat} (h : 0 < n) : (Nat.toDigits 10 n).head? ≠ some '0' := by
  induction n using Nat.strongRecOn with
  | ind n ih =>
    by_cases hsmall : n < 10
    · rw [Nat.toDigits_of_lt_base hsmall]
      interval_cases n <;> decide
    · have hbase : 10 ≤ n := Nat.le_of_not_lt hsmall
      have hrest := ih (n / 10) (by omega) (by omega)
      rw [Nat.toDigits_of_base_le (by decide) hbase, List.head?_append_of_ne_nil _
        Nat.toDigits_ne_nil]
      exact hrest

theorem span_digits {digits rest : List Char} (hdigits : ∀ c ∈ digits, c.isDigit = true)
    (hrest : Ends rest) : (digits ++ rest).span Char.isDigit = (digits, rest) := by
  have hstop : rest.takeWhile Char.isDigit = [] ∧ rest.dropWhile Char.isDigit = rest := by
    cases rest with
    | nil => exact ⟨rfl, rfl⟩
    | cons c rest =>
      have hc : c.isDigit = false := by
        rcases hrest c rfl with rfl | rfl <;> rfl
      simp [hc]
  rw [List.span_eq_takeWhile_dropWhile, List.takeWhile_append_of_pos hdigits,
    List.dropWhile_append_of_pos hdigits, hstop.1, hstop.2, List.append_nil]

theorem readNumber_toDigits (n : UInt64) {rest : List Char} (hrest : Ends rest) :
    readNumber (Nat.toDigits 10 n.toNat ++ rest) = some (.posInt n, rest) := by
  have hdigits : ∀ c ∈ Nat.toDigits 10 n.toNat, c.isDigit = true :=
    fun c hc => Nat.isDigit_of_mem_toDigits (by decide) (by decide) hc
  have hvalue : natOf (Nat.toDigits 10 n.toNat) = n.toNat := Nat.ofDigitChars_ten_toDigits
  have hspan := span_digits hdigits hrest
  have hzero : ¬ (Nat.toDigits 10 n.toNat = [] ∨
      (Nat.toDigits 10 n.toNat).head? = some '0' ∧ Nat.toDigits 10 n.toNat ≠ ['0']) := by
    rintro (hnil | ⟨hhead, hmore⟩)
    · exact Nat.toDigits_ne_nil hnil
    · rcases Nat.eq_zero_or_pos n.toNat with hn | hn
      · rw [hn] at hmore
        exact hmore (Nat.toDigits_zero 10)
      · exact head_toDigits_ne hn hhead
  have hfraction : readFraction rest = some ([], rest) := by
    cases rest with
    | nil => rfl
    | cons c rest => rcases hrest c rfl with rfl | rfl <;> rfl
  have hexponent : readExponent rest = some (none, rest) := by
    cases rest with
    | nil => rfl
    | cons c rest => rcases hrest c rfl with rfl | rfl <;> rfl
  have hsign : readSign (Nat.toDigits 10 n.toNat ++ rest) =
      (false, Nat.toDigits 10 n.toNat ++ rest) := by
    apply if_neg
    rw [List.head?_append_of_ne_nil _ Nat.toDigits_ne_nil]
    intro hhead
    have hdash := hdigits '-' (List.mem_of_mem_head? hhead)
    cases hdash
  have hnumber : Number.ofParts false (Nat.toDigits 10 n.toNat) [] none = .posInt n := by
    unfold Number.ofParts
    rw [List.append_nil, hvalue]
    refine (if_pos ⟨rfl, rfl, rfl, n.toNat_lt⟩).trans ?_
    rw [UInt64.ofNat_toNat]
  unfold readNumber
  simp only [hsign, hspan, if_neg hzero, hfraction, hexponent, Option.bind_eq_bind,
    Option.bind_some, hnumber]

theorem reads_toDigits (n : UInt64) : Reads (Nat.toDigits 10 n.toNat) (.number (.posInt n)) := by
  obtain ⟨c, tail, hcons⟩ :=
    List.exists_cons_of_ne_nil (Nat.toDigits_ne_nil (n := n.toNat) (b := 10))
  have hdigit : c.isDigit = true := by
    apply Nat.isDigit_of_mem_toDigits (b := 10) (n := n.toNat) (by decide) (by decide)
    rw [hcons]
    exact List.mem_cons_self
  have hne (d : Char) (hd : d.isDigit = false) : c ≠ d := by
    rintro rfl
    rw [hdigit] at hd
    cases hd
  refine ⟨⟨c, tail, hcons, ?_⟩, ?_⟩
  · unfold isSpace
    simp [hne ' ' rfl, hne '\n' rfl, hne '\r' rfl, hne '\t' rfl]
  · intro fuel rest hfuel hrest
    have hnumber := readNumber_toDigits n hrest
    obtain ⟨fuel, rfl⟩ := Nat.exists_eq_succ_of_ne_zero (Nat.ne_of_gt (Nat.zero_lt_of_lt hfuel))
    rw [hcons, List.cons_append] at hnumber ⊢
    have hliteral : readLiteral (c :: (tail ++ rest)) = none := by
      simp [readLiteral, (hne 'n' rfl).symm, (hne 't' rfl).symm, (hne 'f' rfl).symm]
    rw [readValue, if_neg (hne '"' rfl), if_neg (hne '[' rfl), if_neg (hne '\x7b' rfl), hliteral,
      hnumber]
    rfl

theorem readKey_memberText (key : List Char) {text : List Char} {value : Value}
    (h : Reads text value) (rest : List Char) :
    readKey (memberText key text ++ rest) = some (String.ofList key, text ++ rest) := by
  have hshape : memberText key text ++ rest =
      '"' :: (key.flatMap escapeChar ++ '"' :: ':' :: (text ++ rest)) := by
    simp [memberText, quote]
  have hlength := length_le_flatMap key
  rw [hshape, readKey, if_pos rfl, readString_flatMap]
  · show some (String.ofList key, skipSpace (text ++ rest)) = _
    rw [h.skipSpace_eq]
  · rw [List.length_append]
    omega

/-- Members begin with the quote of a key. -/
theorem intercalate_start (m : List Char × List Char × Value)
    (members : List (List Char × List Char × Value)) (rest : List Char) :
    ∃ tail, [','].intercalate ((m :: members).map fun m => memberText m.1 m.2.1) ++ rest =
      '"' :: tail := by
  cases members with
  | nil => exact ⟨_, by simp [memberText, quote]; rfl⟩
  | cons next members => exact ⟨_, by simp [memberText, quote]; rfl⟩

/-- The members of an object, each by its key, the text of its value and the value. -/
theorem readMembers_intercalate (members : List (List Char × List Char × Value))
    (hne : members ≠ []) (hreads : ∀ m ∈ members, Reads m.2.1 m.2.2) {fuel : Nat}
    (rest : List Char)
    (hfuel : ([','].intercalate (members.map fun m => memberText m.1 m.2.1)).length < fuel) :
    readMembers fuel ([','].intercalate (members.map fun m => memberText m.1 m.2.1) ++ '\x7d' :: rest)
      = some (members.map fun m => (String.ofList m.1, m.2.2), rest) := by
  induction members generalizing fuel with
  | nil => exact absurd rfl hne
  | cons m members ih =>
    have hm := hreads m List.mem_cons_self
    have htext : m.2.1.length < (memberText m.1 m.2.1).length := by
      simp [memberText]
      omega
    obtain ⟨fuel, rfl⟩ := Nat.exists_eq_succ_of_ne_zero (Nat.ne_of_gt (Nat.zero_lt_of_lt hfuel))
    cases members with
    | nil =>
      have hone : [','].intercalate ([m].map fun m => memberText m.1 m.2.1) =
          memberText m.1 m.2.1 := by
        simp
      rw [hone] at hfuel ⊢
      have hvalue := @Reads.reads _ _ hm fuel ('\x7d' :: rest) (by omega)
        (fun c hc => Or.inr (Option.some.inj hc).symm)
      rw [readMembers, readKey_memberText m.1 hm]
      simp only [Option.bind_eq_bind, Option.bind_some, hvalue]
      rfl
    | cons next members =>
      have hmore : [','].intercalate ((m :: next :: members).map fun m => memberText m.1 m.2.1) =
          memberText m.1 m.2.1 ++
            ',' :: [','].intercalate ((next :: members).map fun m => memberText m.1 m.2.1) := by
        simp
      rw [hmore] at hfuel ⊢
      rw [List.length_append, List.length_cons] at hfuel
      have hrest := @ih (List.cons_ne_nil _ _) (fun m' hm' => hreads m' (List.mem_cons_of_mem m hm'))
        fuel (by omega)
      have hvalue := @Reads.reads _ _ hm fuel (',' :: ([','].intercalate
        ((next :: members).map fun m => memberText m.1 m.2.1) ++ '\x7d' :: rest)) (by omega)
        (fun c hc => Or.inl (Option.some.inj hc).symm)
      rw [List.append_assoc, List.cons_append, readMembers, readKey_memberText m.1 hm]
      obtain ⟨tail, htail⟩ := intercalate_start next members ('\x7d' :: rest)
      simp only [Option.bind_eq_bind, Option.bind_some, hvalue]
      show (readMembers fuel (skipSpace _)).map _ = _
      rw [htail, skipSpace_cons rfl, ← htail, hrest]
      rfl

theorem parse_objectText (members : List (List Char × List Char × Value)) (hne : members ≠ [])
    (hreads : ∀ m ∈ members, Reads m.2.1 m.2.2) :
    parse (String.ofList (objectText (members.map fun m => memberText m.1 m.2.1))) =
      some (objectOf (members.map fun m => (String.ofList m.1, m.2.2))) := by
  obtain ⟨m, rest, rfl⟩ := List.exists_cons_of_ne_nil hne
  obtain ⟨tail, htail⟩ := intercalate_start m rest ['\x7d']
  have hmembers := @readMembers_intercalate (m :: rest) hne hreads
    (objectText ((m :: rest).map fun m => memberText m.1 m.2.1)).length []
    (by
      unfold objectText
      rw [List.cons_append, List.length_cons, List.length_append]
      omega)
  have hvalue : readValue ((objectText ((m :: rest).map fun m => memberText m.1 m.2.1)).length + 1)
      (objectText ((m :: rest).map fun m => memberText m.1 m.2.1)) =
        some (objectOf ((m :: rest).map fun m => (String.ofList m.1, m.2.2)), []) := by
    generalize (objectText ((m :: rest).map fun m => memberText m.1 m.2.1)).length = fuel at *
    unfold objectText
    rw [htail] at hmembers
    rw [List.cons_append, htail, readValue, if_neg (by decide), if_neg (by decide), if_pos rfl,
      skipSpace_cons rfl]
    show (readMembers fuel ('"' :: tail)).map _ = _
    rw [hmembers]
    rfl
  have hstart : skipSpace (objectText ((m :: rest).map fun m => memberText m.1 m.2.1)) =
      objectText ((m :: rest).map fun m => memberText m.1 m.2.1) := skipSpace_cons rfl _
  unfold parse
  rw [String.toList_ofList, hstart]
  simp only [hvalue, Option.bind_eq_bind, Option.bind_some]
  rfl

end DatumConnect.Lib.Json
