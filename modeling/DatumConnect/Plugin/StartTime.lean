import Mathlib.Data.Int.Init
import Mathlib.Data.Nat.Digits.Defs
import Mathlib.Tactic.NormNum
import DatumConnect.Lib.Text
/-!
# The time in a pid file

A time as `time.RFC3339` writes it, and what `time.Parse` reads with the same layout: the hour may be
one digit, the second may have a fraction, and the zone may be off by up to 24 hours and 60 minutes.
-/

namespace DatumConnect.Plugin

open DatumConnect.Lib

/-- A time to the second, by the clock of its zone; the offset is in seconds east of UTC. -/
structure Time where
  year : Int
  month : Nat
  day : Nat
  hour : Nat
  minute : Nat
  second : Nat
  offset : Int
  deriving DecidableEq, Repr

namespace Time

def isLeap (year : Int) : Bool := year % 4 = 0 && (year % 100 ≠ 0 || year % 400 = 0)

def daysIn (month : Nat) (year : Int) : Nat :=
  if month = 2 then if isLeap year then 29 else 28
  else if [4, 6, 9, 11].contains month then 30
  else 31

structure Valid (t : Time) : Prop where
  month_pos : 1 ≤ t.month
  month_le : t.month ≤ 12
  day_pos : 1 ≤ t.day
  day_le : t.day ≤ daysIn t.month t.year
  hour_lt : t.hour < 24
  minute_lt : t.minute < 60
  second_lt : t.second < 60

/-- Days since 1970, of years that begin in March. -/
def days (year : Int) (month day : Nat) : Int :=
  let y := if month ≤ 2 then year - 1 else year
  let ofEra := y % 400
  let ofYear := (153 * ((month : Int) + if month ≤ 2 then 9 else -3) + 2) / 5 + day - 1
  y / 400 * 146097 + (ofEra * 365 + ofEra / 4 - ofEra / 100 + ofYear) - 719468

/-- `Time.Unix` -/
def unix (t : Time) : Int :=
  86400 * days t.year t.month t.day + 3600 * t.hour + 60 * t.minute + t.second - t.offset

example : unix ⟨2026, 3, 1, 1, 30, 5, 3600⟩ = 1772325005 := by decide

/-! ## Writing -/

/-- At least so many digits. -/
def pad : (width n : Nat) → List Char
  | 0, n => if n = 0 then [] else Nat.toDigits 10 n
  | width + 1, n => pad width (n / 10) ++ [Nat.digitChar (n % 10)]

def formatYear (year : Int) : List Char :=
  if year < 0 then '-' :: pad 4 year.natAbs else pad 4 year.natAbs

/-- Whole minutes, toward zero. -/
def formatOffset (offset : Int) : List Char :=
  if offset = 0 then ['Z']
  else
    let zone := offset.tdiv 60
    (if zone < 0 then '-' else '+') :: (pad 2 (zone.natAbs / 60) ++ ':' :: pad 2 (zone.natAbs % 60))

/-- `Format(time.RFC3339)` -/
def format (t : Time) : List Char :=
  formatYear t.year ++ '-' :: (pad 2 t.month ++ '-' :: (pad 2 t.day ++ 'T' :: (pad 2 t.hour ++
    ':' :: (pad 2 t.minute ++ ':' :: (pad 2 t.second ++ formatOffset t.offset)))))

example : String.ofList (format ⟨2026, 3, 1, 1, 30, 5, -34200⟩) = "2026-03-01T01:30:05-09:30" := by
  decide

/-! ## Reading -/

def digitValue (c : Char) : Nat := c.toNat - 48

/-- One or two digits; two if they are `fixed`. -/
def getnum (fixed : Bool) : List Char → Option (Nat × List Char)
  | [] => none
  | c :: rest =>
      if c.isDigit then
        match rest with
        | d :: rest' =>
            if d.isDigit then some (10 * digitValue c + digitValue d, rest')
            else if fixed then none else some (digitValue c, d :: rest')
        | [] => if fixed then none else some (digitValue c, [])
      else none

/-- A year of four digits. -/
def getYear : List Char → Option (Nat × List Char)
  | a :: b :: c :: d :: rest =>
      if a.isDigit && b.isDigit && c.isDigit && d.isDigit then
        some (1000 * digitValue a + 100 * digitValue b + 10 * digitValue c + digitValue d, rest)
      else none
  | _ => none

def literal (expected : Char) : List Char → Option (List Char)
  | c :: rest => if c = expected then some rest else none
  | [] => none

/-- A fraction of a second that the layout does not have. -/
def skipFraction : List Char → List Char
  | c :: d :: rest =>
      if (c = '.' || c = ',') && d.isDigit then rest.dropWhile Char.isDigit else c :: d :: rest
  | text => text

/-- All that is left is the zone. -/
def getOffset : List Char → Option Int
  | ['Z'] => some 0
  | [sign, a, b, colon, c, d] => do
      let (hours, _) ← getnum true [a, b]
      let (minutes, _) ← getnum true [c, d]
      let offset : Int := 60 * (60 * hours + minutes)
      if colon = ':' && hours ≤ 24 && minutes ≤ 60 then
        if sign = '+' then some offset else if sign = '-' then some (-offset) else none
      else none
  | _ => none

/-- `time.Parse(time.RFC3339, …)` -/
def parse (text : List Char) : Option Time := do
  let (year, text) ← getYear text
  let (month, text) ← getnum true (← literal '-' text)
  let (day, text) ← getnum true (← literal '-' text)
  let (hour, text) ← getnum false (← literal 'T' text)
  let (minute, text) ← getnum true (← literal ':' text)
  let (second, text) ← getnum true (← literal ':' text)
  let offset ← getOffset (skipFraction text)
  if 1 ≤ month ∧ month ≤ 12 ∧ 1 ≤ day ∧ day ≤ daysIn month year ∧ hour < 24 ∧ minute < 60 ∧
      second < 60 then
    some { year, month, day, hour, minute, second, offset }
  else none

/-! ## What is read of a time that was written -/

theorem digitChar_spec {d : Nat} (h : d < 10) :
    (Nat.digitChar d).isDigit = true ∧ digitValue (Nat.digitChar d) = d := by
  have hall : ∀ d < 10, (Nat.digitChar d).isDigit = true ∧ digitValue (Nat.digitChar d) = d := by
    decide
  exact hall d h

theorem pad_two {n : Nat} (h : n < 100) :
    pad 2 n = [Nat.digitChar (n / 10 % 10), Nat.digitChar (n % 10)] := by
  have hzero : n / 10 / 10 = 0 := by omega
  simp only [pad, hzero, if_true, List.nil_append, List.singleton_append]

theorem getnum_pad {n : Nat} (h : n < 100) (fixed : Bool) (rest : List Char) :
    getnum fixed (pad 2 n ++ rest) = some (n, rest) := by
  have hhigh := digitChar_spec (d := n / 10 % 10) (Nat.mod_lt _ (by decide))
  have hlow := digitChar_spec (d := n % 10) (Nat.mod_lt _ (by decide))
  have hvalue : 10 * (n / 10 % 10) + n % 10 = n := by omega
  rw [pad_two h, List.cons_append, List.singleton_append]
  simp only [getnum, hhigh.1, hlow.1, if_true, hhigh.2, hlow.2, hvalue]

theorem pad_digits (width n : Nat) : ∀ c ∈ pad width n, c.isDigit = true := by
  induction width generalizing n with
  | zero =>
    intro c hc
    unfold pad at hc
    split at hc
    · cases hc
    · exact Nat.isDigit_of_mem_toDigits (by decide) (by decide) hc
  | succ width ih =>
    intro c hc
    rcases List.mem_append.mp hc with hc | hc
    · exact ih _ c hc
    · rw [List.mem_singleton.mp hc]
      exact (digitChar_spec (Nat.mod_lt _ (by decide))).1

theorem format_chars (t : Time) :
    ∀ c ∈ format t, c.isDigit = true ∨ c ∈ ['-', 'T', ':', '+', 'Z'] := by
  have hpad (width n : Nat) : ∀ c ∈ pad width n, c.isDigit = true ∨ c ∈ ['-', 'T', ':', '+', 'Z'] :=
    fun c hc => Or.inl (pad_digits width n c hc)
  have hyear : ∀ c ∈ formatYear t.year, c.isDigit = true ∨ c ∈ ['-', 'T', ':', '+', 'Z'] := by
    unfold formatYear
    split
    · exact List.forall_mem_cons.mpr ⟨Or.inr (by decide), hpad _ _⟩
    · exact hpad _ _
  have hoffset : ∀ c ∈ formatOffset t.offset, c.isDigit = true ∨ c ∈ ['-', 'T', ':', '+', 'Z'] := by
    unfold formatOffset
    split
    · exact List.forall_mem_cons.mpr ⟨Or.inr (by decide), List.forall_mem_nil _⟩
    · refine List.forall_mem_cons.mpr ⟨?_, List.forall_mem_append.mpr ⟨hpad _ _,
        List.forall_mem_cons.mpr ⟨Or.inr (by decide), hpad _ _⟩⟩⟩
      split
      · exact Or.inr (by decide)
      · exact Or.inr (by decide)
  unfold format
  simp only [List.forall_mem_append, List.forall_mem_cons]
  exact ⟨hyear, Or.inr (by decide), hpad _ _, Or.inr (by decide), hpad _ _, Or.inr (by decide),
    hpad _ _, Or.inr (by decide), hpad _ _, Or.inr (by decide), hpad _ _, hoffset⟩

/-- More digits than so many. -/
theorem pad_long {width n : Nat} (h : 10 ^ width ≤ n) : width < (pad width n).length := by
  induction width generalizing n with
  | zero =>
    unfold pad
    rw [if_neg (by omega)]
    exact List.length_pos_iff.mpr Nat.toDigits_ne_nil
  | succ width ih =>
    have hdiv : 10 ^ width ≤ n / 10 := by
      rw [Nat.le_div_iff_mul_le (by decide)]
      exact h
    unfold pad
    rw [List.length_append, List.length_singleton]
    have := ih hdiv
    omega

theorem getYear_pad {n : Nat} (h : n < 10000) (rest : List Char) :
    getYear (pad 4 n ++ rest) = some (n, rest) := by
  have hzero : n / 10 / 10 / 10 / 10 = 0 := by omega
  have hpad : pad 4 n = [Nat.digitChar (n / 10 / 10 / 10 % 10), Nat.digitChar (n / 10 / 10 % 10),
      Nat.digitChar (n / 10 % 10), Nat.digitChar (n % 10)] := by
    simp only [pad, hzero, if_true, List.nil_append, List.cons_append]
  have ha := digitChar_spec (d := n / 10 / 10 / 10 % 10) (Nat.mod_lt _ (by decide))
  have hb := digitChar_spec (d := n / 10 / 10 % 10) (Nat.mod_lt _ (by decide))
  have hc := digitChar_spec (d := n / 10 % 10) (Nat.mod_lt _ (by decide))
  have hd := digitChar_spec (d := n % 10) (Nat.mod_lt _ (by decide))
  have hvalue : 1000 * (n / 10 / 10 / 10 % 10) + 100 * (n / 10 / 10 % 10) + 10 * (n / 10 % 10) +
      n % 10 = n := by
    omega
  rw [hpad]
  simp only [List.cons_append, List.nil_append, getYear, ha.1, hb.1, hc.1, hd.1, Bool.and_self,
    if_true, ha.2, hb.2, hc.2, hd.2, hvalue]

/-- The years that can be read. -/
theorem getYear_format {year : Int} {rest : List Char} {text : List Char} {n : Nat}
    (h : getYear (formatYear year ++ '-' :: rest) = some (n, text)) (hdash : literal '-' text ≠ none) :
    0 ≤ year ∧ year < 10000 := by
  unfold formatYear at h
  split at h
  · unfold getYear at h
    split at h
    · rename_i heq
      rw [List.cons_append, List.cons.injEq] at heq
      rw [← heq.1] at h
      simp at h
    · cases h
  · rename_i hyear
    refine ⟨by omega, ?_⟩
    by_contra hlarge
    have hlong := @pad_long 4 year.natAbs (by omega)
    have hdigits := pad_digits 4 year.natAbs
    generalize pad 4 year.natAbs = digits at h hlong hdigits
    match digits, hlong with
    | a :: b :: c :: d :: e :: more, _ =>
      have he := hdigits e (by simp)
      simp only [List.cons_append, getYear, hdigits a (by simp), hdigits b (by simp),
        hdigits c (by simp), hdigits d (by simp), Bool.and_self, if_true, Option.some.injEq,
        Prod.mk.injEq] at h
      apply hdash
      rw [← h.2]
      show (if e = '-' then _ else none) = none
      rw [if_neg]
      rintro rfl
      cases he

/-- Whole minutes of the offset. -/
def wholeMinutes (offset : Int) : Int := 60 * offset.tdiv 60

theorem formatOffset_of_ne {offset : Int} (h : offset ≠ 0) : formatOffset offset =
    (if offset.tdiv 60 < 0 then '-' else '+') :: (pad 2 ((offset.tdiv 60).natAbs / 60) ++
      ':' :: pad 2 ((offset.tdiv 60).natAbs % 60)) := if_neg h

theorem skipFraction_formatOffset (offset : Int) :
    skipFraction (formatOffset offset) = formatOffset offset := by
  by_cases hzero : offset = 0
  · rw [hzero]
    rfl
  rw [formatOffset_of_ne hzero]
  generalize pad 2 ((offset.tdiv 60).natAbs / 60) ++ ':' :: pad 2 ((offset.tdiv 60).natAbs % 60) =
    digits
  cases digits with
  | nil => split <;> rfl
  | cons d rest => split <;> rfl

theorem getOffset_of_digits {sign a b c d : Char} {hours minutes : Nat}
    (hhours : getnum true [a, b] = some (hours, []))
    (hminutes : getnum true [c, d] = some (minutes, [])) (hsmall : minutes ≤ 60) :
    getOffset [sign, a, b, ':', c, d] =
      if hours ≤ 24 then
        if sign = '+' then some (60 * (60 * (hours : Int) + minutes))
        else if sign = '-' then some (-(60 * (60 * (hours : Int) + minutes))) else none
      else none := by
  unfold getOffset
  simp only [hhours, hminutes, Option.bind_eq_bind, Option.bind_some]
  by_cases hrange : hours ≤ 24
  · simp [hrange, hsmall]
  · simp [hrange]

/-- The offsets that can be read, and what is read of them. -/
theorem getOffset_format (offset : Int) : getOffset (formatOffset offset) =
    if offset.natAbs < 90000 then some (wholeMinutes offset) else none := by
  by_cases hzero : offset = 0
  · rw [hzero]
    rfl
  rw [formatOffset_of_ne hzero]
  unfold wholeMinutes
  have htdiv : (offset.tdiv 60).natAbs = offset.natAbs / 60 := by
    rw [Int.natAbs_tdiv]
    rfl
  generalize hzone : offset.tdiv 60 = zone at *
  have hminutes : zone.natAbs % 60 < 100 := by omega
  by_cases hhours : zone.natAbs / 60 < 100
  · have hgetHours := getnum_pad hhours true []
    have hgetMinutes := getnum_pad hminutes true []
    rw [pad_two hhours, List.append_nil] at hgetHours
    rw [pad_two hminutes, List.append_nil] at hgetMinutes
    rw [pad_two hhours, pad_two hminutes]
    have hread := @getOffset_of_digits (if zone < 0 then '-' else '+') _ _ _ _ _ _ hgetHours
      hgetMinutes (by omega)
    refine hread.trans ?_
    by_cases hrange : zone.natAbs / 60 ≤ 24
    · have hoffset : offset.natAbs < 90000 := by omega
      rw [if_pos hrange, if_pos hoffset]
      split
      · rename_i hneg
        rw [if_neg (by decide), if_pos rfl]
        congr 1
        omega
      · rename_i hneg
        rw [if_pos rfl]
        congr 1
        omega
    · have hoffset : ¬ offset.natAbs < 90000 := by omega
      rw [if_neg hrange, if_neg hoffset]
  · have hoffset : ¬ offset.natAbs < 90000 := by omega
    rw [if_neg hoffset]
    have hlong := @pad_long 2 (zone.natAbs / 60) (by omega)
    have hdigits := pad_digits 2 (zone.natAbs / 60)
    generalize pad 2 (zone.natAbs / 60) = digits at hlong hdigits
    match digits, hlong with
    | a :: b :: c :: more, _ =>
      have hc := hdigits c (by simp)
      have hcolon : ¬ c = ':' := by
        rintro rfl
        cases hc
      generalize (if zone < 0 then '-' else '+') = sign
      unfold getOffset
      split
      · rename_i heq
        cases heq
      · rename_i heq
        simp only [List.cons_append, List.cons.injEq] at heq
        rw [← heq.2.2.2.1]
        simp [hcolon]
      · rfl

theorem daysIn_le (month : Nat) (year : Int) : daysIn month year ≤ 31 := by
  unfold daysIn
  split_ifs <;> decide

/-- The times that can be read are those of four-digit years in zones off by less than 25 hours;
what is read is off by whole minutes. -/
theorem parse_format {t : Time} (h : t.Valid) : parse (format t) =
    if 0 ≤ t.year ∧ t.year < 10000 ∧ t.offset.natAbs < 90000 then
      some { t with offset := wholeMinutes t.offset } else none := by
  have hday := Nat.le_trans h.day_le (daysIn_le t.month t.year)
  by_cases hyear : 0 ≤ t.year ∧ t.year < 10000
  · have hformat : formatYear t.year = pad 4 t.year.natAbs := if_neg (by omega)
    have hcast : ((t.year.natAbs : Nat) : Int) = t.year := by omega
    have hread : parse (format t) = (getOffset (formatOffset t.offset)).bind fun offset =>
        some { t with offset := offset } := by
      unfold parse format
      rw [hformat, getYear_pad (by omega)]
      simp only [Option.bind_eq_bind, Option.bind_some, literal, if_true,
        getnum_pad (Nat.lt_of_le_of_lt h.month_le (by decide)), getnum_pad (Nat.lt_of_le_of_lt hday (by decide)),
        getnum_pad (Nat.lt_trans h.hour_lt (by decide)), getnum_pad (Nat.lt_trans h.minute_lt (by decide)),
        getnum_pad (Nat.lt_trans h.second_lt (by decide)), skipFraction_formatOffset]
      have hvalid : 1 ≤ t.month ∧ t.month ≤ 12 ∧ 1 ≤ t.day ∧ t.day ≤ daysIn t.month t.year ∧
          t.hour < 24 ∧ t.minute < 60 ∧ t.second < 60 :=
        ⟨h.month_pos, h.month_le, h.day_pos, h.day_le, h.hour_lt, h.minute_lt, h.second_lt⟩
      rw [hcast]
      congr 1
      funext offset
      exact if_pos hvalid
    rw [hread, getOffset_format]
    by_cases hoffset : t.offset.natAbs < 90000
    · rw [if_pos hoffset, if_pos ⟨hyear.1, hyear.2, hoffset⟩]
      rfl
    · rw [if_neg hoffset, if_neg fun hall => hoffset hall.2.2]
      rfl
  · rw [if_neg fun hall => hyear ⟨hall.1, hall.2.1⟩]
    by_contra hsome
    apply hyear
    unfold parse format at hsome
    generalize hrest : pad 2 t.month ++ '-' :: _ = rest at hsome
    cases hget : getYear (formatYear t.year ++ '-' :: rest) with
    | none =>
      rw [hget] at hsome
      exact absurd rfl hsome
    | some read =>
      obtain ⟨n, text⟩ := read
      apply getYear_format hget
      intro hliteral
      rw [hget] at hsome
      simp only [Option.bind_eq_bind, Option.bind_some, hliteral, Option.bind_none] at hsome
      exact hsome trivial

end Time

end DatumConnect.Plugin
