import DatumConnect.Lib.Lossy
import Mathlib.Data.List.Infix
/-!
# The lines of a text

`str::lines`, and what the lines of some bytes are when a line feed stands between them.
-/

namespace DatumConnect.Lib.Lines

open DatumConnect.Lib.Utf8

/-- `split_inclusive('\n')` -/
def splitInclusive : List Char → List (List Char)
  | [] => []
  | c :: cs =>
      if c = '\n' then [c] :: splitInclusive cs
      else
        match splitInclusive cs with
        | [] => [[c]]
        | line :: rest => (c :: line) :: rest

def stripSuffix (c : Char) (s : List Char) : Option (List Char) :=
  if s.getLast? = some c then some s.dropLast else none

/-- A line without its ending: a carriage return goes only where a line feed went. -/
def withoutEnding (line : List Char) : List Char :=
  match stripSuffix '\n' line with
  | none => line
  | some line => (stripSuffix '\r' line).getD line

/-- `str::lines` -/
def lines (text : List Char) : List String :=
  (splitInclusive text).map fun line => String.ofList (withoutEnding line)

example : lines "a\r\nb\n\nc\r".toList = ["a", "b", "", "c\r"] := by decide

/-- The lines that `String::from_utf8_lossy` and `str::lines` read. -/
def textLines (bs : List UInt8) : List String := lines (lossy bs).toList

theorem splitInclusive_ne_nil {text : List Char} (h : text ≠ []) : splitInclusive text ≠ [] := by
  cases text with
  | nil => exact absurd rfl h
  | cons c cs =>
    rw [splitInclusive]
    split
    · exact List.cons_ne_nil _ _
    · split <;> exact List.cons_ne_nil _ _

/-- A line feed ends a line, whatever follows. -/
theorem splitInclusive_append (xs ys : List Char) :
    splitInclusive (xs ++ '\n' :: ys) = splitInclusive (xs ++ ['\n']) ++ splitInclusive ys := by
  induction xs with
  | nil => rfl
  | cons c xs ih =>
    rw [List.cons_append, List.cons_append, splitInclusive, splitInclusive, ih]
    split
    · rfl
    · have hne : splitInclusive (xs ++ ['\n']) ≠ [] :=
        splitInclusive_ne_nil (List.append_ne_nil_of_right_ne_nil xs (List.cons_ne_nil _ _))
      obtain ⟨line, rest, hsplit⟩ := List.exists_cons_of_ne_nil hne
      rw [hsplit]
      rfl

theorem splitInclusive_of_not_mem {xs : List Char} (h : '\n' ∉ xs) (hne : xs ≠ []) :
    splitInclusive xs = [xs] := by
  induction xs with
  | nil => exact absurd rfl hne
  | cons c xs ih =>
    have hc : c ≠ '\n' := (List.ne_of_not_mem_cons h).symm
    rw [splitInclusive, if_neg hc]
    cases xs with
    | nil => rfl
    | cons d xs =>
      rw [ih (List.not_mem_of_not_mem_cons h) (List.cons_ne_nil _ _)]

theorem splitInclusive_line {xs : List Char} (h : '\n' ∉ xs) :
    splitInclusive (xs ++ ['\n']) = [xs ++ ['\n']] := by
  induction xs with
  | nil => rfl
  | cons c xs ih =>
    have hc : c ≠ '\n' := (List.ne_of_not_mem_cons h).symm
    rw [List.cons_append, splitInclusive, if_neg hc, ih (List.not_mem_of_not_mem_cons h)]

/-! ## Lines of bytes -/

theorem textLines_append (xs ys : List UInt8) :
    textLines (xs ++ 10 :: ys) = textLines (xs ++ [10]) ++ textLines ys := by
  unfold textLines lines
  rw [toList_lossy, toList_lossy, toList_lossy, lossyChars_feed xs ys 0 (Nat.zero_le _),
    lossyChars_feed xs [] 0 (Nat.zero_le _), splitInclusive_append, List.map_append]
  rfl

theorem textLines_length_line {xs : List UInt8} (h : 10 ∉ xs) :
    (textLines (xs ++ [10])).length = 1 := by
  unfold textLines lines
  rw [toList_lossy, lossyChars_feed xs [] 0 (Nat.zero_le _), List.length_map]
  show (splitInclusive (lossyChars 0 xs ++ ['\n'])).length = 1
  rw [splitInclusive_line (feed_not_mem xs 0 h)]
  rfl

theorem textLines_length_le {xs : List UInt8} (h : 10 ∉ xs) : (textLines xs).length ≤ 1 := by
  unfold textLines lines
  rw [toList_lossy, List.length_map]
  by_cases hne : lossyChars 0 xs = []
  · rw [hne]
    exact Nat.zero_le 1
  · rw [splitInclusive_of_not_mem (feed_not_mem xs 0 h) hne]
    exact Nat.le_refl 1

/-- Every line feed ends a line. -/
theorem count_le_length (bs : List UInt8) : bs.count 10 ≤ (textLines bs).length := by
  induction hcount : bs.count 10 generalizing bs with
  | zero => exact Nat.zero_le _
  | succ count ih =>
    have hmem : 10 ∈ bs := List.count_pos_iff.mp (by omega)
    obtain ⟨line, rest, rfl, hline⟩ := List.eq_append_cons_of_mem hmem
    rw [List.count_append, List.count_eq_zero_of_not_mem hline, List.count_cons_self] at hcount
    have hrest := ih rest (by omega)
    rw [textLines_append, List.length_append, textLines_length_line hline]
    omega

/-- Bytes that are cut off somewhere have all their lines but the first from the whole. -/
theorem drop_one_textLines (before bs : List UInt8) :
    (textLines bs).drop 1 <:+ textLines (before ++ bs) := by
  by_cases hmem : 10 ∈ bs
  · obtain ⟨line, rest, rfl, hline⟩ := List.eq_append_cons_of_mem hmem
    rw [textLines_append, ← textLines_length_line hline, List.drop_left, ← List.append_assoc,
      textLines_append]
    exact List.suffix_append _ _
  · rw [List.drop_eq_nil_of_le (textLines_length_le hmem)]
    exact List.nil_suffix

/-! ## The last of them -/

section Last

variable {α : Type}

/-- `lines[lines.len().saturating_sub(n)..]` -/
def takeLast (n : Nat) (l : List α) : List α := l.drop (l.length - n)

theorem length_takeLast (n : Nat) (l : List α) : (takeLast n l).length = min n l.length := by
  unfold takeLast
  rw [List.length_drop]
  omega

theorem takeLast_suffix {part all : List α} (h : part <:+ all) (n : Nat) :
    takeLast n part <:+ takeLast n all := by
  have hlength := h.length_le
  have hle : (takeLast n part).length ≤ (takeLast n all).length := by
    rw [length_takeLast, length_takeLast]
    omega
  exact List.suffix_of_suffix_length_le ((List.drop_suffix _ part).trans h)
    (List.drop_suffix _ all) hle

theorem takeLast_eq {part all : List α} (h : part <:+ all) {n : Nat} (hn : n ≤ part.length) :
    takeLast n part = takeLast n all := by
  have hlength := h.length_le
  apply (takeLast_suffix h n).eq_of_length
  rw [length_takeLast, length_takeLast]
  omega

end Last

end DatumConnect.Lib.Lines
