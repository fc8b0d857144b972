import Mathlib.Data.List.DropRight
import Mathlib.Data.List.TakeWhile
import Mathlib.Data.List.Infix
import Mathlib.Algebra.Group.Nat.Defs
/-!
# Operations on text

The `str` methods of the standard library that the sources split text with, on
lists of characters.
-/

namespace DatumConnect.Lib.Text

/-- `char::is_whitespace`: the characters with the property White_Space. -/
def isWhitespace (c : Char) : Bool :=
  9 ≤ c.toNat && c.toNat ≤ 13 || 0x2000 ≤ c.toNat && c.toNat ≤ 0x200A ||
    [0x20, 0x85, 0xA0, 0x1680, 0x2028, 0x2029, 0x202F, 0x205F, 0x3000].contains c.toNat

/-- `str::trim`. -/
def trim (s : List Char) : List Char := (s.dropWhile isWhitespace).rdropWhile isWhitespace

/-- `str::strip_prefix`. -/
def stripPrefix (pre s : List Char) : Option (List Char) :=
  if pre.isPrefixOf s then some (s.drop pre.length) else none

/-- `str::trim_end_matches`, of a character. -/
def trimEndMatches (c : Char) (s : List Char) : List Char := s.rdropWhile (· = c)

/-- `str::contains`, of a text. -/
def contains (s part : List Char) : Bool := s.tails.any fun rest => part.isPrefixOf rest

/-- `str::replace`: `skip` characters are part of the last match. -/
def replaceFrom (pat rep : List Char) : (skip : Nat) → List Char → List Char
  | _, [] => []
  | skip + 1, _ :: cs => replaceFrom pat rep skip cs
  | 0, c :: cs =>
      if pat.isPrefixOf (c :: cs) then rep ++ replaceFrom pat rep (pat.length - 1) cs
      else c :: replaceFrom pat rep 0 cs

def replace (pat rep s : List Char) : List Char := replaceFrom pat rep 0 s

/-- `str::split_once`. -/
def splitOnce (sep : Char) (s : List Char) : Option (List Char × List Char) :=
  match s.dropWhile (· ≠ sep) with
  | _ :: after => some (s.takeWhile (· ≠ sep), after)
  | [] => none

/-- `str::split_once`, of a text. -/
def splitOnceText (sep : List Char) : List Char → Option (List Char × List Char)
  | [] => if sep = [] then some ([], []) else none
  | c :: cs =>
      if sep.isPrefixOf (c :: cs) then some ([], (c :: cs).drop sep.length)
      else (splitOnceText sep cs).map fun (before, after) => (c :: before, after)

/-- `str::rsplit_once`. -/
def rsplitOnce (sep : Char) (s : List Char) : Option (List Char × List Char) :=
  (splitOnce sep s.reverse).map fun (after, before) => (before.reverse, after.reverse)

/-- `u16::from_str`. -/
def parseU16 (s : List Char) : Option UInt16 :=
  let digits := (stripPrefix ['+'] s).getD s
  let n := digits.foldl (fun n c => 10 * n + (c.toNat - '0'.toNat)) 0
  if digits ≠ [] ∧ digits.all Char.isDigit ∧ n < 2 ^ 16 then some (UInt16.ofNat n) else none

/-- `u8::from_str`. -/
def parseU8 (s : List Char) : Option UInt8 :=
  let digits := (stripPrefix ['+'] s).getD s
  let n := digits.foldl (fun n c => 10 * n + (c.toNat - '0'.toNat)) 0
  if digits ≠ [] ∧ digits.all Char.isDigit ∧ n < 2 ^ 8 then some (UInt8.ofNat n) else none

theorem splitOnce_eq_some {sep : Char} {s before after : List Char}
    (h : splitOnce sep s = some (before, after)) : s = before ++ sep :: after ∧ sep ∉ before := by
  unfold splitOnce at h
  split at h
  · rename_i d after' hdrop
    cases h
    have hd : d = sep := by
      have hhead := List.head?_dropWhile_not (· ≠ sep) s
      rw [hdrop] at hhead
      simpa using hhead
    refine ⟨?_, fun hmem => ?_⟩
    · rw [← hd, ← hdrop, hd, List.takeWhile_append_dropWhile]
    · simpa using List.mem_takeWhile_imp hmem
  · cases h

theorem splitOnce_append {sep : Char} {before after : List Char} (h : sep ∉ before) :
    splitOnce sep (before ++ sep :: after) = some (before, after) := by
  have hbefore : ∀ c ∈ before, decide (c ≠ sep) = true := by
    intro c hc
    apply decide_eq_true
    rintro rfl
    exact h hc
  unfold splitOnce
  rw [List.dropWhile_append_of_pos hbefore, List.takeWhile_append_of_pos hbefore]
  simp

theorem rsplitOnce_append {sep : Char} {before after : List Char} (h : sep ∉ after) :
    rsplitOnce sep (before ++ sep :: after) = some (before, after) := by
  have hreverse : (before ++ sep :: after).reverse = after.reverse ++ sep :: before.reverse := by
    simp
  have hafter : sep ∉ after.reverse := by simpa using h
  unfold rsplitOnce
  rw [hreverse, splitOnce_append hafter]
  simp

theorem isDigit_bounds {c : Char} (h : c.isDigit = true) : 48 ≤ c.toNat ∧ c.toNat ≤ 57 := by
  rw [Char.isDigit, Bool.and_eq_true, decide_eq_true_eq, decide_eq_true_eq] at h
  exact h

theorem printed_not_whitespace {c : Char} (hlow : 33 ≤ c.toNat) (hhigh : c.toNat ≤ 126) :
    isWhitespace c = false := by
  have hspaces : ∀ n ∈ [0x20, 0x85, 0xA0, 0x1680, 0x2028, 0x2029, 0x202F, 0x205F, 0x3000],
      n < 33 ∨ 126 < n := by
    decide
  unfold isWhitespace
  rw [Bool.or_eq_false_iff, Bool.or_eq_false_iff]
  refine ⟨⟨?_, ?_⟩, ?_⟩
  · rw [Bool.and_eq_false_iff, decide_eq_false_iff_not, decide_eq_false_iff_not]
    omega
  · rw [Bool.and_eq_false_iff, decide_eq_false_iff_not, decide_eq_false_iff_not]
    omega
  · rw [Bool.eq_false_iff]
    intro hmem
    have hout := hspaces c.toNat (List.contains_iff_mem.mp hmem)
    omega

theorem digit_not_whitespace {c : Char} (h : c.isDigit = true) : isWhitespace c = false := by
  obtain ⟨hlow, hhigh⟩ := isDigit_bounds h
  exact printed_not_whitespace (by omega) (by omega)

theorem not_mem_toDigits {c : Char} (hc : c.isDigit = false) (n : Nat) : c ∉ Nat.toDigits 10 n := by
  intro hmem
  rw [Nat.isDigit_of_mem_toDigits (by decide) (by decide) hmem] at hc
  cases hc

theorem parseU16_toDigits (n : UInt16) : parseU16 (Nat.toDigits 10 n.toNat) = some n := by
  have hplus : stripPrefix ['+'] (Nat.toDigits 10 n.toNat) = none := by
    unfold stripPrefix
    rw [if_neg]
    rw [List.isPrefixOf_iff_prefix]
    rintro ⟨rest, hrest⟩
    apply not_mem_toDigits (c := '+') rfl n.toNat
    rw [← hrest]
    simp
  have hvalue : (Nat.toDigits 10 n.toNat).foldl (fun n c => 10 * n + (c.toNat - '0'.toNat)) 0 =
      n.toNat := by
    rw [← Nat.ofDigitChars_eq_foldl, Nat.ofDigitChars_ten_toDigits]
  have hdigits : (Nat.toDigits 10 n.toNat).all Char.isDigit = true := by
    rw [List.all_eq_true]
    exact fun c hc => Nat.isDigit_of_mem_toDigits (by decide) (by decide) hc
  unfold parseU16
  rw [hplus]
  simp only [Option.getD_none, hvalue]
  rw [if_pos ⟨Nat.toDigits_ne_nil, hdigits, n.toNat_lt⟩, UInt16.ofNat_toNat]

/-- Neither end is white space. -/
structure Trimmed (s : List Char) : Prop where
  head : ∀ c, s.head? = some c → isWhitespace c = false
  last : ∀ c, s.getLast? = some c → isWhitespace c = false

theorem trimmed_trim (s : List Char) : Trimmed (trim s) := by
  constructor
  · intro c hc
    obtain ⟨rest, hrest⟩ := List.rdropWhile_prefix isWhitespace (l := s.dropWhile isWhitespace)
    have hhead : (s.dropWhile isWhitespace).head? = some c := by
      rw [← hrest, List.head?_append]
      show (trim s).head?.or rest.head? = some c
      rw [hc]
      rfl
    have hnot := List.head?_dropWhile_not isWhitespace s
    rw [hhead] at hnot
    exact hnot
  · intro c hc
    obtain ⟨hne, rfl⟩ := List.mem_getLast?_eq_getLast hc
    have hlast := List.rdropWhile_last_not isWhitespace (s.dropWhile isWhitespace) hne
    exact Bool.eq_false_iff.mpr hlast

theorem Trimmed.trim_eq {s : List Char} (h : Trimmed s) : trim s = s := by
  have hdrop : s.dropWhile isWhitespace = s := by
    cases s with
    | nil => rfl
    | cons c cs => exact List.dropWhile_cons_of_neg (by simp [h.head c rfl])
  unfold trim
  rw [hdrop, List.rdropWhile_eq_self_iff]
  intro hne
  have hlast := h.last _ (List.getLast?_eq_some_getLast hne)
  exact Bool.eq_false_iff.mp hlast

/-- A character that is no white space stays, and all around it is trimmed apart. -/
theorem trim_append_cons {before after : List Char} {c : Char} (hc : isWhitespace c = false) :
    trim (before ++ c :: after) =
      before.dropWhile isWhitespace ++ c :: after.rdropWhile isWhitespace := by
  have hdrop : ∀ s rest : List Char,
      (s ++ c :: rest).dropWhile isWhitespace = s.dropWhile isWhitespace ++ c :: rest := by
    intro s rest
    induction s with
    | nil => exact List.dropWhile_cons_of_neg (by simp [hc])
    | cons d ds ih =>
        by_cases hd : isWhitespace d = true
        · rw [List.cons_append, List.dropWhile_cons_of_pos hd, List.dropWhile_cons_of_pos hd, ih]
        · rw [List.cons_append, List.dropWhile_cons_of_neg hd, List.dropWhile_cons_of_neg hd]
          rfl
  unfold trim List.rdropWhile
  rw [hdrop, List.reverse_append, List.reverse_cons, List.append_assoc, List.singleton_append,
    hdrop]
  simp

theorem mem_dropWhile {s : List Char} {c : Char} (hc : isWhitespace c = false) (h : c ∈ s) :
    c ∈ s.dropWhile isWhitespace := by
  rw [← List.takeWhile_append_dropWhile (p := isWhitespace) (l := s), List.mem_append] at h
  refine h.resolve_left fun hmem => ?_
  rw [List.mem_takeWhile_imp hmem] at hc
  cases hc

theorem mem_rdropWhile {s : List Char} {c : Char} (hc : isWhitespace c = false) (h : c ∈ s) :
    c ∈ s.rdropWhile isWhitespace := by
  unfold List.rdropWhile
  rw [List.mem_reverse]
  exact mem_dropWhile hc (List.mem_reverse.mpr h)

theorem subset_of_contains {s part : List Char} (h : contains s part = true) : part ⊆ s := by
  unfold contains at h
  obtain ⟨rest, hrest, hpart⟩ := List.any_eq_true.mp h
  have hprefix : part ⊆ rest := (List.isPrefixOf_iff_prefix.mp hpart).subset
  rw [List.mem_tails] at hrest
  exact List.Subset.trans hprefix hrest.subset

theorem contains_append (before part after : List Char) :
    contains (before ++ part ++ after) part = true := by
  unfold contains
  rw [List.any_eq_true]
  refine ⟨part ++ after, ?_, ?_⟩
  · rw [List.mem_tails, List.append_assoc]
    exact List.suffix_append _ _
  · rw [List.isPrefixOf_iff_prefix]
    exact List.prefix_append _ _

theorem splitOnceText_eq_some {sep s before after : List Char} :
    splitOnceText sep s = some (before, after) ↔ s = before ++ sep ++ after ∧
      ∀ before' after', s = before' ++ sep ++ after' → before.length ≤ before'.length := by
  induction s generalizing before with
  | nil =>
      unfold splitOnceText
      constructor
      · intro h
        split at h
        · rename_i hsep
          cases h
          exact ⟨by simp [hsep], fun _ _ _ => Nat.zero_le _⟩
        · cases h
      · rintro ⟨heq, -⟩
        have hnil := List.append_eq_nil_iff.mp heq.symm
        obtain ⟨rfl, rfl⟩ := List.append_eq_nil_iff.mp hnil.1
        rw [hnil.2]
        rfl
  | cons c cs ih =>
      unfold splitOnceText
      split
      · -- The text starts with the separator, so nothing comes before its first place.
        rename_i hpre
        obtain ⟨rest, hrest⟩ := List.isPrefixOf_iff_prefix.mp hpre
        constructor
        · intro h
          cases h
          refine ⟨?_, fun _ _ _ => Nat.zero_le _⟩
          rw [← hrest]
          simp
        · rintro ⟨heq, hfirst⟩
          have hzero := hfirst [] rest (by simpa using hrest.symm)
          have hbefore := List.eq_nil_of_length_eq_zero (Nat.le_zero.mp hzero)
          subst hbefore
          rw [heq]
          simp
      · rename_i hpre
        have hnot : ¬ sep <+: c :: cs := fun h => hpre (List.isPrefixOf_iff_prefix.mpr h)
        constructor
        · intro h
          obtain ⟨⟨before', after'⟩, hcs, hpair⟩ := Option.map_eq_some_iff.mp h
          cases hpair
          obtain ⟨heq, hfirst⟩ := ih.mp hcs
          refine ⟨by rw [heq]; rfl, ?_⟩
          intro b a hba
          cases b with
          | nil => exact absurd ⟨a, by simpa using hba.symm⟩ hnot
          | cons b bs =>
              have hle := hfirst bs a (List.cons.inj hba).2
              rw [List.length_cons, List.length_cons]
              omega
        · rintro ⟨heq, hfirst⟩
          cases before with
          | nil => exact absurd ⟨after, by simpa using heq.symm⟩ hnot
          | cons b bs =>
              obtain ⟨rfl, hcs⟩ := List.cons.inj heq
              rw [ih.mpr ⟨hcs, ?_⟩]
              · rfl
              · intro b' a' hba
                have hle := hfirst (c :: b') a' (by rw [hba]; rfl)
                rw [List.length_cons, List.length_cons] at hle
                omega

theorem trimEndMatches_eq_iff {c : Char} {s name : List Char} :
    trimEndMatches c s = name ↔
      ∃ rest, s = name ++ rest ∧ (∀ d ∈ rest, d = c) ∧ name.getLast? ≠ some c := by
  constructor
  · rintro rfl
    refine ⟨s.rtakeWhile (· = c), List.rdropWhile_append_rtakeWhile.symm, ?_, ?_⟩
    · intro d hd
      simpa using List.mem_rtakeWhile_imp hd
    · intro hlast
      obtain ⟨hne, heq⟩ := List.mem_getLast?_eq_getLast hlast
      have hnot := List.rdropWhile_last_not (· = c) s hne
      exact hnot (decide_eq_true heq.symm)
  · rintro ⟨rest, rfl, hrest, hlast⟩
    induction rest using List.reverseRecOn with
    | nil =>
        rw [List.append_nil]
        unfold trimEndMatches
        rw [List.rdropWhile_eq_self_iff]
        intro hne heq
        apply hlast
        rw [List.getLast?_eq_some_getLast hne, of_decide_eq_true heq]
    | append_singleton rest d ih =>
        have hd : d = c := hrest d (by simp)
        have hstep : trimEndMatches c (name ++ (rest ++ [d])) = trimEndMatches c (name ++ rest) := by
          unfold trimEndMatches
          rw [← List.append_assoc]
          exact List.rdropWhile_concat_pos _ _ _ (decide_eq_true hd)
        rw [hstep]
        exact ih fun e he => hrest e (by simp [he])

/-! ## Occurrences of a text in another -/

/-- How often `pat` stands in the text, overlaps counted. -/
def occurrences (pat s : List Char) : Nat := s.tails.countP fun rest => pat.isPrefixOf rest

/-- No place of `s` is one where `pat` can start, whatever follows `s`. -/
def Clear (pat s : List Char) : Prop :=
  ∀ rest, rest <:+ s → rest ≠ [] → ¬ pat <+: rest ∧ ¬ rest <+: pat

instance (pat s : List Char) : Decidable (Clear pat s) :=
  decidable_of_iff (∀ rest ∈ s.tails, rest ≠ [] → ¬ pat <+: rest ∧ ¬ rest <+: pat) <| by
    simp only [List.mem_tails, Clear]

theorem Clear.tail {pat s : List Char} {c : Char} (h : Clear pat (c :: s)) : Clear pat s :=
  fun rest hrest => h rest (hrest.trans (List.suffix_cons c s))

theorem Clear.append {pat s t : List Char} (hs : Clear pat s) (ht : Clear pat t) :
    Clear pat (s ++ t) := by
  induction s with
  | nil => exact ht
  | cons c s ih =>
      intro rest hrest hne
      rcases List.suffix_cons_iff.mp hrest with rfl | htail
      · obtain ⟨hpre, hpart⟩ := hs (c :: s) List.suffix_rfl (List.cons_ne_nil c s)
        constructor
        · intro h
          have hboth := List.prefix_or_prefix_of_prefix h (List.prefix_append (c :: s) t)
          exact hboth.elim hpre hpart
        · intro h
          exact hpart ((List.prefix_append (c :: s) t).trans h)
      · exact ih hs.tail rest htail hne

theorem Clear.not_prefix {pat s t : List Char} {c : Char} (h : Clear pat (c :: s)) :
    ¬ pat <+: c :: s ++ t := by
  intro hpre
  obtain ⟨hnot, hpart⟩ := h (c :: s) List.suffix_rfl (List.cons_ne_nil c s)
  have hboth := List.prefix_or_prefix_of_prefix hpre (List.prefix_append (c :: s) t)
  exact hboth.elim hnot hpart

/-- Texts without the first character of the pattern. -/
theorem clear_of_not_mem {first : Char} {pat s : List Char} (hpat : pat.head? = some first)
    (h : first ∉ s) : Clear pat s := by
  obtain ⟨pat, rfl⟩ := List.head?_eq_some_iff.mp hpat
  intro rest hrest hne
  cases rest with
  | nil => exact absurd rfl hne
  | cons c rest =>
      have hc : first ≠ c := by
        rintro rfl
        exact h (hrest.subset List.mem_cons_self)
      constructor
      · intro hpre
        exact hc (List.cons_prefix_cons.mp hpre).1
      · intro hpre
        exact hc (List.cons_prefix_cons.mp hpre).1.symm

theorem occurrences_append {pat s t : List Char} (h : Clear pat s) :
    occurrences pat (s ++ t) = occurrences pat t := by
  induction s with
  | nil => rfl
  | cons c s ih =>
      have hnot : pat.isPrefixOf (c :: s ++ t) = false := by
        rw [Bool.eq_false_iff, ne_eq, List.isPrefixOf_iff_prefix]
        exact h.not_prefix
      calc occurrences pat (c :: s ++ t)
          = occurrences pat (s ++ t) := List.countP_cons_of_neg (Bool.eq_false_iff.mp hnot)
        _ = occurrences pat t := ih h.tail

theorem occurrences_cons_le {pat s : List Char} {c : Char} :
    occurrences pat (c :: s) ≤ 1 + occurrences pat s := by
  unfold occurrences
  rw [List.tails_cons, List.countP_cons]
  split <;> omega

theorem occurrences_clear {pat s : List Char} (hpat : pat ≠ []) (h : Clear pat s) :
    occurrences pat s = 0 := by
  have happ : occurrences pat (s ++ []) = occurrences pat [] := occurrences_append h
  rw [List.append_nil] at happ
  rw [happ]
  cases pat with
  | nil => exact absurd rfl hpat
  | cons c pat => rfl

theorem replace_append {pat rep s t : List Char} (h : Clear pat s) :
    replace pat rep (s ++ t) = s ++ replace pat rep t := by
  induction s with
  | nil => rfl
  | cons c s ih =>
      have hnot : ¬ pat.isPrefixOf (c :: s ++ t) = true := by
        rw [List.isPrefixOf_iff_prefix]
        exact h.not_prefix
      calc replace pat rep (c :: s ++ t)
          = c :: replace pat rep (s ++ t) := if_neg hnot
        _ = c :: s ++ replace pat rep t := by rw [ih h.tail]; rfl

theorem replaceFrom_drop {pat rep : List Char} (skip : Nat) (s : List Char) :
    replaceFrom pat rep skip s = replaceFrom pat rep 0 (s.drop skip) := by
  induction s generalizing skip with
  | nil => cases skip <;> rfl
  | cons c s ih =>
      cases skip with
      | zero => rfl
      | succ skip => exact ih skip

theorem replace_match {pat rep t : List Char} (hpat : pat ≠ []) :
    replace pat rep (pat ++ t) = rep ++ replace pat rep t := by
  obtain ⟨first, pat, rfl⟩ := List.exists_cons_of_ne_nil hpat
  have hpre : (first :: pat).isPrefixOf (first :: pat ++ t) = true := by
    rw [List.isPrefixOf_iff_prefix]
    exact List.prefix_append _ _
  calc replace (first :: pat) rep (first :: pat ++ t)
      = rep ++ replaceFrom (first :: pat) rep pat.length (pat ++ t) := if_pos hpre
    _ = rep ++ replace (first :: pat) rep t := by
        rw [replaceFrom_drop, List.drop_left]
        rfl

theorem replace_clear {pat rep s : List Char} (h : Clear pat s) : replace pat rep s = s := by
  have happ : replace pat rep (s ++ []) = s ++ replace pat rep [] := replace_append h
  simpa [replace, replaceFrom] using happ

end DatumConnect.Lib.Text
