import Mathlib.Data.List.Infix
import Mathlib.Data.List.Enum
import Mathlib.Data.List.Nodup
/-!
# Escape sequences in a log line

`strip_ansi` beside what it should take off a line: complete CSI sequences, and of one that is cut
off or goes wrong no more than itself.
-/

namespace DatumConnect.Logs

def esc : Char := Char.ofNat 0x1b

/-- `'@'..='~'` -/
def isFinal (c : Char) : Bool := 0x40 ≤ c.toNat && c.toNat ≤ 0x7e

/-- The parameter and the intermediate bytes. -/
def isParameter (c : Char) : Bool := 0x20 ≤ c.toNat && c.toNat ≤ 0x3f

/-- Where a scan is: in the text, before the bracket of an introducer, or behind it. -/
inductive Mode where
  | text
  | bracket
  | sequence

section Scan

variable {α : Type} (char : α → Char)

/-- An introducer begins here. -/
def introduces (c : α) (rest : List α) : Bool := char c = esc && (rest.head?.map char) = some '['

/-- `strip_ansi`, of anything that stands for characters. -/
def strip : Mode → List α → List α
  | _, [] => []
  | .text, c :: cs => if introduces char c cs then strip .bracket cs else c :: strip .text cs
  | .bracket, _ :: cs => strip .sequence cs
  | .sequence, c :: cs => if isFinal (char c) then strip .text cs else strip .sequence cs

/-- What stands outside of sequences.  A sequence goes on over parameters to its final character,
and where there is none it ends before the character that is no parameter. -/
def outside : Mode → List α → List α
  | _, [] => []
  | .text, c :: cs => if introduces char c cs then outside .bracket cs else c :: outside .text cs
  | .bracket, _ :: cs => outside .sequence cs
  | .sequence, c :: cs =>
      if isParameter (char c) then outside .sequence cs
      else if isFinal (char c) then outside .text cs
      else if introduces char c cs then outside .bracket cs
      else c :: outside .text cs

/-- Every sequence has its final character or ends the text, but for one before a second introducer
that has no sequence behind it. -/
def Ended : Mode → List α → Prop
  | _, [] => True
  | .text, c :: cs => if introduces char c cs then Ended .bracket cs else Ended .text cs
  | .bracket, _ :: cs => Ended .sequence cs
  | .sequence, [c] => isParameter (char c) = true ∨ isFinal (char c) = true
  | .sequence, c :: d :: cs =>
      if isParameter (char c) then Ended .sequence (d :: cs)
      else if isFinal (char c) then Ended .text (d :: cs)
      else introduces char c (d :: cs) = true ∧
        (∀ e ∈ cs.head?, isParameter (char e) = false ∧ isFinal (char e) = false) ∧ Ended .text cs

end Scan

def stripAnsi (s : String) : String := String.ofList (strip id .text s.toList)

/-- No introducer is within. -/
def Clear (s : List Char) : Prop := ¬ [esc, '['] <:+: s

/-- All sequences are off the line, and what goes is within sequences: the characters that come
through are those at the places outside of them. -/
structure Cleaned (s : String) : Prop where
  complete : Clear (stripAnsi s).toList
  again : stripAnsi (stripAnsi s) = stripAnsi s
  losesNothing : strip Prod.fst .text s.toList.zipIdx = outside Prod.fst .text s.toList.zipIdx

/-- No sequence goes on over what is not its own, and what is left of the line has no introducer
that was none before. -/
structure Regular (s : String) : Prop where
  ended : Ended id .text s.toList
  clear : Clear (outside id .text s.toList)

/-! ## Characters and what stands for them -/

section Places

variable {α : Type} {char : α → Char}

theorem isFinal_of_isParameter {c : Char} (h : isParameter c = true) : isFinal c = false := by
  unfold isParameter at h
  unfold isFinal
  rw [Bool.and_eq_true, decide_eq_true_eq, decide_eq_true_eq] at h
  rw [Bool.and_eq_false_iff, decide_eq_false_iff_not, decide_eq_false_iff_not]
  omega

theorem introduces_map (c : α) (rest : List α) :
    introduces id (char c) (rest.map char) = introduces char c rest := by
  unfold introduces
  rw [List.head?_map, Option.map_id]
  rfl

theorem map_strip (mode : Mode) (l : List α) :
    (strip char mode l).map char = strip id mode (l.map char) := by
  induction l generalizing mode with
  | nil => cases mode <;> rfl
  | cons c cs ih =>
      cases mode with
      | text =>
          rw [List.map_cons, strip, strip, introduces_map]
          split
          · exact ih .bracket
          · rw [List.map_cons, ih]
      | bracket => exact ih .sequence
      | sequence =>
          rw [List.map_cons, strip, strip]
          simp only [id_eq]
          split
          · exact ih .text
          · exact ih .sequence

theorem map_outside (mode : Mode) (l : List α) :
    (outside char mode l).map char = outside id mode (l.map char) := by
  induction l generalizing mode with
  | nil => cases mode <;> rfl
  | cons c cs ih =>
      cases mode with
      | text =>
          rw [List.map_cons, outside, outside, introduces_map]
          split
          · exact ih .bracket
          · rw [List.map_cons, ih]
      | bracket => exact ih .sequence
      | sequence =>
          rw [List.map_cons, outside, outside, introduces_map]
          simp only [id_eq]
          split
          · exact ih .sequence
          · split
            · exact ih .text
            · split
              · exact ih .bracket
              · rw [List.map_cons, ih]

theorem ended_map (mode : Mode) (l : List α) :
    Ended id mode (l.map char) ↔ Ended char mode l := by
  induction mode, l using Ended.induct char with
  | case1 mode => cases mode <;> exact Iff.rfl
  | case2 c cs hintro ih =>
      rw [List.map_cons, Ended, Ended, introduces_map, if_pos hintro, if_pos hintro, ih]
  | case3 c cs hintro ih =>
      rw [List.map_cons, Ended, Ended, introduces_map, if_neg hintro, if_neg hintro, ih]
  | case4 c cs ih => exact ih
  | case5 c => exact Iff.rfl
  | case6 c d cs hparameter ih =>
      change (if isParameter (char c) = true then Ended id .sequence ((d :: cs).map char) else _) ↔
        if isParameter (char c) = true then Ended char .sequence (d :: cs) else _
      rw [if_pos hparameter, if_pos hparameter, ih]
  | case7 c d cs hparameter hfinal ih =>
      change (if isParameter (char c) = true then _ else
          if isFinal (char c) = true then Ended id .text ((d :: cs).map char) else _) ↔
        if isParameter (char c) = true then _ else
          if isFinal (char c) = true then Ended char .text (d :: cs) else _
      rw [if_neg hparameter, if_neg hparameter, if_pos hfinal, if_pos hfinal, ih]
  | case8 c d cs hparameter hfinal ih =>
      have hhead : (∀ e ∈ (cs.map char).head?, isParameter e = false ∧ isFinal e = false) ↔
          ∀ e ∈ cs.head?, isParameter (char e) = false ∧ isFinal (char e) = false := by
        cases cs <;> simp
      change (if isParameter (char c) = true then _ else if isFinal (char c) = true then _ else
          introduces id (char c) ((d :: cs).map char) = true ∧
            (∀ e ∈ (cs.map char).head?, isParameter e = false ∧ isFinal e = false) ∧
            Ended id .text (cs.map char)) ↔
        if isParameter (char c) = true then _ else if isFinal (char c) = true then _ else
          introduces char c (d :: cs) = true ∧ _
      rw [if_neg hparameter, if_neg hparameter, if_neg hfinal, if_neg hfinal, introduces_map,
        hhead, ih]

theorem strip_sublist (mode : Mode) (l : List α) : (strip char mode l).Sublist l := by
  induction l generalizing mode with
  | nil => cases mode <;> exact List.Sublist.slnil
  | cons c cs ih =>
      cases mode with
      | text =>
          unfold strip
          split
          · exact (ih .bracket).cons c
          · exact (ih .text).cons_cons c
      | bracket => exact (ih .sequence).cons c
      | sequence =>
          unfold strip
          split
          · exact (ih .text).cons c
          · exact (ih .sequence).cons c

theorem outside_sublist (mode : Mode) (l : List α) : (outside char mode l).Sublist l := by
  induction l generalizing mode with
  | nil => cases mode <;> exact List.Sublist.slnil
  | cons c cs ih =>
      cases mode with
      | text =>
          unfold outside
          split
          · exact (ih .bracket).cons c
          · exact (ih .text).cons_cons c
      | bracket => exact (ih .sequence).cons c
      | sequence =>
          unfold outside
          split
          · exact (ih .sequence).cons c
          · split
            · exact (ih .text).cons c
            · split
              · exact (ih .bracket).cons c
              · exact (ih .text).cons_cons c

/-! ## The same places -/

theorem not_introduces_of {c : α} {rest : List α}
    (h : isParameter (char c) = true ∨ isFinal (char c) = true) :
    introduces char c rest = false := by
  have hesc : char c ≠ esc := by
    intro heq
    rw [heq] at h
    revert h
    decide
  unfold introduces
  rw [Bool.and_eq_false_iff]
  exact Or.inl (decide_eq_false hesc)

/-- What is kept of the text cannot be what is kept behind it. -/
theorem cons_ne_of_sublist {c : α} {cs kept behind : List α} (hnew : c ∉ cs)
    (h : behind.Sublist cs) : c :: kept ≠ behind := by
  rintro rfl
  exact hnew (h.subset List.mem_cons_self)

/-- Behind a second introducer both read on as text, where no sequence is there. -/
theorem strip_text_eq_outside_sequence_iff {cs : List α} (h : cs.Nodup)
    (ih : strip char .text cs = outside char .text cs ↔ Ended char .text cs) :
    strip char .text cs = outside char .sequence cs ↔
      (∀ e ∈ cs.head?, isParameter (char e) = false ∧ isFinal (char e) = false) ∧
        Ended char .text cs := by
  cases cs with
  | nil => exact iff_of_true rfl ⟨nofun, trivial⟩
  | cons e es =>
      have hnew := (List.nodup_cons.mp h).1
      by_cases hbelongs : isParameter (char e) = true ∨ isFinal (char e) = true
      · have htext : strip char .text (e :: es) = e :: strip char .text es := by
          rw [strip, not_introduces_of hbelongs]
          rfl
        have hgone : (outside char .sequence (e :: es)).Sublist es := by
          unfold outside
          split
          · exact outside_sublist .sequence es
          · rename_i hparameter
            rw [if_pos (hbelongs.resolve_left hparameter)]
            exact outside_sublist .text es
        rw [htext]
        refine iff_of_false (cons_ne_of_sublist hnew hgone) ?_
        rintro ⟨hneither, _⟩
        obtain ⟨hparameter, hfinal⟩ := hneither e rfl
        rw [hparameter, hfinal] at hbelongs
        simp at hbelongs
      · obtain ⟨hparameter, hfinal⟩ := not_or.mp hbelongs
        have hsame : outside char .sequence (e :: es) = outside char .text (e :: es) := by
          conv_lhs => rw [outside, if_neg hparameter, if_neg hfinal]
          rw [outside]
        have hneither : ∀ e' ∈ (e :: es).head?,
            isParameter (char e') = false ∧ isFinal (char e') = false := by
          rintro e' ⟨⟩
          exact ⟨Bool.eq_false_iff.mpr hparameter, Bool.eq_false_iff.mpr hfinal⟩
        rw [hsame, ih]
        exact ⟨fun hended => ⟨hneither, hended⟩, fun hboth => hboth.2⟩

theorem strip_eq_outside_iff (mode : Mode) (l : List α) (h : l.Nodup) :
    strip char mode l = outside char mode l ↔ Ended char mode l := by
  induction mode, l using Ended.induct char with
  | case1 mode => cases mode <;> exact iff_of_true rfl trivial
  | case2 c cs hintro ih =>
      rw [strip, outside, Ended, if_pos hintro, if_pos hintro, if_pos hintro]
      exact ih (List.nodup_cons.mp h).2
  | case3 c cs hintro ih =>
      rw [strip, outside, Ended, if_neg hintro, if_neg hintro, if_neg hintro, List.cons_inj_right]
      exact ih (List.nodup_cons.mp h).2
  | case4 c cs ih =>
      rw [strip, outside, Ended]
      exact ih (List.nodup_cons.mp h).2
  | case5 c =>
      have hlast : introduces char c [] = false := Bool.and_false _
      by_cases hparameter : isParameter (char c) = true
      · have hgone : strip char .sequence [c] = [] := by
          rw [strip, isFinal_of_isParameter hparameter]
          rfl
        rw [hgone, outside, if_pos hparameter]
        exact iff_of_true rfl (Or.inl hparameter)
      · by_cases hfinal : isFinal (char c) = true
        · rw [strip, outside, if_pos hfinal, if_neg hparameter, if_pos hfinal]
          exact iff_of_true rfl (Or.inr hfinal)
        · rw [strip, outside, if_neg hfinal, if_neg hparameter, if_neg hfinal, hlast]
          exact iff_of_false nofun fun hended => hended.elim hparameter hfinal
  | case6 c d cs hparameter ih =>
      have hfinal : ¬ isFinal (char c) = true :=
        Bool.eq_false_iff.mp (isFinal_of_isParameter hparameter)
      rw [strip, outside, Ended, if_neg hfinal, if_pos hparameter, if_pos hparameter]
      exact ih (List.nodup_cons.mp h).2
  | case7 c d cs hparameter hfinal ih =>
      rw [strip, outside, Ended, if_pos hfinal, if_neg hparameter, if_neg hparameter,
        if_pos hfinal, if_pos hfinal]
      exact ih (List.nodup_cons.mp h).2
  | case8 c d cs hparameter hfinal ih =>
      obtain ⟨hnew, hrest⟩ := List.nodup_cons.mp h
      rw [strip, outside, Ended, if_neg hfinal, if_neg hparameter, if_neg hparameter,
        if_neg hfinal, if_neg hfinal]
      by_cases hintro : introduces char c (d :: cs) = true
      · -- The bracket ends the first sequence, and begins the second.
        have hbracket : char d = '[' := by
          have hhead := (Bool.and_eq_true_iff.mp hintro).2
          exact Option.some.inj (of_decide_eq_true hhead)
        have hends : strip char .sequence (d :: cs) = strip char .text cs := by
          rw [strip, hbracket]
          rfl
        have hdrop := (List.nodup_cons.mp hrest).2
        rw [if_pos hintro, hends, outside, strip_text_eq_outside_sequence_iff hdrop (ih hdrop)]
        exact ⟨fun hboth => ⟨hintro, hboth⟩, fun hboth => hboth.2⟩
      · rw [if_neg hintro]
        have hgone : (strip char .sequence (d :: cs)).Sublist (d :: cs) := strip_sublist _ _
        exact iff_of_false (cons_ne_of_sublist hnew hgone).symm fun hended => hintro hended.1

end Places

/-! ## Once more -/

/-- A text without introducers is left as it is. -/
theorem strip_of_clear {l : List Char} (h : Clear l) : strip id .text l = l := by
  induction l with
  | nil => rfl
  | cons c cs ih =>
      have hintro : introduces id c cs = false := by
        rw [← Bool.not_eq_true]
        intro hintro
        obtain ⟨hesc, hhead⟩ := Bool.and_eq_true_iff.mp hintro
        rw [Option.map_id] at hhead
        obtain ⟨rest, rfl⟩ := List.head?_eq_some_iff.mp (of_decide_eq_true hhead)
        have hc : c = esc := of_decide_eq_true hesc
        rw [hc] at h
        exact h ⟨[], rest, rfl⟩
      have hrest : Clear cs := fun hinfix => h (List.IsInfix.trans hinfix (List.suffix_cons c cs).isInfix)
      rw [strip, hintro, ih hrest]
      rfl

theorem zipIdx_nodup (s : List Char) : s.zipIdx.Nodup := by
  apply List.Nodup.of_map Prod.snd
  rw [List.zipIdx_map_snd]
  exact List.nodup_range'

theorem cleaned_iff (s : String) : Cleaned s ↔ Regular s := by
  have hplaces : strip Prod.fst .text s.toList.zipIdx = outside Prod.fst .text s.toList.zipIdx ↔
      Ended id .text s.toList := by
    rw [strip_eq_outside_iff _ _ (zipIdx_nodup s.toList), ← ended_map, List.zipIdx_map_fst]
  have hsame : Ended id .text s.toList →
      (stripAnsi s).toList = outside id .text s.toList := by
    intro hended
    have hmapped := congrArg (List.map Prod.fst) (hplaces.mpr hended)
    rw [map_strip, map_outside, List.zipIdx_map_fst] at hmapped
    rw [stripAnsi, String.toList_ofList, hmapped]
  constructor
  · intro h
    have hended := hplaces.mp h.losesNothing
    refine ⟨hended, ?_⟩
    rw [← hsame hended]
    exact h.complete
  · intro h
    have hclear : Clear (stripAnsi s).toList := by
      rw [hsame h.ended]
      exact h.clear
    refine ⟨hclear, ?_, hplaces.mpr h.ended⟩
    conv_lhs => rw [stripAnsi, strip_of_clear hclear]
    exact String.ofList_toList

/-- Without the sequence between them, an escape and a bracket make an introducer. -/
theorem halves_joined : ¬ Cleaned "\x1b\x1b[m[" := by
  intro h
  have hagain := h.again
  revert hagain
  decide +kernel

end DatumConnect.Logs
