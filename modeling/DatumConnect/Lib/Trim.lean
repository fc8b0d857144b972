import Mathlib.Data.List.DropRight
/-!
# Trimming

What a list is without the elements of one kind at its ends, and without a pair of equal elements
around what is then left.
-/

namespace DatumConnect.Lib.Trim

variable {α : Type} (white : α → Bool)

def trim (s : List α) : List α := (s.dropWhile white).rdropWhile white

/-- Neither end is of the kind. -/
def Bare (s : List α) : Prop := ∀ c, s.head? = some c ∨ s.getLast? = some c → white c = false

theorem trim_eq_iff {s : List α} : trim white s = s ↔ Bare white s := by
  constructor
  · intro h c hc
    unfold trim at h
    rcases hc with hc | hc
    · have hnot := List.head?_dropWhile_not white s
      have hdrop : s.dropWhile white = s := by
        refine (List.dropWhile_suffix white).eq_of_length_le ?_
        have hle := (List.rdropWhile_prefix white (s.dropWhile white)).length_le
        rwa [h] at hle
      rw [hdrop, hc] at hnot
      exact hnot
    · rw [← h] at hc
      obtain ⟨hne, rfl⟩ := List.mem_getLast?_eq_getLast hc
      exact Bool.eq_false_iff.mpr (List.rdropWhile_last_not white (s.dropWhile white) hne)
  · intro h
    have hdrop : s.dropWhile white = s := by
      cases s with
      | nil => rfl
      | cons c cs => exact List.dropWhile_cons_of_neg (by simp [h c (Or.inl rfl)])
    unfold trim
    rw [hdrop, List.rdropWhile_eq_self_iff]
    intro hne
    have hlast := h _ (Or.inr (List.getLast?_eq_some_getLast hne))
    exact Bool.eq_false_iff.mp hlast

theorem bare_trim (s : List α) : Bare white (trim white s) := by
  intro c hc
  rcases hc with hc | hc
  · obtain ⟨rest, hrest⟩ := List.rdropWhile_prefix white (l := s.dropWhile white)
    have hhead : (s.dropWhile white).head? = some c := by
      rw [← hrest, List.head?_append]
      show (trim white s).head?.or rest.head? = some c
      rw [hc]
      rfl
    have hnot := List.head?_dropWhile_not white s
    rw [hhead] at hnot
    exact hnot
  · obtain ⟨hne, rfl⟩ := List.mem_getLast?_eq_getLast hc
    exact Bool.eq_false_iff.mpr (List.rdropWhile_last_not white (s.dropWhile white) hne)

variable {white}

/-- More of the kind around a list makes no difference. -/
theorem trim_pad {before after : List α} (hbefore : ∀ c ∈ before, white c = true)
    (hafter : ∀ c ∈ after, white c = true) (s : List α) :
    trim white (before ++ s ++ after) = trim white s := by
  have hrdrop : ∀ t : List α, (t ++ after).rdropWhile white = t.rdropWhile white := by
    intro t
    unfold List.rdropWhile
    rw [List.reverse_append, List.dropWhile_append_of_pos]
    intro c hc
    exact hafter c (List.mem_reverse.mp hc)
  unfold trim
  rw [List.append_assoc, List.dropWhile_append_of_pos hbefore, List.dropWhile_append]
  split
  · rename_i hempty
    have hnil : s.dropWhile white = [] := List.isEmpty_iff.mp hempty
    rw [hnil, List.dropWhile_eq_nil_iff.mpr hafter]
  · exact hrdrop _

theorem exists_pad (white : α → Bool) (s : List α) :
    ∃ before after, s = before ++ trim white s ++ after ∧ (∀ c ∈ before, white c = true) ∧
      ∀ c ∈ after, white c = true := by
  refine ⟨s.takeWhile white, (s.dropWhile white).rtakeWhile white, ?_,
    fun c => List.mem_takeWhile_imp, fun c hc => ?_⟩
  · unfold trim
    rw [List.append_assoc, List.rdropWhile_append_rtakeWhile, List.takeWhile_append_dropWhile]
  · exact List.mem_rtakeWhile_imp hc

/-- Trimming what has been trimmed of less. -/
theorem trim_trim {less : α → Bool} (h : ∀ c, less c = true → white c = true) (s : List α) :
    trim white (trim less s) = trim white s := by
  obtain ⟨before, after, hs, hbefore, hafter⟩ := exists_pad less s
  conv_rhs => rw [hs]
  exact (trim_pad (fun c hc => h c (hbefore c hc)) (fun c hc => h c (hafter c hc)) _).symm

theorem trim_map {f : α → α} (hf : ∀ c, white (f c) = white c) (s : List α) :
    trim white (s.map f) = (trim white s).map f := by
  have hcomp : white ∘ f = white := funext hf
  unfold trim List.rdropWhile
  rw [List.dropWhile_map, hcomp, ← List.map_reverse, List.dropWhile_map, hcomp, List.map_reverse]

/-! ## A pair around -/

/-- One of the marks at both ends. -/
def Quoted (marks : List α) (s : List α) : Prop :=
  ∃ q ∈ marks, ∃ inner, s = q :: (inner ++ [q])

theorem Quoted.bare {marks s : List α} (hmarks : ∀ q ∈ marks, white q = false)
    (h : Quoted marks s) : Bare white s := by
  obtain ⟨q, hq, inner, rfl⟩ := h
  intro c hc
  have hsame : c = q := by
    rcases hc with hc | hc
    · exact (Option.some.inj hc).symm
    · rw [← List.cons_append, List.getLast?_concat] at hc
      exact (Option.some.inj hc).symm
  rw [hsame]
  exact hmarks q hq

variable [DecidableEq α]

/-- What stands between the marks, trimmed; else the list itself. -/
def unquote (white : α → Bool) (marks s : List α) : List α :=
  match s with
  | q :: rest =>
      if marks.contains q && rest.getLast? = some q then trim white rest.dropLast else s
  | [] => s

/-- The list trimmed, without a pair of marks around it, trimmed again. -/
def form (white : α → Bool) (marks s : List α) : List α := unquote white marks (trim white s)

variable {marks : List α}

theorem unquote_quoted {q : α} (hq : q ∈ marks) (inner : List α) :
    unquote white marks (q :: (inner ++ [q])) = trim white inner := by
  unfold unquote
  simp [hq]

theorem length_unquote_lt {s : List α} (h : Quoted marks s) :
    (unquote white marks s).length < s.length := by
  obtain ⟨q, hq, inner, rfl⟩ := h
  obtain ⟨before, after, hs, _, _⟩ := exists_pad white inner
  have hlong := congrArg List.length hs
  rw [unquote_quoted hq]
  simp only [List.length_append, List.length_cons, List.length_nil] at hlong ⊢
  omega

theorem unquote_of_not_quoted {s : List α} (h : ¬ Quoted marks s) : unquote white marks s = s := by
  unfold unquote
  split
  · rename_i q rest
    rw [if_neg]
    intro hboth
    obtain ⟨hmark, hlast⟩ := Bool.and_eq_true_iff.mp hboth
    obtain ⟨inner, rfl⟩ := List.getLast?_eq_some_iff.mp (of_decide_eq_true hlast)
    exact h ⟨q, List.contains_iff_mem.mp hmark, inner, rfl⟩
  · rfl

theorem bare_form (s : List α) : Bare white (form white marks s) := by
  unfold form
  by_cases hquoted : Quoted marks (trim white s)
  · obtain ⟨q, hq, inner, heq⟩ := hquoted
    rw [heq, unquote_quoted hq]
    exact bare_trim white inner
  · rw [unquote_of_not_quoted hquoted]
    exact bare_trim white s

theorem form_quotes (hmarks : ∀ q ∈ marks, white q = false) {q : α} (hq : q ∈ marks) (s : List α) :
    form white marks (q :: (s ++ [q])) = trim white s := by
  have hquoted : Quoted marks (q :: (s ++ [q])) := ⟨q, hq, s, rfl⟩
  rw [form, (trim_eq_iff white).mpr (hquoted.bare hmarks), unquote_quoted hq]

/-- A map that keeps the kind and the marks apart goes through. -/
theorem form_map {f : α → α} (hwhite : ∀ c, white (f c) = white c)
    (hmarks : ∀ q ∈ marks, ∀ c, f c = q ↔ c = q) (s : List α) :
    form white marks (s.map f) = (form white marks s).map f := by
  unfold form
  rw [trim_map hwhite]
  generalize trim white s = t
  by_cases hquoted : Quoted marks t
  · obtain ⟨q, hq, inner, rfl⟩ := hquoted
    have hfix : f q = q := (hmarks q hq q).mpr rfl
    rw [unquote_quoted hq, List.map_cons, List.map_append, List.map_singleton, hfix,
      unquote_quoted hq, trim_map hwhite]
  · have hmapped : ¬ Quoted marks (t.map f) := by
      rintro ⟨q, hq, inner, heq⟩
      obtain ⟨c, rest, rfl, hc, hrest⟩ := List.map_eq_cons_iff.mp heq
      obtain ⟨init, last, rfl, rfl, hlast⟩ := List.map_eq_append_iff.mp hrest
      obtain ⟨d, rfl, hd⟩ := List.map_eq_singleton_iff.mp hlast
      rw [(hmarks q hq c).mp hc, (hmarks q hq d).mp hd] at hquoted
      exact hquoted ⟨q, hq, init, rfl⟩
    rw [unquote_of_not_quoted hquoted, unquote_of_not_quoted hmapped]

/-- In its form, a list that is still in marks changes once more, and no other does. -/
theorem form_eq_self_iff {s : List α} (h : Bare white s) :
    form white marks s = s ↔ ¬ Quoted marks s := by
  unfold form
  rw [(trim_eq_iff white).mpr h]
  constructor
  · intro hsame hquoted
    have hlt : (unquote white marks s).length < s.length := length_unquote_lt hquoted
    rw [hsame] at hlt
    exact absurd hlt (Nat.lt_irrefl _)
  · exact unquote_of_not_quoted

end DatumConnect.Lib.Trim
