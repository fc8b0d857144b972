import Mathlib.Data.List.Induction
/-!
# Lawful logs

A log is lawful if each of its entries may follow the entries before it.
-/

namespace DatumConnect.Lib

variable {E : Type} (may : List E → E → Prop)

inductive Lawful : List E → Prop where
  | nil : Lawful []
  | snoc {log : List E} {e : E} (h : Lawful log) (hmay : may log e) : Lawful (log ++ [e])

namespace Lawful

variable {may} {log more pre post : List E} {e : E}

/-- Entries that may follow anything. -/
theorem append (h : Lawful may log) (hmore : ∀ e ∈ more, ∀ before, may before e) :
    Lawful may (log ++ more) := by
  induction more using List.reverseRec with
  | nil => simpa using h
  | append_singleton more e ih =>
      rw [← List.append_assoc]
      refine (ih fun e' he' => hmore e' ?_).snoc (hmore e ?_ _)
      · exact List.mem_append_left _ he'
      · exact List.mem_append_right _ List.mem_cons_self

theorem split (h : Lawful may log) :
    ∀ {pre e post}, log = pre ++ e :: post → Lawful may pre ∧ may pre e := by
  induction h with
  | nil => intro pre e post h; simp at h
  | @snoc log last hlog hmay ih =>
      intro pre e post h
      rcases List.eq_nil_or_concat post with rfl | ⟨front, last', rfl⟩
      · obtain ⟨rfl, hlast⟩ := List.append_inj' h rfl
        obtain rfl : last = e := by simpa using hlast
        exact ⟨hlog, hmay⟩
      · rw [List.concat_eq_append, ← List.cons_append, ← List.append_assoc] at h
        exact ih (List.append_inj' h rfl).1

/-- An entry of a lawful log may follow those before it. -/
theorem may_follow (h : Lawful may (pre ++ e :: post)) : may pre e := (h.split rfl).2

/-- An entry of a lawful log may follow something. -/
theorem may_of_mem (h : Lawful may log) (he : e ∈ log) : ∃ before, may before e := by
  obtain ⟨pre, post, rfl⟩ := List.append_of_mem he
  exact ⟨pre, h.may_follow⟩

end Lawful

end DatumConnect.Lib
