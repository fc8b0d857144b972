import Mathlib.Data.Finset.Basic
import Mathlib.Logic.Function.Basic
/-!
# Exclusive leases

Each holder has one lease at most.  The set of what is taken says exactly what is
held, and nothing is held twice.
-/

namespace DatumConnect.Lib

variable {ι κ : Type*}

structure Leased (held : ι → Option κ) (taken : Finset κ) : Prop where
  one : ∀ {i j k}, held i = some k → held j = some k → i = j
  taken : ∀ {k}, k ∈ taken ↔ ∃ i, held i = some k

namespace Leased

variable {held : ι → Option κ} {taken : Finset κ} {i : ι} {k : κ}

theorem empty : Leased (fun _ : ι => none) (∅ : Finset κ) where
  one h := nomatch h
  taken := by simp

variable [DecidableEq ι] [DecidableEq κ]

/-- Taking a lease that is free. -/
theorem claim (h : Leased held taken) (hheld : held i = none) (hfree : k ∉ taken) :
    Leased (Function.update held i (some k)) (insert k taken) where
  one {a b x} ha hb := by
    have hnone : ∀ j, held j ≠ some k := fun j hj => hfree (h.taken.mpr ⟨j, hj⟩)
    rw [Function.update_apply] at ha hb
    split at ha <;> split at hb
    · simp [*]
    · exact absurd (ha ▸ hb) (hnone b)
    · exact absurd (hb ▸ ha) (hnone a)
    · exact h.one ha hb
  taken {x} := by
    rw [Finset.mem_insert, h.taken]
    constructor
    · rintro (rfl | ⟨j, hj⟩)
      · exact ⟨i, Function.update_self ..⟩
      · have hji : j ≠ i := by
          rintro rfl
          rw [hheld] at hj
          cases hj
        exact ⟨j, by rwa [Function.update_of_ne hji]⟩
    · rintro ⟨j, hj⟩
      rw [Function.update_apply] at hj
      split at hj
      · exact .inl (Option.some.inj hj).symm
      · exact .inr ⟨j, hj⟩

/-- Giving a lease back. -/
theorem release (h : Leased held taken) (hheld : held i = some k) :
    Leased (Function.update held i none) (taken.erase k) where
  one {a b x} ha hb := by
    rw [Function.update_apply] at ha hb
    split at ha
    · cases ha
    · split at hb
      · cases hb
      · exact h.one ha hb
  taken {x} := by
    rw [Finset.mem_erase, h.taken]
    constructor
    · rintro ⟨hne, j, hj⟩
      have hji : j ≠ i := by
        rintro rfl
        rw [hheld] at hj
        exact hne (Option.some.inj hj).symm
      exact ⟨j, by rwa [Function.update_of_ne hji]⟩
    · rintro ⟨j, hj⟩
      rw [Function.update_apply] at hj
      split at hj
      · cases hj
      · rename_i hji
        refine ⟨?_, j, hj⟩
        rintro rfl
        exact hji (h.one hj hheld)

end Leased

end DatumConnect.Lib
