import Mathlib.Data.Option.Basic
import Mathlib.Order.Basic
/-!
# Runs of a labelled transition system

A system is a partial step function `S → A → Option S`: the state before, the
label of the step, and the state after if the step is enabled.  A run is a list
of labels.  `Meets` says that every step of a run satisfies a condition on the
state before it and its label; invariants are proved once, for one step, and
lifted to every run whose steps meet the condition.
-/

namespace DatumConnect.Lib.Runs

variable {S A : Type*} (step : S → A → Option S)

/-- Execute the labels in order; `none` as soon as one of them is not enabled. -/
def run : S → List A → Option S
  | s, [] => some s
  | s, a :: as => (step s a).bind fun t => run t as

/-- Every step the run takes satisfies `cond` in the state before it. -/
def Meets (cond : S → A → Prop) : S → List A → Prop
  | _, [] => True
  | s, a :: as =>
      cond s a ∧
        match step s a with
        | some t => Meets cond t as
        | none => True

instance Meets.decidable (cond : S → A → Prop) [∀ s a, Decidable (cond s a)] :
    ∀ (s : S) (as : List A), Decidable (Meets step cond s as)
  | _, [] => .isTrue trivial
  | s, a :: as => by
      unfold Meets
      have : Decidable (match step s a with
          | some t => Meets step cond t as
          | none => True) := by
        cases step s a with
        | none => exact .isTrue trivial
        | some t => exact Meets.decidable cond t as
      infer_instance

@[simp] theorem run_nil (s : S) : run step s [] = some s := rfl

theorem run_cons (s : S) (a : A) (as : List A) :
    run step s (a :: as) = (step s a).bind fun t => run step t as := rfl

/-- The first step of a run, and the rest of it. -/
theorem run_cons_eq_some {s t : S} {a : A} {as : List A} :
    run step s (a :: as) = some t ↔
      ∃ u, step s a = some u ∧ run step u as = some t := by
  rw [run_cons, Option.bind_eq_some_iff]

theorem run_append (s : S) (as bs : List A) :
    run step s (as ++ bs) = (run step s as).bind fun t => run step t bs := by
  induction as generalizing s with
  | nil => rfl
  | cons a as ih =>
      rw [List.cons_append, run_cons, run_cons]
      cases step s a with
      | none => rfl
      | some t => exact ih t

variable {step}

/-- A condition that holds of every step is met by every run. -/
theorem Meets.of_forall {cond : S → A → Prop} (h : ∀ s a, cond s a) :
    ∀ (s : S) (as : List A), Meets step cond s as := by
  intro s as
  induction as generalizing s with
  | nil => exact trivial
  | cons a as ih =>
      refine ⟨h s a, ?_⟩
      cases step s a with
      | none => exact trivial
      | some t => exact ih t

/-- A property of every label of the run may be added to the condition. -/
theorem Meets.and_mem {cond : S → A → Prop} {P : A → Prop} :
    ∀ {s : S} {as : List A}, Meets step cond s as → (∀ a ∈ as, P a) →
      Meets step (fun s a => cond s a ∧ P a) s as := by
  intro s as
  induction as generalizing s with
  | nil => exact fun _ _ => trivial
  | cons a as ih =>
      rintro ⟨hcond, hmore⟩ hP
      refine ⟨⟨hcond, hP a List.mem_cons_self⟩, ?_⟩
      cases hstep : step s a with
      | none => exact trivial
      | some t =>
          rw [hstep] at hmore
          exact ih hmore fun b hb => hP b (List.mem_cons_of_mem a hb)

theorem Meets.mono {cond cond' : S → A → Prop} {s : S} {as : List A} (h : Meets step cond s as)
    (hcond : ∀ s a, cond s a → cond' s a) : Meets step cond' s as := by
  induction as generalizing s with
  | nil => exact trivial
  | cons a as ih =>
      refine ⟨hcond s a h.1, ?_⟩
      have hmore := h.2
      cases hstep : step s a with
      | none => exact trivial
      | some t =>
          rw [hstep] at hmore
          exact ih hmore

theorem Meets.and {cond cond' : S → A → Prop} :
    ∀ {s : S} {as : List A}, Meets step cond s as → Meets step cond' s as →
      Meets step (fun s a => cond s a ∧ cond' s a) s as := by
  intro s as
  induction as generalizing s with
  | nil => exact fun _ _ => trivial
  | cons a as ih =>
      rintro ⟨hcond, hmore⟩ ⟨hcond', hmore'⟩
      refine ⟨⟨hcond, hcond'⟩, ?_⟩
      cases hstep : step s a with
      | none => exact trivial
      | some t =>
          rw [hstep] at hmore hmore'
          exact ih hmore hmore'

/-- A run in two parts. -/
theorem Meets.append {cond : S → A → Prop} :
    ∀ {s t : S} {as bs : List A}, Meets step cond s (as ++ bs) → run step s as = some t →
      Meets step cond s as ∧ Meets step cond t bs := by
  intro s t as bs
  induction as generalizing s with
  | nil =>
      intro h hrun
      rw [run_nil, Option.some.injEq] at hrun
      exact ⟨trivial, hrun ▸ h⟩
  | cons a as ih =>
      rintro ⟨hcond, hmore⟩ hrun
      obtain ⟨u, hu, hrest⟩ := (run_cons_eq_some step).mp hrun
      have hmore' : Meets step cond u (as ++ bs) := by
        rw [List.append_eq] at hmore
        rw [hu] at hmore
        exact hmore
      obtain ⟨has, hbs⟩ := ih hmore' hrest
      refine ⟨⟨hcond, ?_⟩, hbs⟩
      rw [hu]
      exact has

/-- The invariant rule: what one step under the condition preserves, every run
whose steps meet the condition preserves. -/
theorem invariant {cond : S → A → Prop} {Inv : S → Prop}
    (hstep : ∀ s a t, Inv s → cond s a → step s a = some t → Inv t)
    {s t : S} {as : List A} (hs : Inv s) (hmeets : Meets step cond s as)
    (hrun : run step s as = some t) : Inv t := by
  induction as generalizing s with
  | nil =>
      rw [run_nil, Option.some.injEq] at hrun
      exact hrun ▸ hs
  | cons a as ih =>
      obtain ⟨u, hu, hrest⟩ := (run_cons_eq_some step).mp hrun
      obtain ⟨hcond, hmore⟩ := hmeets
      rw [hu] at hmore
      exact ih (hstep s a u hs hcond hu) hmore hrest

/-- The invariant rule of a system none of whose steps is excluded. -/
theorem invariant_always {Inv : S → Prop} (hstep : ∀ s a t, Inv s → step s a = some t → Inv t)
    {s t : S} {as : List A} (hs : Inv s) (hrun : run step s as = some t) : Inv t := by
  have hmeets : Meets step (fun _ _ => True) s as := Meets.of_forall (fun _ _ => trivial) s as
  exact invariant (fun s a t hs _ hstep' => hstep s a t hs hstep') hs hmeets hrun

end DatumConnect.Lib.Runs
