import DatumConnect.Lib.Prog
import DatumConnect.Lib.Runs
/-!
# Programs that are stopped and started again

A host runs one program at a time.  Each of its calls is answered, or the program is
stopped before it; then another is begun on what it has left behind.  What happens
to the state while a call is awaited is part of the answer; what happens while no
program runs is a step of its own.
-/

namespace DatumConnect.Lib.Restarts

structure Host (S A B M C : Type) (R : C → Type) (α : Type) where
  handle : S → (c : C) → A → S × R c
  start : B → Prog C R α
  began : S → B → S
  ended : S → α → S
  meanwhile : S → M → S

structure World (S C : Type) (R : C → Type) (α : Type) where
  state : S
  run : Option (Prog C R α)

inductive Act (A B M : Type) where
  | begin (b : B)
  | answer (a : A)
  | stop
  | meanwhile (m : M)

variable {S A B M C : Type} {R : C → Type} {α : Type}

/-- The program goes on to its next call, or is over. -/
def settle (host : Host S A B M C R α) (s : S) : Prog C R α → World S C R α
  | .ret a => { state := host.ended s a, run := none }
  | .call c k => { state := s, run := some (.call c k) }

def step (host : Host S A B M C R α) (w : World S C R α) : Act A B M → Option (World S C R α)
  | .begin b =>
      match w.run with
      | none => some (settle host (host.began w.state b) (host.start b))
      | some _ => none
  | .answer a =>
      match w.run with
      | some (.call c k) =>
          let (s, r) := host.handle w.state c a
          some (settle host s (k r))
      | _ => none
  | .stop =>
      match w.run with
      | some _ => some { w with run := none }
      | none => none
  | .meanwhile m =>
      match w.run with
      | none => some { w with state := host.meanwhile w.state m }
      | some _ => none

/-- Conditions on what is begun, how calls are answered, when a program is stopped
and what happens while none runs. -/
structure Cond (S A B M C : Type) where
  begin : S → B → Prop
  answer : S → C → A → Prop
  stop : S → Prop
  meanwhile : S → M → Prop

def Cond.Holds (cond : Cond S A B M C) (w : World S C R α) : Act A B M → Prop
  | .begin b => cond.begin w.state b
  | .answer a => ∀ c k, w.run = some (.call c k) → cond.answer w.state c a
  | .stop => cond.stop w.state
  | .meanwhile m => cond.meanwhile w.state m

instance Cond.Holds.decidable (cond : Cond S A B M C) [∀ s b, Decidable (cond.begin s b)]
    [∀ s c a, Decidable (cond.answer s c a)] [∀ s, Decidable (cond.stop s)]
    [∀ s m, Decidable (cond.meanwhile s m)] (w : World S C R α) :
    ∀ act : Act A B M, Decidable (cond.Holds w act)
  | .begin b => inferInstanceAs (Decidable (cond.begin w.state b))
  | .answer a =>
      match hrun : w.run with
      | some (.call c _) =>
          decidable_of_iff (cond.answer w.state c a) <| by
            refine ⟨fun h c' k' hk => ?_, fun h => h c _ hrun⟩
            rw [hrun] at hk
            cases hk
            exact h
      | some (.ret _) => .isTrue fun c k hk => by
          rw [hrun] at hk
          cases hk
      | none => .isTrue fun c k hk => by
          rw [hrun] at hk
          cases hk
  | .stop => inferInstanceAs (Decidable (cond.stop w.state))
  | .meanwhile m => inferInstanceAs (Decidable (cond.meanwhile w.state m))

def Cond.and (cond cond' : Cond S A B M C) : Cond S A B M C where
  begin s b := cond.begin s b ∧ cond'.begin s b
  answer s c a := cond.answer s c a ∧ cond'.answer s c a
  stop s := cond.stop s ∧ cond'.stop s
  meanwhile s m := cond.meanwhile s m ∧ cond'.meanwhile s m

theorem Cond.and_holds {cond cond' : Cond S A B M C} {w : World S C R α} {act : Act A B M} :
    (cond.and cond').Holds w act ↔ cond.Holds w act ∧ cond'.Holds w act := by
  cases act with
  | answer a =>
      refine ⟨fun h => ⟨fun c k hrun => (h c k hrun).1, fun c k hrun => (h c k hrun).2⟩, ?_⟩
      exact fun h c k hrun => ⟨h.1 c k hrun, h.2 c k hrun⟩
  | begin b => exact Iff.rfl
  | stop => exact Iff.rfl
  | meanwhile m => exact Iff.rfl

/-- While no program runs `rest` holds, and one that runs is on the way to it. -/
structure Kept (host : Host S A B M C R α) (cond : Cond S A B M C) (going rest : S → Prop)
    (w : World S C R α) : Prop where
  resting : w.run = none → rest w.state
  running : ∀ p, w.run = some p →
    Prog.SafeWhen host.handle cond.answer going (fun s a => rest (host.ended s a)) p w.state

section

variable {host : Host S A B M C R α} {cond : Cond S A B M C} {going rest : S → Prop}

theorem Kept.settle {s : S} {p : Prog C R α}
    (h : Prog.SafeWhen host.handle cond.answer going (fun s a => rest (host.ended s a)) p s) :
    Kept host cond going rest (settle host s p) := by
  cases p with
  | ret a => exact ⟨fun _ => h.2, fun p hp => nomatch hp⟩
  | call c k =>
      refine ⟨(fun hnone => nomatch hnone), fun p hp => ?_⟩
      cases hp
      exact h

/-- The rule for what every program keeps, whenever it is stopped. -/
theorem kept
    (hbegin : ∀ s b, rest s → cond.begin s b →
      Prog.SafeWhen host.handle cond.answer going (fun s a => rest (host.ended s a)) (host.start b)
        (host.began s b))
    (hstop : ∀ s, going s → cond.stop s → rest s)
    (hmeanwhile : ∀ s m, rest s → cond.meanwhile s m → rest (host.meanwhile s m))
    {w w' : World S C R α} {acts : List (Act A B M)} (hw : Kept host cond going rest w)
    (hmeets : Runs.Meets (step host) cond.Holds w acts)
    (hrun : Runs.run (step host) w acts = some w') : Kept host cond going rest w' := by
  refine Runs.invariant (fun w act w' hw hcond hstep => ?_) hw hmeets hrun
  cases act with
  | begin b =>
      simp only [step] at hstep
      split at hstep
      · rename_i hnone
        cases hstep
        exact Kept.settle (hbegin _ b (hw.resting hnone) hcond)
      · cases hstep
  | answer a =>
      simp only [step] at hstep
      split at hstep
      · rename_i c k hsome
        cases hstep
        have hsafe := hw.running _ hsome
        exact Kept.settle (hsafe.2 a (hcond c k hsome))
      · cases hstep
  | stop =>
      simp only [step] at hstep
      split at hstep
      · rename_i p hsome
        cases hstep
        have hsafe := hw.running _ hsome
        exact ⟨fun _ => hstop _ hsafe.inv hcond, fun p hp => nomatch hp⟩
      · cases hstep
  | meanwhile m =>
      simp only [step] at hstep
      split at hstep
      · rename_i hnone
        cases hstep
        refine ⟨fun _ => hmeanwhile _ m (hw.resting hnone) hcond, fun p hp => ?_⟩
        rw [hnone] at hp
        cases hp
      · cases hstep

/-- What holds while a program is going and what holds while none is. -/
theorem Kept.state {w : World S C R α} (h : Kept host cond going rest w)
    (hrest : ∀ s, rest s → going s) : going w.state := by
  cases hrun : w.run with
  | none => exact hrest _ (h.resting hrun)
  | some p => exact (h.running p hrun).inv

end

end DatumConnect.Lib.Restarts
