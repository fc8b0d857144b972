import DatumConnect.Lib.Prog
import DatumConnect.Lib.Runs
/-!
# Calls that take a lock

Calls come at any time and wait for one lock.  The one that has it runs its program against a state
that nobody else changes.  What each program makes of the state when it is alone holds of every run,
whenever nobody has the lock.
-/

namespace DatumConnect.Lib.Mutex

variable {Op C ρ S A : Type} {R : C → Type}

/-- What each call does once it has the lock. -/
structure Calls (Op C : Type) (R : C → Type) (ρ S A : Type) where
  body : Op → Prog C R ρ
  handle : S → (c : C) → A → S × R c

/-- `finished` has the calls in the order they took the lock. -/
structure World (Op C : Type) (R : C → Type) (ρ S : Type) where
  state : S
  waiting : List Op := []
  inside : Option (Op × Prog C R ρ) := none
  finished : List (Op × ρ) := []

/-- A call that is dropped leaves the state as it is at that moment. -/
inductive Act (Op A : Type) where
  | arrive (op : Op)
  | lock (i : Nat)
  | step (answer : A)
  | leave (i : Nat)
  | drop
  deriving DecidableEq

/-- The call is at `p`: it gives the lock back where the program ends. -/
def World.settle (w : World Op C R ρ S) (op : Op) : Prog C R ρ → World Op C R ρ S
  | .ret r => { w with inside := none, finished := w.finished ++ [(op, r)] }
  | p@(.call _ _) => { w with inside := some (op, p) }

namespace Calls

variable (calls : Calls Op C R ρ S A)

def step (w : World Op C R ρ S) : Act Op A → Option (World Op C R ρ S)
  | .arrive op => some { w with waiting := w.waiting ++ [op] }
  | .lock i =>
      match w.inside, w.waiting[i]? with
      | none, some op =>
          some ({ w with waiting := w.waiting.eraseIdx i }.settle op (calls.body op))
      | _, _ => none
  | .step answer =>
      match w.inside with
      | some (op, .call c k) =>
          let (t, r) := calls.handle w.state c answer
          some ({ w with state := t }.settle op (k r))
      | _ => none
  | .leave i =>
      if i < w.waiting.length then some { w with waiting := w.waiting.eraseIdx i } else none
  | .drop => w.inside.map fun _ => { w with inside := none }

/-- What is asked under the lock is answered as `cond` has it, and nobody is dropped there. -/
def Keeps (cond : Op → S → C → A → Prop) (w : World Op C R ρ S) : Act Op A → Prop
  | .step answer =>
      match w.inside with
      | some (op, .call c _) => cond op w.state c answer
      | _ => True
  | .drop => False
  | _ => True

instance Keeps.decidable (cond : Op → S → C → A → Prop) [∀ op s c a, Decidable (cond op s c a)]
    (w : World Op C R ρ S) : ∀ act : Act Op A, Decidable (Keeps cond w act)
  | .step answer =>
      match h : w.inside with
      | some (op, .call c _) =>
          decidable_of_iff (cond op w.state c answer) (by simp only [Keeps, h])
      | some (_, .ret _) => .isTrue (by simp only [Keeps, h])
      | none => .isTrue (by simp only [Keeps, h])
  | .drop => .isFalse id
  | .arrive _ => .isTrue trivial
  | .lock _ => .isTrue trivial
  | .leave _ => .isTrue trivial

/-- `I` relates the state and the finished calls while nobody has the lock; who has it is on the way
to making it true again. -/
def Consistent (cond : Op → S → C → A → Prop) (I : S → List (Op × ρ) → Prop)
    (w : World Op C R ρ S) : Prop :=
  match w.inside with
  | none => I w.state w.finished
  | some (op, p) =>
      p.SafeWhen calls.handle (cond op) (fun _ => True)
        (fun t r => I t (w.finished ++ [(op, r)])) w.state

variable {calls} {cond : Op → S → C → A → Prop} {I : S → List (Op × ρ) → Prop}

theorem consistent_settle {w : World Op C R ρ S} {op : Op} {p : Prog C R ρ}
    (h : p.SafeWhen calls.handle (cond op) (fun _ => True)
      (fun t r => I t (w.finished ++ [(op, r)])) w.state) :
    calls.Consistent cond I (w.settle op p) := by
  cases p with
  | ret r => exact h.2
  | call c k => exact h

/-- Every step keeps the relation, where each call alone keeps it. -/
theorem consistent_step
    (hbody : ∀ op s finished, I s finished → (calls.body op).SafeWhen calls.handle (cond op)
      (fun _ => True) (fun t r => I t (finished ++ [(op, r)])) s)
    {w w' : World Op C R ρ S} {act : Act Op A} (hw : calls.Consistent cond I w)
    (hkeeps : Keeps cond w act) (hstep : calls.step w act = some w') :
    calls.Consistent cond I w' := by
  cases act with
  | arrive op =>
      have h := Option.some.inj hstep
      subst h
      exact hw
  | leave i =>
      have h : { w with waiting := w.waiting.eraseIdx i } = w' := by
        simpa [step] using (Option.ite_none_right_eq_some.mp hstep).2
      subst h
      exact hw
  | drop => exact hkeeps.elim
  | lock i =>
      unfold step at hstep
      simp only at hstep
      split at hstep
      · rename_i op hinside hwaiting
        have h := Option.some.inj hstep
        subst h
        apply consistent_settle
        apply hbody
        unfold Consistent at hw
        rw [hinside] at hw
        exact hw
      · cases hstep
  | step answer =>
      unfold step at hstep
      unfold Keeps at hkeeps
      unfold Consistent at hw
      simp only at hstep hkeeps
      split at hstep
      · rename_i op c k hinside
        rw [hinside] at hw hkeeps
        have h := Option.some.inj hstep
        subst h
        apply consistent_settle
        exact hw.2 answer hkeeps
      · cases hstep

/-- Whenever nobody has the lock the relation holds. -/
theorem holds_unlocked
    (hbody : ∀ op s finished, I s finished → (calls.body op).SafeWhen calls.handle (cond op)
      (fun _ => True) (fun t r => I t (finished ++ [(op, r)])) s)
    {s : S} (hs : I s []) {acts : List (Act Op A)} {w : World Op C R ρ S}
    (hmeets : Runs.Meets calls.step (Keeps cond) ⟨s, [], none, []⟩ acts)
    (hrun : Runs.run calls.step ⟨s, [], none, []⟩ acts = some w) (hinside : w.inside = none) :
    I w.state w.finished := by
  have hstart : calls.Consistent cond I ⟨s, [], none, []⟩ := hs
  have hw : calls.Consistent cond I w :=
    Runs.invariant (fun _ _ _ hw hkeeps hstep => consistent_step hbody hw hkeeps hstep) hstart
      hmeets hrun
  unfold Consistent at hw
  rw [hinside] at hw
  exact hw

end Calls

end DatumConnect.Lib.Mutex
