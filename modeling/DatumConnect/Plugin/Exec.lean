import DatumConnect.Lib.Runs
/-!
# Running a command to its end

`Run` starts the Rust binary for one command and waits for it, while `Forward`, which hands
on the signals, waits for the same process in a goroutine of its own.  Of two waits on one
process one gets the status, and the other fails without.
-/

namespace DatumConnect.Plugin.Exec

open DatumConnect.Lib

/-- How a process ends. -/
inductive Outcome where
  | exited (code : Nat)
  | signaled (signal : Nat)
  deriving DecidableEq, Repr

/-- The exit status that stands for it. -/
def Outcome.status : Outcome → Int
  | .exited code => code
  | .signaled signal => 128 + signal

/-- `ProcessState.ExitCode`. -/
def Outcome.exitCode : Outcome → Int
  | .exited code => code
  | .signaled _ => -1

inductive Waiter where
  | run
  | forward
  deriving DecidableEq, Repr

/-- Where `Run` is: in `cmd.Wait`, in `wg.Wait`, or back with its exit code. -/
inductive RunAt where
  | waiting
  | joining
  | returned (exitCode : Int)
  deriving DecidableEq, Repr

/-- Where `Forward` is: at its first `select`, within the grace period, past it, or back. -/
inductive ForwardAt where
  | selecting
  | grace
  | killing
  | returned
  deriving DecidableEq, Repr

structure State where
  /-- `none` while the child runs. -/
  child : Option Outcome
  /-- Whose wait got the child's status. -/
  reaped : Option Waiter
  run : RunAt
  /-- `cmd.ProcessState`. -/
  processState : Option Outcome
  /-- `childExited` is closed. -/
  childExited : Bool
  forward : ForwardAt
  /-- The channel of `signal.Notify`, of capacity one. -/
  signals : Option Nat
  /-- The signals sent to the child, the last one first. -/
  sent : List Nat
  deriving DecidableEq, Repr

def start : State where
  child := none
  reaped := none
  run := .waiting
  processState := none
  childExited := false
  forward := .selecting
  signals := none
  sent := []

inductive Action where
  /-- The child ends, by itself or by a signal. -/
  | ends (outcome : Outcome)
  /-- The plugin gets a signal. -/
  | signal (n : Nat)
  | runWaits
  | forwardWaits
  | takeSignal
  | graceOver
  | seeExit
  | runReturns
  deriving DecidableEq, Repr

/-- What a wait on the ended child brings. -/
def collect (s : State) (waiter : Waiter) : Option Outcome × Option Waiter :=
  match s.reaped with
  | none => (s.child, some waiter)
  | some first => (none, some first)

/-- The exit code `Run` makes of `cmd.ProcessState`. -/
def exitCode (processState : Option Outcome) : Int :=
  match processState with
  | none => 0
  | some outcome => outcome.exitCode

def step (s : State) : Action → Option State
  | .ends outcome => if s.child = none then some { s with child := some outcome } else none
  | .signal n =>
      if n = 2 ∨ n = 15 then some { s with signals := s.signals.or (some n) } else none
  | .runWaits =>
      if s.run = .waiting ∧ s.child.isSome then
        let (status, reaped) := collect s .run
        some { s with run := .joining, processState := status, reaped }
      else none
  | .forwardWaits =>
      if s.childExited = false ∧ s.child.isSome then
        some { s with childExited := true, reaped := (collect s .forward).2 }
      else none
  | .takeSignal =>
      match s.forward, s.signals with
      | .selecting, some n =>
          some { s with forward := .grace, signals := none, sent := n :: s.sent }
      | _, _ => none
  | .graceOver =>
      if s.forward = .grace then some { s with forward := .killing, sent := 9 :: s.sent } else none
  | .seeExit =>
      if s.forward ≠ .returned ∧ s.childExited = true then some { s with forward := .returned }
      else none
  | .runReturns =>
      if s.run = .joining ∧ s.forward = .returned then
        some { s with run := .returned (exitCode s.processState) }
      else none

/-- `RunWithOutput`: what it gives `os.Exit`, and `none` where it reports success. -/
def runWithOutput (exitCode : Int) : Option Int := if exitCode ≠ 0 then some exitCode else none

/-! ## Who has the status -/

/-- Past its own wait `Run` has the child's status if its wait got it, and none otherwise. -/
structure Kept (s : State) : Prop where
  waiting : s.run = .waiting → s.reaped ≠ some .run
  waited : s.run ≠ .waiting → s.child.isSome = true ∧
    (s.reaped = some .run ∧ s.processState = s.child ∨
      s.reaped = some .forward ∧ s.processState = none)
  returned : ∀ code, s.run = .returned code → code = exitCode s.processState
  ended : s.reaped.isSome = true → s.child.isSome = true
  closed : s.childExited = true → s.reaped.isSome = true
  forwarded : s.forward = .returned → s.childExited = true
  joined : ∀ code, s.run = .returned code → s.forward = .returned

theorem kept_start : Kept start where
  waiting := nofun
  waited := absurd rfl
  returned := nofun
  ended := nofun
  closed := nofun
  forwarded := nofun
  joined := nofun

theorem Kept.unreaped {s : State} (h : Kept s) (hrunning : s.child = none) : s.reaped = none := by
  cases hreaped : s.reaped with
  | none => rfl
  | some waiter =>
      have hended := h.ended (by rw [hreaped]; rfl)
      rw [hrunning] at hended
      cases hended

theorem Kept.ends {s : State} (h : Kept s) {outcome : Outcome} (hrunning : s.child = none) :
    Kept { s with child := some outcome } := by
  have hreaped := h.unreaped hrunning
  have hwaiting : s.run = .waiting := by
    by_contra hrun
    have hended := (h.waited hrun).1
    rw [hrunning] at hended
    cases hended
  exact { h with
    waited := fun hrun => absurd hwaiting hrun
    ended := fun _ => rfl }

theorem Kept.runWaits {s : State} (h : Kept s) (hwaiting : s.run = .waiting)
    (hended : s.child.isSome = true) :
    Kept { s with
      run := .joining, processState := (collect s .run).1, reaped := (collect s .run).2 } := by
  unfold collect
  cases hreaped : s.reaped with
  | none =>
      exact { h with
        waiting := nofun
        waited := fun _ => ⟨hended, .inl ⟨rfl, rfl⟩⟩
        returned := nofun
        ended := fun _ => hended
        closed := fun _ => rfl
        joined := nofun }
  | some first =>
      have hfirst : first = .forward := by
        cases first with
        | run => exact absurd hreaped (h.waiting hwaiting)
        | forward => rfl
      subst hfirst
      exact { h with
        waiting := nofun
        waited := fun _ => ⟨hended, .inr ⟨rfl, rfl⟩⟩
        returned := nofun
        ended := fun _ => hended
        closed := fun _ => rfl
        joined := nofun }

theorem Kept.unwaited {s : State} (h : Kept s) (hreaped : s.reaped = none) : s.run = .waiting := by
  by_contra hrun
  rcases (h.waited hrun).2 with ⟨heq, -⟩ | ⟨heq, -⟩ <;> rw [hreaped] at heq <;> cases heq

theorem Kept.forwardWaits {s : State} (h : Kept s) (hended : s.child.isSome = true) :
    Kept { s with childExited := true, reaped := (collect s .forward).2 } := by
  cases hreaped : s.reaped with
  | none =>
      have hwaiting := h.unwaited hreaped
      have hgot : (collect s .forward).2 = some .forward := by
        unfold collect
        rw [hreaped]
      rw [hgot]
      exact { h with
        waiting := nofun
        waited := fun hrun => absurd hwaiting hrun
        ended := fun _ => hended
        closed := fun _ => rfl
        forwarded := fun _ => rfl }
  | some first =>
      have hsame : (collect s .forward).2 = s.reaped := by
        unfold collect
        rw [hreaped]
      rw [hsame]
      exact { h with
        closed := fun _ => by rw [hreaped]; rfl
        forwarded := fun _ => rfl }

/-- A step of `Forward` that leaves it short of its end. -/
theorem Kept.forwards {s : State} (h : Kept s) {forward : ForwardAt}
    {signals : Option Nat} {sent : List Nat} (hback : s.forward ≠ .returned)
    (hshort : forward ≠ .returned) : Kept { s with forward, signals, sent } :=
  { h with
    forwarded := fun hreturned => absurd hreturned hshort
    joined := fun code hcode => absurd (h.joined code hcode) hback }

theorem kept_step (s : State) (a : Action) (t : State) (h : Kept s) (hstep : step s a = some t) :
    Kept t := by
  cases a with
  | ends outcome =>
      change (if _ then _ else _) = _ at hstep
      split at hstep
      · rename_i hrunning
        cases hstep
        exact h.ends hrunning
      · cases hstep
  | signal n =>
      change (if _ then _ else _) = _ at hstep
      split at hstep
      · cases hstep
        exact { h with }
      · cases hstep
  | runWaits =>
      change (if _ then _ else _) = _ at hstep
      split at hstep
      · rename_i hwaits
        cases hstep
        exact h.runWaits hwaits.1 hwaits.2
      · cases hstep
  | forwardWaits =>
      change (if _ then _ else _) = _ at hstep
      split at hstep
      · rename_i hwaits
        cases hstep
        exact h.forwardWaits hwaits.2
      · cases hstep
  | takeSignal =>
      unfold step at hstep
      simp only at hstep
      split at hstep
      · rename_i hselecting _
        cases hstep
        refine h.forwards ?_ ForwardAt.noConfusion
        rw [hselecting]
        exact ForwardAt.noConfusion
      · cases hstep
  | graceOver =>
      change (if _ then _ else _) = _ at hstep
      split at hstep
      · rename_i hgrace
        cases hstep
        refine h.forwards ?_ ForwardAt.noConfusion
        rw [hgrace]
        exact ForwardAt.noConfusion
      · cases hstep
  | seeExit =>
      change (if _ then _ else _) = _ at hstep
      split at hstep
      · rename_i hsees
        cases hstep
        exact { h with
          forwarded := fun _ => hsees.2
          joined := fun _ _ => rfl }
      · cases hstep
  | runReturns =>
      change (if _ then _ else _) = _ at hstep
      split at hstep
      · rename_i hjoined
        cases hstep
        have hrun : s.run ≠ .waiting := by
          rw [hjoined.1]
          exact RunAt.noConfusion
        exact { h with
          waiting := nofun
          waited := fun _ => h.waited hrun
          returned := by
            intro code hcode
            cases hcode
            rfl
          joined := fun _ _ => hjoined.2 }
      · cases hstep

theorem kept_run {actions : List Action} {s : State} (hrun : Runs.run step start actions = some s) :
    Kept s :=
  Runs.invariant_always kept_step kept_start hrun

/-! ## Getting back -/

/-- Steps that neither the child nor whoever sends signals takes. -/
def Own : Action → Prop
  | .ends _ | .signal _ | .takeSignal | .graceOver => False
  | .runWaits | .forwardWaits | .seeExit | .runReturns => True

/-- Once the child has ended, `Run` is back or a step towards it can be taken. -/
theorem own_step {s : State} (hended : s.child.isSome = true) :
    (∃ code, s.run = .returned code) ∨ ∃ a t, Own a ∧ step s a = some t := by
  cases hrun : s.run with
  | returned code => exact .inl ⟨code, rfl⟩
  | waiting => exact .inr ⟨.runWaits, _, trivial, if_pos ⟨hrun, hended⟩⟩
  | joining =>
      right
      by_cases hclosed : s.childExited = true
      · by_cases hback : s.forward = .returned
        · exact ⟨.runReturns, _, trivial, if_pos ⟨hrun, hback⟩⟩
        · exact ⟨.seeExit, _, trivial, if_pos ⟨hback, hclosed⟩⟩
      · exact ⟨.forwardWaits, _, trivial, if_pos ⟨Bool.eq_false_iff.mpr hclosed, hended⟩⟩

/-- What is left to do. -/
def left (s : State) : Nat :=
  (match s.run with
    | .waiting => 2
    | .joining => 1
    | .returned _ => 0) +
  (if s.childExited then 0 else 1) +
  (match s.forward with
    | .selecting => 3
    | .grace => 2
    | .killing => 1
    | .returned => 0)

/-- Every step but the surroundings' own brings `Run` closer to its end. -/
theorem left_step {s t : State} {a : Action} (hstep : step s a = some t)
    (hends : ∀ outcome, a ≠ .ends outcome) (hsignal : ∀ n, a ≠ .signal n) : left t < left s := by
  cases a with
  | ends outcome => exact absurd rfl (hends outcome)
  | signal n => exact absurd rfl (hsignal n)
  | runWaits =>
      change (if _ then _ else _) = _ at hstep
      split at hstep
      · rename_i hwaits
        cases hstep
        simp only [left, hwaits.1]
        omega
      · cases hstep
  | forwardWaits =>
      change (if _ then _ else _) = _ at hstep
      split at hstep
      · rename_i hwaits
        cases hstep
        simp only [left, hwaits.1]
        simp
      · cases hstep
  | takeSignal =>
      unfold step at hstep
      simp only at hstep
      split at hstep
      · rename_i hselecting _
        cases hstep
        simp only [left, hselecting]
        omega
      · cases hstep
  | graceOver =>
      change (if _ then _ else _) = _ at hstep
      split at hstep
      · rename_i hgrace
        cases hstep
        simp only [left, hgrace]
        omega
      · cases hstep
  | seeExit =>
      change (if _ then _ else _) = _ at hstep
      split at hstep
      · rename_i hsees
        cases hstep
        cases hforward : s.forward with
        | returned => exact absurd hforward hsees.1
        | selecting | grace | killing =>
            simp only [left, hforward]
            omega
      · cases hstep
  | runReturns =>
      change (if _ then _ else _) = _ at hstep
      split at hstep
      · rename_i hjoined
        cases hstep
        simp only [left, hjoined.1]
        omega
      · cases hstep

/-- The child ended by itself, and with success unless the wait of `Run` was the first. -/
def Seen (s : State) (outcome : Outcome) : Prop :=
  ∃ code, outcome = .exited code ∧ (code = 0 ∨ s.reaped = some .run)

theorem Outcome.exitCode_eq_status {outcome : Outcome} :
    outcome.exitCode = outcome.status ↔ ∃ code, outcome = .exited code := by
  cases outcome with
  | exited code => exact ⟨fun _ => ⟨code, rfl⟩, fun _ => rfl⟩
  | signaled signal =>
      constructor
      · intro h
        change (-1 : Int) = 128 + signal at h
        omega
      · rintro ⟨code, hcode⟩
        cases hcode

theorem Outcome.status_eq_zero {outcome : Outcome} :
    outcome.status = 0 ↔ outcome = .exited 0 := by
  cases outcome with
  | exited code =>
      change (code : Int) = 0 ↔ _
      rw [Outcome.exited.injEq]
      omega
  | signaled signal =>
      constructor
      · intro h
        change (128 + signal : Int) = 0 at h
        omega
      · intro h
        cases h

theorem Outcome.exitCode_ne_zero {outcome : Outcome} (h : outcome.status ≠ 0) :
    outcome.exitCode ≠ 0 := by
  cases outcome with
  | exited code => exact h
  | signaled signal => exact (by decide : (-1 : Int) ≠ 0)

theorem Kept.right_iff {s : State} (h : Kept s) {code : Int} (hback : s.run = .returned code)
    {outcome : Outcome} (houtcome : s.child = some outcome) :
    code = outcome.status ↔ Seen s outcome := by
  have hrun : s.run ≠ .waiting := by
    rw [hback]
    exact RunAt.noConfusion
  rw [h.returned code hback]
  rcases (h.waited hrun).2 with ⟨hreaped, hstatus⟩ | ⟨hreaped, hstatus⟩
  · rw [hstatus, houtcome]
    apply Iff.trans Outcome.exitCode_eq_status
    apply exists_congr
    intro n
    exact ⟨fun hexited => ⟨hexited, .inr hreaped⟩, And.left⟩
  · rw [hstatus]
    apply Iff.trans (eq_comm.trans Outcome.status_eq_zero)
    constructor
    · rintro rfl
      exact ⟨0, rfl, .inl rfl⟩
    · rintro ⟨n, rfl, rfl | hother⟩
      · rfl
      · rw [hreaped] at hother
        cases hother

/-- A failure is reported as a success where the wait of `Forward` was the first. -/
theorem Kept.unreported_iff {s : State} (h : Kept s) {code : Int} (hback : s.run = .returned code)
    {outcome : Outcome} (houtcome : s.child = some outcome) (hfailed : outcome.status ≠ 0) :
    runWithOutput code = none ↔ s.reaped = some .forward := by
  have hrun : s.run ≠ .waiting := by
    rw [hback]
    exact RunAt.noConfusion
  rw [h.returned code hback]
  rcases (h.waited hrun).2 with ⟨hreaped, hstatus⟩ | ⟨hreaped, hstatus⟩
  · rw [hstatus, houtcome, hreaped]
    have hreported : runWithOutput (exitCode (some outcome)) = some outcome.exitCode :=
      if_pos (Outcome.exitCode_ne_zero hfailed)
    rw [hreported]
    exact ⟨nofun, nofun⟩
  · rw [hstatus]
    exact ⟨fun _ => hreaped, fun _ => rfl⟩

/-- The exit code is the one that stands for the child's end where the child ended by itself and
the wait of `Run` got its status, or the status is the one of success. -/
theorem exitCode_right_iff {actions : List Action} {s : State}
    (hrun : Runs.run step start actions = some s) :
    (s.child.isSome = true →
      ((∃ code, s.run = .returned code) ∨ ∃ a t, Own a ∧ step s a = some t) ∧
      ∀ a t, step s a = some t → (∀ n, a ≠ .signal n) → left t < left s) ∧
    ∀ code, s.run = .returned code → ∃ outcome, s.child = some outcome ∧
      (code = outcome.status ↔ Seen s outcome) ∧
      (outcome.status ≠ 0 → (runWithOutput code = none ↔ s.reaped = some .forward)) := by
  have h := kept_run hrun
  constructor
  · intro hended
    refine ⟨own_step hended, ?_⟩
    intro a t hstep hsignal
    apply left_step hstep _ hsignal
    rintro outcome rfl
    change (if _ then _ else _) = _ at hstep
    split at hstep
    · rename_i hrunning
      rw [hrunning] at hended
      cases hended
    · cases hstep
  · intro code hback
    have hwaited : s.run ≠ .waiting := by
      rw [hback]
      exact RunAt.noConfusion
    obtain ⟨outcome, houtcome⟩ := Option.isSome_iff_exists.mp (h.waited hwaited).1
    exact ⟨outcome, houtcome, h.right_iff hback houtcome, h.unreported_iff hback houtcome⟩

/-- The child ends with 3 and the wait of `Run` gets it. -/
theorem exitCode_right_iff_three :
    ∃ s, Runs.run step start [.ends (.exited 3), .runWaits, .forwardWaits, .seeExit, .runReturns] =
        some s ∧ s.run = .returned 3 ∧ Seen s (.exited 3) := by
  refine ⟨_, rfl, rfl, ?_⟩
  obtain ⟨outcome, houtcome, hright, -⟩ := (@exitCode_right_iff
    [.ends (.exited 3), .runWaits, .forwardWaits, .seeExit, .runReturns] _ rfl).2 3 rfl
  cases houtcome
  exact hright.mp rfl

/-- A child that fails with 1 is reported as a success, and one killed with −1. -/
theorem failure_unreported :
    (∃ s, Runs.run step start [.ends (.exited 1), .forwardWaits, .runWaits, .seeExit, .runReturns] =
        some s ∧ s.child = some (.exited 1) ∧ s.run = .returned 0 ∧ runWithOutput 0 = none) ∧
    ∃ s, Runs.run step start [.ends (.signaled 9), .runWaits, .forwardWaits, .seeExit,
        .runReturns] = some s ∧ s.child = some (.signaled 9) ∧ s.run = .returned (-1) ∧
      (-1 : Int) ≠ (Outcome.signaled 9).status :=
  ⟨⟨_, rfl, rfl, rfl, rfl⟩, _, rfl, rfl, rfl, by decide⟩

end DatumConnect.Plugin.Exec
