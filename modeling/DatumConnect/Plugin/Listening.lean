import DatumConnect.Plugin.Listen
/-!
# Listening until the child ends

Nothing makes `runListen` notice that the child has ended once it waits for a signal, and the
reader stops early at a line it cannot read and, where the output is JSON, at the first message
that says that the tunnel is ready.  A run without these ends when its child does.
-/

namespace DatumConnect.Plugin.Listen

open DatumConnect.Lib
open DatumConnect.Lib.Json

section

variable (parseJson : String → Option Value) (isJSON : Bool)

/-- A line the reader may come to. -/
def Readable (s : State) (line : String) : Prop :=
  (s.child = .running → Known parseJson line ∧ (isJSON = true → ¬IsReady parseJson line)) ∧
    (IsReady parseJson line → s.readyCh = false)

/-- While the child runs every line is a message short enough to be read, none says a second time
that the tunnel is ready and, where the output is JSON, none says so at all.  The child has not
ended when `runListen` sees that the tunnel is ready, and does not end from then on without a
signal. -/
def Orderly (s : State) : Action → Prop
  | .own .reads => ∀ line ∈ s.pipe.head?, Readable parseJson isJSON s line
  | .own .seesReady => s.child = .running
  | .ends => s.main = .listening → s.sigCh.isSome = true
  | .own _ | .writes _ | .signal _ | .elapse => True

instance (s : State) (a : Action) : Decidable (Orderly parseJson isJSON s a) := by
  unfold Orderly Readable
  split <;> infer_instance

end

/-- At `<-sigCh` or past it. -/
def MainAt.notified : MainAt → Bool
  | .listening | .grace _ | .killing => true
  | .starting | .killed | .returned _ | .interrupted | .panicked => false

/-- Past `<-sigCh`. -/
def MainAt.signalled : MainAt → Bool
  | .grace _ | .killing => true
  | .starting | .killed | .listening | .returned _ | .interrupted | .panicked => false

structure Good (s : State) : Prop where
  unpanicked : s.main ≠ .panicked
  scanning : s.child = .running → s.main ≠ .interrupted → s.reader = .scanning
  staying : s.child = .running → ∀ err, s.main ≠ .returned err
  ready : s.readyCh = true → s.gotReady = true
  done : s.readDone = true → s.child ≠ .running
  asked : s.main.notified = true → s.child ≠ .ended true
  signalled : s.sigCh.isSome = true → s.signalledAt.isSome = true
  waking : s.main = .listening → s.child ≠ .running → s.sigCh.isSome = true
  late : s.main.signalled = true → s.signalledAt.isSome = true
  failing : s.child = .ended true → s.main ≠ .returned none

theorem good_start : Good start where
  unpanicked := nofun
  scanning := fun _ _ => rfl
  staying := fun _ _ => nofun
  ready := nofun
  done := nofun
  asked := nofun
  signalled := nofun
  waking := nofun
  late := nofun
  failing := nofun

variable {parseJson : String → Option Value} {isJSON : Bool}

theorem Good.read {s t : State} {line : String} (h : Good s)
    (hreadable : Readable parseJson isJSON s line) (hread : Read parseJson isJSON s line t) : Good t := by
  cases hread with
  | tooLong hlong =>
      have hended : s.child ≠ .running := fun hrunning => hlong (hreadable.1 hrunning).1
      exact { h with
        scanning := fun hrunning => absurd hrunning hended
        done := fun _ => hended }
  | skipped more => exact { h with }
  | malformed text hunknown =>
      have hended : s.child ≠ .running := fun hrunning => hunknown (hreadable.1 hrunning).1
      exact { h with scanning := fun hrunning => absurd hrunning hended }
  | again hready hclosed =>
      have hopen := hreadable.2 hready
      rw [hclosed] at hopen
      cases hopen
  | ready hready hopen =>
      exact { h with
        ready := fun _ => rfl
        scanning := by
          intro hrunning hmain
          have htable : isJSON ≠ true := fun hjson => (hreadable.1 hrunning).2 hjson hready
          simp only [if_neg htable]
          exact h.scanning hrunning hmain }

theorem Good.asked_of {s : State} (h : Good s) {main : MainAt} (hmain : s.main = main)
    (hnotified : main.notified = true) : s.child ≠ .ended true := by
  apply h.asked
  rw [hmain]
  exact hnotified

/-- Coming back once the child has ended. -/
theorem Good.returns {s : State} (h : Good s) {err : Option String} {waited : Bool}
    (hended : s.child ≠ .running) (hfailing : err = none → s.child ≠ .ended true) :
    Good { s with main := .returned err, waited } :=
  { h with
    unpanicked := nofun
    scanning := fun hrunning => absurd hrunning hended
    staying := fun hrunning => absurd hrunning hended
    asked := nofun
    waking := nofun
    late := nofun
    failing := by
      intro hchild hreturned
      rw [MainAt.returned.injEq] at hreturned
      exact hfailing hreturned hchild }

theorem Good.took {s t : State} {own : Own} (h : Good s)
    (horderly : Orderly parseJson isJSON s (.own own)) (htook : Took parseJson isJSON s own t) :
    Good t := by
  cases htook with
  | @reads line rest t hpipe hscanning hread =>
      have hpopped : Good { s with pipe := rest } := { h with }
      apply hpopped.read _ hread
      apply horderly line
      rw [hpipe]
      rfl
  | scanEnds hscanning hended =>
      exact { h with
        scanning := fun hrunning => absurd hrunning hended
        done := fun _ => hended }
  | reaps hreaping hended => exact { h with scanning := fun hrunning => absurd hrunning hended }
  | seesReady hstarting hready hgot =>
      have hrunning : s.child = .running := horderly
      have hscanning : s.reader = .scanning := by
        apply h.scanning hrunning
        rw [hstarting]
        exact MainAt.noConfusion
      exact { h with
        unpanicked := nofun
        scanning := fun _ _ => hscanning
        staying := nofun
        asked := by
          intro _ hended
          rw [hrunning] at hended
          cases hended
        waking := fun _ hended => absurd hrunning hended
        late := nofun
        failing := nofun }
  | notReady hstarting hready hgot =>
      rw [h.ready hready] at hgot
      cases hgot
  | seesDone hstarting hdone => exact h.returns (h.done hdone) nofun
  | killedWaits hkilled hended => exact h.returns hended nofun
  | done hgrace hended => exact h.returns hended fun _ => h.asked_of hgrace rfl
  | killingDone hkilling hended => exact h.returns hended fun _ => h.asked_of hkilling rfl
  | timesOut hstarting hlate =>
      exact { h with
        unpanicked := nofun
        scanning := by
          intro hrunning _
          apply h.scanning hrunning
          rw [hstarting]
          exact MainAt.noConfusion
        staying := nofun
        asked := nofun
        waking := nofun
        late := nofun
        failing := nofun }
  | takesSignal hlistening hsignal =>
      have hat := h.signalled (by rw [hsignal]; rfl)
      exact { h with
        unpanicked := nofun
        scanning := by
          intro hrunning _
          apply h.scanning hrunning
          rw [hlistening]
          exact MainAt.noConfusion
        staying := nofun
        asked := fun _ => h.asked_of hlistening rfl
        signalled := nofun
        waking := nofun
        late := fun _ => hat
        failing := nofun }
  | graceOver hgrace hlate =>
      exact { h with
        unpanicked := nofun
        scanning := by
          intro hrunning _
          apply h.scanning hrunning
          rw [hgrace]
          exact MainAt.noConfusion
        staying := nofun
        asked := fun _ => h.asked_of hgrace rfl
        waking := nofun
        late := fun _ => h.late (by rw [hgrace]; rfl)
        failing := nofun }

theorem Good.ends {s : State} (h : Good s) (horderly : Orderly parseJson isJSON s .ends)
    (hrunning : s.child = .running) :
    Good { s with child := .ended s.signalledAt.isNone } :=
  { h with
    scanning := nofun
    staying := nofun
    done := fun _ => nofun
    asked := by
      intro hnotified hended
      have hnever : s.signalledAt.isSome = true := by
        cases hmain : s.main with
        | listening => exact h.signalled (horderly hmain)
        | grace | killing =>
            apply h.late
            rw [hmain]
            rfl
        | starting | killed | returned | interrupted | panicked =>
            rw [hmain] at hnotified
            cases hnotified
      rw [Child.ended.injEq, Option.isNone_iff_eq_none] at hended
      rw [hended] at hnever
      cases hnever
    waking := fun hlistening _ => horderly hlistening
    failing := fun _ => h.staying hrunning none }

theorem Good.signal {s : State} (h : Good s) (n : Nat) : Good (Listen.signalled s n) := by
  unfold Listen.signalled
  cases hmain : s.main with
  | starting | killed =>
      exact { h with
        unpanicked := nofun
        scanning := fun _ hother => absurd rfl hother
        staying := nofun
        asked := nofun
        waking := nofun
        late := nofun
        failing := nofun }
  | returned err | interrupted | panicked => exact h
  | listening | grace deadline | killing =>
      have hat : (s.signalledAt.or (some s.now)).isSome = true := by
        cases s.signalledAt <;> rfl
      have hsig : (s.sigCh.or (some n)).isSome = true := by
        cases s.sigCh <;> rfl
      have hgood : Good { s with
          sigCh := s.sigCh.or (some n), signalledAt := s.signalledAt.or (some s.now) } :=
        { h with
          signalled := fun _ => hat
          waking := fun _ _ => hsig
          late := fun _ => hat }
      rw [hmain] at hgood
      exact hgood

theorem good_step (s : State) (a : Action) (t : State) (h : Good s)
    (horderly : Orderly parseJson isJSON s a) (hstep : step parseJson isJSON s a = some t) :
    Good t := by
  cases a with
  | own own => exact h.took horderly (took_of_step hstep)
  | writes line =>
      change (if _ then _ else _) = _ at hstep
      split at hstep
      · cases hstep
        exact { h with }
      · cases hstep
  | ends =>
      change (if _ then _ else _) = _ at hstep
      split at hstep
      · rename_i hrunning
        cases hstep
        exact h.ends horderly hrunning
      · cases hstep
  | signal n =>
      change (if _ then _ else _) = _ at hstep
      split at hstep
      · cases hstep
        exact h.signal n
      · cases hstep
  | elapse =>
      change (if _ then _ else _) = _ at hstep
      split at hstep
      · cases hstep
        exact { h with }
      · cases hstep

/-! ## What listening comes to -/

/-- What is left to do for the two goroutines. -/
def left (s : State) : Nat :=
  s.pipe.length +
  (match s.reader with
    | .scanning => 2
    | .reaping _ => 1
    | .returned => 0) +
  (match s.main with
    | .starting => 4
    | .listening => 3
    | .grace _ => 2
    | .killed | .killing => 1
    | .returned _ | .interrupted | .panicked => 0)

theorem left_read {s t : State} {line : String} (hscanning : s.reader = .scanning)
    (hread : Read parseJson isJSON s line t) : left t ≤ left s := by
  cases hread with
  | tooLong =>
      simp only [left, hscanning]
      omega
  | skipped => exact Nat.le_refl _
  | malformed =>
      simp only [left, hscanning]
      omega
  | again =>
      simp only [left]
      omega
  | ready =>
      cases isJSON with
      | true =>
          simp only [left, hscanning]
          simp
      | false => exact Nat.le_refl _

theorem left_took {s t : State} {own : Own} (htook : Took parseJson isJSON s own t) :
    left t < left s := by
  cases htook with
  | @reads line rest t hpipe hscanning hread =>
      have hle := left_read (s := { s with pipe := rest }) hscanning hread
      apply Nat.lt_of_le_of_lt hle
      simp only [left, hpipe, List.length_cons]
      omega
  | scanEnds hplace | reaps hplace | seesReady hplace | notReady hplace | seesDone hplace
  | timesOut hplace | killedWaits hplace | takesSignal hplace | done hplace | graceOver hplace
  | killingDone hplace =>
      simp only [left, hplace]
      omega

/-- The command and its child get on with one another. -/
structure Serves (parseJson : String → Option Value) (isJSON : Bool) (s : State) : Prop where
  unpanicked : s.main ≠ .panicked
  /-- Back once the child has ended, or about to be, if only at the startup timeout. -/
  ending : s.child ≠ .running → s.main.finished = true ∨
    (∃ own t, ownStep parseJson isJSON s own = some t) ∨ s.main = .starting ∧ s.readyCh = false
  failing : s.child = .ended true → s.main ≠ .returned none
  reading : s.child = .running →
    s.main = .interrupted ∨ s.main.finished = false ∧ s.reader = .scanning

theorem Good.serves {s : State} (h : Good s) : Serves parseJson isJSON s where
  unpanicked := h.unpanicked
  ending := by
    intro hended
    cases hmain : s.main with
    | starting =>
        cases hready : s.readyCh with
        | true =>
            refine .inr (.inl ⟨.seesReady, { s with main := .listening }, ?_⟩)
            exact (if_pos ⟨hmain, hready⟩).trans (if_pos (h.ready hready))
        | false => exact .inr (.inr ⟨rfl, rfl⟩)
    | killed => exact .inr (.inl ⟨.killedWaits, _, if_pos ⟨hmain, hended⟩⟩)
    | listening =>
        obtain ⟨n, hn⟩ := Option.isSome_iff_exists.mp (h.waking hmain hended)
        refine .inr (.inl ⟨.takesSignal, { s with
          main := .grace (s.now + gracePeriod), sigCh := none, sent := n :: s.sent }, ?_⟩)
        unfold ownStep
        rw [hmain, hn]
    | grace deadline =>
        refine .inr (.inl ⟨.done, { s with main := .returned none, waited := true }, ?_⟩)
        unfold ownStep
        simp only [hmain]
        exact if_pos hended
    | killing => exact .inr (.inl ⟨.killingDone, _, if_pos ⟨hmain, hended⟩⟩)
    | returned | interrupted | panicked => exact .inl rfl
  failing := h.failing
  reading := by
    intro hrunning
    cases hmain : s.main with
    | interrupted => exact .inl rfl
    | returned err => exact absurd hmain (h.staying hrunning err)
    | panicked => exact absurd hmain h.unpanicked
    | starting | killed | listening | grace | killing =>
        refine .inr ⟨rfl, h.scanning hrunning ?_⟩
        rw [hmain]
        exact MainAt.noConfusion

/-- `runListen` is back in time after a signal, and at the startup timeout where no message said
that the tunnel is ready. -/
theorem Timely.inTime {s : State} (h : Timely s) :
    (s.gotReady = false → s.main.finished = true ∨ s.now ≤ startupTimeout) ∧
    ∀ t, s.signalledAt = some t → s.main.finished = true ∨ s.now ≤ t + gracePeriod := by
  unfold Timely at h
  cases hmain : s.main with
  | starting | killed =>
      rw [hmain] at h
      refine ⟨fun _ => .inr h.1, ?_⟩
      intro t hat
      rw [h.2.1] at hat
      cases hat
  | listening =>
      rw [hmain] at h
      constructor
      · intro hnever
        rw [h.1] at hnever
        cases hnever
      · intro t hat
        rw [h.2] at hat
        obtain ⟨n, -, hnow⟩ := Option.map_eq_some_iff.mp hat
        exact .inr (by omega)
  | grace deadline =>
      rw [hmain] at h
      obtain ⟨hgot, u, hu, hdeadline, hnow⟩ := h
      constructor
      · intro hnever
        rw [hgot] at hnever
        cases hnever
      · intro t hat
        rw [hu, Option.some.injEq] at hat
        exact .inr (by omega)
  | killing =>
      rw [hmain] at h
      obtain ⟨hgot, hsent, u, hu, hnow⟩ := h
      constructor
      · intro hnever
        rw [hgot] at hnever
        cases hnever
      · intro t hat
        rw [hu, Option.some.injEq] at hat
        exact .inr (by omega)
  | returned | interrupted | panicked => exact ⟨fun _ => .inl rfl, fun _ _ => .inl rfl⟩

/-- A run in which nothing is read too long, malformed or ready too often, and in which the child
does not end by itself once the tunnel is ready, ends in time and with its child. -/
theorem runListen_serves {actions : List Action} {s : State}
    (hmeets : Runs.Meets (step parseJson isJSON) (Orderly parseJson isJSON) start actions)
    (hrun : Runs.run (step parseJson isJSON) start actions = some s) :
    Serves parseJson isJSON s ∧
    (s.gotReady = false → s.main.finished = true ∨ s.now ≤ startupTimeout) ∧
    (∀ t, s.signalledAt = some t → s.main.finished = true ∨ s.now ≤ t + gracePeriod) ∧
    ∀ own t, ownStep parseJson isJSON s own = some t → left t < left s := by
  have hgood : Good s := Runs.invariant good_step good_start hmeets hrun
  have htimely : Timely s := Runs.invariant_always timely_step timely_start hrun
  refine ⟨hgood.serves, htimely.inTime.1, htimely.inTime.2, ?_⟩
  intro own t htook
  exact left_took (took_of_step htook)

/-- The text of two messages. -/
def readyLine : String := "\x7b\"type\":\"tunnel_ready\"\x7d"

def heartbeatLine : String := "\x7b\"type\":\"heartbeat\"\x7d"

/-- What `encoding/json` makes of them, and of what is not JSON. -/
def parseSome (line : String) : Option Value :=
  if line = readyLine then some (.object [("type", .string "tunnel_ready")])
  else if line = heartbeatLine then some (.object [("type", .string "heartbeat")])
  else none

/-- The tunnel is ready, there is a heartbeat and a signal, and the child ends in time. -/
def servedRun : List Action :=
  [.writes readyLine, .own .reads, .own .seesReady, .writes heartbeatLine, .own .reads, .elapse,
    .signal 2, .own .takesSignal, .elapse, .ends, .own .done]

theorem runListen_serves_signal :
    ∃ s, Runs.run (step parseSome false) start servedRun = some s ∧ s.main = .returned none ∧
      Serves parseSome false s := by
  have hmeets : Runs.Meets (step parseSome false) (Orderly parseSome false) start servedRun := by
    decide +kernel
  have hrun : ((Runs.run (step parseSome false) start servedRun).map fun s => s.main) =
      some (.returned none) := by
    decide +kernel
  obtain ⟨s, hs, hmain⟩ := Option.map_eq_some_iff.mp hrun
  exact ⟨s, hs, hmain, (runListen_serves hmeets hs).1⟩

/-- Where a run of the command ends up. -/
def ranTo (isJSON : Bool) (actions : List Action) : Option State :=
  Runs.run (step parseSome isJSON) start actions

/-- The child ends by itself once the tunnel is ready, and nothing is left to do but to wait for a
signal; the tunnel is ready twice; the child goes on after a line that is not a message, and after
the first that says that the tunnel is ready where the output is JSON. -/
theorem listen_jams :
    (∃ s, ranTo false [.writes readyLine, .own .reads, .own .seesReady, .ends, .own .scanEnds] =
        some s ∧ s.child = .ended true ∧ s.main = .listening ∧ Idle parseSome false s ∧
      ¬Serves parseSome false s) ∧
    (∃ s, ranTo false [.writes readyLine, .writes readyLine, .own .reads, .own .reads] = some s ∧
      s.main = .panicked) ∧
    (∃ s, ranTo false [.writes "oops", .own .reads] = some s ∧ s.child = .running ∧
      s.reader = .reaping "oops") ∧
    ∃ s, ranTo true [.writes readyLine, .own .reads, .own .seesReady] = some s ∧
      s.child = .running ∧ s.main = .listening ∧ s.reader = .returned := by
  refine ⟨⟨_, rfl, rfl, rfl, ?idle, ?stuck⟩, ⟨_, rfl, ?_⟩, ⟨_, rfl, ?_⟩, ⟨_, rfl, ?_⟩⟩
  case idle => decide +kernel
  case stuck =>
    intro hserves
    rcases hserves.ending nofun with hback | ⟨own, t, htook⟩ | ⟨hstarting, -⟩
    · cases hback
    · cases own <;> cases htook
    · cases hstarting
  all_goals decide +kernel

end DatumConnect.Plugin.Listen
