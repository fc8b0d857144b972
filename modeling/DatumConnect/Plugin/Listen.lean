import DatumConnect.Lib.Json
import DatumConnect.Lib.Runs
/-!
# The listen command

`runListen` starts the Rust binary, reads its messages line by line in a goroutine and waits
for the tunnel to be ready, for the child's output to end or for the startup timeout; once the
tunnel is ready it waits for a signal, hands it on and gives the child a grace period.
-/

namespace DatumConnect.Plugin.Listen

open DatumConnect.Lib
open DatumConnect.Lib.Json

/-! ## Messages -/

structure TypedMessage where
  type : String
  message : String
  fields : List (String × Value)

/-- The string a field holds, and the empty one for anything else. -/
def stringOf : Value → String
  | .string s => s
  | _ => ""

def parseTypedMessage (parseJson : String → Option Value) (line : String) : Option TypedMessage :=
  match parseJson line with
  | some (.object fields) =>
      match fields.lookup "type" with
      | none => none
      | some typeField =>
          some {
            type := stringOf typeField
            message := ((fields.lookup "message").map stringOf).getD ""
            fields }
  | _ => none

/-- What goes to stderr for a message. -/
def report (msg : TypedMessage) : List String :=
  if msg.message = "" then []
  else if msg.type = "error" then ["error: " ++ msg.message]
  else if msg.type = "tunnel_terminal_failure" ∨ msg.type = "tunnel_login_lost" ∨
      msg.type = "tunnel_deleted_upstream" then [msg.message]
  else []

/-! ## The command and its child -/

/-- Ten minutes in milliseconds. -/
def startupTimeout : Nat := 600000

def gracePeriod : Nat := 30000

/-- `bufio.MaxScanTokenSize`: a line that fills the buffer is too long. -/
def maxScanTokenSize : Nat := 65536

inductive Child where
  | running
  /-- `byItself`: the command had got no signal by then. -/
  | ended (byItself : Bool)
  deriving DecidableEq, Repr

/-- Where the reading goroutine is: in its loop, in `Wait` after a malformed line, or back. -/
inductive ReaderAt where
  | scanning
  | reaping (line : String)
  | returned
  deriving DecidableEq, Repr

/-- Where `runListen` is. -/
inductive MainAt where
  /-- In the first `select`. -/
  | starting
  /-- In `Wait` after the startup timeout. -/
  | killed
  /-- At `<-sigCh`. -/
  | listening
  | grace (deadline : Nat)
  /-- At `<-done` after the grace period. -/
  | killing
  | returned (err : Option String)
  /-- Ended by a signal that nothing was set up for yet. -/
  | interrupted
  | panicked
  deriving DecidableEq, Repr

def MainAt.finished : MainAt → Bool
  | .returned _ | .interrupted | .panicked => true
  | .starting | .killed | .listening | .grace _ | .killing => false

structure State where
  /-- Milliseconds since the first `select`. -/
  now : Nat
  child : Child
  /-- The lines the child wrote and nobody has read. -/
  pipe : List String
  reader : ReaderAt
  gotReady : Bool
  /-- `readyCh` is closed. -/
  readyCh : Bool
  /-- `readDone` is closed. -/
  readDone : Bool
  /-- A `Wait` is over, and with it the read end of the pipe is closed. -/
  waited : Bool
  main : MainAt
  /-- The channel of `signal.Notify`, of capacity one. -/
  sigCh : Option Nat
  /-- When the first signal came that was waited for. -/
  signalledAt : Option Nat
  /-- The signals sent to the child, the last one first. -/
  sent : List Nat
  stderr : List String
  deriving DecidableEq, Repr

def start : State where
  now := 0
  child := .running
  pipe := []
  reader := .scanning
  gotReady := false
  readyCh := false
  readDone := false
  waited := false
  main := .starting
  sigCh := none
  signalledAt := none
  sent := []
  stderr := []

/-- The steps of the two goroutines. -/
inductive Own where
  | reads
  | scanEnds
  | reaps
  | seesReady
  | seesDone
  | timesOut
  | killedWaits
  | takesSignal
  | done
  | graceOver
  | killingDone
  deriving DecidableEq, Repr

def Own.all : List Own :=
  [.reads, .scanEnds, .reaps, .seesReady, .seesDone, .timesOut, .killedWaits, .takesSignal, .done,
    .graceOver, .killingDone]

inductive Action where
  | own (step : Own)
  | writes (line : String)
  | ends
  | signal (n : Nat)
  /-- A millisecond goes by, which it does only where nobody has anything to do. -/
  | elapse
  deriving DecidableEq, Repr

/-- A line without the carriage return at its end. -/
def dropCR (line : String) : String :=
  if line.toList.getLast? = some (Char.ofNat 13) then String.ofList line.toList.dropLast else line

section

variable (parseJson : String → Option Value) (isJSON : Bool)

/-- One round of the reader's loop, on the next line. -/
def reads (s : State) (line : String) : State :=
  if maxScanTokenSize ≤ line.utf8ByteSize then { s with reader := .returned, readDone := true }
  else if dropCR line = "" then s
  else
    match parseTypedMessage parseJson (dropCR line) with
    | none => { s with reader := .reaping (dropCR line) }
    | some msg =>
        if msg.type = "tunnel_ready" then
          -- Closing a closed channel panics.
          if s.readyCh then { s with gotReady := true, main := .panicked }
          else
            { s with
              gotReady := true
              readyCh := true
              reader := if isJSON then .returned else s.reader }
        else { s with stderr := s.stderr ++ report msg }

def ownStep (s : State) : Own → Option State
  | .reads =>
      match s.pipe with
      | [] => none
      | line :: rest =>
          if s.main.finished = false ∧ s.reader = .scanning then
            some (reads parseJson isJSON { s with pipe := rest } line)
          else none
  | .scanEnds =>
      if s.main.finished = false ∧ s.reader = .scanning ∧ s.child ≠ .running ∧
          (s.pipe = [] ∨ s.waited = true) then
        some { s with reader := .returned, readDone := true }
      else none
  | .reaps =>
      match s.reader with
      | .reaping line =>
          if s.main.finished = false ∧ s.child ≠ .running then
            some { s with
              reader := .returned
              waited := true
              stderr := s.stderr ++ ["malformed message from child: " ++ line] }
          else none
      | _ => none
  | .seesReady =>
      if s.main = .starting ∧ s.readyCh = true then
        if s.gotReady then some { s with main := .listening }
        else some { s with main := .returned (some "no ready message received from child") }
      else none
  | .seesDone =>
      if s.main = .starting ∧ s.readDone = true then
        some { s with main := .returned (some "child exited before sending ready message") }
      else none
  | .timesOut =>
      if s.main = .starting ∧ startupTimeout ≤ s.now then
        some { s with main := .killed, sent := 9 :: s.sent }
      else none
  | .killedWaits =>
      if s.main = .killed ∧ s.child ≠ .running then
        some { s with
          main := .returned (some "timed out waiting for tunnel ready after 10m0s")
          waited := true }
      else none
  | .takesSignal =>
      match s.main, s.sigCh with
      | .listening, some n =>
          some { s with main := .grace (s.now + gracePeriod), sigCh := none, sent := n :: s.sent }
      | _, _ => none
  | .done =>
      match s.main with
      | .grace _ =>
          if s.child ≠ .running then some { s with main := .returned none, waited := true }
          else none
      | _ => none
  | .graceOver =>
      match s.main with
      | .grace deadline =>
          if deadline ≤ s.now then some { s with main := .killing, sent := 9 :: s.sent } else none
      | _ => none
  | .killingDone =>
      if s.main = .killing ∧ s.child ≠ .running then
        some { s with main := .returned none, waited := true }
      else none

/-- A signal, which ends a process that has not asked for it. -/
def signalled (s : State) (n : Nat) : State :=
  match s.main with
  | .starting | .killed => { s with main := .interrupted }
  | .listening | .grace _ | .killing =>
      { s with sigCh := s.sigCh.or (some n), signalledAt := s.signalledAt.or (some s.now) }
  | .returned _ | .interrupted | .panicked => s

/-- Nobody has anything to do: neither goroutine, nor the system with a child that was killed. -/
def Idle (s : State) : Prop :=
  (∀ own ∈ Own.all, ownStep parseJson isJSON s own = none) ∧ ¬(s.child = .running ∧ 9 ∈ s.sent)

instance (s : State) : Decidable (Idle parseJson isJSON s) := by
  unfold Idle
  infer_instance

def step (s : State) : Action → Option State
  | .own own => ownStep parseJson isJSON s own
  | .writes line => if s.child = .running then some { s with pipe := s.pipe ++ [line] } else none
  | .ends =>
      if s.child = .running then some { s with child := .ended s.signalledAt.isNone } else none
  | .signal n => if n = 2 ∨ n = 15 then some (signalled s n) else none
  | .elapse => if Idle parseJson isJSON s then some { s with now := s.now + 1 } else none

/-! ## Reading a line -/

/-- A line the reader gets past: not too long, and empty or a message. -/
def Known (line : String) : Prop :=
  line.utf8ByteSize < maxScanTokenSize ∧
    (dropCR line = "" ∨ (parseTypedMessage parseJson (dropCR line)).isSome = true)

/-- A line that says that the tunnel is ready. -/
def IsReady (line : String) : Prop :=
  line.utf8ByteSize < maxScanTokenSize ∧ dropCR line ≠ "" ∧
    (parseTypedMessage parseJson (dropCR line)).map TypedMessage.type = some "tunnel_ready"

instance (line : String) : Decidable (Known parseJson line) := by
  unfold Known
  infer_instance

instance (line : String) : Decidable (IsReady parseJson line) := by
  unfold IsReady
  infer_instance

/-- What reading a line can come to. -/
inductive Read (s : State) (line : String) : State → Prop
  | tooLong (hlong : ¬Known parseJson line) :
      Read s line { s with reader := .returned, readDone := true }
  | skipped (more : List String) : Read s line { s with stderr := s.stderr ++ more }
  | malformed (text : String) (hunknown : ¬Known parseJson line) :
      Read s line { s with reader := .reaping text }
  | again (hready : IsReady parseJson line) (hclosed : s.readyCh = true) :
      Read s line { s with gotReady := true, main := .panicked }
  | ready (hready : IsReady parseJson line) (hopen : s.readyCh = false) :
      Read s line { s with
        gotReady := true, readyCh := true, reader := if isJSON then .returned else s.reader }

theorem read_reads (s : State) (line : String) :
    Read parseJson isJSON s line (reads parseJson isJSON s line) := by
  unfold reads
  split
  · rename_i hlong
    apply Read.tooLong
    intro hknown
    exact absurd hknown.1 (Nat.not_lt.mpr hlong)
  rename_i hshort
  have hshort := Nat.lt_of_not_le hshort
  split
  · have hskipped : Read parseJson isJSON s line { s with stderr := s.stderr ++ [] } :=
      Read.skipped []
    rw [List.append_nil] at hskipped
    exact hskipped
  rename_i hfull
  split
  · rename_i hparse
    apply Read.malformed
    rintro ⟨-, hempty | hmessage⟩
    · exact hfull hempty
    · rw [hparse] at hmessage
      cases hmessage
  rename_i msg hparse
  split
  · rename_i htype
    have hready : IsReady parseJson line := by
      refine ⟨hshort, hfull, ?_⟩
      rw [hparse, ← htype]
      rfl
    split
    · rename_i hclosed
      exact Read.again hready hclosed
    · rename_i hopen
      exact Read.ready hready (Bool.eq_false_iff.mpr hopen)
  · exact Read.skipped _

/-! ## In time -/

/-- What holds at each place of `runListen`, whatever the child does. -/
def Timely (s : State) : Prop :=
  match s.main with
  | .starting => s.now ≤ startupTimeout ∧ s.signalledAt = none ∧ s.sigCh = none
  | .killed =>
      s.now ≤ startupTimeout ∧ s.signalledAt = none ∧ (s.child = .running → 9 ∈ s.sent)
  | .listening => s.gotReady = true ∧ s.signalledAt = s.sigCh.map fun _ => s.now
  | .grace deadline =>
      s.gotReady = true ∧
        ∃ t, s.signalledAt = some t ∧ deadline = t + gracePeriod ∧ s.now ≤ deadline
  | .killing =>
      s.gotReady = true ∧ (s.child = .running → 9 ∈ s.sent) ∧
        ∃ t, s.signalledAt = some t ∧ s.now ≤ t + gracePeriod
  | .returned _ | .interrupted | .panicked => True

theorem timely_start : Timely start := ⟨Nat.zero_le _, rfl, rfl⟩

theorem Timely.of_finished {s : State} (h : s.main.finished = true) : Timely s := by
  unfold Timely
  cases hmain : s.main <;> first | trivial | (rw [hmain] at h; cases h)

/-- What `Timely` reads and a step leaves as it was. -/
theorem Timely.congr {s t : State} (h : Timely s) (hmain : t.main = s.main) (hnow : t.now = s.now)
    (hgot : s.gotReady = true → t.gotReady = true) (hat : t.signalledAt = s.signalledAt)
    (hsig : t.sigCh = s.sigCh) (hsent : t.sent = s.sent)
    (hchild : t.child = .running → s.child = .running) : Timely t := by
  unfold Timely at h ⊢
  rw [hmain]
  cases hplace : s.main with
  | starting =>
      rw [hplace] at h
      rw [hnow, hat, hsig]
      exact h
  | killed =>
      rw [hplace] at h
      rw [hnow, hat, hsent]
      exact ⟨h.1, h.2.1, fun hrunning => h.2.2 (hchild hrunning)⟩
  | listening =>
      rw [hplace] at h
      rw [hnow, hat, hsig]
      exact ⟨hgot h.1, h.2⟩
  | grace deadline =>
      rw [hplace] at h
      rw [hnow, hat]
      exact ⟨hgot h.1, h.2⟩
  | killing =>
      rw [hplace] at h
      rw [hnow, hat, hsent]
      exact ⟨hgot h.1, fun hrunning => h.2.1 (hchild hrunning), h.2.2⟩
  | returned err | interrupted | panicked => trivial

variable {parseJson isJSON}

theorem Timely.read {s t : State} {line : String} (h : Timely s)
    (hread : Read parseJson isJSON s line t) : Timely t := by
  cases hread with
  | tooLong => exact h.congr rfl rfl id rfl rfl rfl id
  | skipped more => exact h.congr rfl rfl id rfl rfl rfl id
  | malformed text => exact h.congr rfl rfl id rfl rfl rfl id
  | again => exact Timely.of_finished rfl
  | ready => exact h.congr rfl rfl (fun _ => rfl) rfl rfl rfl id

/-- What a step of the two goroutines finds and leaves. -/
inductive Took (parseJson : String → Option Value) (isJSON : Bool) (s : State) :
    Own → State → Prop
  | reads {line : String} {rest : List String} {t : State} (hpipe : s.pipe = line :: rest)
      (hscanning : s.reader = .scanning)
      (hread : Read parseJson isJSON { s with pipe := rest } line t) : Took parseJson isJSON s .reads t
  | scanEnds (hscanning : s.reader = .scanning) (hended : s.child ≠ .running) :
      Took parseJson isJSON s .scanEnds { s with reader := .returned, readDone := true }
  | reaps {line : String} {stderr : List String} (hreaping : s.reader = .reaping line)
      (hended : s.child ≠ .running) :
      Took parseJson isJSON s .reaps { s with reader := .returned, waited := true, stderr }
  | seesReady (hstarting : s.main = .starting) (hready : s.readyCh = true)
      (hgot : s.gotReady = true) :
      Took parseJson isJSON s .seesReady { s with main := .listening }
  | notReady {err : String} (hstarting : s.main = .starting) (hready : s.readyCh = true)
      (hgot : s.gotReady = false) :
      Took parseJson isJSON s .seesReady { s with main := .returned (some err) }
  | seesDone {err : String} (hstarting : s.main = .starting) (hdone : s.readDone = true) :
      Took parseJson isJSON s .seesDone { s with main := .returned (some err) }
  | timesOut (hstarting : s.main = .starting) (hlate : startupTimeout ≤ s.now) :
      Took parseJson isJSON s .timesOut { s with main := .killed, sent := 9 :: s.sent }
  | killedWaits {err : String} (hkilled : s.main = .killed) (hended : s.child ≠ .running) :
      Took parseJson isJSON s .killedWaits
        { s with main := .returned (some err), waited := true }
  | takesSignal {n : Nat} (hlistening : s.main = .listening) (hsignal : s.sigCh = some n) :
      Took parseJson isJSON s .takesSignal
        { s with main := .grace (s.now + gracePeriod), sigCh := none, sent := n :: s.sent }
  | done {deadline : Nat} (hgrace : s.main = .grace deadline) (hended : s.child ≠ .running) :
      Took parseJson isJSON s .done { s with main := .returned none, waited := true }
  | graceOver {deadline : Nat} (hgrace : s.main = .grace deadline) (hlate : deadline ≤ s.now) :
      Took parseJson isJSON s .graceOver { s with main := .killing, sent := 9 :: s.sent }
  | killingDone (hkilling : s.main = .killing) (hended : s.child ≠ .running) :
      Took parseJson isJSON s .killingDone { s with main := .returned none, waited := true }

theorem took_of_step {s t : State} {own : Own} (h : ownStep parseJson isJSON s own = some t) :
    Took parseJson isJSON s own t := by
  cases own with
  | reads =>
      unfold ownStep at h
      simp only at h
      split at h
      · cases h
      · rename_i line rest hpipe
        split at h
        · rename_i hreads
          cases h
          exact .reads hpipe hreads.2 (read_reads _ _ _ _)
        · cases h
  | scanEnds =>
      change (if _ then _ else _) = _ at h
      split at h
      · rename_i hends
        cases h
        exact .scanEnds hends.2.1 hends.2.2.1
      · cases h
  | reaps =>
      unfold ownStep at h
      simp only at h
      split at h
      · rename_i line hreaping
        split at h
        · rename_i hreaps
          cases h
          exact .reaps hreaping hreaps.2
        · cases h
      · cases h
  | seesReady =>
      change (if _ then _ else _) = _ at h
      split at h
      · rename_i hsees
        split at h
        · rename_i hgot
          cases h
          exact .seesReady hsees.1 hsees.2 hgot
        · rename_i hgot
          cases h
          exact .notReady hsees.1 hsees.2 (Bool.eq_false_iff.mpr hgot)
      · cases h
  | seesDone =>
      change (if _ then _ else _) = _ at h
      split at h
      · rename_i hsees
        cases h
        exact .seesDone hsees.1 hsees.2
      · cases h
  | timesOut =>
      change (if _ then _ else _) = _ at h
      split at h
      · rename_i hlate
        cases h
        exact .timesOut hlate.1 hlate.2
      · cases h
  | killedWaits =>
      change (if _ then _ else _) = _ at h
      split at h
      · rename_i hwaits
        cases h
        exact .killedWaits hwaits.1 hwaits.2
      · cases h
  | takesSignal =>
      unfold ownStep at h
      simp only at h
      split at h
      · rename_i n hlistening hsignal
        cases h
        exact .takesSignal hlistening hsignal
      · cases h
  | done =>
      unfold ownStep at h
      simp only at h
      split at h
      · rename_i deadline hgrace
        split at h
        · rename_i hended
          cases h
          exact .done hgrace hended
        · cases h
      · cases h
  | graceOver =>
      unfold ownStep at h
      simp only at h
      split at h
      · rename_i deadline hgrace
        split at h
        · rename_i hlate
          cases h
          exact .graceOver hgrace hlate
        · cases h
      · cases h
  | killingDone =>
      change (if _ then _ else _) = _ at h
      split at h
      · rename_i hwaits
        cases h
        exact .killingDone hwaits.1 hwaits.2
      · cases h

theorem Timely.took {s t : State} {own : Own} (h : Timely s)
    (htook : Took parseJson isJSON s own t) : Timely t := by
  cases htook with
  | @reads line rest t hpipe hscanning hread =>
      have hpopped : Timely { s with pipe := rest } := h.congr rfl rfl id rfl rfl rfl id
      exact hpopped.read hread
  | scanEnds hscanning hended => exact h.congr rfl rfl id rfl rfl rfl id
  | reaps hreaping hended => exact h.congr rfl rfl id rfl rfl rfl id
  | seesReady hstarting hready hgot =>
      unfold Timely at h
      rw [hstarting] at h
      refine ⟨hgot, ?_⟩
      rw [h.2.1, h.2.2]
      rfl
  | notReady | seesDone | killedWaits | done | killingDone => exact Timely.of_finished rfl
  | timesOut hstarting hlate =>
      unfold Timely at h
      rw [hstarting] at h
      exact ⟨h.1, h.2.1, fun _ => List.mem_cons_self⟩
  | takesSignal hlistening hsignal =>
      unfold Timely at h
      rw [hlistening, hsignal] at h
      exact ⟨h.1, s.now, h.2, rfl, Nat.le_add_right _ _⟩
  | graceOver hgrace hlate =>
      unfold Timely at h
      rw [hgrace] at h
      obtain ⟨hgot, t, hat, hdeadline, hnow⟩ := h
      exact ⟨hgot, fun _ => List.mem_cons_self, t, hat, hdeadline ▸ hnow⟩

theorem Timely.signalled {s : State} (h : Timely s) (n : Nat) : Timely (signalled s n) := by
  unfold Listen.signalled
  cases hmain : s.main with
  | starting | killed => exact Timely.of_finished rfl
  | returned err | interrupted | panicked =>
      apply Timely.of_finished
      rw [hmain]
      rfl
  | listening =>
      unfold Timely at h ⊢
      rw [hmain] at h
      simp only
      refine ⟨h.1, ?_⟩
      rw [h.2]
      cases s.sigCh <;> rfl
  | grace deadline =>
      unfold Timely at h ⊢
      rw [hmain] at h
      simp only
      obtain ⟨hgot, t, hat, hrest⟩ := h
      refine ⟨hgot, t, ?_, hrest⟩
      rw [hat]
      rfl
  | killing =>
      unfold Timely at h ⊢
      rw [hmain] at h
      simp only
      obtain ⟨hgot, hsent, t, hat, hnow⟩ := h
      refine ⟨hgot, hsent, t, ?_, hnow⟩
      rw [hat]
      rfl

/-- Time goes by only where no deadline has been reached. -/
theorem Timely.elapse {s : State} (h : Timely s) (hidle : Idle parseJson isJSON s) :
    Timely { s with now := s.now + 1 } := by
  obtain ⟨hnone, hkill⟩ := hidle
  unfold Timely at h ⊢
  cases hmain : s.main with
  | starting =>
      rw [hmain] at h
      simp only
      refine ⟨?_, h.2⟩
      have hlate := hnone .timesOut (by decide)
      change (if _ then _ else _) = _ at hlate
      split at hlate
      · cases hlate
      · rename_i hearly
        by_contra hover
        exact hearly ⟨hmain, by omega⟩
  | killed =>
      rw [hmain] at h
      by_cases hrunning : s.child = .running
      · exact absurd ⟨hrunning, h.2.2 hrunning⟩ hkill
      · have hwaits := hnone .killedWaits (by decide)
        have hreturns : ownStep parseJson isJSON s .killedWaits = some _ := if_pos ⟨hmain, hrunning⟩
        rw [hwaits] at hreturns
        cases hreturns
  | listening =>
      rw [hmain] at h
      simp only
      refine ⟨h.1, ?_⟩
      cases hsignal : s.sigCh with
      | none =>
          rw [h.2, hsignal]
          rfl
      | some n =>
          have htakes := hnone .takesSignal (by decide)
          unfold ownStep at htakes
          rw [hmain, hsignal] at htakes
          cases htakes
  | grace deadline =>
      rw [hmain] at h
      simp only
      obtain ⟨hgot, t, hat, hdeadline, hnow⟩ := h
      refine ⟨hgot, t, hat, hdeadline, ?_⟩
      have hover := hnone .graceOver (by decide)
      unfold ownStep at hover
      simp only [hmain] at hover
      split at hover
      · cases hover
      · omega
  | killing =>
      rw [hmain] at h
      by_cases hrunning : s.child = .running
      · exact absurd ⟨hrunning, h.2.1 hrunning⟩ hkill
      · have hwaits := hnone .killingDone (by decide)
        have hreturns : ownStep parseJson isJSON s .killingDone = some _ := if_pos ⟨hmain, hrunning⟩
        rw [hwaits] at hreturns
        cases hreturns
  | returned err | interrupted | panicked => trivial

theorem timely_step (s : State) (a : Action) (t : State) (h : Timely s)
    (hstep : step parseJson isJSON s a = some t) : Timely t := by
  cases a with
  | own own => exact h.took (took_of_step hstep)
  | writes line =>
      change (if _ then _ else _) = _ at hstep
      split at hstep
      · cases hstep
        exact h.congr rfl rfl id rfl rfl rfl id
      · cases hstep
  | ends =>
      change (if _ then _ else _) = _ at hstep
      split at hstep
      · cases hstep
        exact h.congr rfl rfl id rfl rfl rfl nofun
      · cases hstep
  | signal n =>
      change (if _ then _ else _) = _ at hstep
      split at hstep
      · cases hstep
        exact h.signalled n
      · cases hstep
  | elapse =>
      change (if _ then _ else _) = _ at hstep
      split at hstep
      · rename_i hidle
        cases hstep
        exact h.elapse hidle
      · cases hstep

end

end DatumConnect.Plugin.Listen
