import DatumConnect.Pairing.Messages
import Mathlib.Logic.Function.Basic
/-!
# Pairing driven from a page

`SetupController`: runs of `pair` that are started, replaced and stopped on request, the status
they write under its lock, and the source a run reads the choice of a project from.
-/

namespace DatumConnect.Pairing.Setup

open DatumConnect.Lib

/-! ## The status -/

inductive Phase where
  | idle
  | starting
  | code
  | approved
  | choose
  | working
  | done
  | failed
  deriving DecidableEq, Repr

/-- The code to approve, without the links. -/
structure CodeView where
  userCode : String
  expiresInSecs : Nat
  expiresAt : Nat
  deriving DecidableEq, Repr

def CodeView.remainingSecs (code : CodeView) (now : Nat) : Nat := (code.expiresAt - now) / 1000

structure ProjectView where
  id : String
  displayName : String
  organization : String
  deriving DecidableEq, Repr

def ProjectView.of (p : ProjectChoice) : ProjectView where
  id := p.id
  displayName := p.displayName
  organization := p.organization

structure Steps where
  serviceAccount : Bool := false
  access : Bool := false
  key : Bool := false
  deriving DecidableEq, Repr

inductive ErrorKind where
  | expired
  | denied
  | forbidden
  | failed
  deriving DecidableEq, Repr

structure ErrorView where
  kind : ErrorKind
  message : String
  deriving DecidableEq, Repr

structure SetupStatus where
  phase : Phase := .idle
  code : Option CodeView := none
  codeRenewed : Bool := false
  email : Option String := none
  projects : List ProjectView := []
  suggested : Option String := none
  project : Option String := none
  organization : Option String := none
  serviceAccount : Option String := none
  steps : Steps := {}
  error : Option ErrorView := none
  deriving DecidableEq, Repr

/-- What the controller is made with. -/
structure Config where
  cfg : PairingConfig
  /-- There is another place the choice may come from. -/
  fallback : Bool := true
  pagePoll : Nat := 1000
  fallbackEvery : Nat := 5000
  /-- The last time that an `Instant` can be of. -/
  latest : Nat
  /-- Which characters the messages of errors show as they are, and the path they name. -/
  printable : Char → Bool
  keyOut : String
  rounds : Nat

/-- What was configured is a suggestion only. -/
def Config.initial (c : Config) : Option String := c.cfg.project.bind normalizeProject

def Config.forRun (c : Config) : PairingConfig :=
  { c.cfg with
    confirmProject := true
    projectWait := some { poll := c.pagePoll, max := 30 * 60 * 1000 } }

def Config.display (c : Config) : PairingError → String := PairingError.message c.printable c.keyOut

def errorView (display : PairingError → String) : PairingError → ErrorView
  | .timedOut _ => { kind := .expired, message := "The code expired before it was approved." }
  | .projectNotChosen _ => {
      kind := .expired
      message := "No project was chosen in time, and the sign-in is no longer good. Sign in " ++
        "again to continue." }
  | .denied => {
      kind := .denied
      message := "The request was declined on the Datum approval page." }
  | .bindingForbidden email project => {
      kind := .forbidden
      message := "Your Datum login can create the service account but can't grant it access. Ask " ++
        s!"an organization owner or editor to grant role 'editor' to service account {email} on " ++
        s!"project {project}, then click Try again." }
  | other => { kind := .failed, message := display other }

/-- To record the event panics: the sum of `Instant` and `Duration` is no `Instant`. -/
def panics (latest now : Nat) : PairingEvent → Bool
  | .code _ expiresIn => latest < now + 1000 * expiresIn
  | _ => false

namespace SetupStatus

variable (s : SetupStatus)

def running : Bool :=
  match s.phase with
  | .starting | .code | .approved | .choose | .working => true
  | .idle | .done | .failed => false

/-- What `Inner::apply` makes of an event of the current run. -/
def apply (latest now : Nat) : PairingEvent → SetupStatus
  | .code userCode expiresIn =>
      -- The phase is written before the code, which is not if the sum panics.
      { s with
        phase := .code
        code :=
          if latest < now + 1000 * expiresIn then s.code
          else some { userCode, expiresInSecs := expiresIn, expiresAt := now + 1000 * expiresIn } }
  | .codeExpired => { s with codeRenewed := true }
  | .approved email | .resumed email =>
      { s with phase := .approved, code := none, email := some email }
  | .sessionDropped _ => s
  | .chooseProject projects _ _ =>
      -- A choice made on the page stands, though pairing has not picked it up.
      { s with
        phase := if s.phase ≠ .working then .choose else s.phase
        projects := projects.map .of }
  | .projectSelected project organization =>
      { s with phase := .working, project := some project, organization := some organization }
  | .serviceAccountCreated email _ | .serviceAccountReused email _ =>
      { s with
        phase := .working
        serviceAccount := some email
        steps := { s.steps with serviceAccount := true } }
  | .accessGranted | .accessNotConfirmed _ _ => { s with steps := { s.steps with access := true } }
  | .keySaved => { s with steps := { s.steps with key := true } }

/-- What `Inner::finish` makes of the end of the current run. -/
def finish (display : PairingError → String) : Except PairingError PairedKey → SetupStatus
  | .ok key =>
      { s with
        phase := .done
        project := some key.project
        organization := some key.organization
        serviceAccount := some key.serviceAccountEmail
        error := none }
  | .error e => { s with phase := .failed, code := none, error := some (errorView display e) }

end SetupStatus

/-! ## The tasks -/

/-- How far a reading of the `PageSource` is: the page has been looked at and had no choice, or the
fallback has been asked. -/
inductive Reading where
  | no
  | looked
  | asked
  deriving DecidableEq, Repr

/-- The task of a run: it waits until the one before it is gone, pairs, and sends the key on. -/
inductive Stage where
  | waiting (previous : Option Nat)
  | going (p : PairProg (Except PairingError PairedKey)) (reading : Reading)
  | sending (key : PairedKey)
  | gone

structure Task where
  stage : Stage := .gone
  aborted : Bool := false
  panicked : Bool := false

def Stage.isGone : Stage → Bool
  | .gone => true
  | _ => false

/-- How what a task waits for goes. -/
structure Answer where
  reply : (c : PairCall) → c.Reply
  fallback : Except String (Option String)

/-- The controller, and the tasks it has spawned. -/
structure Inner where
  status : SetupStatus
  /-- Which run is current. -/
  run : Nat := 0
  page : Option String := none
  /-- When the fallback was last asked, and what it said. -/
  lastFallback : Option (Nat × Option String) := none
  /-- The task that is to be aborted for the next one. -/
  slot : Option Nat := none
  tasks : Nat → Task := fun _ => {}
  done : Option PairedKey := none
  clock : Nat := 0

def Inner.new (c : Config) : Inner where
  status := { suggested := c.initial }

namespace Inner

variable (s : Inner)

def setTask (n : Nat) (task : Task) : Inner := { s with tasks := Function.update s.tasks n task }

def setStage (n : Nat) (stage : Stage) : Inner := s.setTask n { s.tasks n with stage }

def abort (n : Nat) : Inner := s.setTask n { s.tasks n with aborted := true }

/-- The task in the slot is aborted, if there is one. -/
def abortSlot : Inner :=
  match s.slot with
  | some n => s.abort n
  | none => s

def spawnRun : Inner :=
  { s.abortSlot with
    run := s.run + 1
    status := { phase := .starting, suggested := s.status.suggested }
    page := none
    slot := some (s.run + 1)
    tasks := Function.update s.abortSlot.tasks (s.run + 1) { stage := .waiting s.slot } }

def start : Inner := if s.status.running ∨ s.status.phase = .done then s else s.spawnRun

inductive RestartError where
  | approved
  | done
  deriving DecidableEq, Repr

def restart : Inner × Except RestartError Unit :=
  match s.status.phase with
  | .starting | .code | .idle | .failed => (s.spawnRun, .ok ())
  | .approved | .choose | .working => (s, .error .approved)
  | .done => (s, .error .done)

inductive ChooseError where
  | notChoosing
  | unknown
  deriving DecidableEq, Repr

def choose (project : String) : Inner × Except ChooseError Unit :=
  if s.status.phase ≠ .choose then (s, .error .notChoosing)
  else
    match normalizeProject project with
    | none => (s, .error .unknown)
    | some wanted =>
        match s.status.projects.find? fun p => eqIgnoreAsciiCase p.id wanted with
        | none => (s, .error .unknown)
        | some p =>
            ({ s with
                page := some p.id
                status := { s.status with
                  phase := .working, project := some p.id, organization := some p.organization } },
              .ok ())

def stop : Inner := { s.abortSlot with slot := none }

/-- An event is recorded only if its run is the current one. -/
def apply (latest n : Nat) (e : PairingEvent) : Inner :=
  if s.run = n then { s with status := s.status.apply latest s.clock e } else s

def finish (display : PairingError → String) (n : Nat)
    (result : Except PairingError PairedKey) : Inner :=
  if s.run = n then { s with status := s.status.finish display result } else s

/-- What the fallback said, if it was asked a short time ago. -/
def recent (every : Nat) : Option (Option String) :=
  match s.lastFallback with
  | some (at_, v) => if s.clock - at_ < every then some v else none
  | none => none

end Inner

/-- A value of the fallback counts only once it differs from what was configured. -/
def Config.changed (c : Config) (value : Option String) : Option String :=
  value.filter fun v => some v ≠ c.initial

/-! ## Steps -/

variable (lib : Libraries) (c : Config)

namespace Inner

variable (s : Inner)

/-- `PageSource::project`, in its three stages; `k` goes on with what is read. -/
def read (n : Nat) (answer : Answer) (p : PairProg (Except PairingError PairedKey))
    (k : Except String (Option String) → PairProg (Except PairingError PairedKey)) :
    Reading → Inner
  | .no =>
      match s.page with
      | some id => s.setStage n (.going (k (.ok (some id))) .no)
      | none =>
          if c.fallback then s.setStage n (.going p .looked)
          else s.setStage n (.going (k (.ok none)) .no)
  | .looked =>
      match s.recent c.fallbackEvery with
      | some v => s.setStage n (.going (k (.ok (c.changed v))) .no)
      | none => s.setStage n (.going p .asked)
  | .asked =>
      if (s.tasks n).aborted then s.setStage n .gone
      else
        -- An error is remembered as nothing set.
        let v := (answer.fallback.toOption.join).bind normalizeProject
        { s with lastFallback := some (s.clock, v) }.setStage n (.going (k (.ok (c.changed v))) .no)

/-- A task goes on by one step; one that is aborted goes no further than to where it waits. -/
def advance (n : Nat) (answer : Answer) : Inner :=
  match (s.tasks n).stage with
  | .waiting previous =>
      if (s.tasks n).aborted then s.setStage n .gone
      else if previous.all fun m => (s.tasks m).stage.isGone then
        s.setStage n (.going (pair lib c.forRun c.rounds) .no)
      else s
  | .going (.ret result) _ =>
      match result with
      | .ok key => (s.finish c.display n result).setStage n (.sending key)
      | .error _ => (s.finish c.display n result).setStage n .gone
  | .going (.call (.event e) k) _ =>
      if s.run = n ∧ panics c.latest s.clock e then
        (s.apply c.latest n e).setTask n { s.tasks n with stage := .gone, panicked := true }
      else (s.apply c.latest n e).setStage n (.going (k ()) .no)
  | .going (.call .project k) reading => s.read c n answer (.call .project k) k reading
  | .going (.call call k) _ =>
      if (s.tasks n).aborted ∧ call.awaits then s.setStage n .gone
      else s.setStage n (.going (k (answer.reply call)) .no)
  | .sending key => { s with done := some key }.setStage n .gone
  | .gone => s

inductive Act where
  | start
  | restart
  | choose (project : String)
  | stop
  | elapse (time : Nat)
  | advance (n : Nat) (answer : Answer)

def step : Act → Option Inner
  | .start => some s.start
  | .restart => some s.restart.1
  | .choose project => some (s.choose project).1
  | .stop => some s.stop
  | .elapse time => some { s with clock := s.clock + time }
  | .advance n answer => some (s.advance lib c n answer)

end Inner

end DatumConnect.Pairing.Setup
