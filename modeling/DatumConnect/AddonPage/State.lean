import DatumConnect.HomeAssistant.Allow
/-!
# The page and its Allow

What the daemon's page keeps between two requests: the job of Allow, and the status it was
last shown as.  `History` is kept beside it for what is proved; the code does not have it.
-/

namespace DatumConnect.AddonPage

open DatumConnect.HomeAssistant

/-- In milliseconds. -/
def statusTtl : Nat := 5000

def proxyTtl : Nat := 30000

/-! ## What is shown -/

/-- What is said of an Allow that has ended; `outcome_message`. -/
inductive Said where
  | allowed
  | pending
  | failed (why : Failure)
  deriving DecidableEq

def outcomeMessage : AllowOutcome → Bool × Said
  | .allowed | .alreadyAllowed => (true, .allowed)
  | .pendingByOther => (false, .pending)
  | .failed why => (false, .failed why)

inductive StepState where
  | ok
  | needed
  | pending
  | working
  | failed
  | unknown
  deriving DecidableEq, Repr

inductive Message where
  | step (s : AllowStep)
  | pending
  | said (what : Said)
  | couldNotAsk
  deriving DecidableEq

structure ProxyStepView where
  state : StepState
  message : Option Message
  setup : Bool
  deriving DecidableEq

/-- The step's view once Home Assistant has been asked; `none` if it could not be. -/
def proxyStepView (setup : Option ProxySetup) (last : Option (Bool × Said)) (finished : Bool) :
    ProxyStepView :=
  let asStep := !finished || last.any Prod.fst
  match setup, last with
  | some .ready, _ => { state := .ok, message := none, setup := asStep }
  | _, some (false, why) => { state := .failed, message := some (.said why), setup := asStep }
  | some .pending, _ => { state := .pending, message := some .pending, setup := asStep }
  | some (.ours _), _ => { state := .needed, message := none, setup := asStep }
  | some (.needed _), _ => { state := .needed, message := none, setup := asStep }
  | none, _ => { state := .unknown, message := some .couldNotAsk, setup := asStep }

/-- The page's status: which tunnels run, what Datum says of them, and the step. -/
structure PairedStatus where
  running : List String
  tunnels : Except String (List String)
  trustedProxies : Option ProxyStepView

/-! ## What is kept -/

structure ProxyJob where
  running : Option AllowStep := none
  last : Option (Bool × Said) := none
  finished : Option Bool := none
  cached : Option (Nat × Option ProxySetup) := none
  version : Nat := 0
  autoTried : Bool := false

structure CachedStatus where
  builtAt : Nat
  version : Nat
  running : List String
  status : PairedStatus

def CachedStatus.serves (c : CachedStatus) (now version : Nat) (running : List String) : Bool :=
  now - c.builtAt < statusTtl && c.version = version && c.running = running

/-- A status being built: the changes of the job before it was begun, whether its own
request has changed the job since, and how many Allows had ended when the reading it uses
was begun. -/
structure Build where
  began : Nat
  own : Bool := false
  reading : Option Nat := none
  deriving DecidableEq, Repr

/-- A status served: as a build, and the changes and the ends there have been by then. -/
structure Serve where
  fromCache : Bool
  build : Build
  changes : Nat
  ends : Nat
  deriving DecidableEq, Repr

structure History where
  changes : Nat := 0
  ends : Nat := 0
  autoStarts : Nat := 0
  /-- The last change has not moved the version. -/
  unbumped : Bool := false
  /-- The Allows that had ended when the job's cached reading was begun. -/
  reading : Nat := 0
  build : Option Build := none
  /-- The build of the cached status. -/
  kept : Build := { began := 0 }
  served : List Serve := []

structure DaemonPaired where
  now : Nat := 0
  marker : Bool
  job : ProxyJob := {}
  cache : Option CachedStatus := none
  /-- Somebody holds the lock of the cache. -/
  held : Bool := false
  /-- An Allow has been started whose task has not begun; whether it is automatic. -/
  waiting : Option Bool := none
  history : History := {}

namespace DaemonPaired

/-- A change of the job that moves its version. -/
def change (p : DaemonPaired) (f : ProxyJob → ProxyJob) : DaemonPaired :=
  { p with
    job := { f p.job with version := p.job.version + 1 }
    history := { p.history with
      changes := p.history.changes + 1
      unbumped := false
      build := p.history.build.map fun b => { b with own := true } } }

/-- `auto_confirm_due`. -/
def autoConfirmDue (p : DaemonPaired) (setup : Option ProxySetup) : Bool :=
  setup = some (.ours true) && p.job.running.isNone && !p.job.autoTried

/-- The locked part of `allow_inner`, and the task it starts. -/
def startAllow (p : DaemonPaired) (auto : Bool) : DaemonPaired × Bool :=
  if p.job.running.isSome then (p, false)
  else
    let started := p.change fun job =>
      { job with
        running := some (if auto then .verifying else .saving)
        autoTried := auto || job.autoTried
        last := if auto then job.last else none }
    ({ started with
      waiting := some auto
      history := { started.history with
        autoStarts := started.history.autoStarts + if auto then 1 else 0 } }, true)

def step (p : DaemonPaired) (s : AllowStep) : DaemonPaired := p.change fun job => { job with running := some s }

/-- The locked part of `finish_step`. -/
def finish (p : DaemonPaired) : DaemonPaired := p.change fun job => { job with finished := some true }

/-- The locked part of `skip_step`: the outcome is cleared, the version not moved. -/
def skipClear (p : DaemonPaired) : DaemonPaired × Bool :=
  if p.job.running.isSome then (p, false)
  else
    ({ p with
      job := { p.job with last := none }
      history := { p.history with
        changes := p.history.changes + 1
        unbumped := true
        build := p.history.build.map fun b => { b with own := true } } }, true)

/-- Allow has ended; `last` is left as it is where nothing was done. -/
def allowEnds (p : DaemonPaired) (last : Option (Bool × Said)) : DaemonPaired :=
  let ended := p.change fun job =>
    { job with running := none, cached := none, last := last.or job.last }
  { ended with history := { ended.history with ends := ended.history.ends + 1 } }

/-- `step_finished`: read from disk the first time. -/
def stepFinished (p : DaemonPaired) : DaemonPaired × Bool :=
  let finished := p.job.finished.getD p.marker
  ({ p with job := { p.job with finished := some finished } }, finished)

/-- The reading that is still fresh. -/
def freshReading (p : DaemonPaired) : Option (Option ProxySetup) :=
  (p.job.cached.filter fun c => p.now - c.1 < proxyTtl).map Prod.snd

/-- The build uses a reading that was begun after so many ends. -/
def reads (p : DaemonPaired) (ends : Option Nat) : DaemonPaired :=
  { p with history := { p.history with
      build := p.history.build.map fun b => { b with reading := ends } } }

def storeReading (p : DaemonPaired) (setup : Option ProxySetup) : DaemonPaired :=
  { p with
    job := { p.job with cached := some (p.now, setup) }
    history := { p.history with
      reading := (p.history.build.bind Build.reading).getD p.history.ends } }

/-- A status is served, and the cache let go. -/
def serve (p : DaemonPaired) (fromCache : Bool) (build : Build) : DaemonPaired :=
  { p with
    held := false
    history := { p.history with
      build := none
      served := p.history.served ++ [{
        fromCache, build, changes := p.history.changes, ends := p.history.ends }] } }

def cacheServes (p : DaemonPaired) (version : Nat) (running : List String) : DaemonPaired × Option PairedStatus :=
  match p.cache.filter fun c => c.serves p.now version running with
  | some c => (p.serve true p.history.kept, some c.status)
  | none =>
      ({ p with history := { p.history with
          build := some { began := p.history.changes } } }, none)

def fillCache (p : DaemonPaired) (version : Nat) (running : List String) (status : PairedStatus) : DaemonPaired :=
  let build := p.history.build.getD { began := p.history.changes }
  let served := p.serve false build
  { served with
    cache := some { builtAt := p.now, version, running, status }
    history := { served.history with kept := build } }

end DaemonPaired

end DatumConnect.AddonPage
