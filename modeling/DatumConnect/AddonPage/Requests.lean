import DatumConnect.Lib.Pool
import DatumConnect.AddonPage.State
/-!
# Requests of the page, and Allow's task

The requests, the automatic confirmation at the daemon's start and the task that runs
Allow, as programs of the calls they make.  A call is a section under one of the two locks,
or one that is waited for.
-/

namespace DatumConnect.AddonPage

open DatumConnect.Lib
open DatumConnect.HomeAssistant

inductive Call where
  | lockCache
  | clearCache
  | jobVersion
  | runningIds
  | cacheServes (version : Nat) (running : List String)
  | fillCache (version : Nat) (running : List String) (status : PairedStatus)
  | listActive
  | jobSnapshot
  | stepFinished
  /-- No call of the source: here a reading of the settings begins. -/
  | beginRead
  | storeReading (setup : Option ProxySetup)
  | autoConfirmDue (setup : Option ProxySetup)
  | activeTarget
  | startAllow (auto : Bool)
  | runningStep
  | writeMarker
  | finish
  | skipClear
  /-- No call of the source either: the task that was spawned takes up its Allow. -/
  | takeAllow (auto : Bool)
  | allow (c : AllowCall)
  | allowEnds (last : Option (Bool × Said))
  | now
  | sleep (duration : Nat)

/-- What a request takes from the job at once: the step, the outcome, the fresh reading. -/
abbrev Snapshot := Option AllowStep × Option (Bool × Said) × Option (Option ProxySetup)

abbrev Call.Reply : Call → Type
  | .lockCache | .clearCache | .beginRead | .storeReading _ | .writeMarker | .finish | .sleep _ |
    .allowEnds _ | .fillCache _ _ _ => Unit
  | .jobVersion | .now => Nat
  | .runningIds => List String
  | .cacheServes _ _ => Option PairedStatus
  | .listActive => Except String (List String)
  | .jobSnapshot => Snapshot
  | .stepFinished | .autoConfirmDue _ | .startAllow _ | .skipClear | .takeAllow _ => Bool
  | .activeTarget => Except String Unit
  | .runningStep => Option AllowStep
  | .allow c => c.Reply

abbrev PageProg := Prog Call Call.Reply

namespace PageProg

def lockCache : PageProg Unit := Prog.perform Call.lockCache

def clearCache : PageProg Unit := Prog.perform Call.clearCache

def jobVersion : PageProg Nat := Prog.perform Call.jobVersion

def runningIds : PageProg (List String) := Prog.perform Call.runningIds

def cacheServes (version : Nat) (running : List String) : PageProg (Option PairedStatus) :=
  Prog.perform (Call.cacheServes version running)

def fillCache (version : Nat) (running : List String) (status : PairedStatus) : PageProg Unit :=
  Prog.perform (Call.fillCache version running status)

def listActive : PageProg (Except String (List String)) := Prog.perform Call.listActive

def jobSnapshot : PageProg Snapshot := Prog.perform Call.jobSnapshot

def stepFinished : PageProg Bool := Prog.perform Call.stepFinished

def beginRead : PageProg Unit := Prog.perform Call.beginRead

def storeReading (setup : Option ProxySetup) : PageProg Unit :=
  Prog.perform (Call.storeReading setup)

def autoConfirmDue (setup : Option ProxySetup) : PageProg Bool :=
  Prog.perform (Call.autoConfirmDue setup)

def activeTarget : PageProg (Except String Unit) := Prog.perform Call.activeTarget

def startAllow (auto : Bool) : PageProg Bool := Prog.perform (Call.startAllow auto)

def runningStep : PageProg (Option AllowStep) := Prog.perform Call.runningStep

def writeMarker : PageProg Unit := Prog.perform Call.writeMarker

def finish : PageProg Unit := Prog.perform Call.finish

def skipClear : PageProg Bool := Prog.perform Call.skipClear

def takeAllow (auto : Bool) : PageProg Bool := Prog.perform (Call.takeAllow auto)

def allowEnds (last : Option (Bool × Said)) : PageProg Unit := Prog.perform (Call.allowEnds last)

def now : PageProg Nat := Prog.perform Call.now

def sleep (duration : Nat) : PageProg Unit := Prog.perform (Call.sleep duration)

/-- What is said to Home Assistant, as part of a request. -/
def asking {α : Type} (p : AllowProg α) : PageProg α := Prog.embed Call.allow p

end PageProg

section

-- Whether there is a Supervisor to ask.
variable (supervisor : Bool)

/-- Why `allow_inner` or `skip_inner` did nothing. -/
inductive ActionError where
  | noSupervisor
  | target (e : String)
  | inProgress
  deriving DecidableEq, Repr

def allowInner (auto : Bool) : PageProg (Except ActionError Unit) := do
  if supervisor then
    match ← PageProg.activeTarget with
    | .error e => return .error (.target e)
    | .ok () =>
        if ← PageProg.startAllow auto then return .ok ()
        else return .error .inProgress
  else return .error .noSupervisor

def finishStep : PageProg Unit := do
  PageProg.writeMarker
  PageProg.finish

/-- The settings as read anew. -/
def readSetup : PageProg (Option ProxySetup) := do
  PageProg.beginRead
  match ← PageProg.asking (readHttpConfig 10000) with
  | .ok c => return (assess c).toOption
  | .error _ => return none

def settledView (setup : Option ProxySetup) (last : Option (Bool × Said)) :
    PageProg ProxyStepView := do
  let finished ← PageProg.stepFinished
  if !finished && setup = some .ready then
    finishStep
    return proxyStepView setup last true
  else return proxyStepView setup last finished

/-- The settings: the reading that is fresh, or a new one. -/
def currentSetup : Option (Option ProxySetup) → PageProg (Option ProxySetup)
  | some setup => return setup
  | none => do
      let setup ← readSetup
      PageProg.storeReading setup
      return setup

/-- The automatic confirmation, where it is due; whether it has been started. -/
def confirmIfDue (setup : Option ProxySetup) : PageProg Bool := do
  if ← PageProg.autoConfirmDue setup then
    return (← allowInner supervisor true).isOk
  else return false

def proxyStep : PageProg (Option ProxyStepView) := do
  if supervisor then
    let (running, last, cached) ← PageProg.jobSnapshot
    let finished ← PageProg.stepFinished
    match running with
    | some step =>
        return some { state := .working, message := some (.step step), setup := !finished }
    | none =>
        let setup ← currentSetup cached
        if ← confirmIfDue supervisor setup then
          let step := (← PageProg.runningStep).getD .verifying
          return some { state := .working, message := some (.step step), setup := !finished }
        else return some (← settledView setup last)
  else return none

def freshStatus (running : List String) : PageProg PairedStatus := do
  let tunnels ← PageProg.listActive
  let trustedProxies ← proxyStep supervisor
  return { running, tunnels, trustedProxies }

def status : PageProg PairedStatus := do
  PageProg.lockCache
  let version ← PageProg.jobVersion
  let running ← PageProg.runningIds
  match ← PageProg.cacheServes version running with
  | some status => return status
  | none =>
      let status ← freshStatus supervisor running
      let version ← PageProg.jobVersion
      PageProg.fillCache version running status
      return status

/-- What every request but `status` ends with. -/
def dropStatus : PageProg Unit := do
  PageProg.lockCache
  PageProg.clearCache

def allowProxies : PageProg (Except ActionError Unit) := do
  let result ← allowInner supervisor false
  dropStatus
  return result

def skipInner : PageProg (Except ActionError Unit) := do
  if supervisor then
    if ← PageProg.skipClear then
      finishStep
      return .ok ()
    else return .error .inProgress
  else return .error .noSupervisor

def skipProxies : PageProg (Except ActionError Unit) := do
  let result ← skipInner supervisor
  dropStatus
  return result

/-- `confirm_ours`, which asks again every 5 s until its deadline. -/
def confirmOursUntil (deadline : Nat) : (rounds : Nat) → PageProg Unit
  | 0 => return ()
  | rounds + 1 => do
      let now ← PageProg.now
      if now < deadline then
        match ← PageProg.asking (readHttpConfig 10000) with
        | .ok c =>
            match assess c with
            | .ok setup =>
                if ← PageProg.autoConfirmDue (some setup) then
                  match ← allowInner supervisor true with
                  | .ok () => return ()
                  | .error _ =>
                      PageProg.sleep 5000
                      confirmOursUntil deadline rounds
                else return ()
            | .error _ =>
                PageProg.sleep 5000
                confirmOursUntil deadline rounds
        | .error _ =>
            PageProg.sleep 5000
            confirmOursUntil deadline rounds
      else return ()

def confirmOurs (rounds : Nat) : PageProg Unit := do
  if supervisor then
    let now ← PageProg.now
    confirmOursUntil supervisor (now + 5 * 60 * 1000) rounds
  else return ()

-- `chrono`'s `parse_from_rfc3339`, in milliseconds since the epoch.
variable (parseRfc3339 : String → Option Int)

/-- What the task runs; the automatic one does nothing if the change is gone. -/
def allowOutcome (auto : Bool) (rounds : Nat) : AllowProg (Option AllowOutcome) := do
  if auto then confirmOursOnTrial parseRfc3339 {} rounds
  else return some (← allowForwardedRequests parseRfc3339 {} rounds)

/-- The task that `allow_inner` spawns. -/
def allowTask (auto : Bool) (rounds : Nat) : PageProg Unit := do
  if ← PageProg.takeAllow auto then
    match ← PageProg.asking (allowOutcome parseRfc3339 auto rounds) with
    | none => PageProg.allowEnds none
    | some outcome =>
        let last := outcomeMessage outcome
        if last.1 then finishStep
        PageProg.allowEnds (some last)
  else return ()

inductive Op where
  | status
  | allowProxies
  | skipProxies
  /-- `forget` and `remove`, as far as the page's status is concerned. -/
  | dropStatus
  | confirmOurs (rounds : Nat)
  | allowTask (auto : Bool) (rounds : Nat)
  deriving DecidableEq, Repr

/-- A status request returns what is shown. -/
abbrev Result := Option PairedStatus

def Op.code : Op → PageProg Result
  | .status => do return some (← AddonPage.status supervisor)
  | .allowProxies => do
      let _ ← AddonPage.allowProxies supervisor
      return none
  | .skipProxies => do
      let _ ← AddonPage.skipProxies supervisor
      return none
  | .dropStatus => do
      AddonPage.dropStatus
      return none
  | .confirmOurs rounds => do
      AddonPage.confirmOurs supervisor rounds
      return none
  | .allowTask auto rounds => do
      AddonPage.allowTask parseRfc3339 auto rounds
      return none

end

/-! ## Carrying out a call -/

/-- Home Assistant does not answer. -/
def unreachable : (c : AllowCall) → c.Reply
  | .connect _ | .httpConfig | .configure _ => .error .closed
  | .waitClosed _ | .coreApiUp => false
  | .close | .sleep _ | .step _ => ()
  | .now => 0
  | .utcNow => 0
  | .verify _ | .promote _ => none

/-- The time that passes before a call, and what the surroundings reply. -/
structure Answer where
  elapsed : Nat := 0
  running : List String := []
  tunnels : Except String (List String) := .ok []
  target : Except String Unit := .ok ()
  markerWritten : Bool := true
  allow : (c : AllowCall) → c.Reply := unreachable

def DaemonPaired.serveCall (p : DaemonPaired) (answer : Answer) :
    (c : Call) → DaemonPaired × c.Reply
  | .lockCache => ({ p with held := true }, ())
  | .clearCache =>
      ({ p with held := false, cache := none, history := { p.history with build := none } }, ())
  | .jobVersion => (p, p.job.version)
  | .runningIds => (p, answer.running)
  | .cacheServes version running => p.cacheServes version running
  | .fillCache version running status => (p.fillCache version running status, ())
  | .listActive => (p, answer.tunnels)
  | .jobSnapshot =>
      (p.reads (p.freshReading.map fun _ => p.history.reading),
        p.job.running, p.job.last, p.freshReading)
  | .stepFinished => p.stepFinished
  | .beginRead => (p.reads (some p.history.ends), ())
  | .storeReading setup => (p.storeReading setup, ())
  | .autoConfirmDue setup => (p, p.autoConfirmDue setup)
  | .activeTarget => (p, answer.target)
  | .startAllow auto => p.startAllow auto
  | .runningStep => (p, p.job.running)
  | .writeMarker => ({ p with marker := p.marker || answer.markerWritten }, ())
  | .finish => (p.finish, ())
  | .skipClear => p.skipClear
  | .takeAllow auto =>
      if p.waiting = some auto then ({ p with waiting := none }, true) else (p, false)
  | .allow (.step s) => (p.step s, ())
  | .allow c => (p, answer.allow c)
  | .allowEnds last => (p.allowEnds last, ())
  | .now => (p, p.now)
  | .sleep _ => (p, ())

def handle (p : DaemonPaired) (c : Call) (answer : Answer) : DaemonPaired × c.Reply :=
  { p with now := p.now + answer.elapsed }.serveCall answer c

end DatumConnect.AddonPage
