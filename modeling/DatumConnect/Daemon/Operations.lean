import DatumConnect.Daemon.Calls
/-!
# What the daemon's handlers do

Create, start, stop, the expiry sweep, set-note, create-token and delete: each is
the calls it makes, in their order, and what it answers.
-/

namespace DatumConnect.Daemon

open DatumConnect.Lib
open DatumConnect.Cloud (Error SvcE)
open DatumConnect.Tunnels

/-! ## Answers -/

/-- What a handler answers when it fails: `err_response`, or a status and a text of
its own. -/
inductive Rejection where
  | internal (err : Error)
  | refused (status : Nat) (error : String)
  deriving DecidableEq, Repr

def notFound (id : String) : Rejection := .refused 404 s!"tunnel '{id}' not found"

def isBusy (id : String) : Rejection :=
  .refused 409 s!"tunnel '{id}' is busy (starting or stopping) — try again shortly"

abbrev Task := Prog Call Call.Reply

abbrev TaskE := ExceptT Rejection Task

namespace Task

def perform (c : Call) : Task c.Reply := Prog.perform c

/-- A method of a service, its calls made one by one. -/
def service {α : Type} (method : Method) (p : SvcE α) : Task (Except Error α) :=
  Prog.embed (Call.service method) p.run

def appendAudit (event id actor : String) : Task Unit :=
  perform (.appendAudit { event, tunnelId := id, actor })

end Task

namespace TaskE

variable {α : Type}

def lift (p : Task α) : TaskE α := ExceptT.lift p

/-- `map_err(err_response)` and `?`. -/
def orInternal (p : Task (Except Error α)) : TaskE α :=
  ExceptT.mk do return (← p).mapError Rejection.internal

def service (method : Method) (p : SvcE α) : TaskE α := orInternal (Task.service method p)

def ofOption (err : Rejection) : Option α → TaskE α
  | some a => pure a
  | none => throw err

end TaskE

/-! ## Targets and inspectors -/

/-- `parse_real_target`: a bare `host:port` means plain HTTP. -/
def AppState.parseRealTarget (app : AppState) (raw : String) : Except String RealTarget :=
  let normalized :=
    if "http://".toList.isPrefixOf raw.toList || "https://".toList.isPrefixOf raw.toList then raw
    else "http://" ++ raw
  match app.uriError normalized with
  | some err => .error err
  | none => .ok { normalized }

/-- A trailing slash is not a different target. -/
def needsRepoint (hasInspector : Bool) (persisted : Option String) (wanted : String) : Bool :=
  !hasInspector ||
    persisted.map (fun target => Text.trimEndMatches '/' target.toList) !=
      some (Text.trimEndMatches '/' wanted.toList)

/-- The target, unless the tunnel has an inspector that forwards there. -/
def repointTo (id : String) : Option RealTarget → Task (Option RealTarget)
  | none => return none
  | some target => do
      let hasInspector ← Task.perform (.inspectorsContains id)
      let persisted ← Task.perform (.loadInspectorTarget id)
      return if needsRepoint hasInspector persisted target.normalized then some target else none

def spawnInspector (target : RealTarget) : TaskE String :=
  TaskE.orInternal (Task.perform (.spawnInspector target))

/-- Persist the target, which may fail, and put the inspector in the map. -/
def installInspector (id : String) (target : RealTarget) (endpoint : String) : Task Unit := do
  let _ ← Task.perform (.saveInspectorTarget id target.normalized)
  Task.perform (.inspectorsInsert id endpoint)

/-! ## Start -/

/-- Reserve the tunnel for the computation, whichever way it ends. -/
def withBusy {α : Type} (id : String) (body : TaskE α) : TaskE α := ExceptT.mk do
  if ← Task.perform (.claimBusy id) then
    let result ← body.run
    Task.perform (.releaseBusy id)
    return result
  else return .error (isBusy id)

def findTunnel (id : String) : TaskE TunnelSummary := do
  TaskE.ofOption (notFound id)
    (← TaskE.service (.getActive id) (TunnelService.getActive id))

/-- The key on file, or a new one that the tunnel has to be rewired to. -/
def resolveListenKey (projectId id : String) : TaskE (String × Bool) := do
  match ← TaskE.orInternal (Task.perform (.listenKeyForTunnel projectId id)) with
  | some key => return (key, false)
  | none => return (← TaskE.lift (Task.perform .generateKey), true)

def saveListenKeyIf (shouldRewire : Bool) (projectId id key : String) : TaskE Unit :=
  if shouldRewire then TaskE.orInternal (Task.perform (.saveListenKey projectId id key))
  else pure ()

/-- Wait until the node has a relay, forty times a quarter of a second at most. -/
def awaitRelay (key : String) : Nat → Task Unit
  | 0 => return ()
  | tries + 1 => do
      if ← Task.perform (.hasRelay key) then return ()
      else
        Task.perform (.sleepMillis 250)
        awaitRelay key tries

def startHeartbeat (projectId key : String) : Task Unit := do
  Task.perform (.startHeartbeat key)
  Task.perform (.registerProject key projectId)
  awaitRelay key 40

def AppState.serviceFor (app : AppState) (key : String) : TunnelService :=
  { app.control with endpointId := app.publicKey key }

/-- A new key means a new connector; a new inspector alone only a new endpoint. -/
def rewire (service : TunnelService) (id label endpoint : String)
    (shouldRewire hasInspector : Bool) : TaskE Unit := do
  if shouldRewire then
    let _ ← TaskE.service (.update id) (service.updateActive id label endpoint)
    let _ ← TaskE.lift (Task.service .cleanupOrphanedConnectors cleanupOrphanedConnectors)
    return ()
  else if hasInspector then
    let _ ← TaskE.service (.retarget id) (service.retargetActive id endpoint)
    return ()
  else return ()

def spawnInspectorFor : Option RealTarget → TaskE (Option (RealTarget × String))
  | none => return none
  | some target => return some (target, ← spawnInspector target)

def installNew (id actor : String) : Option (RealTarget × String) → Task Unit
  | none => return ()
  | some (target, endpoint) => do
      installInspector id target endpoint
      Task.appendAudit "retarget" id actor

/-- The rest of a start, of a tunnel that is not running. -/
def bringUp (app : AppState) (id actor : String) (tunnel : TunnelSummary)
    (repoint : Option RealTarget) : TaskE TunnelSummary := do
  let inspector ← spawnInspectorFor repoint
  let endpoint := (inspector.map Prod.snd).getD tunnel.endpoint
  let (key, shouldRewire) ← resolveListenKey app.projectId id
  TaskE.orInternal (Task.perform (.newListenNode key))
  saveListenKeyIf shouldRewire app.projectId id key
  let service := app.serviceFor key
  TaskE.lift (startHeartbeat app.projectId key)
  rewire service id tunnel.label endpoint shouldRewire inspector.isSome
  TaskE.lift (installNew id actor inspector)
  let _ ← TaskE.service (.setEnabled id true) (service.setEnabledActive id true)
  let current ← TaskE.service (.getActive id) (TunnelService.getActive id)
  TaskE.lift (Task.perform (.runningInsert id key service))
  TaskE.lift (Task.appendAudit "start" id actor)
  TaskE.ofOption (notFound id) current

/-- The rest of a start, of a tunnel that is running with another target. -/
def repointRunning (id actor : String) (service : TunnelService) (target : RealTarget) :
    TaskE TunnelSummary := do
  let endpoint ← spawnInspector target
  let updated ← TaskE.service (.retarget id) (service.retargetActive id endpoint)
  TaskE.lift (installInspector id target endpoint)
  TaskE.lift (Task.appendAudit "retarget" id actor)
  return updated

/-- A start, once it has reserved the tunnel. -/
def startReserved (app : AppState) (id actor : String) (repoint : Option RealTarget) :
    TaskE TunnelSummary := do
  let tunnel ← findTunnel id
  match ← TaskE.lift (Task.perform (.runningGet id)), repoint with
  | some _, none => return tunnel
  | some service, some target => repointRunning id actor service target
  | none, repoint => bringUp app id actor tunnel repoint

def alreadyRunning (id : String) : Option RealTarget → Task Bool
  | some _ => return false
  | none => Task.perform (.runningContains id)

def startTunnelInternal (app : AppState) (id actor : String) (target : Option RealTarget) :
    TaskE TunnelSummary := do
  let repoint ← TaskE.lift (repointTo id target)
  if ← TaskE.lift (alreadyRunning id repoint) then findTunnel id
  else withBusy id (startReserved app id actor repoint)

/-! ## Stop -/

inductive StopReason where
  | manual
  | autoExpired
  deriving DecidableEq, Repr

def StopReason.auditEvent : StopReason → String
  | .manual => "stop"
  | .autoExpired => "auto_expired"

def deregister (projectId : String) : Option RunningTunnel → Task Unit
  | some running => Task.perform (.deregisterProject running.key projectId)
  | none => return ()

/-- A stop, once it has reserved the tunnel. -/
def stopReserved (app : AppState) (id : String) (reason : StopReason) (actor : String) :
    TaskE TunnelSummary := do
  let running ← TaskE.lift (Task.perform (.runningRemove id))
  let service := (running.map RunningTunnel.service).getD app.control
  let disabled ← TaskE.lift
    (Task.service (.setEnabled id false) (service.setEnabledActive id false))
  TaskE.lift (deregister app.projectId running)
  let summary ← TaskE.orInternal (pure disabled)
  TaskE.lift (Task.appendAudit reason.auditEvent id actor)
  return summary

def stopTunnelInternal (app : AppState) (id : String) (reason : StopReason) (actor : String) :
    TaskE TunnelSummary :=
  withBusy id (stopReserved app id reason actor)

/-- Stop the tunnels one after the other; a failure is only logged. -/
def stopEach (app : AppState) (ids : List String) : Task Unit :=
  ids.forM fun id => do
    let _ ← (stopTunnelInternal app id .autoExpired "system").run
    return ()

/-- One tick of the expiry sweep. -/
def sweepTick (app : AppState) : Task Unit := do
  stopEach app (← Task.perform (.runningExpired app.maxTunnelRuntime))

/-! ## The other handlers -/

def createTunnel (app : AppState) (label endpoint : String) : TaskE TunnelSummary := do
  match app.parseRealTarget endpoint with
  | .error err => throw (.internal (.bail s!"invalid endpoint '{endpoint}': {err}"))
  | .ok target =>
      let inspectorEndpoint ← spawnInspector target
      let tunnel ← TaskE.service .create (app.control.createActive label inspectorEndpoint)
      TaskE.lift (installInspector tunnel.id target inspectorEndpoint)
      TaskE.lift (Task.appendAudit "create" tunnel.id "setup")
      return tunnel

/-- What is left of a deleted tunnel in the daemon; nothing of this can fail the
delete. -/
def forgetTunnel (app : AppState) (id : String) : Task Unit := do
  let running ← Task.perform (.runningRemove id)
  deregister app.projectId running
  Task.perform (.inspectorsRemove id)
  Task.perform (.removeInspectorTarget id)
  let _ ← Task.perform (.removeNote id)
  Task.perform (.deleteTokens id)

def deleteTunnelInternal (app : AppState) (id actor : String) : TaskE TunnelDeleteOutcome := do
  let outcome ← TaskE.service (.delete id) (app.control.deleteActive id)
  TaskE.lift (forgetTunnel app id)
  TaskE.lift (Task.appendAudit "delete" id actor)
  return outcome

def noteMaxBytes : Nat := 2000

/-- An empty note removes the file. -/
def saveNote (id note : String) : Task (Except Error Unit) :=
  if note = "" then Task.perform (.removeNote id) else Task.perform (.saveNote id note)

def setTunnelNote (id note : String) : TaskE Unit := do
  let _ ← findTunnel id
  if noteMaxBytes < note.utf8ByteSize then
    throw (.internal (.bail
      s!"note too long ({note.utf8ByteSize} bytes, max {noteMaxBytes})"))
  else TaskE.orInternal (saveNote id note)

/-- The token goes to its directory under a name that it is read by only when it is
complete. -/
def mintOperateToken (id : String) (ttlSeconds : Option Nat) : TaskE String := do
  TaskE.orInternal (Task.perform (.createTokensDir id))
  TaskE.orInternal (Task.perform (.writeToken id ttlSeconds))

def createToken (id : String) (ttlSeconds : Option Nat) : TaskE String := do
  let _ ← findTunnel id
  let minted ← mintOperateToken id ttlSeconds
  TaskE.lift (Task.appendAudit "token_created" id "setup")
  return minted

/-! ## Requests -/

inductive Op where
  | create (label endpoint : String)
  | start (id actor : String) (target : Option RealTarget)
  | stop (id actor : String)
  | sweep
  | setNote (id note : String)
  | createToken (id : String) (ttlSeconds : Option Nat)
  | delete (id actor : String)
  deriving DecidableEq, Repr

/-- Whether the operation succeeded is all that is looked at. -/
def Op.code (app : AppState) : Op → Task (Except Rejection Unit)
  | .create label endpoint => (do let _ ← createTunnel app label endpoint : TaskE Unit).run
  | .start id actor target =>
      (do let _ ← startTunnelInternal app id actor target : TaskE Unit).run
  | .stop id actor => (do let _ ← stopTunnelInternal app id .manual actor : TaskE Unit).run
  | .sweep => (TaskE.lift (sweepTick app)).run
  | .setNote id note => (setTunnelNote id note).run
  | .createToken id ttlSeconds => (do let _ ← Daemon.createToken id ttlSeconds : TaskE Unit).run
  | .delete id actor => (do let _ ← deleteTunnelInternal app id actor : TaskE Unit).run

end DatumConnect.Daemon
