import DatumConnect.Cli.Calls
import DatumConnect.Tunnels.Made
/-!
# The listen command

How it finds or makes its tunnel, waits until it is up, watches it, and takes it
down: the calls it makes, in their order.
-/

namespace DatumConnect.Tunnels

open DatumConnect.Lib
open DatumConnect.Cloud

namespace TunnelService

variable (svc : TunnelService)

def getActiveByEndpoint (endpoint : String) : SvcE (Option TunnelSummary) := do
  return (← listActive).find? fun tunnel => tunnel.endpoint = normalizeEndpoint endpoint

/-- Publish the connection details again; where there is no connector, nothing. -/
def refreshConnectionDetails : SvcE Unit := do
  match ← SvcE.lift Svc.selectedContext with
  | none => return ()
  | some projectId =>
      match ← svc.findConnector projectId with
      | none => return ()
      | some connector =>
          SvcE.projectControlPlaneClient projectId
          SvcE.lift (publishConnectionDetails connector.name)

end TunnelService

end DatumConnect.Tunnels

namespace DatumConnect.Cli

open DatumConnect.Lib
open DatumConnect.Cloud (Error SvcE)
open DatumConnect.Tunnels

/-- Why a command has not returned normally: an error, or it is still at a loop whose
rounds have run out here. -/
inductive Failure where
  | error (err : Error)
  | unfinished
  deriving DecidableEq, Repr

abbrev Task := Prog Call Call.Reply

abbrev TaskE := ExceptT Failure Task

namespace Task

def perform (c : Call) : Task c.Reply := Prog.perform c

/-- A method of a node's service, its calls made one by one. -/
def service {α : Type} (key : String) (method : Method) (p : SvcE α) : Task (Except Error α) :=
  Prog.embed (Call.service key method) p.run

end Task

namespace TaskE

variable {α : Type}

def lift (p : Task α) : TaskE α := ExceptT.lift p

/-- `?`. -/
def orFail (p : Task (Except Error α)) : TaskE α :=
  ExceptT.mk do return (← p).mapError Failure.error

def fail (message : String) : TaskE α := throw (.error (.bail message))

def service (key : String) (method : Method) (p : SvcE α) : TaskE α :=
  orFail (Task.service key method p)

end TaskE

namespace Session

variable (session : Session)

def serviceFor (key : String) : TunnelService :=
  { session.service with endpointId := session.publicKey key }

/-! ## Nodes and keys -/

/-- `ListenNode::new`: a node with a key of its own, new each time. -/
def newNode : TaskE String := do
  let key ← TaskE.orFail (Task.perform .listenKey)
  TaskE.orFail (Task.perform (.bindNode key))
  return key

/-- The key on file, or a new one that the tunnel has to be rewired to. -/
def resolveListenKey (tunnelId : String) : TaskE (String × Bool) := do
  match ← TaskE.orFail (Task.perform (.listenKeyForTunnel session.projectId tunnelId)) with
  | some key => return (key, false)
  | none => return (← TaskE.lift (Task.perform .generateKey), true)

def saveListenKey (inMemoryKey : Option String) (tunnelId : String) : TaskE Unit :=
  match inMemoryKey with
  | some key => TaskE.orFail (Task.perform (.saveListenKey session.projectId tunnelId key))
  | none => pure ()

/-! ## Which tunnel it is -/

/-- What the flags come to: the endpoint, the node's key and the tunnel where they are
settled, and a key that is not on file yet. -/
structure Resolved where
  endpoint : String
  preresolved : Option (String × TunnelSummary) := none
  inMemoryKey : Option String := none
  forceRewire : Bool := false

def getActive (key tunnelId : String) : TaskE (Option TunnelSummary) :=
  TaskE.service key .look (TunnelService.getActive tunnelId)

/-- `--id`, with or without `--endpoint`, which must agree with the tunnel. -/
def resolveId (tunnelId : String) (endpoint : Option String) : TaskE Resolved := do
  let given := endpoint.getD ""
  let key ← newNode
  match ← getActive key tunnelId with
  | none => TaskE.fail s!"Tunnel '{tunnelId}' not found in project {session.projectId}"
  | some tunnel =>
      if endpoint.any fun endpoint => endpoint ≠ tunnel.endpoint then
        TaskE.fail s!"--id '{tunnelId}' references endpoint '{tunnel.endpoint}' but --endpoint was '{given}' — they must agree (or omit --endpoint to inherit from the tunnel)"
      else
        let (key, shouldRewire) ← session.resolveListenKey tunnel.id
        TaskE.orFail (Task.perform (.bindNode key))
        return {
          endpoint := tunnel.endpoint
          preresolved := some (key, tunnel)
          inMemoryKey := if shouldRewire then some key else none
          forceRewire := shouldRewire }

/-- One tunnel is adopted without asking. -/
def pick : List TunnelSummary → TaskE TunnelSummary
  | [] => TaskE.fail s!"No tunnels exist in project {session.projectId}. Pass --endpoint to create one."
  | [tunnel] => return tunnel
  | tunnels => do
      let index ← TaskE.orFail (Task.perform (.select (tunnels.map fun t =>
        s!"{t.label}  ({t.id})  → {t.endpoint}")))
      return tunnels.get (index.cast (List.length_map _))

/-- Neither flag: the tunnel is picked, and must have its key on file. -/
def resolvePicked : TaskE Resolved := do
  let key ← newNode
  let picked ← session.pick (← TaskE.service key .look TunnelService.listActive)
  match ← TaskE.orFail (Task.perform (.listenKeyForTunnel session.projectId picked.id)) with
  | none => TaskE.fail "KEY_NOT_FOUND"
  | some key =>
      TaskE.orFail (Task.perform (.bindNode key))
      return { endpoint := picked.endpoint, preresolved := some (key, picked) }

def resolve : Option String → Option String → TaskE Resolved
  | some endpoint, none => do
      let key ← TaskE.lift (Task.perform .generateKey)
      TaskE.orFail (Task.perform (.bindNode key))
      return { endpoint, inMemoryKey := some key }
  | endpoint, some tunnelId => session.resolveId tunnelId endpoint
  | none, none => session.resolvePicked

/-- The node the tunnel runs on, by its key, and the tunnel if there is one.  By an
endpoint only a tunnel of this device is adopted. -/
def selectNode (resolved : Resolved) : TaskE (String × Option TunnelSummary) := do
  match resolved.preresolved with
  | some (key, tunnel) => return (key, if tunnel.id = "" then none else some tunnel)
  | none =>
      let key ← newNode
      let existing ← TaskE.service key .look
        (TunnelService.getActiveByEndpoint resolved.endpoint)
      return (key, existing.filter fun tunnel =>
        tunnel.connectorDevice = some session.service.friendlyDeviceName)

/-! ## Setting it up -/

/-- Wait until the node has a relay, forty times a quarter of a second at most. -/
def awaitRelay (key : String) : Nat → Task Unit
  | 0 => return ()
  | tries + 1 => do
      if ← Task.perform (.hasRelay key) then return ()
      else
        Task.perform (.sleepMillis 250)
        awaitRelay key tries

def startHeartbeat (key : String) : Task Unit := do
  Task.perform (.startHeartbeat key)
  Task.perform (.registerProject key session.projectId)
  awaitRelay key 40

def createTunnel (key : String) (label : Option String) (resolved : Resolved) : TaskE String := do
  let tunnel ← TaskE.service key .create
    ((session.serviceFor key).createActive (label.getD resolved.endpoint) resolved.endpoint)
  session.saveListenKey resolved.inMemoryKey tunnel.id
  return tunnel.id

/-- A tunnel there is is updated for a new key or another label. -/
def adoptTunnel (key : String) (label : Option String) (resolved : Resolved)
    (tunnel : TunnelSummary) : TaskE String := do
  if resolved.forceRewire || label.any fun label => label ≠ tunnel.label then
    let updated ← TaskE.service key (.update tunnel.id)
      ((session.serviceFor key).updateActive tunnel.id (label.getD tunnel.label) resolved.endpoint)
    session.saveListenKey resolved.inMemoryKey tunnel.id
    let _ ← TaskE.service key .cleanupOrphanedConnectors cleanupOrphanedConnectors
    return updated.id
  else return tunnel.id

def ensureTunnel (key : String) (label : Option String) (resolved : Resolved) :
    Option TunnelSummary → TaskE String
  | some tunnel => session.adoptTunnel key label resolved tunnel
  | none => session.createTunnel key label resolved

/-- Poll until every step is ready. -/
def awaitTunnelProgress (tunnelId : String) : Nat → TaskE TunnelProgress
  | 0 => throw .unfinished
  | rounds + 1 => do
      match ← TaskE.lift (Task.perform (.activeProgress tunnelId)) with
      | .error err => throw (.error (.within s!"polling tunnel {tunnelId} progress" err))
      | .ok none => TaskE.fail s!"Tunnel {tunnelId} disappeared during setup"
      | .ok (some progress) =>
          match progress.terminalFailure with
          | some failed => TaskE.fail (formatTerminalFailure failed)
          | none =>
              if progress.allReady then return progress
              else
                TaskE.lift (Task.perform (.sleepMillis 250))
                awaitTunnelProgress tunnelId rounds

/-- The hostnames come shortly after the last step. -/
def awaitHostnames (tunnelId : String) (progress : TunnelProgress) : Nat → Task TunnelProgress
  | 0 => return progress
  | tries + 1 => do
      if progress.hostnames ≠ [] then return progress
      else
        Task.perform (.sleepMillis 500)
        match ← Task.perform (.activeProgress tunnelId) with
        | .ok (some again) => awaitHostnames tunnelId again tries
        | _ => awaitHostnames tunnelId progress tries

/-- The first hostname is resolved, and then answers through the tunnel. -/
def verify (tunnelId endpoint : String) : List String → TaskE Unit
  | [] => TaskE.fail s!"Tunnel {tunnelId} has no hostname after Ready"
  | hostname :: _ => do
      TaskE.orFail (Task.perform (.resolveHostname hostname))
      TaskE.orFail (Task.perform (.verifyEndpoints endpoint hostname))

/-- The waiting that comes after the tunnel has been turned on. -/
def awaitReady (key tunnelId endpoint : String) (rounds : Nat) : TaskE Unit := do
  let progress ← awaitTunnelProgress tunnelId rounds
  let _ ← TaskE.lift (Task.service key .refreshConnectionDetails
    (session.serviceFor key).refreshConnectionDetails)
  let progress ← TaskE.lift (awaitHostnames tunnelId progress 20)
  verify tunnelId endpoint progress.hostnames
  match ← getActive key tunnelId with
  | none => TaskE.fail s!"Tunnel {tunnelId} not found after setup"
  | some _ => return ()

/-- Everything up to `tunnel_ready`: the node's key and the tunnel. -/
def setup (label endpoint id : Option String) (rounds : Nat) : TaskE (String × String) := do
  let resolved ← session.resolve endpoint id
  let (key, existing) ← session.selectNode resolved
  TaskE.lift (session.startHeartbeat key)
  let tunnelId ← session.ensureTunnel key label resolved existing
  let _ ← TaskE.lift (Task.service key (.setEnabled tunnelId)
    ((session.serviceFor key).setEnabledActive tunnelId true))
  session.awaitReady key tunnelId resolved.endpoint rounds
  return (key, tunnelId)

/-! ## While it is up -/

inductive ExitReason where
  | ctrlC
  | terminalFailure
  | deletedUpstream
  deriving DecidableEq, Repr

/-- Why a poll ends the watching, if it does. -/
def exitReason : Except Error (Option TunnelProgress) → Option ExitReason
  | .ok (some progress) => if progress.terminalFailure.isSome then some .terminalFailure else none
  | .ok none => some .deletedUpstream
  | .error _ => none

def watch (tunnelId : String) : Nat → TaskE ExitReason
  | 0 => throw .unfinished
  | rounds + 1 => do
      match ← TaskE.lift (Task.perform .watch) with
      | none => return .ctrlC
      | some .loginState => watch tunnelId rounds
      | some .poll =>
          match exitReason (← TaskE.lift (Task.perform (.activeProgress tunnelId))) with
          | some reason => return reason
          | none => watch tunnelId rounds

/-- Only an interrupted command succeeds. -/
def ended : ExitReason → TaskE Unit
  | .ctrlC => return ()
  | .terminalFailure => TaskE.fail "tunnel exited with terminal failure"
  | .deletedUpstream => TaskE.fail "tunnel deleted upstream"

def listen (label endpoint id : Option String) (rounds : Nat) : TaskE Unit := do
  let (key, tunnelId) ← session.setup label endpoint id rounds
  let reason ← watch tunnelId rounds
  let _ ← TaskE.lift (Task.service key (.delete tunnelId)
    ((session.serviceFor key).deleteActive tunnelId))
  ended reason

/-- A session whose nodes are known by their keys themselves. -/
def plain : Session where
  projectId := "p"
  service := Workshop.nodeService
  publicKey := id

end Session

end DatumConnect.Cli
