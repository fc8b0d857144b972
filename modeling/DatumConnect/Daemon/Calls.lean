import Mathlib.Data.List.AList
import Mathlib.Data.Finset.Basic
import DatumConnect.Cloud.Server
import DatumConnect.Tunnels.Service
/-!
# Calls of the daemon

What the handlers ask of the daemon's shared state, its directory, the nodes it
runs, and the tunnel services, one call each.  A lock is held for one call; no
handler holds one across an `await`.
-/

namespace DatumConnect.Daemon

open DatumConnect.Lib
open DatumConnect.Cloud (Cluster Kind KubeError Error)
open DatumConnect.Tunnels

/-- What is configured when the daemon starts.  `uriError` and `publicKey` are the
libraries': why a text is no URI, and the identity that a node has by its key. -/
structure AppState where
  projectId : String
  control : TunnelService
  maxTunnelRuntime : Nat
  uriError : String → Option String
  publicKey : String → String

/-- A node and a heartbeat, known by the key they run with, and the service that
goes with them. -/
structure RunningTunnel where
  key : String
  service : TunnelService
  startedAt : Nat

structure RealTarget where
  normalized : String
  deriving DecidableEq, Repr

structure AuditLine where
  event : String
  tunnelId : String
  actor : String
  deriving DecidableEq, Repr

/-- The methods of a tunnel service that handlers call. -/
inductive Method where
  | getActive (tunnelId : String)
  | create
  | update (tunnelId : String)
  | retarget (tunnelId : String)
  | setEnabled (tunnelId : String) (enabled : Bool)
  | delete (tunnelId : String)
  | cleanupOrphanedConnectors
  deriving DecidableEq, Repr

inductive Call where
  | claimBusy (id : String)
  | releaseBusy (id : String)
  | runningContains (id : String)
  | runningGet (id : String)
  | runningInsert (id : String) (key : String) (service : TunnelService)
  | runningRemove (id : String)
  | runningExpired (maxTunnelRuntime : Nat)
  | inspectorsContains (id : String)
  | inspectorsInsert (id endpoint : String)
  | inspectorsRemove (id : String)
  | loadInspectorTarget (id : String)
  | saveInspectorTarget (id target : String)
  | removeInspectorTarget (id : String)
  | saveNote (id note : String)
  | removeNote (id : String)
  | createTokensDir (id : String)
  | writeToken (id : String) (ttlSeconds : Option Nat)
  | deleteTokens (id : String)
  | appendAudit (line : AuditLine)
  | spawnInspector (target : RealTarget)
  | listenKeyForTunnel (projectId id : String)
  | generateKey
  | saveListenKey (projectId id key : String)
  | newListenNode (key : String)
  | startHeartbeat (key : String)
  | registerProject (key projectId : String)
  | deregisterProject (key projectId : String)
  | hasRelay (key : String)
  | sleepMillis (millis : Nat)
  | service (method : Method) (c : Cloud.Call)

abbrev Call.Reply : Call → Type
  | .claimBusy _ => Bool
  | .runningContains _ => Bool
  | .runningGet _ => Option TunnelService
  | .runningRemove _ => Option RunningTunnel
  | .runningExpired _ => List String
  | .inspectorsContains _ => Bool
  | .loadInspectorTarget _ => Option String
  | .saveInspectorTarget _ _ => Except Error Unit
  | .saveNote _ _ => Except Error Unit
  | .removeNote _ => Except Error Unit
  | .createTokensDir _ => Except Error Unit
  | .writeToken _ _ => Except Error String
  | .spawnInspector _ => Except Error String
  | .listenKeyForTunnel _ _ => Except Error (Option String)
  | .generateKey => String
  | .saveListenKey _ _ _ => Except Error Unit
  | .newListenNode _ => Except Error Unit
  | .hasRelay _ => Bool
  | .service _ c => c.Reply
  | _ => Unit

/-! ## What the calls find and change -/

/-- The state the handlers share, with the objects of the project.  `live` is no
part of the daemon: it records the tunnels whose advertisement a start has written
and no disable has deleted since. -/
structure State where
  cluster : Cluster := Cluster.empty
  busy : Finset String := ∅
  running : AList fun _ : String => RunningTunnel := ∅
  inspectors : AList fun _ : String => String := ∅
  targets : AList fun _ : String => String := ∅
  notes : AList fun _ : String => String := ∅
  tokens : AList fun _ : String => Nat := ∅
  listenKeys : AList fun _ : String => String := ∅
  audit : List AuditLine := []
  now : Nat := 0
  live : Finset String := ∅

/-- What the surroundings bring to a call: what others have made of the project
since the last one, how the server answers, the time that has passed, whether a
local operation succeeds, and what text it replies. -/
structure Answer where
  others : Cluster → Cluster := id
  cloud : Cloud.Answer := {}
  elapsed : Nat := 0
  ok : Bool := true
  text : String := ""

def localError : Error := .bail "input/output error"

def Answer.reply {α : Type} (answer : Answer) (a : α) : Except Error α :=
  if answer.ok then .ok a else .error localError

/-- The server has carried the call out as it was asked to. -/
def carriedOut (s : Cluster) (answer : Cloud.Answer) (c : Cloud.Call) : Bool :=
  answer.landed &&
    match c, (s.serve { answer with outcome := .done } c).2 with
    | .create _ _ _, r | .patch _ _ _, r => r.isOk
    | .delete _ _, r => r.isOk
    | _, _ => true

/-- The call writes an advertisement. -/
def writesAdvertisement : Cloud.Call → Bool
  | .create .connectorAdvertisement _ _ | .patch .connectorAdvertisement _ _ => true
  | _ => false

def deletesAdvertisement : Cloud.Call → Bool
  | .delete .connectorAdvertisement _ => true
  | _ => false

/-- By the reply there is no advertisement left. -/
def seesNoAdvertisement : (c : Cloud.Call) → c.Reply → Bool
  | .getOpt .connectorAdvertisement _, .ok none => true
  | .delete .connectorAdvertisement _, .ok () => true
  | _, _ => false

namespace State

variable (s : State)

/-- The state when a call gets to it. -/
def await (answer : Answer) : State :=
  { s with
    cluster := (answer.others s.cluster).finalize answer.cloud.finalized
    now := s.now + answer.elapsed }

/-- The tunnels that a method's call leaves on at the server. -/
def liveAfter (method : Method) (c : Cloud.Call) (answer : Cloud.Answer) : Finset String :=
  match method with
  | .setEnabled id true =>
      if writesAdvertisement c && carriedOut s.cluster answer c then insert id s.live else s.live
  | .setEnabled id false =>
      if seesNoAdvertisement c (s.cluster.serve answer c).2 ||
          deletesAdvertisement c && carriedOut s.cluster answer c then
        s.live.erase id
      else s.live
  | _ => s.live

def listenKeysAfter (c : Cloud.Call) (answer : Cloud.Answer) : AList fun _ : String => String :=
  match c with
  | .deleteTunnelDir _ id => if answer.landed then s.listenKeys.erase id else s.listenKeys
  | _ => s.listenKeys

def expired (maxTunnelRuntime : Nat) : List String :=
  (s.running.entries.filter fun r => maxTunnelRuntime < s.now - r.2.startedAt).map Sigma.fst

def serve (answer : Answer) : (c : Call) → State × c.Reply
  | .claimBusy id => ({ s with busy := insert id s.busy }, id ∉ s.busy)
  | .releaseBusy id => ({ s with busy := s.busy.erase id }, ())
  | .runningContains id => (s, (s.running.lookup id).isSome)
  | .runningGet id => (s, (s.running.lookup id).map RunningTunnel.service)
  | .runningInsert id key service =>
      ({ s with running := s.running.insert id { key, service, startedAt := s.now } }, ())
  | .runningRemove id => ({ s with running := s.running.erase id }, s.running.lookup id)
  | .runningExpired maxTunnelRuntime => (s, s.expired maxTunnelRuntime)
  | .inspectorsContains id => (s, (s.inspectors.lookup id).isSome)
  | .inspectorsInsert id endpoint => ({ s with inspectors := s.inspectors.insert id endpoint }, ())
  | .inspectorsRemove id => ({ s with inspectors := s.inspectors.erase id }, ())
  | .loadInspectorTarget id => (s, if answer.ok then s.targets.lookup id else none)
  | .saveInspectorTarget id target =>
      (if answer.ok then { s with targets := s.targets.insert id target } else s, answer.reply ())
  | .removeInspectorTarget id =>
      (if answer.ok then { s with targets := s.targets.erase id } else s, ())
  | .saveNote id note =>
      (if answer.ok then { s with notes := s.notes.insert id note } else s, answer.reply ())
  | .removeNote id =>
      (if answer.ok then { s with notes := s.notes.erase id } else s, answer.reply ())
  | .createTokensDir id =>
      (if answer.ok then { s with tokens := s.tokens.insert id ((s.tokens.lookup id).getD 0) } else s,
        answer.reply ())
  | .writeToken id _ =>
      match answer.ok, s.tokens.lookup id with
      | true, some count =>
          ({ s with tokens := s.tokens.insert id (count + 1) }, .ok answer.text)
      | _, _ => (s, .error localError)
  | .deleteTokens id => (if answer.ok then { s with tokens := s.tokens.erase id } else s, ())
  | .appendAudit line => (if answer.ok then { s with audit := s.audit ++ [line] } else s, ())
  | .spawnInspector _ => (s, answer.reply ("http://" ++ answer.text))
  | .listenKeyForTunnel _ id => (s, answer.reply (s.listenKeys.lookup id))
  | .generateKey => (s, answer.text)
  | .saveListenKey _ id key =>
      (if answer.ok then { s with listenKeys := s.listenKeys.insert id key } else s,
        answer.reply ())
  | .newListenNode _ => (s, answer.reply ())
  | .startHeartbeat _ | .registerProject _ _ | .deregisterProject _ _ | .sleepMillis _ => (s, ())
  | .hasRelay _ => (s, answer.ok)
  | .service method c =>
      ({ s with
          cluster := (s.cluster.serve answer.cloud c).1
          live := s.liveAfter method c answer.cloud
          listenKeys := s.listenKeysAfter c answer.cloud },
        (s.cluster.serve answer.cloud c).2)

def handle (s : State) (c : Call) (answer : Answer) : State × c.Reply :=
  (s.await answer).serve answer c

end State

end DatumConnect.Daemon
