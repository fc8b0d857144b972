import Mathlib.Data.List.AList
import DatumConnect.Cloud.Server
import DatumConnect.Tunnels.Service
import DatumConnect.Tunnels.Progress
/-!
# Calls of the command line

What `datum-connect listen` asks of its surroundings, one call each: the keys it
keeps in its repository, the nodes it runs, the project's tunnels, the person at the
terminal, and the three things it waits for once the tunnel is up.
-/

namespace DatumConnect.Cli

open DatumConnect.Lib
open DatumConnect.Cloud (Cluster Error HTTPProxy)
open DatumConnect.Tunnels

/-- What is settled before the command runs: the project, how its services are
configured, and the identity that a node has by its key. -/
structure Session where
  projectId : String
  service : TunnelService
  publicKey : String → String

/-- The methods of a tunnel service that the command calls. -/
inductive Method where
  | look
  | create
  | update (tunnelId : String)
  | cleanupOrphanedConnectors
  | setEnabled (tunnelId : String)
  | refreshConnectionDetails
  | delete (tunnelId : String)
  deriving DecidableEq, Repr

/-- What wakes the command while its tunnel is up, beside a signal. -/
inductive Woken where
  | loginState
  | poll
  deriving DecidableEq, Repr

inductive Call where
  | generateKey
  | listenKey
  | bindNode (key : String)
  | listenKeyForTunnel (projectId tunnelId : String)
  | saveListenKey (projectId tunnelId key : String)
  | select (choices : List String)
  | startHeartbeat (key : String)
  | registerProject (key projectId : String)
  | hasRelay (key : String)
  | sleepMillis (millis : Nat)
  | service (key : String) (method : Method) (c : Cloud.Call)
  | activeProgress (tunnelId : String)
  | resolveHostname (hostname : String)
  | verifyEndpoints (endpoint hostname : String)
  | watch

/-- `none` for a wait is that the command is interrupted. -/
abbrev Call.Reply : Call → Type
  | .generateKey => String
  | .listenKey => Except Error String
  | .bindNode _ => Except Error Unit
  | .listenKeyForTunnel _ _ => Except Error (Option String)
  | .saveListenKey _ _ _ => Except Error Unit
  | .select choices => Except Error (Fin choices.length)
  | .hasRelay _ => Bool
  | .service _ _ c => c.Reply
  | .activeProgress _ => Except Error (Option TunnelProgress)
  | .resolveHostname _ => Except Error Unit
  | .verifyEndpoints _ _ => Except Error Unit
  | .watch => Option Woken
  | _ => Unit

/-! ## What the calls find and change -/

/-- `listenKeys` are the key files of the tunnels, `legacyKey` the one of the old layout.
The rest is no part of the program: whose node made a connector or publishes its key, the
keys there have been, and the tunnels that have been given another connector or key. -/
structure Machine where
  cluster : Cluster
  listenKeys : AList fun _ : String => String := ∅
  legacyKey : Option String := none
  owners : List (String × String) := []
  keys : List String := []
  rewired : List String := []

/-- What the surroundings bring to a call. -/
structure Answer where
  cloud : Cloud.Answer := {}
  ok : Bool := true
  moved : Bool := true
  text : String := ""
  index : Nat := 0
  progress : Option TunnelProgress := none
  woken : Woken := .poll

def localError : Error := .bail "input/output error"

def Answer.reply {α : Type} (answer : Answer) (a : α) : Except Error α :=
  if answer.ok then .ok a else .error localError

/-- The choice made, if there is anything to choose from. -/
def Answer.chosen (answer : Answer) (choices : List String) : Except Error (Fin choices.length) :=
  if h : answer.index < choices.length then answer.reply ⟨answer.index, h⟩ else .error localError

namespace Machine

variable (session : Session) (s : Machine)

/-- The connector that a call makes. -/
def madeConnector (cluster : Cluster) (answer : Cloud.Answer) : Cloud.Call → Option String
  | .create .connector name _ =>
      if answer.landed ∧ (cluster .connector).get? (Cluster.newName name answer.suffix) = none then
        some (Cluster.newName name answer.suffix)
      else none
  | _ => none

/-- A connector is its last maker's. -/
def ownersAfter (owners : List (String × String)) (endpointId : String) :
    Option String → List (String × String)
  | some name => (name, endpointId) :: owners.filter fun owner => owner.1 ≠ name
  | none => owners

/-- The tunnels whose proxy references the connector. -/
def referencing (cluster : Cluster) (connectorName : String) : List String :=
  ((cluster .httpProxy).objects.filter fun proxy =>
    HTTPProxy.connectorName proxy.spec = some connectorName).map Object.name

/-- The tunnels whose reference a call writes, or makes the connector of. -/
def repointed (cluster : Cluster) (answer : Cloud.Answer) : Cloud.Call → List String
  | .create .httpProxy name _ =>
      if answer.landed ∧ (cluster .httpProxy).get? (Cluster.newName name answer.suffix) = none then
        [Cluster.newName name answer.suffix]
      else []
  | .patch .httpProxy name _ => if answer.landed then [name] else []
  | c => (madeConnector cluster answer c).toList.flatMap (referencing cluster)

/-- The connection details are those of the node that asks. -/
def ofNode (endpointId : String) (answer : Cloud.Answer) : Cloud.Answer :=
  { answer with details := answer.details.map fun d => { d with publicKeyId := endpointId } }

/-- A call of the node's service. -/
def node (endpointId : String) (c : Cloud.Call) (answer : Answer) : Machine × c.Reply :=
  let cluster := s.cluster.finalize answer.cloud.finalized
  let (served, reply) := cluster.serve (ofNode endpointId answer.cloud) c
  ({ s with
      cluster := served
      owners := ownersAfter s.owners endpointId (madeConnector cluster answer.cloud c)
      rewired := repointed cluster answer.cloud c ++ s.rewired }, reply)

/-- With a tunnel goes its directory. -/
def keysAfter (answer : Cloud.Answer) : Method → Cloud.Call → AList fun _ : String => String
  | .delete _, .deleteTunnelDir _ tunnelId =>
      if answer.landed then s.listenKeys.erase tunnelId else s.listenKeys
  | _, _ => s.listenKeys

/-- A tunnel without a key gets the one of the old layout, which is moved. -/
def loadKey (answer : Answer) (tunnelId : String) : Machine × Except Error (Option String) :=
  match s.listenKeys.lookup tunnelId, s.legacyKey with
  | none, some key =>
      (if answer.ok || answer.moved then
        { s with listenKeys := s.listenKeys.insert tunnelId key, legacyKey := none }
      else s, answer.reply (some key))
  | stored, _ => (s, answer.reply stored)

def withKey (tunnelId key : String) : Machine :=
  { s with
    listenKeys := s.listenKeys.insert tunnelId key
    rewired := tunnelId :: s.rewired }

def serve (answer : Answer) : (c : Call) → Machine × c.Reply
  | .generateKey => ({ s with keys := answer.text :: s.keys }, answer.text)
  | .listenKey => ({ s with keys := answer.text :: s.keys }, answer.reply answer.text)
  | .bindNode _ => (s, answer.reply ())
  | .listenKeyForTunnel _ tunnelId => s.loadKey answer tunnelId
  | .saveListenKey _ tunnelId key =>
      (if answer.ok then s.withKey tunnelId key else s, answer.reply ())
  | .select choices => (s, answer.chosen choices)
  | .startHeartbeat _ | .registerProject _ _ | .sleepMillis _ => (s, ())
  | .hasRelay _ => (s, answer.ok)
  | .service key method c =>
      let (served, reply) := s.node (session.publicKey key) c answer
      ({ served with listenKeys := s.keysAfter answer.cloud method c }, reply)
  | .activeProgress _ => (s, answer.reply answer.progress)
  | .resolveHostname _ => (s, answer.reply ())
  | .verifyEndpoints _ _ => (s, answer.reply ())
  | .watch => (s, some answer.woken)

def handle (c : Call) (answer : Answer) : Machine × c.Reply := s.serve session answer c

end Machine

end DatumConnect.Cli
