import Mathlib.Data.Finset.Basic
import DatumConnect.Daemon.Operations
/-!
# Peer advertisements

`advertise` puts a target in the list of the peer node and its id in the advertised
set; `revoke` takes both out again.  The list is saved in `state.yml`, the set in
`advertised.json`.
-/

namespace DatumConnect.Peers

open DatumConnect.Lib
open DatumConnect.Cloud (Error fromHostPortStr)
open DatumConnect.Daemon (Rejection notFound localError)
open DatumConnect.Proxies

inductive Call where
  | loadAdvertised
  | listenNode
  | listenNodeIfPresent
  | randomId
  | setProxy (proxy : ProxyState)
  | removeProxy (resourceId : String)
  | isAdvertised (resourceId : String)
  | insertAdvertised (resourceId : String)
  | takeAdvertised (resourceId : String)
  | saveAdvertised
  deriving DecidableEq, Repr

abbrev Call.Reply : Call → Type
  | .loadAdvertised => Bool
  | .listenNode => Except Error Unit
  | .listenNodeIfPresent => Bool
  | .randomId => String
  | .setProxy _ => Except Error Unit
  | .removeProxy _ => Except Error (Option ProxyState)
  | .isAdvertised _ => Bool
  | .insertAdvertised _ => Unit
  | .takeAdvertised _ => Bool
  | .saveAdvertised => Except Error Unit

abbrev Task := Prog Call Call.Reply

abbrev TaskE := ExceptT Rejection Task

def Task.perform (c : Call) : Task c.Reply := Prog.perform c

namespace TaskE

variable {α : Type}

def lift (p : Task α) : TaskE α := ExceptT.lift p

/-- `map_err(err_response)` and `?`. -/
def orInternal (p : Task (Except Error α)) : TaskE α :=
  ExceptT.mk do return (← p).mapError Rejection.internal

end TaskE

/-! ## What the operations do -/

/-- `PeerState::new`: a node that cannot be restored is only logged. -/
def new : Task Unit := do
  let hadPriorAdvertisements ← Task.perform .loadAdvertised
  if hadPriorAdvertisements then
    let _ ← Task.perform .listenNode
    return ()
  else return ()

def markAdvertised (resourceId : String) : Task (Except Error Unit) := do
  Task.perform (.insertAdvertised resourceId)
  match ← Task.perform .saveAdvertised with
  | .ok () => return .ok ()
  | .error e =>
      let _ ← Task.perform (.takeAdvertised resourceId)
      return .error e

def unmarkAdvertised (resourceId : String) : Task (Except Error Unit) := do
  let wasPresent ← Task.perform (.takeAdvertised resourceId)
  match ← Task.perform .saveAdvertised with
  | .ok () => return .ok ()
  | .error e =>
      if wasPresent then
        Task.perform (.insertAdvertised resourceId)
        return .error e
      else return .error e

def advertise (endpoint : String) (label : Option String) : TaskE String := do
  match fromHostPortStr endpoint with
  | .error e => throw (.internal (.bail s!"invalid endpoint '{endpoint}': {e}"))
  | .ok data =>
      let id ← TaskE.lift (Task.perform .randomId)
      let advertisment : Advertisment := { resourceId := "proxy-" ++ id, label, data }
      TaskE.orInternal (Task.perform .listenNode)
      TaskE.orInternal (Task.perform (.setProxy { info := advertisment, enabled := true }))
      TaskE.orInternal (markAdvertised advertisment.resourceId)
      return advertisment.resourceId

def revoke (resourceId : String) : TaskE Unit := do
  if ← TaskE.lift (Task.perform (.isAdvertised resourceId)) then
    if ← TaskE.lift (Task.perform .listenNodeIfPresent) then
      match ← TaskE.orInternal (Task.perform (.removeProxy resourceId)) with
      | some _ => TaskE.orInternal (unmarkAdvertised resourceId)
      | none => throw (notFound resourceId)
    else throw (notFound resourceId)
  else throw (notFound resourceId)

inductive Op where
  | restart
  | advertise (endpoint : String) (label : Option String)
  | revoke (resourceId : String)
  deriving DecidableEq, Repr

def Op.code : Op → Task (Except Rejection Unit)
  | .restart => (TaskE.lift new).run
  | .advertise endpoint label =>
      (do let _ ← Peers.advertise endpoint label : TaskE Unit).run
  | .revoke resourceId => (Peers.revoke resourceId).run

/-! ## What the calls find and change -/

/-- The contents of `state.yml`. -/
inductive Saved where
  | missing
  | unreadable
  | list (state : State)
  deriving DecidableEq, Repr

/-- What a failed write leaves of a file. -/
inductive Left where
  | untouched
  | unreadable
  /-- All of it was written, and an error reported all the same. -/
  | complete
  deriving DecidableEq, Repr

/-- The random part of an id, whether the node's endpoint can be built, and the
failure of a file write. -/
structure Answer where
  id : String := ""
  builds : Bool := true
  fails : Option Left := none
  deriving DecidableEq, Repr

/-- The peer node's list, the advertised set, and the two files.  `put` is no part of
the daemon: it records the ids that advertise calls have put in the list. -/
structure PeerState where
  node : Option State := none
  stateYml : Saved := .missing
  advertised : Finset String := ∅
  advertisedJson : Finset String := ∅
  put : Finset String := ∅
  deriving DecidableEq

namespace PeerState

variable (s : PeerState)

/-- `state.yml` after a write of `next`, and the error that the write ends in. -/
def write (answer : Answer) (next : State) : Saved × Except Error Unit :=
  match answer.fails with
  | none => (.list next, .ok ())
  | some .untouched => (s.stateYml, .error localError)
  | some .unreadable => (.unreadable, .error localError)
  | some .complete => (.list next, .error localError)

/-- `StateWrapper::update`: the node's copy changes whether or not it can be saved. -/
def update (answer : Answer) (op : Update) : PeerState × Except Error (Option ProxyState) :=
  match s.node with
  | none => (s, .error localError)
  | some state =>
      let (next, res) := op.run state
      let (stateYml, written) := s.write answer next
      ({ s with node := some next, stateYml }, written.map fun () => res)

/-- `get_or_try_init`: a node that is not there yet loads the list, and saves an
empty one where there is no file. -/
def listenNode (answer : Answer) : PeerState × Except Error Unit :=
  match s.node, answer.builds with
  | some _, _ => (s, .ok ())
  | none, false => (s, .error localError)
  | none, true =>
      match s.stateYml with
      | .list state => ({ s with node := some state }, .ok ())
      | .unreadable => (s, .error localError)
      | .missing =>
          match s.write answer {} with
          | (stateYml, .ok ()) => ({ s with node := some {}, stateYml }, .ok ())
          | (stateYml, .error e) => ({ s with stateYml }, .error e)

def handle (s : PeerState) (c : Call) (answer : Answer) : PeerState × c.Reply :=
  match c with
  | .loadAdvertised =>
      ({ s with node := none, advertised := s.advertisedJson }, decide (s.advertisedJson ≠ ∅))
  | .listenNode => s.listenNode answer
  | .listenNodeIfPresent => (s, s.node.isSome)
  | .randomId => (s, answer.id)
  | .setProxy proxy =>
      let (t, res) := s.update answer (.setProxy proxy)
      ({ t with put := insert proxy.id s.put }, res.map fun _ => ())
  | .removeProxy resourceId => s.update answer (.removeProxy resourceId)
  | .isAdvertised resourceId => (s, decide (resourceId ∈ s.advertised))
  | .insertAdvertised resourceId => ({ s with advertised := insert resourceId s.advertised }, ())
  | .takeAdvertised resourceId =>
      ({ s with advertised := s.advertised.erase resourceId }, decide (resourceId ∈ s.advertised))
  | .saveAdvertised =>
      match answer.fails with
      | some .untouched | some .unreadable => (s, .error localError)
      | some .complete => ({ s with advertisedJson := s.advertised }, .error localError)
      | none => ({ s with advertisedJson := s.advertised }, .ok ())

end PeerState

end DatumConnect.Peers
