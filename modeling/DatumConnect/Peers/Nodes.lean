import Mathlib.Data.Finset.Basic
import DatumConnect.Proxies.Store
import DatumConnect.Proxies.Authorize
/-!
# The nodes of a daemon

A daemon runs any number of `ListenNode`s: one to control tunnels with, one for each
tunnel that is started, and one for its peers.  They share a store: each has its own
copy of the list, and each update through one of them rewrites the one file.  A step
is a step of the store, or what an operation does with the outcome of its update.

What the operations ask of the server in between is left out: a tunnel operation is
the update that it makes of the list, at any time and of any endpoint.
-/

namespace DatumConnect.Peers

open DatumConnect.Proxies
open DatumConnect.Proxies.Store (Sys Phase)

inductive Role where
  | control
  | peer
  /-- Of a tunnel that is started, or about to be. -/
  | tunnel (id : String)
  /-- Of a tunnel that is stopped, until the last holder of the node lets go of it. -/
  | retired (id : String)
  | dropped
  deriving DecidableEq, Repr

/-- What an update is made for. -/
inductive Purpose where
  | advertise (advertisment : Advertisment)
  | revoke (resourceId : String)
  | tunnel (proxy : ProxyState)
  | delete (tunnelId : String)
  /-- The operation has seen to the outcome. -/
  | settled
  deriving DecidableEq, Repr

/-- The store, and for each of its wrappers the node, for each of its calls the purpose
it is for.  The last four are no part of the daemon: what has been advertised and not
been revoked, the tickets that have been handed out, what has been revoked, and the
endpoint each tunnel was last given. -/
structure World where
  store : Sys
  roles : List Role := []
  purposes : List Purpose := []
  advertised : Finset String := ∅
  advertisedJson : Finset String := ∅
  offers : List Advertisment := []
  tickets : List Advertisment := []
  revoked : List Advertisment := []
  endpoints : String → Option TcpProxyData := fun _ => none

inductive Action where
  /-- `load_state` of a new node: it looks for the file, then reads it. -/
  | openBegin
  | openEnd (k : Nat) (role : Role)
  | advertise (advertisment : Advertisment)
  | revoke (resourceId : String)
  /-- Create, start, stop and retarget store the tunnel's entry. -/
  | setProxyState (node : Nat) (proxy : ProxyState)
  /-- A retarget that does not: the tickets are published instead, or the endpoint
  cannot be parsed. -/
  | retargetUnstored (tunnelId : String) (data : TcpProxyData)
  | delete (tunnelId : String)
  | load (c : Nat)
  | store (c : Nat)
  | write (c : Nat)
  | failWrite (c : Nat)
  | ret (c : Nat)
  /-- `mark_advertised` and `unmark_advertised`, the set being saved or not. -/
  | mark (c : Nat) (saved : Bool)
  | unmark (c : Nat) (saved : Bool)
  | retire (node : Nat)
  | drop (node : Nat)
  | restart
  deriving DecidableEq, Repr

def ended : Phase → Bool
  | .returned .. | .failed _ => true
  | _ => false

namespace World

variable (w : World)

/-- The tunnel has a node that is started. -/
def started (id : String) : Bool := w.roles.contains (.tunnel id)

/-- There is one peer node, and one node for a tunnel that is started. -/
def mayOpen : Role → Bool
  | .control => true
  | .peer => !w.roles.contains .peer
  | .tunnel id => !w.started id
  | .retired _ | .dropped => false

/-- A tunnel's operations go through its own node, or without one through the control
node. -/
def serves (id : String) : Role → Bool
  | .control => !w.started id
  | .tunnel id' | .retired id' => id' = id
  | .peer | .dropped => false

/-- Call `update` of a node. -/
def invoke (node : Nat) (op : Update) (purpose : Purpose) : Option World :=
  (Store.step w.store (.invoke node op)).map fun store =>
    { w with store, purposes := w.purposes ++ [purpose] }

def forgetRevoked (id : String) : World :=
  { w with revoked := w.revoked.filter fun ad => ad.resourceId ≠ id }

def withdraw (id : String) : World :=
  { w with offers := w.offers.filter fun ad => ad.resourceId ≠ id }

def settle (c : Nat) : World := { w with purposes := w.purposes.set c .settled }

/-- Some update of the node has not reached its end. -/
def busy (node : Nat) : Bool :=
  w.store.calls.any fun call => call.wrapper = node && !ended call.phase

/-- The tunnel's endpoint is the one that has just been stored. -/
def recordEndpoint : Purpose → World
  | .tunnel proxy =>
      { w with
        endpoints := fun id => if id = proxy.id then some proxy.info.data else w.endpoints id }
  | _ => w

/-- `update` has failed, and the advertise call with it. -/
def failed : Purpose → World
  | .advertise ad => w.withdraw ad.resourceId
  | _ => w

def act (w : World) : Action → Option World
  | .openBegin => (Store.step w.store .openBegin).map fun store => { w with store }
  | .openEnd k role =>
      if w.mayOpen role then
        (Store.step w.store (.openEnd k)).map fun store =>
          { w with store, roles := w.roles ++ [role] }
      else none
  | .advertise ad =>
      (w.roles.idxOf? .peer).bind fun node =>
        ({ w.forgetRevoked ad.resourceId with offers := ad :: w.offers }).invoke node
          (.setProxy { info := ad, enabled := true }) (.advertise ad)
  | .revoke id =>
      if id ∈ w.advertised then
        (w.roles.idxOf? .peer).bind fun node => w.invoke node (.removeProxy id) (.revoke id)
      else none
  | .setProxyState node proxy =>
      if w.roles[node]?.any (w.serves proxy.id) then
        (w.forgetRevoked proxy.id).invoke node (.setProxy proxy) (.tunnel proxy)
      else none
  | .retargetUnstored id data =>
      some { w with endpoints := fun id' => if id' = id then some data else w.endpoints id' }
  | .delete id =>
      (w.roles.idxOf? .control).bind fun node => w.invoke node (.removeProxy id) (.delete id)
  | .load c => (Store.step w.store (.load c)).map fun store => { w with store }
  | .store c =>
      (Store.step w.store (.store c)).map fun store =>
        { w with store }.recordEndpoint (w.purposes[c]?.getD .settled)
  | .write c => (Store.step w.store (.write c)).map fun store => { w with store }
  | .failWrite c =>
      (Store.step w.store (.failWrite c)).map fun store =>
        { w with store }.failed (w.purposes[c]?.getD .settled)
  | .ret c => (Store.step w.store (.ret c)).map fun store => { w with store }
  | .mark c saved =>
      match w.purposes[c]?, w.store.phase? c, saved with
      | some (.advertise ad), some (.returned ..), true =>
          some { w.settle c with
            advertised := insert ad.resourceId w.advertised
            advertisedJson := insert ad.resourceId w.advertised
            tickets := ad :: w.tickets }
      | some (.advertise ad), some (.returned ..), false =>
          some ((w.settle c).withdraw ad.resourceId)
      | _, _, _ => none
  | .unmark c saved =>
      match w.purposes[c]?, w.store.phase? c, saved with
      | some (.revoke id), some (.returned _ (some removed) _ _), true =>
          some { (w.settle c).withdraw id with
            advertised := w.advertised.erase id
            advertisedJson := w.advertised.erase id
            revoked := removed.info :: w.revoked }
      | some (.revoke _), some (.returned _ (some _) _ _), false => some (w.settle c)
      | _, _, _ => none
  | .retire node =>
      match w.roles[node]? with
      | some (.tunnel id) => some { w with roles := w.roles.set node (.retired id) }
      | _ => none
  | .drop node =>
      match w.roles[node]? with
      | some (.retired _) =>
          if w.busy node then none
          else some { w with
            roles := w.roles.set node .dropped
            store := { w.store with wrappers := w.store.wrappers.set node {} } }
      | _ => none
  | .restart =>
      some { w with
        store := { w.store with wrappers := [], opening := [], calls := [] }
        roles := []
        purposes := []
        advertised := w.advertisedJson
        offers := w.offers.filter fun ad => ad.resourceId ∈ w.advertisedJson }

/-- What a step can do. -/
inductive Becomes (w : World) : Action → World → Prop where
  | openBegin {t : Sys} : Store.step w.store .openBegin = some t →
      Becomes w .openBegin { w with store := t }
  | openEnd {k : Nat} {role : Role} {t : Sys} : w.mayOpen role = true →
      Store.step w.store (.openEnd k) = some t →
      Becomes w (.openEnd k role) { w with store := t, roles := w.roles ++ [role] }
  | advertise {ad : Advertisment} {node : Nat} {w' : World} : w.roles.idxOf? .peer = some node →
      ({ w.forgetRevoked ad.resourceId with offers := ad :: w.offers }).invoke node
        (.setProxy { info := ad, enabled := true }) (.advertise ad) = some w' →
      Becomes w (.advertise ad) w'
  | revoke {id : String} {node : Nat} {w' : World} : w.roles.idxOf? .peer = some node →
      w.invoke node (.removeProxy id) (.revoke id) = some w' → Becomes w (.revoke id) w'
  | setProxyState {node : Nat} {proxy : ProxyState} {role : Role} {w' : World} :
      w.roles[node]? = some role → w.serves proxy.id role = true →
      (w.forgetRevoked proxy.id).invoke node (.setProxy proxy) (.tunnel proxy) = some w' →
      Becomes w (.setProxyState node proxy) w'
  | retargetUnstored {id : String} {data : TcpProxyData} :
      Becomes w (.retargetUnstored id data)
        { w with endpoints := fun id' => if id' = id then some data else w.endpoints id' }
  | delete {id : String} {node : Nat} {w' : World} : w.roles.idxOf? .control = some node →
      w.invoke node (.removeProxy id) (.delete id) = some w' → Becomes w (.delete id) w'
  | load {c : Nat} {t : Sys} : Store.step w.store (.load c) = some t →
      Becomes w (.load c) { w with store := t }
  | store {c : Nat} {t : Sys} : Store.step w.store (.store c) = some t →
      Becomes w (.store c)
        ({ w with store := t }.recordEndpoint (w.purposes[c]?.getD .settled))
  | write {c : Nat} {t : Sys} : Store.step w.store (.write c) = some t →
      Becomes w (.write c) { w with store := t }
  | failWrite {c : Nat} {t : Sys} : Store.step w.store (.failWrite c) = some t →
      Becomes w (.failWrite c) ({ w with store := t }.failed (w.purposes[c]?.getD .settled))
  | ret {c : Nat} {t : Sys} : Store.step w.store (.ret c) = some t →
      Becomes w (.ret c) { w with store := t }
  | mark {c : Nat} {ad : Advertisment} {next : State} {res : Option ProxyState}
      {storedAt returnedAt : Nat} : w.purposes[c]? = some (.advertise ad) →
      w.store.phase? c = some (.returned next res storedAt returnedAt) →
      Becomes w (.mark c true)
        { w.settle c with
          advertised := insert ad.resourceId w.advertised
          advertisedJson := insert ad.resourceId w.advertised
          tickets := ad :: w.tickets }
  | failMark {c : Nat} {ad : Advertisment} {next : State} {res : Option ProxyState}
      {storedAt returnedAt : Nat} : w.purposes[c]? = some (.advertise ad) →
      w.store.phase? c = some (.returned next res storedAt returnedAt) →
      Becomes w (.mark c false) ((w.settle c).withdraw ad.resourceId)
  | unmark {c : Nat} {id : String} {removed : ProxyState} {next : State}
      {storedAt returnedAt : Nat} : w.purposes[c]? = some (.revoke id) →
      w.store.phase? c = some (.returned next (some removed) storedAt returnedAt) →
      Becomes w (.unmark c true)
        { (w.settle c).withdraw id with
          advertised := w.advertised.erase id
          advertisedJson := w.advertised.erase id
          revoked := removed.info :: w.revoked }
  | failUnmark {c : Nat} {id : String} {removed : ProxyState} {next : State}
      {storedAt returnedAt : Nat} : w.purposes[c]? = some (.revoke id) →
      w.store.phase? c = some (.returned next (some removed) storedAt returnedAt) →
      Becomes w (.unmark c false) (w.settle c)
  | retire {node : Nat} {id : String} : w.roles[node]? = some (.tunnel id) →
      Becomes w (.retire node) { w with roles := w.roles.set node (.retired id) }
  | drop {node : Nat} {id : String} : w.roles[node]? = some (.retired id) →
      w.busy node = false →
      Becomes w (.drop node)
        { w with
          roles := w.roles.set node .dropped
          store := { w.store with wrappers := w.store.wrappers.set node {} } }
  | restart : Becomes w .restart
      { w with
        store := { w.store with wrappers := [], opening := [], calls := [] }
        roles := []
        purposes := []
        advertised := w.advertisedJson
        offers := w.offers.filter fun ad => ad.resourceId ∈ w.advertisedJson }

theorem becomes_of_act {w w' : World} {a : Action} (h : w.act a = some w') : w.Becomes a w' := by
  cases a with
  | openBegin =>
      simp only [act, Option.map_eq_some_iff] at h
      obtain ⟨t, ht, rfl⟩ := h
      exact .openBegin ht
  | openEnd k role =>
      simp only [act] at h
      split at h
      · rename_i hopen
        obtain ⟨t, ht, rfl⟩ := Option.map_eq_some_iff.mp h
        exact .openEnd hopen ht
      · cases h
  | advertise ad =>
      simp only [act, Option.bind_eq_some_iff] at h
      obtain ⟨node, hnode, hinvoke⟩ := h
      exact .advertise hnode hinvoke
  | revoke id =>
      simp only [act] at h
      split at h
      · obtain ⟨node, hnode, hinvoke⟩ := Option.bind_eq_some_iff.mp h
        exact .revoke hnode hinvoke
      · cases h
  | setProxyState node proxy =>
      simp only [act] at h
      split at h
      · rename_i hany
        obtain ⟨role, hrole, hserves⟩ := Option.any_eq_true _ _ |>.mp hany
        exact .setProxyState hrole hserves h
      · cases h
  | retargetUnstored id data =>
      cases h
      exact .retargetUnstored
  | delete id =>
      simp only [act, Option.bind_eq_some_iff] at h
      obtain ⟨node, hnode, hinvoke⟩ := h
      exact .delete hnode hinvoke
  | load c =>
      simp only [act, Option.map_eq_some_iff] at h
      obtain ⟨t, ht, rfl⟩ := h
      exact .load ht
  | store c =>
      simp only [act, Option.map_eq_some_iff] at h
      obtain ⟨t, ht, rfl⟩ := h
      exact .store ht
  | write c =>
      simp only [act, Option.map_eq_some_iff] at h
      obtain ⟨t, ht, rfl⟩ := h
      exact .write ht
  | failWrite c =>
      simp only [act, Option.map_eq_some_iff] at h
      obtain ⟨t, ht, rfl⟩ := h
      exact .failWrite ht
  | ret c =>
      simp only [act, Option.map_eq_some_iff] at h
      obtain ⟨t, ht, rfl⟩ := h
      exact .ret ht
  | mark c saved =>
      simp only [act] at h
      split at h
      · rename_i hpurpose hphase
        cases h
        exact .mark hpurpose hphase
      · rename_i hpurpose hphase
        cases h
        exact .failMark hpurpose hphase
      · cases h
  | unmark c saved =>
      simp only [act] at h
      split at h
      · rename_i hpurpose hphase
        cases h
        exact .unmark hpurpose hphase
      · rename_i hpurpose hphase
        cases h
        exact .failUnmark hpurpose hphase
      · cases h
  | retire node =>
      simp only [act] at h
      split at h
      · rename_i hrole
        cases h
        exact .retire hrole
      · cases h
  | drop node =>
      simp only [act] at h
      split at h
      · rename_i hrole
        split at h
        · cases h
        · rename_i hidle
          cases h
          exact .drop hrole (Bool.eq_false_iff.mpr hidle)
      · cases h
  | restart =>
      cases h
      exact .restart

/-- A daemon that has never run here. -/
def fresh : World := { store := { file := none, wrappers := [] } }

abbrev run : World → List Action → Option World := Lib.Runs.run act

end World

/-! ## A daemon that advertises `localhost:80` -/

def webAd : Advertisment := ⟨"proxy-web", none, ⟨"localhost", 80⟩⟩

def advertiseSteps : List Action :=
  [.openBegin, .openEnd 0 .peer, .advertise webAd, .load 0, .store 0, .write 0, .ret 0, .mark 0 true]

end DatumConnect.Peers
