import DatumConnect.Daemon.Claims
import DatumConnect.Lib.Leases
/-!
# The busy reservation

Any number of operations run at once, each of them free to fail and to be dropped
between two of its calls.  What a dropped operation holds is released, as
`BusyGuard` does.
-/

namespace DatumConnect.Daemon

open DatumConnect.Lib
open DatumConnect.Lib.Prog (Protocol Follows)
open DatumConnect.Lib.Pool

/-- A reservation that is given back. -/
def State.release (s : State) : Option String → State
  | some id => { s with busy := s.busy.erase id }
  | none => s

def system (app : AppState) :
    System Op Call Call.Reply (Except Rejection Unit) State Answer Place Unit where
  code := Op.code app
  handle := State.handle
  protocol := protocol
  start := Op.begins
  fresh := ()
  notice _ _ _ _ _ := ()
  abandon s g := s.release g.held

abbrev Operation := Client Op Call Call.Reply (Except Rejection Unit) Place Unit

abbrev Operations := World Op Call Call.Reply (Except Rejection Unit) State Place Unit

/-- The tunnel that an operation in progress has reserved. -/
def heldBy (w : Operations) (i : Nat) : Option String :=
  match w.clients[i]? with
  | some client => if client.running then client.place.held else none
  | none => none

/-! ## What the calls do to reservations -/

variable {app : AppState} {g : Place} {s : State} {answer : Answer}

theorem busy_handle {c : Call} (h : c.keepsBusy = true) : (s.handle c answer).1.busy = s.busy := by
  unfold State.handle
  cases c with
  | claimBusy id => cases h
  | releaseBusy id => cases h
  | writeToken id ttlSeconds =>
      simp only [State.serve]
      split <;> rfl
  | saveInspectorTarget id target | removeInspectorTarget id | saveNote id note | removeNote id
  | createTokensDir id | deleteTokens id | appendAudit line | saveListenKey projectId id key =>
      simp only [State.serve]
      split <;> rfl
  | _ => rfl

theorem held_advance {c : Call} (h : c.keepsBusy = true) (r : c.Reply) :
    (g.advance c r).held = g.held := by
  cases c with
  | claimBusy id => cases h
  | releaseBusy id => cases h
  | service method c =>
      cases method with
      | setEnabled id enabled => cases enabled <;> rfl
      | _ => rfl
  | _ => rfl

theorem deletes_advance {c : Call} (r : c.Reply) : (g.advance c r).deletes = g.deletes := by
  cases c with
  | service method c =>
      cases method with
      | setEnabled id enabled => cases enabled <;> rfl
      | _ => rfl
  | _ => rfl

/-! ## Who holds what -/

variable {w w' : Operations} {i : Nat} {client : Operation} {id : String}

theorem heldBy_eq_some :
    heldBy w i = some id ↔
      ∃ client, w.clients[i]? = some client ∧ client.running = true ∧
        client.place.held = some id := by
  unfold heldBy
  cases w.clients[i]? with
  | none => simp
  | some client => simp

/-- What has come to its end holds nothing. -/
theorem heldBy_of_prog (hw : (system app).Faithful Ended w) (hclient : w.clients[i]? = some client)
    (hprog : client.prog.isSome = true) : heldBy w i = client.place.held := by
  obtain ⟨p, hp⟩ := Option.isSome_iff_exists.mp hprog
  simp only [heldBy, hclient]
  cases p with
  | call c k => simp [Client.running, Client.next, hp]
  | ret a =>
      have hended : Ended client.op client.place a := hw i client _ hclient hp
      rw [hended.held, ite_self]

theorem heldBy_spawn {op : Op} : heldBy (w.spawned (system app) op) = heldBy w := by
  funext j
  have hnone : op.begins.held = none := by cases op <;> rfl
  unfold heldBy World.spawned
  rcases Nat.lt_trichotomy j w.clients.length with hj | rfl | hj
  · rw [List.getElem?_append_left hj]
  · simp [Client.new, system, hnone]
  · rw [List.getElem?_eq_none (by simp; omega), List.getElem?_eq_none (by omega)]

theorem heldBy_called {c : Call} {k : c.Reply → Task (Except Rejection Unit)}
    (hclient : w.clients[i]? = some client)
    (hw' : (system app).Faithful Ended (w.called (system app) i client c k answer)) :
    heldBy (w.called (system app) i client c k answer) =
      Function.update (heldBy w) i
        (client.place.advance c (w.state.handle c answer).2).held := by
  funext j
  rcases eq_or_ne j i with rfl | hji
  · rw [Function.update_self]
    exact heldBy_of_prog hw' (System.called_self hclient) rfl
  · rw [Function.update_of_ne hji]
    simp only [heldBy, World.called, List.getElem?_set_ne hji.symm, List.getElem?_map]
    cases w.clients[j]? <;> rfl

theorem heldBy_dropped (hclient : w.clients[i]? = some client) :
    heldBy (w.dropped (system app) i client) = Function.update (heldBy w) i none := by
  have hlt := (List.getElem?_eq_some_iff.mp hclient).1
  funext j
  rcases eq_or_ne j i with rfl | hji
  · rw [Function.update_self]
    simp [heldBy, World.dropped, List.getElem?_set_self hlt, Client.running, Client.next]
  · rw [Function.update_of_ne hji]
    simp only [heldBy, World.dropped, List.getElem?_set_ne hji.symm]

/-! ## A start that has reserved nothing -/

theorem advance_unclaimed {c : Call} {r : c.Reply} (h : (g.advance c r).writes = false) :
    g.writes = false ∧ ((g.advance c r).held = g.held ∨ (g.advance c r).held = none) := by
  cases c with
  | claimBusy id =>
      cases r with
      | true => cases h
      | false => exact ⟨h, .inl rfl⟩
  | releaseBusy id => exact ⟨h, .inr rfl⟩
  | service method c =>
      cases method with
      | setEnabled id enabled => cases enabled <;> exact ⟨h, .inl rfl⟩
      | _ => exact ⟨h, .inl rfl⟩
  | _ => exact ⟨h, .inl rfl⟩

/-! ## Until the end of the call -/

/-- What is left of an operation that is as far as that with its claim. -/
def ClaimedTo (client : Operation) (p : Task (Except Rejection Unit)) (claim : Claim) : Prop :=
  Follows (claiming client.op.again) (fun claim _ => claim.held = none) p claim ∧
    claim.held = client.place.held

/-- What an operation holds it has claimed and is not done with. -/
def Claimed (w : Operations) : Prop :=
  ∀ (i : Nat) (client : Operation) (p : Task (Except Rejection Unit)),
    w.clients[i]? = some client → client.prog = some p → ∃ claim, ClaimedTo client p claim

theorem held_advance_claim {claim : Claim} {again : Bool} {c : Call} (r : c.Reply)
    (hallowed : claim.Allows again c) (hheld : claim.held = g.held) :
    (claim.advance c r).held = (g.advance c r).held := by
  cases hc : c.keepsBusy with
  | true => rw [Claim.advance_of_keepsBusy hc, held_advance hc, hheld]
  | false =>
      cases c with
      | claimBusy id =>
          have hnone : claim.held = none := by
            cases claim with
            | before | finished => rfl
            | holds id' =>
                rcases hallowed with hkeeps | hrelease
                · cases hkeeps
                · cases hrelease
          cases r with
          | true => rfl
          | false => exact hnone.symm.trans hheld
      | releaseBusy id => rfl
      | _ => cases hc

theorem Claimed.step {act : Act Op Answer} (h : Claimed w)
    (hstep : (system app).step w act = some w') : Claimed w' := by
  intro j cl p hcl hp
  cases act with
  | spawn op =>
      obtain rfl := System.step_spawn hstep
      rcases System.client_of_spawn hcl with hold | ⟨_, rfl⟩
      · exact h j cl p hold hp
      · cases hp
        refine ⟨.before, Op.claims app op, ?_⟩
        cases op <;> rfl
  | step i answer =>
      obtain ⟨client, c, k, hclient, hprog, rfl⟩ := System.step_call hstep
      rcases System.client_of_call hcl with ⟨_, rfl⟩ | ⟨_, other, hother, rfl⟩
      · cases hp
        obtain ⟨claim, hfollows, hheld⟩ := h i client _ hclient hprog
        exact ⟨claim.advance c _, hfollows.2 _, held_advance_claim _ hfollows.1 hheld⟩
      · exact h j other p hother hp
  | drop i =>
      obtain ⟨client, c, k, hclient, hprog, rfl⟩ := System.step_drop hstep
      rcases System.client_of_drop hcl with ⟨_, rfl⟩ | ⟨_, hold⟩
      · cases hp
      · exact h j cl p hold hp

theorem Claimed.run {acts : List (Act Op Answer)} (h : Claimed w)
    (hrun : Runs.run (system app).step w acts = some w') : Claimed w' :=
  Runs.invariant_always (fun _ _ _ h hstep => h.step hstep) h hrun

structure Orderly (app : AppState) (w : Operations) : Prop where
  faithful : (system app).Faithful Ended w
  leased : Leased (heldBy w) w.state.busy
  unclaimed : ∀ (i : Nat) (client : Operation), w.clients[i]? = some client →
    client.place.writes = false → client.place.held = none

theorem Orderly.leased_called {c : Call} {k : c.Reply → Task (Except Rejection Unit)}
    (h : Orderly app w) (hclient : w.clients[i]? = some client)
    (hprog : client.prog = some (.call c k))
    (hw' : (system app).Faithful Ended (w.called (system app) i client c k answer)) :
    Leased (heldBy (w.called (system app) i client c k answer))
      (w.state.handle c answer).1.busy := by
  have hheld : heldBy w i = client.place.held :=
    heldBy_of_prog h.faithful hclient (by simp [hprog])
  have hallowed := h.faithful.allowed hclient hprog
  rw [heldBy_called hclient hw']
  cases hc : c.keepsBusy with
  | true =>
      rw [busy_handle hc, held_advance hc, ← hheld, Function.update_eq_self]
      exact h.leased
  | false =>
      cases c with
      | claimBusy id =>
          have hnone : client.place.held = none := hallowed.binds
          by_cases hid : id ∈ w.state.busy
          · have hreply : (w.state.handle (.claimBusy id) answer).2 = false :=
              decide_eq_false (not_not_intro hid)
            have hbusy : (w.state.handle (.claimBusy id) answer).1.busy = w.state.busy :=
              Finset.insert_eq_self.mpr hid
            rw [hreply, hbusy]
            refine (congrArg (fun held => Leased held w.state.busy) ?_).mpr h.leased
            rw [show (client.place.advance (.claimBusy id) false).held = client.place.held from rfl,
              ← hheld, Function.update_eq_self]
          · have hreply : (w.state.handle (.claimBusy id) answer).2 = true := decide_eq_true hid
            rw [hreply]
            exact h.leased.claim (hheld.trans hnone) hid
      | releaseBusy id =>
          exact h.leased.release (hheld.trans hallowed.binds.1)
      | _ => cases hc

theorem Orderly.step {act : Act Op Answer} (h : Orderly app w)
    (hstep : (system app).step w act = some w') : Orderly app w' := by
  have hfaithful := h.faithful.step (Op.follows app) hstep
  cases act with
  | spawn op =>
      obtain rfl := System.step_spawn hstep
      refine ⟨hfaithful, ?_, fun j cl hcl hwrites => ?_⟩
      · rw [heldBy_spawn]
        exact h.leased
      · rcases System.client_of_spawn hcl with hold | ⟨_, rfl⟩
        · exact h.unclaimed j cl hold hwrites
        · cases op <;> rfl
  | step i answer =>
      obtain ⟨client, c, k, hclient, hprog, rfl⟩ := System.step_call hstep
      refine ⟨hfaithful, h.leased_called hclient hprog hfaithful, fun j cl hcl hwrites => ?_⟩
      rcases System.client_of_call hcl with ⟨_, rfl⟩ | ⟨_, other, hother, rfl⟩
      · obtain ⟨hbefore, hheld | hheld⟩ := advance_unclaimed hwrites
        · exact hheld.trans (h.unclaimed i client hclient hbefore)
        · exact hheld
      · exact h.unclaimed j other hother hwrites
  | drop i =>
      obtain ⟨client, c, k, hclient, hprog, rfl⟩ := System.step_drop hstep
      have hheld : heldBy w i = client.place.held :=
        heldBy_of_prog h.faithful hclient (by simp [hprog])
      refine ⟨hfaithful, ?_, fun j cl hcl hwrites => ?_⟩
      · rw [heldBy_dropped hclient]
        cases hplace : client.place.held with
        | none =>
            rw [← hplace, ← hheld, Function.update_eq_self]
            simp only [World.dropped, system, hplace, State.release]
            exact h.leased
        | some id =>
            simp only [World.dropped, system, hplace, State.release]
            exact h.leased.release (hheld.trans hplace)
      · rcases System.client_of_drop hcl with ⟨_, rfl⟩ | ⟨_, hold⟩
        · exact h.unclaimed i client hclient hwrites
        · exact h.unclaimed j cl hold hwrites

theorem Orderly.init (hbusy : s.busy = ∅) : Orderly app { state := s } where
  faithful i client p hclient := by simp at hclient
  leased := by
    rw [hbusy]
    exact Leased.empty
  unclaimed i client hclient := by simp at hclient

theorem Orderly.run {acts : List (Act Op Answer)} (h : Orderly app w)
    (hrun : Runs.run (system app).step w acts = some w') : Orderly app w' :=
  Runs.invariant_always (fun _ _ _ h hstep => h.step hstep) h hrun

/-- A claim is granted just if nobody holds the tunnel. -/
theorem Orderly.claim (h : Orderly app w) (hclient : w.clients[i]? = some client)
    (hnext : client.next = some (.claimBusy id))
    (hstep : (system app).step w (.step i answer) = some w') :
    heldBy w' i = some id ↔ ∀ j, heldBy w j ≠ some id := by
  obtain ⟨client', c, k, hclient', hprog, rfl⟩ := System.step_call hstep
  obtain rfl : client = client' := Option.some.inj (hclient.symm.trans hclient')
  obtain rfl : c = .claimBusy id := by simpa [Client.next, hprog] using hnext
  have hnone : client.place.held = none := (h.faithful.allowed hclient hprog).binds
  have hfree : id ∉ w.state.busy ↔ ∀ j, heldBy w j ≠ some id := by
    rw [h.leased.taken, not_exists]
  rw [heldBy_called hclient (h.faithful.step (Op.follows app) hstep), Function.update_self, ← hfree]
  by_cases hid : id ∈ w.state.busy
  · simp [State.handle, State.serve, State.await, Place.advance, hid, hnone]
  · simp [State.handle, State.serve, State.await, Place.advance, hid]

def plainApp : AppState where
  projectId := "p"
  control := {
    endpointId := "control"
    publishTickets := false
    createTrafficProtectionPolicies := false
    wafExemptMatches := none
    edgePolicies := false
    friendlyDeviceName := "box"
    os := "linux"
    parseUrl _ := some { hostStr := some "h", port := some 1 } }
  maxTunnelRuntime := 100
  uriError _ := none
  publicKey key := key

/-- A project with a tunnel that is off, and a daemon that has its key. -/
def tunnelOff : State where
  cluster :=
    let proxied := (Cloud.Cluster.empty.create .httpProxy "tunnel-a" {
      label := some "a"
      hostnames := none
      rules := Cloud.desiredProxyRules "http://h:1" "datum-connect-1" none }).1
    (proxied.create .connector "datum-connect-1" {
      className := "iroh-quic-tunnel"
      deviceName := some "box"
      deviceOs := some "linux"
      status := some {
        conditions := none
        connectionDetails := some {
          publicKeyId := "key-a"
          homeRelay := "relay"
          addresses := [] } } }).1
  listenKeys := AList.insert "tunnel-a" "key-a" ∅

end DatumConnect.Daemon
