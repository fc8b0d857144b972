import DatumConnect.Peers.Nodes
import DatumConnect.Proxies.Everywhere
import DatumConnect.Lib.Runs
/-!
# Each node for its own targets

A node loads the whole list, whoever put the entries there.  It serves its own targets
alone as long as what it loads is its own, its updates do not undo one another, and the
operations tell it what they change.
-/

namespace DatumConnect.Peers

open DatumConnect.Lib
open DatumConnect.Proxies
open DatumConnect.Proxies.Store (Sys Phase UpdateCall Everywhere)

namespace World

/-- The peer node lets a request through only for something that is advertised now, and
a tunnel's node only for the tunnel's endpoint. -/
def Isolated (fromAbsoluteUri : String → Option Authority) (w : World) : Prop :=
  ∀ (node : Nat) (role : Role) (state : State),
    w.roles[node]? = some role → w.store.wrappers[node]? = some state →
    ∀ (request : Proxies.Request) (authority : Authority),
      request.authority? fromAbsoluteUri = some authority →
      state.authorize fromAbsoluteUri request = true →
        (role = .peer → ∃ ad ∈ w.offers, SameTarget authority ad.data) ∧
        ∀ id, role = .tunnel id →
          ∃ data, w.endpoints id = some data ∧ SameTarget authority data

/-- Whoever holds a ticket reaches its target at the peer node and no other. -/
def TicketsAlone (fromAbsoluteUri : String → Option Authority) (w : World) : Prop :=
  ∀ ticket ∈ w.tickets, ∀ (node : Nat) (state : State),
    w.roles[node]? = some .peer → w.store.wrappers[node]? = some state →
    ∀ (request : Proxies.Request) (authority : Authority),
      request.authority? fromAbsoluteUri = some authority →
      state.authorize fromAbsoluteUri request = true → SameTarget authority ticket.data

/-- What is advertised now is the target of every ticket that has been handed out. -/
def OneTarget (w : World) : Prop :=
  ∀ ticket ∈ w.tickets, ∀ ad ∈ w.offers,
    normalizeLoopback ad.data.host = normalizeLoopback ticket.data.host ∧
      ad.data.port = ticket.data.port

instance (w : World) : Decidable w.OneTarget := by
  unfold OneTarget
  infer_instance

/-- The entry is one of those that a node of the role is there for. -/
def Owns (w : World) (proxy : ProxyState) : Role → Prop
  | .peer => proxy.info ∈ w.offers
  | .tunnel id => proxy.id = id ∧ w.endpoints id = some proxy.info.data
  | .control | .retired _ | .dropped => True

instance (w : World) (proxy : ProxyState) (role : Role) : Decidable (w.Owns proxy role) := by
  cases role <;> unfold Owns <;> infer_instance

end World

/-- The list that `load_state` will come back with. -/
def loadedList (s : Sys) (k : Nat) : State :=
  if s.opening[k]? = some true then s.saved else {}

/-- The list that the call has loaded is still its node's. -/
def InTurn (w : World) (call : UpdateCall) : Prop :=
  match call.phase with
  | .loaded snapshot => w.store.wrappers[call.wrapper]? = some snapshot
  | _ => True

instance (w : World) (call : UpdateCall) : Decidable (InTurn w call) := by
  dsimp only [InTurn]
  match call.phase with
  | .loaded snapshot =>
      dsimp only
      infer_instance
  | .invoked | .stored _ _ _ _ | .written _ _ _ | .returned _ _ _ _ | .failed _ =>
      exact instDecidableTrue

/-- A node keeps to updates in turn. -/
def turnsOf : Role → Bool
  | .peer | .tunnel _ => true
  | .control | .retired _ | .dropped => false

/-- What is stored for a started tunnel through another node is the endpoint that its
own node has already. -/
def Told (w : World) (role : Role) : Purpose → Prop
  | .tunnel proxy => role ≠ .tunnel proxy.id → w.started proxy.id = true →
      w.endpoints proxy.id = some proxy.info.data
  | _ => True

instance (w : World) (role : Role) (purpose : Purpose) : Decidable (Told w role purpose) := by
  cases purpose <;> unfold Told <;> infer_instance

/-- The id that is being advertised. -/
def Purpose.advertises : Purpose → Option String
  | .advertise ad => some ad.resourceId
  | _ => none

/-- The peer node neither has an entry of the id nor is about to get one. -/
def Withdrawn (w : World) (id : String) : Prop :=
  (∀ purpose ∈ w.purposes, purpose.advertises ≠ some id) ∧
    ∀ node < w.roles.length, w.roles[node]? = some .peer →
      ∀ state ∈ w.store.wrappers[node]?, id ∉ state.ids

instance (w : World) (id : String) : Decidable (Withdrawn w id) := by
  unfold Withdrawn
  infer_instance

/-- A node is loaded while the enabled entries of the list are its own; the updates of
the peer node and of a tunnel's node are made in turn, and a started tunnel's endpoint
is changed through its own node; no write of an advertise call fails; and a revoked
entry is not in the peer node's list when the revoke returns. -/
def KeptApart (w : World) : Action → Prop
  | .openEnd k role =>
      ∀ proxy ∈ (loadedList w.store k).proxies, proxy.enabled = true → w.Owns proxy role
  | .retargetUnstored id data => w.started id = true → w.endpoints id = some data
  | .store c =>
      ∀ call ∈ w.store.calls[c]?, ∀ role ∈ w.roles[call.wrapper]?, ∀ purpose ∈ w.purposes[c]?,
        (turnsOf role = true → InTurn w call) ∧ Told w role purpose
  | .failWrite c => ∀ purpose ∈ w.purposes[c]?, purpose.advertises = none
  | .mark _ saved => saved = true
  | .unmark c true =>
      match w.purposes[c]? with
      | some (.revoke id) => Withdrawn w id
      | _ => True
  | _ => True

instance (w : World) (a : Action) : Decidable (KeptApart w a) := by
  unfold KeptApart
  split
  case h_6 => split <;> infer_instance
  all_goals infer_instance

/-! ## What every run keeps -/

/-- The call has yet to store its list. -/
def pending : Phase → Bool
  | .invoked | .loaded _ => true
  | _ => false

/-- The call is the one its purpose asks for, on a node that the operation goes
through. -/
def World.Fits (w : World) (call : UpdateCall) : Purpose → Prop
  | .advertise ad =>
      w.roles[call.wrapper]? = some .peer ∧ ad ∈ w.offers ∧
        call.op = .setProxy { info := ad, enabled := true }
  | .revoke id => w.roles[call.wrapper]? = some .peer ∧ call.op = .removeProxy id
  | .tunnel proxy =>
      call.op = .setProxy proxy ∧ ∃ role, w.roles[call.wrapper]? = some role ∧
        (role = .control ∨ role = .tunnel proxy.id ∨ role = .retired proxy.id)
  | .delete id => w.roles[call.wrapper]? = some .control ∧ call.op = .removeProxy id
  | .settled => False

structure Apart (w : World) : Prop where
  unique : Everywhere (fun state => state.ids.Nodup) (fun _ => True) w.store
  roles_length : w.roles.length = w.store.wrappers.length
  purposes_length : w.purposes.length = w.store.calls.length
  fits : ∀ (c : Nat) (call : UpdateCall) (purpose : Purpose), w.store.calls[c]? = some call →
    w.purposes[c]? = some purpose → pending call.phase = true → w.Fits call purpose
  owns : ∀ (node : Nat) (role : Role) (state : State), w.roles[node]? = some role →
    w.store.wrappers[node]? = some state →
      ∀ proxy ∈ state.proxies, proxy.enabled = true → w.Owns proxy role
  one_node : ∀ (node node' : Nat) (id : String), w.roles[node]? = some (.tunnel id) →
    w.roles[node']? = some (.tunnel id) → node = node'

namespace Apart

variable {w w' : World} {s t : Sys} {c : Nat}

theorem fresh : Apart World.fresh where
  unique := ⟨List.nodup_nil, nofun, nofun⟩
  roles_length := rfl
  purposes_length := rfl
  fits := by simp [World.fresh]
  owns := by simp [World.fresh]
  one_node := by simp [World.fresh]

/-- A pending call of the store after call `c` has moved on was pending before. -/
theorem fits_setPhase (h : Apart w) {phase : Phase}
    (hpending : ∀ old, w.store.calls[c]? = some old → pending phase = true →
      pending old.phase = true)
    {d : Nat} {call : UpdateCall} {purpose : Purpose}
    (hcall : (w.store.setPhase c phase).calls[d]? = some call)
    (hpurpose : w.purposes[d]? = some purpose) (hphase : pending call.phase = true) :
    w.Fits call purpose := by
  rw [Sys.setPhase_getElem?, Option.map_eq_some_iff] at hcall
  obtain ⟨old, hold, rfl⟩ := hcall
  split at hphase
  · rename_i hcd
    have hfits := h.fits d old purpose hold hpurpose (hpending old (hcd ▸ hold) hphase)
    rw [if_pos hcd]
    exact hfits
  · rename_i hcd
    rw [if_neg hcd]
    exact h.fits d old purpose hold hpurpose hphase

theorem length_setPhase (s : Sys) (c : Nat) (phase : Phase) :
    (s.setPhase c phase).calls.length = s.calls.length := List.length_modify ..

/-- A call moves on, and the nodes' copies stay as they are. -/
theorem moved (h : Apart w) {a : Store.Action} (hstep : Store.step w.store a = some t)
    {phase : Phase} (hcalls : t.calls = (w.store.setPhase c phase).calls)
    (hwrappers : t.wrappers = w.store.wrappers)
    (hpending : ∀ old, w.store.calls[c]? = some old → pending phase = true →
      pending old.phase = true) : Apart { w with store := t } where
  unique := h.unique.nodup_step hstep
  roles_length := by
    change w.roles.length = t.wrappers.length
    rw [hwrappers, h.roles_length]
  purposes_length := by
    change w.purposes.length = t.calls.length
    rw [hcalls, length_setPhase, h.purposes_length]
  fits d call purpose hcall := by
    change t.calls[d]? = some call at hcall
    rw [hcalls] at hcall
    exact h.fits_setPhase hpending hcall
  owns node role state hrole hstate := by
    change t.wrappers[node]? = some state at hstate
    rw [hwrappers] at hstate
    exact h.owns node role state hrole hstate
  one_node := h.one_node

theorem load (h : Apart w) (hstep : Store.step w.store (.load c) = some t) :
    Apart { w with store := t } := by
  obtain ⟨u, hu, rfl⟩ := Option.map_eq_some_iff.mp hstep
  obtain ⟨call, snapshot, hcall, hphase, _, rfl⟩ := Store.act_load.mp hu
  refine h.moved hstep rfl rfl fun old hold _ => ?_
  obtain rfl : call = old := Option.some.inj (hcall.symm.trans hold)
  rw [hphase]
  rfl

theorem write (h : Apart w) (hstep : Store.step w.store (.write c) = some t) :
    Apart { w with store := t } := by
  obtain ⟨u, hu, rfl⟩ := Option.map_eq_some_iff.mp hstep
  obtain ⟨_, _, _, _, _, rfl⟩ := Store.act_write.mp hu
  exact h.moved hstep rfl rfl nofun

theorem failWrite (h : Apart w) (hstep : Store.step w.store (.failWrite c) = some t) :
    Apart { w with store := t } := by
  obtain ⟨u, hu, rfl⟩ := Option.map_eq_some_iff.mp hstep
  obtain ⟨_, _, _, _, _, rfl⟩ := Store.act_failWrite.mp hu
  exact h.moved hstep rfl rfl nofun

theorem ret (h : Apart w) (hstep : Store.step w.store (.ret c) = some t) :
    Apart { w with store := t } := by
  obtain ⟨u, hu, rfl⟩ := Option.map_eq_some_iff.mp hstep
  obtain ⟨_, _, _, _, rfl⟩ := Store.act_ret.mp hu
  exact h.moved hstep rfl rfl nofun

theorem openBegin (h : Apart w) (hstep : Store.step w.store .openBegin = some t) :
    Apart { w with store := t } := by
  have hunique := h.unique.nodup_step hstep
  obtain ⟨u, hu, rfl⟩ := Option.map_eq_some_iff.mp hstep
  cases hu
  exact ⟨hunique, h.roles_length, h.purposes_length, h.fits, h.owns, h.one_node⟩

/-- What the opened node has loaded. -/
theorem wrappers_openEnd {k : Nat} (hstep : Store.step s (.openEnd k) = some t) :
    t.wrappers = s.wrappers ++ [loadedList s k] ∧ t.calls = s.calls := by
  obtain ⟨u, hu, rfl⟩ := Option.map_eq_some_iff.mp hstep
  simp only [Store.act] at hu
  split at hu
  · rename_i state hopening hfile
    cases hu
    simp [loadedList, hopening, Sys.saved, hfile, Sys.tick]
  · cases hu
  · rename_i hopening
    cases hu
    simp [loadedList, hopening, Sys.tick]
  · cases hu

theorem openEnd (h : Apart w) {k : Nat} {role : Role} (hopen : w.mayOpen role = true)
    (howns : ∀ proxy ∈ (loadedList w.store k).proxies, proxy.enabled = true → w.Owns proxy role)
    (hstep : Store.step w.store (.openEnd k) = some t) :
    Apart { w with store := t, roles := w.roles ++ [role] } := by
  obtain ⟨hwrappers, hcalls⟩ := wrappers_openEnd hstep
  have hold : ∀ {node : Nat} {r : Role}, w.roles[node]? = some r →
      (w.roles ++ [role])[node]? = some r := fun hr =>
    (List.getElem?_append_left (List.getElem?_eq_some_iff.mp hr).1).trans hr
  refine ⟨h.unique.nodup_step hstep, ?_, ?_, ?_, ?_, ?_⟩
  · change (w.roles ++ [role]).length = t.wrappers.length
    rw [hwrappers, List.length_append, List.length_append, h.roles_length]
    rfl
  · change w.purposes.length = t.calls.length
    rw [hcalls, h.purposes_length]
  · intro c call purpose hcall hpurpose hpending
    change t.calls[c]? = some call at hcall
    rw [hcalls] at hcall
    have hfits := h.fits c call purpose hcall hpurpose hpending
    cases purpose with
    | advertise ad => exact ⟨hold hfits.1, hfits.2⟩
    | revoke id => exact ⟨hold hfits.1, hfits.2⟩
    | tunnel proxy =>
        obtain ⟨hop, r, hr, hrole⟩ := hfits
        exact ⟨hop, r, hold hr, hrole⟩
    | delete id => exact ⟨hold hfits.1, hfits.2⟩
    | settled => exact hfits
  · intro node r state hr hstate
    change t.wrappers[node]? = some state at hstate
    rw [hwrappers] at hstate
    change (w.roles ++ [role])[node]? = some r at hr
    by_cases hnode : node < w.roles.length
    · rw [List.getElem?_append_left hnode] at hr
      rw [List.getElem?_append_left (h.roles_length ▸ hnode)] at hstate
      exact h.owns node r state hr hstate
    · have hlast : node = w.roles.length := by
        have := (List.getElem?_eq_some_iff.mp hr).1
        rw [List.length_append, List.length_singleton] at this
        omega
      subst hlast
      rw [List.getElem?_concat_length] at hr
      rw [h.roles_length, List.getElem?_concat_length] at hstate
      cases hr
      cases hstate
      exact howns
  · have hnew : ∀ {node : Nat} {id : String}, (w.roles ++ [role])[node]? = some (.tunnel id) →
        w.roles[node]? = some (.tunnel id) ∨ node = w.roles.length ∧ role = .tunnel id := by
      intro node id hr
      by_cases hnode : node < w.roles.length
      · exact .inl ((List.getElem?_append_left hnode).symm.trans hr)
      · have hlast := (List.getElem?_eq_some_iff.mp hr).1
        rw [List.length_append, List.length_singleton] at hlast
        obtain rfl : node = w.roles.length := by omega
        rw [List.getElem?_concat_length] at hr
        exact .inr ⟨rfl, Option.some.inj hr⟩
    have hfree : ∀ {node : Nat} {id : String}, role = .tunnel id →
        w.roles[node]? ≠ some (.tunnel id) := by
      rintro node id rfl hr
      simp [World.mayOpen, World.started, List.mem_of_getElem? hr] at hopen
    intro node node' id hr hr'
    rcases hnew hr with hr | ⟨rfl, hrole⟩ <;> rcases hnew hr' with hr' | ⟨rfl, hrole'⟩
    · exact h.one_node node node' id hr hr'
    · exact absurd hr (hfree hrole')
    · exact absurd hr' (hfree hrole)
    · rfl

/-- A call begins that is what its purpose asks for. -/
theorem invoke (h : Apart w) {node : Nat} {op : Update} {purpose : Purpose}
    (hstep : w.invoke node op purpose = some w')
    (hfits : ∀ invokedAt, w.Fits { wrapper := node, op, invokedAt } purpose) : Apart w' := by
  obtain ⟨t, ht, rfl⟩ := Option.map_eq_some_iff.mp hstep
  have hunique := h.unique.nodup_step ht
  obtain ⟨u, hu, rfl⟩ := Option.map_eq_some_iff.mp ht
  obtain ⟨_, rfl⟩ := Store.act_invoke.mp hu
  refine ⟨hunique, h.roles_length, ?_, ?_, h.owns, h.one_node⟩
  · change (w.purposes ++ [purpose]).length = (w.store.calls ++ [_]).length
    rw [List.length_append, List.length_append, h.purposes_length]
    rfl
  · intro c call purpose' hcall hpurpose hpending
    change (w.store.calls ++ [_])[c]? = some call at hcall
    change (w.purposes ++ [purpose])[c]? = some purpose' at hpurpose
    by_cases hc : c < w.purposes.length
    · rw [List.getElem?_append_left hc] at hpurpose
      rw [List.getElem?_append_left (h.purposes_length ▸ hc)] at hcall
      exact h.fits c call purpose' hcall hpurpose hpending
    · have hlast : c = w.purposes.length := by
        have := (List.getElem?_eq_some_iff.mp hpurpose).1
        rw [List.length_append, List.length_singleton] at this
        omega
      subst hlast
      rw [List.getElem?_concat_length] at hpurpose
      rw [h.purposes_length, List.getElem?_concat_length] at hcall
      cases hpurpose
      cases hcall
      exact hfits w.store.clock

/-- More may be advertised. -/
theorem offer (h : Apart w) (ad : Advertisment) (revoked : List Advertisment) :
    Apart { w with offers := ad :: w.offers, revoked } := by
  refine ⟨h.unique, h.roles_length, h.purposes_length, ?_, ?_, h.one_node⟩
  · intro c call purpose hcall hpurpose hpending
    have hfits := h.fits c call purpose hcall hpurpose hpending
    cases purpose with
    | advertise ad' => exact ⟨hfits.1, List.mem_cons_of_mem ad hfits.2.1, hfits.2.2⟩
    | revoke id => exact hfits
    | tunnel proxy => exact hfits
    | delete id => exact hfits
    | settled => exact hfits
  · intro node role state hrole hstate proxy hproxy henabled
    have howns := h.owns node role state hrole hstate proxy hproxy henabled
    cases role with
    | peer => exact List.mem_cons_of_mem ad howns
    | _ => exact howns

/-- A call stores its list: it is its node's own, and no other node is affected. -/
theorem stored (h : Apart w) {call : UpdateCall} {snapshot : State}
    {endpoints : String → Option TcpProxyData}
    (hstep : Store.step w.store (.store c) = some t) (hcall : w.store.calls[c]? = some call)
    (hphase : call.phase = .loaded snapshot)
    (hown : ∀ role, w.roles[call.wrapper]? = some role →
      ∀ proxy ∈ (call.op.apply snapshot).proxies, proxy.enabled = true →
        World.Owns { w with endpoints } proxy role)
    (hother : ∀ node role, node ≠ call.wrapper → w.roles[node]? = some role →
      ∀ proxy, w.Owns proxy role → World.Owns { w with endpoints } proxy role) :
    Apart { w with store := t, endpoints } := by
  have hunique := h.unique.nodup_step hstep
  obtain ⟨u, hu, rfl⟩ := Option.map_eq_some_iff.mp hstep
  obtain ⟨call', snapshot', hcall', hphase', rfl⟩ := Store.act_store.mp hu
  obtain rfl : call = call' := Option.some.inj (hcall.symm.trans hcall')
  obtain rfl : snapshot = snapshot' := by simpa [hphase] using hphase'
  refine ⟨hunique, ?_, ?_, ?_, ?_, h.one_node⟩
  · change w.roles.length = (w.store.wrappers.set _ _).length
    rw [List.length_set, h.roles_length]
  · change w.purposes.length = (w.store.setPhase c _).calls.length
    rw [length_setPhase, h.purposes_length]
  · intro d other purpose hother' hpurpose hpending
    exact h.fits_setPhase (fun _ _ hstored => by cases hstored) hother' hpurpose hpending
  · intro node role state hrole hstate
    change (w.store.wrappers.set _ _)[node]? = some state at hstate
    by_cases hnode : call.wrapper = node
    · subst hnode
      rw [List.getElem?_set_self (h.roles_length ▸ (List.getElem?_eq_some_iff.mp hrole).1)] at hstate
      cases hstate
      exact hown role hrole
    · rw [List.getElem?_set_ne hnode] at hstate
      intro proxy hproxy henabled
      exact hother node role (fun heq => hnode heq.symm) hrole proxy
        (h.owns node role state hrole hstate proxy hproxy henabled)

/-- A call that stores in turn works from what its node owns. -/
theorem owns_of_inTurn (h : Apart w) {call : UpdateCall} {snapshot : State} {role : Role}
    (hphase : call.phase = .loaded snapshot) (hturn : InTurn w call)
    (hrole : w.roles[call.wrapper]? = some role) :
    snapshot.ids.Nodup ∧
      ∀ proxy ∈ snapshot.proxies, proxy.enabled = true → w.Owns proxy role := by
  rw [InTurn, hphase] at hturn
  exact ⟨h.unique.wrappers snapshot (List.mem_of_getElem? hturn),
    h.owns call.wrapper role snapshot hrole hturn⟩

theorem store (h : Apart w) (ha : KeptApart w (.store c))
    (hstep : Store.step w.store (.store c) = some t) :
    Apart (({ w with store := t } : World).recordEndpoint (w.purposes[c]?.getD .settled)) := by
  have hstep' := hstep
  obtain ⟨u, hu, _⟩ := Option.map_eq_some_iff.mp hstep'
  obtain ⟨call, snapshot, hcall, hphase, _⟩ := Store.act_store.mp hu
  have hlt : c < w.purposes.length := h.purposes_length ▸ (List.getElem?_eq_some_iff.mp hcall).1
  have hpurpose := List.getElem?_eq_getElem hlt
  generalize w.purposes[c] = purpose at hpurpose
  have hfits := h.fits c call purpose hcall hpurpose (by rw [hphase]; rfl)
  rw [hpurpose, Option.getD_some]
  cases purpose with
  | advertise ad =>
      obtain ⟨hrole, had, hop⟩ := hfits
      have hturn := (ha call hcall .peer hrole _ hpurpose).1 rfl
      obtain ⟨_, howns⟩ := h.owns_of_inTurn hphase hturn hrole
      refine h.stored hstep hcall hphase (fun role hrole' proxy hproxy henabled => ?_)
        fun _ _ _ _ _ hkept => hkept
      obtain rfl : Role.peer = role := Option.some.inj (hrole.symm.trans hrole')
      rw [hop] at hproxy
      rcases State.mem_setProxy hproxy with rfl | hproxy
      · exact had
      · exact howns proxy hproxy henabled
  | revoke id =>
      obtain ⟨hrole, hop⟩ := hfits
      have hturn := (ha call hcall .peer hrole _ hpurpose).1 rfl
      obtain ⟨_, howns⟩ := h.owns_of_inTurn hphase hturn hrole
      refine h.stored hstep hcall hphase (fun role hrole' proxy hproxy henabled => ?_)
        fun _ _ _ _ _ hkept => hkept
      obtain rfl : Role.peer = role := Option.some.inj (hrole.symm.trans hrole')
      rw [hop] at hproxy
      exact howns proxy (State.mem_removeProxy hproxy) henabled
  | tunnel proxy =>
      obtain ⟨hop, role, hrole, hroles⟩ := hfits
      obtain ⟨hturns, htold⟩ := ha call hcall role hrole _ hpurpose
      refine h.stored hstep hcall hphase (fun role' hrole' p hp henabled => ?_)
        fun node other hne hother p hkept => ?_
      · obtain rfl : role = role' := Option.some.inj (hrole.symm.trans hrole')
        rcases hroles with rfl | rfl | rfl
        · trivial
        · obtain ⟨hnodup, howns⟩ := h.owns_of_inTurn hphase (hturns rfl) hrole
          rw [hop] at hp
          rcases State.mem_setProxy_of_nodup hnodup hp with rfl | ⟨hp, hid⟩
          · exact ⟨rfl, if_pos rfl⟩
          · exact absurd (howns p hp henabled).1 hid
        · trivial
      · cases other with
        | tunnel id =>
            refine ⟨hkept.1, ?_⟩
            change (if id = proxy.id then _ else _) = _
            by_cases hid : id = proxy.id
            · subst hid
              have hrole_ne : role ≠ .tunnel proxy.id := fun heq =>
                hne (h.one_node node call.wrapper proxy.id hother (heq ▸ hrole))
              have hstarted : w.started proxy.id = true := by
                simpa [World.started] using List.mem_of_getElem? hother
              rw [if_pos rfl, ← htold hrole_ne hstarted]
              exact hkept.2
            · rw [if_neg hid]
              exact hkept.2
        | _ => exact hkept
  | delete id =>
      obtain ⟨hrole, hop⟩ := hfits
      refine h.stored hstep hcall hphase (fun role hrole' _ _ _ => ?_)
        fun _ _ _ _ _ hkept => hkept
      obtain rfl : Role.control = role := Option.some.inj (hrole.symm.trans hrole')
      trivial
  | settled => exact hfits.elim

/-- The operation has seen to the outcome of a call that has returned. -/
theorem settle (h : Apart w) {phase : Phase} (hphase : w.store.phase? c = some phase)
    (hended : pending phase = false) : Apart (w.settle c) := by
  refine ⟨h.unique, h.roles_length, ?_, ?_, h.owns, h.one_node⟩
  · change (w.purposes.set c .settled).length = w.store.calls.length
    rw [List.length_set, h.purposes_length]
  · intro d call purpose hcall hpurpose hpending
    change (w.purposes.set c .settled)[d]? = some purpose at hpurpose
    by_cases hcd : c = d
    · subst hcd
      obtain ⟨call', hcall', rfl⟩ := Sys.phase?_eq_some.mp hphase
      obtain rfl : call = call' := Option.some.inj (hcall.symm.trans hcall')
      rw [hended] at hpending
      cases hpending
    · rw [List.getElem?_set_ne hcd] at hpurpose
      exact h.fits d call purpose hcall hpurpose hpending

/-- What the peer node no longer holds need not be advertised. -/
theorem withdraw (h : Apart w) {id : String} (hwithdrawn : Withdrawn w id) :
    Apart (w.withdraw id) := by
  obtain ⟨hpurposes, hpeer⟩ := hwithdrawn
  have hkept : ∀ {ad : Advertisment}, ad ∈ w.offers → ad.resourceId ≠ id →
      ad ∈ (w.withdraw id).offers := fun had hne =>
    List.mem_filter.mpr ⟨had, by simpa using hne⟩
  refine ⟨h.unique, h.roles_length, h.purposes_length, ?_, ?_, h.one_node⟩
  · intro c call purpose hcall hpurpose hpending
    have hfits := h.fits c call purpose hcall hpurpose hpending
    cases purpose with
    | advertise ad =>
        refine ⟨hfits.1, hkept hfits.2.1 fun heq => ?_, hfits.2.2⟩
        exact hpurposes _ (List.mem_of_getElem? hpurpose) (heq ▸ rfl)
    | revoke id => exact hfits
    | tunnel proxy => exact hfits
    | delete id => exact hfits
    | settled => exact hfits
  · intro node role state hrole hstate proxy hproxy henabled
    have howns := h.owns node role state hrole hstate proxy hproxy henabled
    cases role with
    | peer =>
        refine hkept howns fun heq => ?_
        exact hpeer node (List.getElem?_eq_some_iff.mp hrole).1 hrole state hstate
          (heq ▸ List.mem_map_of_mem hproxy)
    | _ => exact howns

/-- Neither the advertised set nor the tickets matter to the nodes. -/
theorem with_marks (h : Apart w) (advertised advertisedJson : Finset String)
    (tickets revoked : List Advertisment) :
    Apart { w with advertised, advertisedJson, tickets, revoked } :=
  ⟨h.unique, h.roles_length, h.purposes_length, h.fits, h.owns, h.one_node⟩

/-- A tunnel lets go of its node. -/
theorem retire (h : Apart w) {node : Nat} {id : String}
    (hrole : w.roles[node]? = some (.tunnel id)) :
    Apart { w with roles := w.roles.set node (.retired id) } := by
  have hlt := (List.getElem?_eq_some_iff.mp hrole).1
  have hold : ∀ {n : Nat} {role : Role}, (∀ id, role ≠ .retired id) →
      (w.roles.set node (.retired id))[n]? = some role → w.roles[n]? = some role := by
    intro n role hne hn
    by_cases heq : node = n
    · subst heq
      rw [List.getElem?_set_self hlt] at hn
      exact absurd (Option.some.inj hn).symm (hne id)
    · rwa [List.getElem?_set_ne heq] at hn
  have hstay : ∀ {n : Nat} {role : Role}, (∀ id, role ≠ .tunnel id) →
      w.roles[n]? = some role → (w.roles.set node (.retired id))[n]? = some role := by
    intro n role hne hn
    by_cases heq : node = n
    · subst heq
      exact absurd (Option.some.inj (hrole.symm.trans hn)).symm (hne id)
    · rwa [List.getElem?_set_ne heq]
  refine ⟨h.unique, ?_, h.purposes_length, ?_, ?_, ?_⟩
  · change (w.roles.set node _).length = _
    rw [List.length_set, h.roles_length]
  · intro c call purpose hcall hpurpose hpending
    have hfits := h.fits c call purpose hcall hpurpose hpending
    cases purpose with
    | advertise ad => exact ⟨hstay nofun hfits.1, hfits.2⟩
    | revoke id => exact ⟨hstay nofun hfits.1, hfits.2⟩
    | tunnel proxy =>
        obtain ⟨hop, role, hr, hroles⟩ := hfits
        refine ⟨hop, ?_⟩
        rcases hroles with rfl | rfl | rfl
        · exact ⟨.control, hstay nofun hr, .inl rfl⟩
        · by_cases heq : node = call.wrapper
          · rw [← heq] at hr ⊢
            obtain rfl : id = proxy.id := by simpa using hrole.symm.trans hr
            exact ⟨.retired proxy.id, List.getElem?_set_self hlt, .inr (.inr rfl)⟩
          · exact ⟨.tunnel proxy.id, (List.getElem?_set_ne heq).trans hr, .inr (.inl rfl)⟩
        · exact ⟨.retired proxy.id, hstay nofun hr, .inr (.inr rfl)⟩
    | delete id => exact ⟨hstay nofun hfits.1, hfits.2⟩
    | settled => exact hfits
  · intro n role state hr hstate proxy hproxy henabled
    cases role with
    | peer => exact h.owns n .peer state (hold nofun hr) hstate proxy hproxy henabled
    | tunnel id' => exact h.owns n (.tunnel id') state (hold nofun hr) hstate proxy hproxy henabled
    | _ => trivial
  · intro n n' id' hn hn'
    exact h.one_node n n' id' (hold nofun hn) (hold nofun hn')

/-- The last holder of a node is gone. -/
theorem drop (h : Apart w) {node : Nat} {id : String}
    (hrole : w.roles[node]? = some (.retired id)) (hidle : w.busy node = false) :
    Apart { w with
      roles := w.roles.set node .dropped
      store := { w.store with wrappers := w.store.wrappers.set node {} } } := by
  have hlt := (List.getElem?_eq_some_iff.mp hrole).1
  have hother : ∀ {n : Nat} {role : Role}, (w.roles.set node .dropped)[n]? = some role →
      role ≠ .dropped → node ≠ n ∧ w.roles[n]? = some role := by
    intro n role hn hne
    by_cases heq : node = n
    · subst heq
      rw [List.getElem?_set_self hlt] at hn
      exact absurd (Option.some.inj hn).symm hne
    · exact ⟨heq, by rwa [List.getElem?_set_ne heq] at hn⟩
  refine ⟨h.unique.of_subset rfl ?_ (List.Subset.refl _), ?_, h.purposes_length, ?_, ?_, ?_⟩
  · intro state hstate
    rcases List.mem_or_eq_of_mem_set hstate with hstate | rfl
    · exact h.unique.wrappers state hstate
    · exact List.nodup_nil
  · change (w.roles.set node _).length = (w.store.wrappers.set node _).length
    rw [List.length_set, List.length_set, h.roles_length]
  · intro c call purpose hcall hpurpose hpending
    have hfits := h.fits c call purpose hcall hpurpose hpending
    have hne : node ≠ call.wrapper := by
      rintro rfl
      have hends := List.any_eq_false.mp hidle call (List.mem_of_getElem? hcall)
      cases hphase : call.phase <;> simp_all [pending, ended]
    have hstay : ∀ {role : Role}, w.roles[call.wrapper]? = some role →
        (w.roles.set node .dropped)[call.wrapper]? = some role := fun hr =>
      (List.getElem?_set_ne hne).trans hr
    cases purpose with
    | advertise ad => exact ⟨hstay hfits.1, hfits.2⟩
    | revoke id => exact ⟨hstay hfits.1, hfits.2⟩
    | tunnel proxy =>
        obtain ⟨hop, role, hr, hroles⟩ := hfits
        exact ⟨hop, role, hstay hr, hroles⟩
    | delete id => exact ⟨hstay hfits.1, hfits.2⟩
    | settled => exact hfits
  · intro n role state hr hstate proxy hproxy henabled
    by_cases hdropped : role = .dropped
    · subst hdropped
      trivial
    · obtain ⟨hne, hr⟩ := hother hr hdropped
      change (w.store.wrappers.set node {})[n]? = some state at hstate
      rw [List.getElem?_set_ne hne] at hstate
      exact h.owns n role state hr hstate proxy hproxy henabled
  · intro n n' id' hn hn'
    exact h.one_node n n' id' (hother hn nofun).2 (hother hn' nofun).2

theorem restart (h : Apart w) (advertised : Finset String) (offers : List Advertisment) :
    Apart { w with
      store := { w.store with wrappers := [], opening := [], calls := [] }
      roles := []
      purposes := []
      advertised
      offers } := by
  refine ⟨h.unique.of_subset rfl nofun (List.nil_subset _), rfl, rfl, ?_, ?_, ?_⟩
  all_goals simp

theorem peer_of_idxOf? {node : Nat} {role : Role} (h : w.roles.idxOf? role = some node) :
    w.roles[node]? = some role := by
  obtain ⟨hlt, hrole, _⟩ := List.idxOf?_eq_some_iff.mp h
  exact List.getElem?_eq_some_iff.mpr ⟨hlt, hrole⟩

theorem step (h : Apart w) {a : Action} (ha : KeptApart w a) (hstep : w.act a = some w') :
    Apart w' := by
  cases World.becomes_of_act hstep with
  | openBegin ht => exact h.openBegin ht
  | openEnd hopen ht => exact h.openEnd hopen ha ht
  | advertise hnode hinvoke =>
      exact (h.offer _ _).invoke hinvoke fun _ => ⟨peer_of_idxOf? hnode, List.mem_cons_self, rfl⟩
  | revoke hnode hinvoke | delete hnode hinvoke =>
      exact h.invoke hinvoke fun _ => ⟨peer_of_idxOf? hnode, rfl⟩
  | @setProxyState _ proxy role _ hrole hserves hinvoke =>
      refine (h.with_marks _ _ _ _).invoke hinvoke fun _ => ⟨rfl, role, hrole, ?_⟩
      cases role with
      | control => exact .inl rfl
      | tunnel id =>
          obtain rfl : id = proxy.id := by simpa [World.serves] using hserves
          exact .inr (.inl rfl)
      | retired id =>
          obtain rfl : id = proxy.id := by simpa [World.serves] using hserves
          exact .inr (.inr rfl)
      | peer => cases hserves
      | dropped => cases hserves
  | @retargetUnstored id data =>
      refine ⟨h.unique, h.roles_length, h.purposes_length,
        fun c call purpose hcall hpurpose hpending => ?_,
        fun node role state hrole hstate proxy hproxy henabled => ?_, h.one_node⟩
      · have hfits := h.fits c call purpose hcall hpurpose hpending
        cases purpose <;> exact hfits
      · have howns := h.owns node role state hrole hstate proxy hproxy henabled
        cases role with
        | tunnel id' =>
            refine ⟨howns.1, ?_⟩
            change (if id' = id then _ else _) = _
            by_cases hid : id' = id
            · subst hid
              have hstarted : w.started id' = true := by
                simpa [World.started] using List.mem_of_getElem? hrole
              rw [if_pos rfl, ← ha hstarted]
              exact howns.2
            · rw [if_neg hid]
              exact howns.2
        | _ => exact howns
  | load ht => exact h.load ht
  | store ht => exact h.store ha ht
  | write ht => exact h.write ht
  | @failWrite c _ ht =>
      cases hpurpose : w.purposes[c]? with
      | none => exact h.failWrite ht
      | some purpose =>
          have hnone := ha purpose hpurpose
          cases purpose with
          | advertise ad => cases hnone
          | _ => exact h.failWrite ht
  | ret ht => exact h.ret ht
  | mark _ hphase => exact (h.settle hphase rfl).with_marks _ _ _ _
  | failMark _ _ => cases ha
  | @unmark _ id _ _ _ _ hpurpose hphase =>
      have hwithdrawn : Withdrawn w id := by simpa only [KeptApart, hpurpose] using ha
      exact ((h.withdraw hwithdrawn).settle hphase rfl).with_marks _ _ _ _
  | failUnmark _ hphase => exact h.settle hphase rfl
  | retire hrole => exact h.retire hrole
  | drop hrole hidle => exact h.drop hrole hidle
  | restart => exact h.restart _ _

theorem isolated (h : Apart w) (fromAbsoluteUri : String → Option Authority) :
    w.Isolated fromAbsoluteUri := by
  intro node role state hrole hstate request authority hauthority hauthorized
  obtain ⟨authority', hauthority', proxy, hproxy, henabled, htarget⟩ :=
    State.authorize_iff.mp hauthorized
  obtain rfl : authority = authority' := Option.some.inj (hauthority.symm.trans hauthority')
  have howns := h.owns node role state hrole hstate proxy hproxy henabled
  refine ⟨?_, ?_⟩
  · rintro rfl
    exact ⟨proxy.info, howns, htarget⟩
  · rintro id rfl
    exact ⟨proxy.info.data, howns.2, htarget⟩

theorem ticketsAlone (h : Apart w) (fromAbsoluteUri : String → Option Authority)
    (hone : w.OneTarget) : w.TicketsAlone fromAbsoluteUri := by
  intro ticket hticket node state hrole hstate request authority hauthority hauthorized
  obtain ⟨ad, had, hhost, hport⟩ := (h.isolated fromAbsoluteUri node .peer state hrole hstate
    request authority hauthority hauthorized).1 rfl
  obtain ⟨hsameHost, hsamePort⟩ := hone ticket hticket ad had
  exact ⟨hsameHost.symm.trans hhost, hsamePort.symm.trans hport⟩

end Apart

end DatumConnect.Peers
