import DatumConnect.Peers.Isolated
import DatumConnect.Peers.Turns
/-!
# Nodes apart where operations take turns

What a revoke or an advertise does is done through the one peer node.  Of operations that
take turns it need not be asked that their updates do not overlap, nor that a revoked entry
does not come back.
-/

namespace DatumConnect.Peers

open DatumConnect.Lib
open DatumConnect.Proxies
open DatumConnect.Proxies.Store (Sys Phase UpdateCall)

/-! ## What the calls are made for -/

/-- A revoke's call removes the revoked id from the peer node's list, and an advertise that
has not been seen to is under way. -/
structure Meant (w : World) : Prop where
  revokes : ∀ (c : Nat) (call : UpdateCall) (id : String), w.store.calls[c]? = some call →
    w.purposes[c]? = some (.revoke id) →
      call.op = .removeProxy id ∧ w.roles[call.wrapper]? = some .peer
  advertises : ∀ (c : Nat) (ad : Advertisment), w.purposes[c]? = some (.advertise ad) →
    w.UnderWay c
  one_peer : ∀ node node' : Nat, w.roles[node]? = some .peer → w.roles[node']? = some .peer →
    node = node'

namespace Meant

variable {w w' : World} {t : Sys} {c : Nat}

theorem fresh : Meant World.fresh where
  revokes c call id hcall := by cases hcall
  advertises c ad hpurpose := by cases hpurpose
  one_peer node node' hpeer := by cases hpeer

theorem rest (h : Meant w) (hpurposes : w'.purposes = w.purposes)
    (hroles : ∀ node : Nat, w'.roles[node]? = some .peer ↔ w.roles[node]? = some .peer)
    (hcalls : ∀ (c : Nat) (call : UpdateCall), w'.store.calls[c]? = some call →
      ∃ old, w.store.calls[c]? = some old ∧ call.op = old.op ∧ call.wrapper = old.wrapper)
    (hunder : ∀ (c : Nat) (ad : Advertisment), w.purposes[c]? = some (.advertise ad) →
      w.UnderWay c → w'.UnderWay c) :
    Meant w' where
  revokes c call id hcall hpurpose := by
    obtain ⟨old, hold, hop, hwrapper⟩ := hcalls c call hcall
    rw [hpurposes] at hpurpose
    obtain ⟨hremoves, hpeer⟩ := h.revokes c old id hold hpurpose
    refine ⟨hop.trans hremoves, ?_⟩
    rw [hwrapper]
    exact (hroles _).mpr hpeer
  advertises c ad hpurpose := by
    rw [hpurposes] at hpurpose
    exact hunder c ad hpurpose (h.advertises c ad hpurpose)
  one_peer node node' hnode hnode' :=
    h.one_peer node node' ((hroles node).mp hnode) ((hroles node').mp hnode')

theorem of_eq (h : Meant w) (hcalls : w'.store.calls = w.store.calls)
    (hpurposes : w'.purposes = w.purposes)
    (hroles : ∀ node : Nat, w'.roles[node]? = some .peer ↔ w.roles[node]? = some .peer) :
    Meant w' := by
  refine h.rest hpurposes hroles (fun c call hcall => ⟨call, hcalls ▸ hcall, rfl, rfl⟩)
    fun c ad _ hunder => hunder.congr ?_ (by rw [hpurposes])
  rw [Sys.phase?, Sys.phase?, hcalls]

/-- A call moves on, and an advertise does not come to its end. -/
theorem moved (h : Meant w) {phase old : Phase} (hphase : w.store.phase? c = some old)
    (hstore : w'.store = t) (hcalls : t.calls = (w.store.setPhase c phase).calls)
    (hpurposes : w'.purposes = w.purposes) (hroles : w'.roles = w.roles)
    (hgoes : ∀ ad, w.purposes[c]? = some (.advertise ad) →
      ended phase = false ∨ (Purpose.advertise ad).marks phase = true) : Meant w' := by
  subst hstore
  refine h.rest hpurposes (by rw [hroles]; exact fun _ => Iff.rfl) (fun d call hcall => ?_)
    (fun d ad hpurpose hunder => ?_)
  · rw [hcalls, Sys.setPhase_getElem?, Option.map_eq_some_iff] at hcall
    obtain ⟨before, hbefore, rfl⟩ := hcall
    refine ⟨before, hbefore, ?_, ?_⟩ <;> split <;> rfl
  · by_cases heq : c = d
    · subst heq
      have hnow : w'.store.phase? c = some phase := by
        rw [Sys.phase?, hcalls]
        exact Sys.setPhase_phase?_self (Sys.lt_of_phase?_eq_some hphase) phase
      refine ⟨phase, hnow, (hgoes ad hpurpose).imp_right fun hmarks => ⟨_, ?_, hmarks⟩⟩
      rwa [hpurposes]
    · refine hunder.congr ?_ (by rw [hpurposes])
      rw [Sys.phase?, hcalls]
      exact Sys.setPhase_phase?_of_ne heq phase

theorem store (h : Meant w) (hstep : Store.step w.store (.store c) = some t)
    (hstore : w'.store = t) (hpurposes : w'.purposes = w.purposes) (hroles : w'.roles = w.roles) :
    Meant w' := by
  obtain ⟨u, hu, rfl⟩ := Option.map_eq_some_iff.mp hstep
  obtain ⟨call, snapshot, hcall, hphase, rfl⟩ := Store.act_store.mp hu
  exact h.moved (Sys.phase?_eq_some.mpr ⟨call, hcall, hphase⟩) hstore rfl hpurposes hroles
    fun _ _ => .inl rfl

theorem failWrite (h : Meant w) (hstep : Store.step w.store (.failWrite c) = some t)
    (hfails : ∀ purpose ∈ w.purposes[c]?, purpose.advertises = none)
    (hstore : w'.store = t) (hpurposes : w'.purposes = w.purposes) (hroles : w'.roles = w.roles) :
    Meant w' := by
  obtain ⟨u, hu, rfl⟩ := Option.map_eq_some_iff.mp hstep
  obtain ⟨_, _, _, _, hphase, rfl⟩ := Store.act_failWrite.mp hu
  refine h.moved hphase hstore rfl hpurposes hroles fun ad hpurpose => ?_
  cases hfails _ hpurpose

theorem settle (h : Meant w) (c : Nat) : Meant (w.settle c) := by
  have hstays : ∀ {d : Nat} {purpose : Purpose}, (w.purposes.set c .settled)[d]? = some purpose →
      purpose ≠ .settled → w.purposes[d]? = some purpose := by
    intro d purpose hpurpose hne
    rw [List.getElem?_set] at hpurpose
    split at hpurpose
    · split at hpurpose <;> cases hpurpose
      exact absurd rfl hne
    · exact hpurpose
  refine ⟨fun d call id hcall hpurpose => ?_, fun d ad hpurpose => ?_, h.one_peer⟩
  · exact h.revokes d call id hcall (hstays hpurpose fun heq => by cases heq)
  have hbefore := hstays hpurpose fun heq => by cases heq
  exact (h.advertises d ad hbefore).congr rfl (hpurpose.trans hbefore.symm)

theorem invoke (h : Meant w) (hlength : w.purposes.length = w.store.calls.length) {node : Nat}
    {op : Update} {purpose : Purpose}
    (hmeant : ∀ id, purpose = .revoke id → op = .removeProxy id ∧ w.roles[node]? = some .peer)
    (hstep : w.invoke node op purpose = some w') : Meant w' := by
  obtain ⟨t, ht, heq⟩ := Option.map_eq_some_iff.mp hstep
  obtain ⟨u, hu, rfl⟩ := Option.map_eq_some_iff.mp ht
  obtain ⟨_, rfl⟩ := Store.act_invoke.mp hu
  let made : UpdateCall := { wrapper := node, op, invokedAt := w.store.clock }
  have hcalls : w'.store.calls = w.store.calls ++ [made] := by rw [← heq]; rfl
  have hpurposes : w'.purposes = w.purposes ++ [purpose] := by rw [← heq]
  have hroles : w'.roles = w.roles := by rw [← heq]
  have hwhich : ∀ {d : Nat} {p : Purpose}, w'.purposes[d]? = some p →
      d < w.store.calls.length ∧ w.purposes[d]? = some p ∨
        d = w.store.calls.length ∧ purpose = p := by
    intro d p hp
    rw [hpurposes] at hp
    by_cases hlt : d < w.purposes.length
    · rw [List.getElem?_append_left hlt] at hp
      exact .inl ⟨hlength ▸ hlt, hp⟩
    · have hd := (List.getElem?_eq_some_iff.mp hp).1
      rw [List.length_append, List.length_singleton] at hd
      obtain rfl : d = w.purposes.length := by omega
      rw [List.getElem?_concat_length] at hp
      exact .inr ⟨hlength, Option.some.inj hp⟩
  refine ⟨fun d call id hcall hpurpose => ?_, fun d ad hpurpose => ?_,
    by rw [hroles]; exact h.one_peer⟩
  · rw [hcalls] at hcall
    rw [hroles]
    rcases hwhich hpurpose with ⟨hlt, hbefore⟩ | ⟨rfl, hp⟩
    · rw [List.getElem?_append_left hlt] at hcall
      exact h.revokes d call id hcall hbefore
    · rw [List.getElem?_concat_length] at hcall
      cases hcall
      exact hmeant id hp
  · rcases hwhich hpurpose with ⟨hlt, hbefore⟩ | ⟨rfl, _⟩
    · refine (h.advertises d ad hbefore).congr ?_ (hpurpose.trans hbefore.symm)
      rw [Sys.phase?, Sys.phase?, hcalls, List.getElem?_append_left hlt]
    · refine ⟨.invoked, ?_, .inl rfl⟩
      rw [Sys.phase?, hcalls, List.getElem?_concat_length]
      rfl

theorem openEnd (h : Meant w) {role : Role} (hopen : w.mayOpen role = true)
    (hcalls : t.calls = w.store.calls) :
    Meant { w with store := t, roles := w.roles ++ [role] } := by
  have hwhich : ∀ {node : Nat}, (w.roles ++ [role])[node]? = some .peer →
      w.roles[node]? = some .peer ∨ node = w.roles.length ∧ role = .peer := by
    intro node hr
    by_cases hlt : node < w.roles.length
    · exact .inl ((List.getElem?_append_left hlt).symm.trans hr)
    · have hlast := (List.getElem?_eq_some_iff.mp hr).1
      rw [List.length_append, List.length_singleton] at hlast
      obtain rfl : node = w.roles.length := by omega
      rw [List.getElem?_concat_length] at hr
      exact .inr ⟨rfl, Option.some.inj hr⟩
  have hfree : ∀ {node : Nat}, role = .peer → w.roles[node]? ≠ some .peer := by
    rintro node rfl hr
    simp [World.mayOpen, List.mem_of_getElem? hr] at hopen
  refine ⟨fun d call id hcall hpurpose => ?_, fun d ad hpurpose => ?_, fun node node' hr hr' => ?_⟩
  · change t.calls[d]? = some call at hcall
    rw [hcalls] at hcall
    obtain ⟨hremoves, hpeer⟩ := h.revokes d call id hcall hpurpose
    refine ⟨hremoves, ?_⟩
    exact (List.getElem?_append_left (List.getElem?_eq_some_iff.mp hpeer).1).trans hpeer
  · refine (h.advertises d ad hpurpose).congr ?_ rfl
    exact congrArg (fun calls : List UpdateCall => Option.map UpdateCall.phase calls[d]?) hcalls
  · rcases hwhich hr with hr | ⟨rfl, hrole⟩ <;> rcases hwhich hr' with hr' | ⟨rfl, hrole'⟩
    · exact h.one_peer node node' hr hr'
    · exact absurd hr (hfree hrole')
    · exact absurd hr' (hfree hrole)
    · rfl

theorem peer_set {roles : List Role} {node : Nat} {old new : Role} (hold : roles[node]? = some old)
    (hne : old ≠ .peer) (hne' : new ≠ .peer) (n : Nat) :
    (roles.set node new)[n]? = some .peer ↔ roles[n]? = some .peer := by
  by_cases heq : node = n
  · subst heq
    rw [List.getElem?_set_self (List.getElem?_eq_some_iff.mp hold).1, hold]
    simp [hne, hne']
  · rw [List.getElem?_set_ne heq]

theorem step (h : Meant w) (hlength : w.purposes.length = w.store.calls.length) {a : Action}
    (ha : ∀ c, a = .failWrite c → ∀ purpose ∈ w.purposes[c]?, purpose.advertises = none)
    (hstep : w.act a = some w') : Meant w' := by
  cases World.becomes_of_act hstep with
  | openBegin ht =>
      cases ht
      exact h.of_eq rfl rfl fun _ => Iff.rfl
  | openEnd hopen ht =>
      obtain ⟨u, hu, rfl⟩ := Option.map_eq_some_iff.mp ht
      exact h.openEnd hopen (Store.act_open (.inr ⟨_, rfl⟩) hu).1
  | @advertise ad _ _ _ hinvoke =>
      have hforgotten : Meant { w.forgetRevoked ad.resourceId with offers := ad :: w.offers } :=
        h.of_eq rfl rfl fun _ => Iff.rfl
      exact hforgotten.invoke hlength (fun _ hpurpose => by cases hpurpose) hinvoke
  | @setProxyState _ proxy _ _ _ _ hinvoke =>
      have hforgotten : Meant (w.forgetRevoked proxy.id) := h.of_eq rfl rfl fun _ => Iff.rfl
      exact hforgotten.invoke hlength (fun _ hpurpose => by cases hpurpose) hinvoke
  | revoke hnode hinvoke =>
      refine h.invoke hlength (fun id hpurpose => ?_) hinvoke
      cases hpurpose
      exact ⟨rfl, Apart.peer_of_idxOf? hnode⟩
  | delete _ hinvoke => exact h.invoke hlength (fun _ hpurpose => by cases hpurpose) hinvoke
  | load ht =>
      obtain ⟨u, hu, rfl⟩ := Option.map_eq_some_iff.mp ht
      obtain ⟨call, snapshot, hcall, hphase, _, rfl⟩ := Store.act_load.mp hu
      exact h.moved (Sys.phase?_eq_some.mpr ⟨call, hcall, hphase⟩) rfl rfl rfl rfl
        fun _ _ => .inl rfl
  | store ht =>
      refine h.store ht ?_ ?_ ?_
      all_goals unfold World.recordEndpoint; split <;> rfl
  | write ht =>
      obtain ⟨u, hu, rfl⟩ := Option.map_eq_some_iff.mp ht
      obtain ⟨_, _, _, _, hphase, rfl⟩ := Store.act_write.mp hu
      exact h.moved hphase rfl rfl rfl rfl fun _ _ => .inl rfl
  | failWrite ht =>
      refine h.failWrite ht (ha _ rfl) ?_ ?_ ?_
      all_goals unfold World.failed; split <;> rfl
  | ret ht =>
      obtain ⟨u, hu, rfl⟩ := Option.map_eq_some_iff.mp ht
      obtain ⟨_, _, _, hphase, rfl⟩ := Store.act_ret.mp hu
      exact h.moved hphase rfl rfl rfl rfl fun _ _ => .inr rfl
  | @mark c | @failMark c | @unmark c => exact (h.settle c).of_eq rfl rfl fun _ => Iff.rfl
  | failUnmark _ _ => exact h.settle _
  | retargetUnstored => exact h.of_eq rfl rfl fun _ => Iff.rfl
  | retire hrole | drop hrole _ =>
      exact h.of_eq rfl rfl (peer_set hrole (fun h => by cases h) fun h => by cases h)
  | restart =>
      refine ⟨fun c call id hcall => ?_, fun c ad hpurpose => ?_, fun node node' hr => ?_⟩
      · cases hcall
      · cases hpurpose
      · cases hr

end Meant

/-! ## Where operations take turns -/

/-- What is left to ask of operations that take turns: what a node is loaded with, that a
started tunnel's endpoint is changed through its own node, and that no write of an
advertise call fails. -/
def Prepared (w : World) : Action → Prop
  | .openEnd k role =>
      ∀ proxy ∈ (loadedList w.store k).proxies, proxy.enabled = true → w.Owns proxy role
  | .retargetUnstored id data => w.started id = true → w.endpoints id = some data
  | .store c =>
      ∀ call ∈ w.store.calls[c]?, ∀ role ∈ w.roles[call.wrapper]?, ∀ purpose ∈ w.purposes[c]?,
        Told w role purpose
  | .failWrite c => ∀ purpose ∈ w.purposes[c]?, purpose.advertises = none
  | .mark _ saved => saved = true
  | _ => True

instance (w : World) (a : Action) : Decidable (Prepared w a) := by
  match a with
  | .openEnd _ _ | .retargetUnstored _ _ | .store _ | .failWrite _ | .mark _ _ =>
      dsimp only [Prepared]
      infer_instance
  | .openBegin | .advertise _ | .revoke _ | .setProxyState _ _ | .delete _ | .load _ | .write _
  | .ret _ | .unmark _ _ | .retire _ | .drop _ | .restart => exact instDecidableTrue

/-- An update stores onto its node's own list, and the peer node has not got a revoked entry
again when the revoke returns. -/
theorem Meant.keptApart {w w' : World} (h : Meant w) (hturns : Turns w) {a : Action}
    (ha : Prepared w a) (hstep : w.act a = some w') : KeptApart w a := by
  cases World.becomes_of_act hstep with
  | @store c =>
      intro call hcall role hrole purpose hpurpose
      refine ⟨fun _ => ?_, ha call hcall role hrole purpose hpurpose⟩
      unfold InTurn
      split
      · rename_i snapshot hphase
        have hunder : w.UnderWay c :=
          ⟨_, Sys.phase?_eq_some.mpr ⟨call, hcall, hphase⟩, .inl rfl⟩
        exact (hturns.current c call hcall hunder).loaded snapshot hphase
      · trivial
  | @unmark c id removed _ _ _ hpurpose hphase =>
      obtain ⟨call, hcall, hreturned⟩ := Sys.phase?_eq_some.mp hphase
      have hunder : w.UnderWay c := ⟨_, hphase, .inr ⟨_, hpurpose, rfl⟩⟩
      have hcurrent := hturns.current c call hcall hunder
      have hremoved : removed ∈ removed? call.phase := by
        rw [hreturned]
        rfl
      obtain ⟨hremoves, hpeer⟩ := h.revokes c call id hcall hpurpose
      obtain rfl : removed.id = id :=
        Update.removeProxy.inj ((hcurrent.op removed hremoved).symm.trans hremoves)
      simp only [KeptApart, hpurpose]
      constructor
      · intro purpose hmem hadvertises
        obtain ⟨d, hd⟩ := List.mem_iff_getElem?.mp hmem
        cases purpose with
        | advertise ad =>
            obtain rfl := hturns.alone c d hunder (h.advertises d ad hd)
            cases hpurpose.symm.trans hd
        | _ => cases hadvertises
      · intro node _ hnode state hstate
        obtain rfl := h.one_peer node call.wrapper hnode hpeer
        exact hcurrent.copy removed hremoved state hstate
  | _ => exact ha

/-- While the nodes are kept apart, each lets through only requests for its own targets;
and a ticket gives access to its target alone while that is the one target there is. Where
operations take turns, they keep themselves to their nodes' lists. -/
theorem own_targets_served (fromAbsoluteUri : String → Option Authority)
    (actions : List Action) (w : World) (hrun : World.run World.fresh actions = some w)
    (hapart : Runs.Meets World.act KeptApart World.fresh actions ∨
      Runs.Meets World.act (fun w a => TakesTurns w a ∧ Prepared w a) World.fresh actions) :
    w.Isolated fromAbsoluteUri ∧ (w.OneTarget → w.TicketsAlone fromAbsoluteUri) := by
  have hkept : Apart w := by
    rcases hapart with hapart | hturns
    · exact Runs.invariant (fun _ _ _ hkept ha hstep => Apart.step hkept ha hstep) Apart.fresh
        hapart hrun
    · have hstep : ∀ v a v', (Turns v ∧ Meant v) ∧ Apart v → TakesTurns v a ∧ Prepared v a →
          v.act a = some v' → (Turns v' ∧ Meant v') ∧ Apart v' := by
        rintro v a v' ⟨⟨hturns, hmeant⟩, hapart⟩ ⟨hidle, hprepared⟩ hact
        have hkeeps : KeptApart v a := hmeant.keptApart hturns hprepared hact
        refine ⟨⟨hturns.step hidle hact, hmeant.step hturns.purposes_length ?_ hact⟩,
          hapart.step hkeeps hact⟩
        rintro c rfl
        exact hkeeps
      exact (Runs.invariant hstep ⟨⟨Turns.fresh, Meant.fresh⟩, Apart.fresh⟩ hturns hrun).2
  exact ⟨hkept.isolated fromAbsoluteUri, hkept.ticketsAlone fromAbsoluteUri⟩

/-- Both nodes are there before either has a target. -/
def bothOpenedFirst : List Action :=
  [.openBegin, .openEnd 0 .peer, .openBegin, .openEnd 0 (.tunnel "tunnel-a"),
    .setProxyState 1 ⟨⟨"tunnel-a", none, ⟨"127.0.0.1", 8080⟩⟩, true⟩,
    .load 0, .store 0, .write 0, .ret 0,
    .advertise webAd, .load 1, .store 1, .write 1, .ret 1, .mark 1 true]

theorem own_targets_served_bothOpenedFirst :
    ∃ w, World.run World.fresh bothOpenedFirst = some w ∧ w.tickets = [webAd] ∧
      Runs.Meets World.act KeptApart World.fresh bothOpenedFirst ∧
      (w.Isolated fun _ => none) ∧ w.TicketsAlone fun _ => none := by
  refine ⟨_, rfl, rfl, by decide, ?_⟩
  have hserved := own_targets_served (fun _ => none) bothOpenedFirst _ rfl (.inr (by decide))
  exact ⟨hserved.1, hserved.2 (by decide)⟩

/-- A tunnel's node that is opened after an advertisement serves that as well. -/
theorem foreign_target_served :
    ¬ ∀ (fromAbsoluteUri : String → Option Authority) (actions : List Action) (w : World),
      World.run World.fresh actions = some w →
        w.Isolated fromAbsoluteUri ∧ w.TicketsAlone fromAbsoluteUri := by
  intro hall
  have hisolated := (hall (fun _ => none)
    (advertiseSteps ++ [.openBegin, .openEnd 0 (.tunnel "tunnel-a")]) _ rfl).1
  obtain ⟨data, hdata, _⟩ := (hisolated 1 (.tunnel "tunnel-a") _ rfl rfl
    (.tunnel ⟨"localhost", 80⟩) ⟨"localhost", 80⟩ rfl (by decide)).2 "tunnel-a" rfl
  cases hdata

end DatumConnect.Peers
