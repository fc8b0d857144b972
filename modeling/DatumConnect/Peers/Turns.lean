import DatumConnect.Peers.Nodes
import DatumConnect.Proxies.Everywhere
/-!
# Operations that take turns

Where an operation begins only when the one before it has come to its end, an update
stores onto the list that its node has, and what a revoke removes stays out of its
node's copy and of the file until it returns.
-/

namespace DatumConnect.Peers

open DatumConnect.Proxies
open DatumConnect.Proxies.Store (Sys Phase UpdateCall Everywhere)

/-- The list has no entry of the id. -/
def Lacks (id : String) (state : State) : Prop := id ∉ state.ids

instance (id : String) : DecidablePred (Lacks id) := fun state =>
  inferInstanceAs (Decidable (id ∉ state.ids))

/-- The entry that a call has taken out of its list. -/
def removed? : Phase → Option ProxyState
  | .stored _ _ res _ | .written _ res _ | .returned _ res _ _ => res
  | .invoked | .loaded _ | .failed _ => none

/-- The operation goes on after its update, with the advertised set. -/
def Purpose.marks : Purpose → Phase → Bool
  | .advertise _, .returned .. => true
  | .revoke _, .returned _ (some _) _ _ => true
  | _, _ => false

namespace World

/-- The operation's update has not come to its end, or the operation itself has not. -/
def UnderWay (w : World) (c : Nat) : Prop :=
  ∃ phase ∈ w.store.phase? c,
    ended phase = false ∨ ∃ purpose ∈ w.purposes[c]?, purpose.marks phase = true

def Idle (w : World) : Prop := ∀ c < w.store.calls.length, ¬ w.UnderWay c

instance (w : World) (c : Nat) : Decidable (w.UnderWay c) := by
  unfold UnderWay
  infer_instance

instance (w : World) : Decidable w.Idle := by
  unfold Idle
  infer_instance

theorem UnderWay.congr {w w' : World} {c : Nat} (h : w.UnderWay c)
    (hphase : w'.store.phase? c = w.store.phase? c) (hpurpose : w'.purposes[c]? = w.purposes[c]?) :
    w'.UnderWay c := by
  unfold UnderWay
  rwa [hphase, hpurpose]

theorem UnderWay.of_settle {w : World} {c d : Nat} (h : (w.settle c).UnderWay d) :
    w.UnderWay d := by
  obtain ⟨phase, hphase, hgoing⟩ := h
  refine ⟨phase, hphase, hgoing.imp_right fun hmarked => ?_⟩
  obtain ⟨purpose, hpurpose, hmarks⟩ := hmarked
  change (w.purposes.set c .settled)[d]? = some purpose at hpurpose
  rw [List.getElem?_set] at hpurpose
  split at hpurpose
  · split at hpurpose <;> cases hpurpose
    cases hmarks
  · exact ⟨purpose, hpurpose, hmarks⟩

end World

/-- An operation begins when the one before it has come to its end. -/
def TakesTurns (w : World) : Action → Prop
  | .advertise _ | .revoke _ | .setProxyState _ _ | .delete _ => w.Idle
  | _ => True

instance (w : World) (a : Action) : Decidable (TakesTurns w a) := by
  match a with
  | .advertise _ | .revoke _ | .setProxyState _ _ | .delete _ =>
      dsimp only [TakesTurns]
      infer_instance
  | .openBegin | .openEnd _ _ | .retargetUnstored _ _ | .load _ | .store _ | .write _
  | .failWrite _ | .ret _ | .mark _ _ | .unmark _ _ | .retire _ | .drop _ | .restart =>
      exact instDecidableTrue

/-! ## What every run keeps -/

/-- The list that the call is about to write, or what the file holds. -/
def listOf (s : Sys) : Phase → State
  | .stored _ next _ _ => next
  | _ => s.saved

/-- What the call has loaded is its node's list still, and what it has removed is neither
in that nor in what it writes. -/
structure Current (s : Sys) (call : UpdateCall) : Prop where
  loaded : ∀ snapshot, call.phase = .loaded snapshot → s.wrappers[call.wrapper]? = some snapshot
  op : ∀ removed ∈ removed? call.phase, call.op = .removeProxy removed.id
  list : ∀ removed ∈ removed? call.phase, Lacks removed.id (listOf s call.phase)
  copy : ∀ removed ∈ removed? call.phase, ∀ state ∈ s.wrappers[call.wrapper]?,
    Lacks removed.id state

theorem Current.of_none {s : Sys} {call : UpdateCall}
    (hloaded : ∀ snapshot, call.phase = .loaded snapshot → s.wrappers[call.wrapper]? = some snapshot)
    (hnone : removed? call.phase = none) : Current s call := by
  have hempty : ∀ removed, removed ∉ removed? call.phase := by
    rw [hnone]
    exact Option.not_mem_none
  exact ⟨hloaded, fun removed h => absurd h (hempty removed),
    fun removed h => absurd h (hempty removed), fun removed h => absurd h (hempty removed)⟩

theorem listOf_of_saved {s t : Sys} (hsaved : t.saved = s.saved ∨ t.saved = {}) (phase : Phase) :
    listOf t phase = listOf s phase ∨ listOf t phase = {} := by
  unfold listOf
  split
  · exact .inl rfl
  · exact hsaved

/-- The only entry of its id goes. -/
theorem removed_run {state : State} (hnodup : state.ids.Nodup) {op : Update}
    {removed : ProxyState} (hremoved : removed ∈ (op.run state).2) :
    op = .removeProxy removed.id ∧ Lacks removed.id (op.apply state) := by
  cases op with
  | setProxy proxy => cases hremoved
  | removeProxy resourceId =>
      obtain rfl := State.id_of_mem_removeProxy hremoved
      refine ⟨rfl, ?_⟩
      change removed.id ∉ (state.removeProxy removed.id).1.ids
      rw [State.ids_removeProxy]
      exact hnodup.not_mem_erase

theorem carries_of_ended {P : State → Prop} {Q : Update → Prop} {call : UpdateCall}
    (h : ended call.phase = true) : call.Carries P Q := by
  unfold UpdateCall.Carries
  cases hphase : call.phase with
  | written | returned | failed => exact trivial
  | invoked | loaded | stored =>
      rw [hphase] at h
      cases h

structure Turns (w : World) : Prop where
  unique : Everywhere (fun state => state.ids.Nodup) (fun _ => True) w.store
  purposes_length : w.purposes.length = w.store.calls.length
  placed : ∀ call ∈ w.store.calls, call.wrapper < w.store.wrappers.length
  alone : ∀ c d, w.UnderWay c → w.UnderWay d → c = d
  current : ∀ c call, w.store.calls[c]? = some call → w.UnderWay c → Current w.store call

namespace Turns

variable {w w' : World} {t : Sys} {c : Nat}

theorem fresh : Turns World.fresh where
  unique := ⟨List.nodup_nil, List.forall_mem_nil _, List.forall_mem_nil _⟩
  purposes_length := rfl
  placed := List.forall_mem_nil _
  alone := by
    rintro c d ⟨phase, hphase, _⟩
    cases hphase
  current := by
    intro c call hcall
    cases hcall

/-- Operations may come to their end, and nodes come and go. -/
theorem rest (h : Turns w)
    (hunique : Everywhere (fun state => state.ids.Nodup) (fun _ => True) w'.store)
    (hpurposes : w'.purposes.length = w.purposes.length) (hcalls : w'.store.calls = w.store.calls)
    (hunder : ∀ c, w'.UnderWay c → w.UnderWay c)
    (hlength : w.store.wrappers.length ≤ w'.store.wrappers.length)
    (hbusy : ∀ node, w.busy node = true → w'.store.wrappers[node]? = w.store.wrappers[node]?)
    (hwrappers : ∀ node < w.store.wrappers.length, ∀ state ∈ w'.store.wrappers[node]?,
      state ∈ w.store.wrappers[node]? ∨ state = {})
    (hsaved : w'.store.saved = w.store.saved ∨ w'.store.saved = {}) : Turns w' where
  unique := hunique
  purposes_length := by rw [hpurposes, hcalls, h.purposes_length]
  placed call hcall := (h.placed call (hcalls ▸ hcall)).trans_le hlength
  alone c d hc hd := h.alone c d (hunder c hc) (hunder d hd)
  current c call hcall hc := by
    rw [hcalls] at hcall
    have hmem := List.mem_of_getElem? hcall
    have hcurrent := h.current c call hcall (hunder c hc)
    refine ⟨fun snapshot hphase => ?_, hcurrent.op, fun removed hremoved => ?_,
      fun removed hremoved state hstate => ?_⟩
    · have hgoing : w.busy call.wrapper = true :=
        List.any_eq_true.mpr ⟨call, hmem, by simp [hphase, ended]⟩
      rw [hbusy _ hgoing]
      exact hcurrent.loaded snapshot hphase
    · rcases listOf_of_saved hsaved call.phase with hsame | hempty
      · rw [hsame]
        exact hcurrent.list removed hremoved
      · rw [hempty]
        exact List.not_mem_nil
    · rcases hwrappers _ (h.placed call hmem) state hstate with hold | rfl
      · exact hcurrent.copy removed hremoved state hold
      · exact List.not_mem_nil

/-- The operation that is under way goes on. -/
theorem moved (h : Turns w) {phase old : Phase} (hphase : w.store.phase? c = some old)
    (hold : ended old = false)
    (hunique : Everywhere (fun state => state.ids.Nodup) (fun _ => True) t)
    (hcalls : t.calls = (w.store.setPhase c phase).calls)
    (hlength : t.wrappers.length = w.store.wrappers.length)
    (hcurrent : ∀ call, w.store.calls[c]? = some call → Current t { call with phase })
    (hstore : w'.store = t) (hpurposes : w'.purposes = w.purposes) : Turns w' := by
  subst hstore
  have hunder : w.UnderWay c := ⟨old, hphase, .inl hold⟩
  have hown : ∀ d, w'.UnderWay d → c = d := by
    intro d hd
    by_contra hne
    refine hne (h.alone c d hunder (hd.congr ?_ (by rw [hpurposes])))
    rw [Sys.phase?, Sys.phase?, hcalls]
    exact (Sys.setPhase_phase?_of_ne hne phase).symm
  refine ⟨hunique, ?_, fun call hcall => ?_,
    fun d e hd he => (hown d hd).symm.trans (hown e he), ?_⟩
  · rw [hpurposes, h.purposes_length, hcalls, Sys.setPhase, List.length_modify]
  · rw [hlength]
    rw [hcalls] at hcall
    rcases Sys.mem_setPhase hcall with hcall | ⟨call', hcall', rfl⟩
    · exact h.placed call hcall
    · exact h.placed call' (List.mem_of_getElem? hcall')
  · intro d call hcall hd
    obtain rfl := hown d hd
    rw [hcalls, Sys.setPhase_getElem?, Option.map_eq_some_iff] at hcall
    obtain ⟨call', hcall', rfl⟩ := hcall
    rw [if_pos rfl]
    exact hcurrent call' hcall'

theorem load (h : Turns w) (hstep : Store.step w.store (.load c) = some t)
    (hstore : w'.store = t) (hpurposes : w'.purposes = w.purposes) : Turns w' := by
  have hunique := h.unique.nodup_step hstep
  obtain ⟨u, hu, rfl⟩ := Option.map_eq_some_iff.mp hstep
  obtain ⟨call, snapshot, hcall, hphase, hsnapshot, rfl⟩ := Store.act_load.mp hu
  refine h.moved (Sys.phase?_eq_some.mpr ⟨call, hcall, hphase⟩) rfl hunique rfl rfl
    (fun call' hcall' => ?_) hstore hpurposes
  obtain rfl : call = call' := Option.some.inj (hcall.symm.trans hcall')
  refine .of_none (fun _ hloaded => ?_) rfl
  cases hloaded
  exact hsnapshot

theorem store (h : Turns w) (hstep : Store.step w.store (.store c) = some t)
    (hstore : w'.store = t) (hpurposes : w'.purposes = w.purposes) : Turns w' := by
  have hunique := h.unique.nodup_step hstep
  obtain ⟨u, hu, rfl⟩ := Option.map_eq_some_iff.mp hstep
  obtain ⟨call, snapshot, hcall, hphase, rfl⟩ := Store.act_store.mp hu
  have hmem := List.mem_of_getElem? hcall
  have hcarries := h.unique.calls call hmem
  rw [UpdateCall.Carries, hphase] at hcarries
  refine h.moved (Sys.phase?_eq_some.mpr ⟨call, hcall, hphase⟩) rfl hunique rfl
    (List.length_set ..) ?_ hstore hpurposes
  intro call' hcall'
  obtain rfl : call = call' := Option.some.inj (hcall.symm.trans hcall')
  refine ⟨fun _ hloaded => (by cases hloaded),
    fun removed hremoved => (removed_run hcarries.2 hremoved).1,
    fun removed hremoved => (removed_run hcarries.2 hremoved).2,
    fun removed hremoved state hstate => ?_⟩
  change (w.store.wrappers.set call.wrapper _)[call.wrapper]? = some state at hstate
  rw [List.getElem?_set_self (h.placed call hmem)] at hstate
  cases hstate
  exact (removed_run hcarries.2 hremoved).2

theorem write (h : Turns w) (hstep : Store.step w.store (.write c) = some t)
    (hstore : w'.store = t) (hpurposes : w'.purposes = w.purposes) : Turns w' := by
  have hunique := h.unique.nodup_step hstep
  obtain ⟨u, hu, rfl⟩ := Option.map_eq_some_iff.mp hstep
  obtain ⟨snapshot, next, res, storedAt, hphase, rfl⟩ := Store.act_write.mp hu
  refine h.moved hphase rfl hunique rfl rfl (fun call hcall => ?_) hstore hpurposes
  obtain ⟨call', hcall', hstored⟩ := Sys.phase?_eq_some.mp hphase
  obtain rfl : call' = call := Option.some.inj (hcall'.symm.trans hcall)
  have hcurrent := h.current c call' hcall ⟨_, hphase, .inl rfl⟩
  have hop := hcurrent.op
  have hlist := hcurrent.list
  have hcopy := hcurrent.copy
  rw [hstored] at hop hlist hcopy
  exact ⟨fun _ hloaded => (by cases hloaded), hop, hlist, hcopy⟩

theorem failWrite (h : Turns w) (hstep : Store.step w.store (.failWrite c) = some t)
    (hstore : w'.store = t) (hpurposes : w'.purposes = w.purposes) : Turns w' := by
  have hunique := h.unique.nodup_step hstep
  obtain ⟨u, hu, rfl⟩ := Option.map_eq_some_iff.mp hstep
  obtain ⟨_, _, _, _, hphase, rfl⟩ := Store.act_failWrite.mp hu
  exact h.moved hphase rfl hunique rfl rfl
    (fun _ _ => .of_none (fun _ hloaded => by cases hloaded) rfl) hstore hpurposes

theorem ret (h : Turns w) (hstep : Store.step w.store (.ret c) = some t)
    (hstore : w'.store = t) (hpurposes : w'.purposes = w.purposes) : Turns w' := by
  have hunique := h.unique.nodup_step hstep
  obtain ⟨u, hu, rfl⟩ := Option.map_eq_some_iff.mp hstep
  obtain ⟨next, res, storedAt, hphase, rfl⟩ := Store.act_ret.mp hu
  refine h.moved hphase rfl hunique rfl rfl (fun call hcall => ?_) hstore hpurposes
  obtain ⟨call', hcall', hwritten⟩ := Sys.phase?_eq_some.mp hphase
  obtain rfl : call' = call := Option.some.inj (hcall'.symm.trans hcall)
  have hcurrent := h.current c call' hcall ⟨_, hphase, .inl rfl⟩
  have hop := hcurrent.op
  have hlist := hcurrent.list
  have hcopy := hcurrent.copy
  rw [hwritten] at hop hlist hcopy
  exact ⟨fun _ hloaded => (by cases hloaded), hop, hlist, hcopy⟩

theorem invoke (h : Turns w) (hidle : w.Idle) {node : Nat} {op : Update} {purpose : Purpose}
    (hstep : w.invoke node op purpose = some w') : Turns w' := by
  obtain ⟨t, ht, heq⟩ := Option.map_eq_some_iff.mp hstep
  have hunique : Everywhere (fun state => state.ids.Nodup) (fun _ => True) w'.store :=
    heq ▸ h.unique.nodup_step ht
  obtain ⟨u, hu, rfl⟩ := Option.map_eq_some_iff.mp ht
  obtain ⟨hnode, rfl⟩ := Store.act_invoke.mp hu
  let made : UpdateCall := { wrapper := node, op, invokedAt := w.store.clock }
  have hcalls : w'.store.calls = w.store.calls ++ [made] := by rw [← heq]; rfl
  have hwrappers : w'.store.wrappers = w.store.wrappers := by rw [← heq]; rfl
  have hpurposes : w'.purposes = w.purposes ++ [purpose] := by rw [← heq]
  -- the call that has been made is the only one that is under way
  have hnew : ∀ d, w'.UnderWay d → w.store.calls.length = d := by
    intro d hd
    by_contra hne
    have hlt : d < w.store.calls.length := by
      obtain ⟨phase, hphase, _⟩ := hd
      have hlength := Sys.lt_of_phase?_eq_some hphase
      rw [hcalls, List.length_append, List.length_singleton] at hlength
      omega
    refine hidle d hlt (hd.congr ?_ ?_)
    · rw [Sys.phase?, Sys.phase?, hcalls, List.getElem?_append_left hlt]
    · rw [hpurposes, List.getElem?_append_left (h.purposes_length ▸ hlt)]
  refine ⟨hunique, ?_, fun call hcall => ?_,
    fun d e hd he => (hnew d hd).symm.trans (hnew e he), ?_⟩
  · rw [hpurposes, hcalls, List.length_append, List.length_append, h.purposes_length]
    rfl
  · rw [hcalls] at hcall
    rw [hwrappers]
    rcases List.mem_append.mp hcall with hcall | hcall
    · exact h.placed call hcall
    · rw [List.mem_singleton.mp hcall]
      exact hnode
  · intro d call hcall hd
    obtain rfl := hnew d hd
    rw [hcalls, List.getElem?_concat_length] at hcall
    cases hcall
    exact .of_none (fun _ hloaded => by cases hloaded) rfl

/-- Only the calls and the list count. -/
theorem of_eq (h : Turns w) (hstore : w'.store = w.store) (hpurposes : w'.purposes = w.purposes) :
    Turns w' := by
  refine h.rest (hstore ▸ h.unique) (by rw [hpurposes]) (by rw [hstore])
    (fun c hc => hc.congr (by rw [hstore]) (by rw [hpurposes])) (by rw [hstore])
    (fun _ _ => by rw [hstore]) (fun node _ state hstate => .inl ?_) (.inl (by rw [hstore]))
  rwa [← hstore]

theorem settle (h : Turns w) (c : Nat) : Turns (w.settle c) :=
  h.rest h.unique (List.length_set ..) rfl (fun _ hd => hd.of_settle) le_rfl
    (fun _ _ => rfl) (fun _ _ _ hstate => .inl hstate) (.inl rfl)

theorem openEnd (h : Turns w) {k : Nat} (hstep : Store.step w.store (.openEnd k) = some t)
    (hstore : w'.store = t) (hpurposes : w'.purposes = w.purposes) : Turns w' := by
  have hunique := h.unique.nodup_step hstep
  obtain ⟨u, hu, rfl⟩ := Option.map_eq_some_iff.mp hstep
  obtain ⟨hcalls, _, hfile⟩ := Store.act_open (.inr ⟨k, rfl⟩) hu
  obtain ⟨state, hwrappers⟩ : ∃ state, u.wrappers = w.store.wrappers ++ [state] := by
    simp only [Store.act] at hu
    split at hu <;> cases hu <;> exact ⟨_, rfl⟩
  refine h.rest (hstore ▸ hunique) (by rw [hpurposes]) (by rw [hstore]; exact hcalls)
    (fun d hd => hd.congr ?_ (by rw [hpurposes])) ?_ ?_ ?_ ?_
  · rw [hstore]
    exact congrArg (fun calls => Option.map UpdateCall.phase calls[d]?) hcalls.symm
  · rw [hstore]
    change _ ≤ u.wrappers.length
    rw [hwrappers, List.length_append]
    exact Nat.le_add_right _ _
  · intro node hbusy
    obtain ⟨call, hcall, hnode⟩ := List.any_eq_true.mp hbusy
    obtain rfl : call.wrapper = node := by
      rw [Bool.and_eq_true, decide_eq_true_iff] at hnode
      exact hnode.1
    rw [hstore]
    change u.wrappers[call.wrapper]? = _
    rw [hwrappers, List.getElem?_append_left (h.placed call hcall)]
  · intro node hnode copy hcopy
    rw [hstore] at hcopy
    change u.wrappers[node]? = some copy at hcopy
    rw [hwrappers, List.getElem?_append_left hnode] at hcopy
    exact .inl hcopy
  · rw [hstore]
    change u.file.getD {} = w.store.file.getD {} ∨ u.file.getD {} = {}
    rcases hfile with hsame | ⟨hempty, _⟩
    · exact .inl (by rw [hsame])
    · exact .inr (by rw [hempty]; rfl)

theorem step (h : Turns w) {a : Action} (ha : TakesTurns w a) (hstep : w.act a = some w') :
    Turns w' := by
  cases World.becomes_of_act hstep with
  | openBegin ht =>
      cases ht
      exact h.rest ⟨h.unique.saved, h.unique.wrappers, h.unique.calls⟩ rfl rfl
        (fun _ hd => hd.congr rfl rfl) le_rfl (fun _ _ => rfl) (fun _ _ _ hstate => .inl hstate)
        (.inl rfl)
  | openEnd _ ht => exact h.openEnd ht rfl rfl
  | @advertise ad _ _ _ hinvoke =>
      have hforgotten : Turns { w.forgetRevoked ad.resourceId with offers := ad :: w.offers } :=
        h.of_eq rfl rfl
      exact hforgotten.invoke ha hinvoke
  | @setProxyState _ proxy _ _ _ _ hinvoke =>
      have hforgotten : Turns (w.forgetRevoked proxy.id) := h.of_eq rfl rfl
      exact hforgotten.invoke ha hinvoke
  | revoke _ hinvoke | delete _ hinvoke => exact h.invoke ha hinvoke
  | load ht => exact h.load ht rfl rfl
  | store ht =>
      refine h.store ht ?_ ?_
      all_goals unfold World.recordEndpoint; split <;> rfl
  | write ht => exact h.write ht rfl rfl
  | failWrite ht =>
      refine h.failWrite ht ?_ ?_
      all_goals unfold World.failed; split <;> rfl
  | ret ht => exact h.ret ht rfl rfl
  | @mark c | @failMark c | @unmark c => exact (h.settle c).of_eq rfl rfl
  | failUnmark _ _ => exact h.settle _
  | retargetUnstored | retire _ => exact h.of_eq rfl rfl
  | @drop node _ _ hidle =>
      have hcopy : ∀ state ∈ w.store.wrappers.set node {}, state.ids.Nodup := by
        intro state hstate
        rcases List.mem_or_eq_of_mem_set hstate with hstate | rfl
        · exact h.unique.wrappers state hstate
        · exact List.nodup_nil
      refine h.rest (h.unique.of_subset rfl hcopy (List.Subset.refl _)) rfl rfl
        (fun _ hd => hd.congr rfl rfl) (List.length_set ..).ge (fun m hbusy => ?_)
        (fun m _ state hstate => ?_) (.inl rfl)
      · have hne : node ≠ m := by
          rintro rfl
          rw [hidle] at hbusy
          cases hbusy
        exact List.getElem?_set_ne hne
      · change (w.store.wrappers.set node {})[m]? = some state at hstate
        rw [List.getElem?_set] at hstate
        split at hstate
        · split at hstate <;> cases hstate
          exact .inr rfl
        · exact .inl hstate
  | restart =>
      refine ⟨h.unique.of_subset rfl (List.forall_mem_nil _) (List.nil_subset _), rfl,
        List.forall_mem_nil _, ?_, ?_⟩
      · rintro c d ⟨phase, hphase, _⟩
        cases hphase
      · intro c call hcall
        cases hcall

end Turns

end DatumConnect.Peers
