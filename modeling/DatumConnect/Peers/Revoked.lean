import DatumConnect.Peers.Turns
import DatumConnect.Lib.Runs
/-!
# What a revoke puts an end to

A revoke takes an entry out of one node's copy of the list and out of the file.
Another node's copy, or an update on its way, may still hold the entry, and bring it
back into the file.
-/

namespace DatumConnect.Peers

open DatumConnect.Lib
open DatumConnect.Proxies
open DatumConnect.Proxies.Store (Sys Everywhere)

/-- After a revoke has returned `Ok`, no node lets a request for what was advertised
through, unless on account of a proxy that has not been revoked. -/
def World.Ended (fromAbsoluteUri : String → Option Authority) (w : World) : Prop :=
  ∀ ad ∈ w.revoked, ∀ (node : Nat) (role : Role) (state : State),
    w.roles[node]? = some role → role ≠ .dropped → w.store.wrappers[node]? = some state →
    ∀ (request : Proxies.Request) (authority : Authority),
      request.authority? fromAbsoluteUri = some authority → SameTarget authority ad.data →
        state.authorize fromAbsoluteUri request = true →
          ∃ proxy ∈ state.proxies, proxy.enabled = true ∧ SameTarget authority proxy.info.data ∧
            ∀ revoked ∈ w.revoked, proxy.id ≠ revoked.resourceId

/-! ## Where an entry may be -/

/-- The update is none that sets an entry of the id. -/
def Spares (id : String) : Update → Prop
  | .setProxy proxy => proxy.id ≠ id
  | .removeProxy _ => True

instance (id : String) : DecidablePred (Spares id) := fun op => by
  cases op <;> unfold Spares <;> infer_instance

/-- The entry is nowhere: not in the file, in no copy of the list, in no update on its
way. -/
abbrev Cleared (s : Sys) (id : String) : Prop := Everywhere (Lacks id) (Spares id) s

/-- When a revoke returns, the entry it has removed is nowhere any more. -/
def Reaches (w : World) : Action → Prop
  | .unmark c true =>
      match w.store.phase? c with
      | some (.returned _ (some removed) _ _) => Cleared w.store removed.id
      | _ => True
  | _ => True

instance (w : World) (a : Action) : Decidable (Reaches w a) := by
  match a with
  | .unmark c true =>
      dsimp only [Reaches]
      match w.store.phase? c with
      | some (.returned _ (some removed) _ _) =>
          dsimp only
          infer_instance
      | none | some .invoked | some (.loaded _) | some (.stored _ _ _ _) | some (.written _ _ _)
      | some (.returned _ none _ _) | some (.failed _) => exact instDecidableTrue
  | .unmark _ false | .openBegin | .openEnd _ _ | .advertise _ | .revoke _ | .setProxyState _ _
  | .retargetUnstored _ _ | .delete _ | .load _ | .store _ | .write _ | .failWrite _ | .ret _
  | .mark _ _ | .retire _ | .drop _ | .restart => exact instDecidableTrue

theorem lacks_apply {id : String} (state : State) (op : Update) (hstate : Lacks id state)
    (hop : Spares id op) : Lacks id (op.apply state) := by
  cases op with
  | setProxy proxy =>
      intro hmem
      rcases State.mem_ids_setProxy.mp hmem with rfl | hmem
      · exact hop rfl
      · exact hstate hmem
  | removeProxy resourceId =>
      intro hmem
      change id ∈ (state.removeProxy resourceId).1.ids at hmem
      rw [State.ids_removeProxy] at hmem
      exact hstate (List.mem_of_mem_erase hmem)

/-! ## Every run -/

/-- What every run preserves in which each revoke reaches all copies. -/
def AllCleared (w : World) : Prop := ∀ ad ∈ w.revoked, Cleared w.store ad.resourceId

namespace AllCleared

variable {w w' : World}

theorem fresh : AllCleared World.fresh := fun _ had => absurd had List.not_mem_nil

/-- A step of the store by which nobody puts anything back. -/
theorem of_step (h : AllCleared w) {a : Store.Action} {store : Sys}
    (hstep : Store.step w.store a = some store) (hstore : w'.store = store)
    (hrevoked : w'.revoked ⊆ w.revoked)
    (ha : ∀ node op, a = .invoke node op → ∀ ad ∈ w'.revoked, Spares ad.resourceId op) :
    AllCleared w' := by
  intro ad had
  rw [hstore]
  exact (h ad (hrevoked had)).step List.not_mem_nil lacks_apply
    (fun node op hop => ha node op hop ad had) hstep

theorem invoke (h : AllCleared w) {node : Nat} {op : Update} {purpose : Purpose}
    (hop : ∀ ad ∈ w.revoked, Spares ad.resourceId op)
    (hstep : w.invoke node op purpose = some w') : AllCleared w' := by
  obtain ⟨store, hstore, rfl⟩ := Option.map_eq_some_iff.mp hstep
  refine h.of_step hstore rfl (List.Subset.refl _) ?_
  rintro _ _ ⟨⟩
  exact hop

/-- An entry that is put back is no longer a revoked one. -/
theorem invoke_forgetting (h : AllCleared w) {node : Nat} (proxy : ProxyState) {purpose : Purpose}
    {offers : List Advertisment}
    (hstep : ({ w.forgetRevoked proxy.id with offers }).invoke node (.setProxy proxy) purpose =
      some w') : AllCleared w' := by
  have hkept : AllCleared { w.forgetRevoked proxy.id with offers } := fun ad had =>
    h ad (List.mem_of_mem_filter had)
  refine hkept.invoke (fun ad had => ?_) hstep
  have hne : ad.resourceId ≠ proxy.id := by simpa using (List.mem_filter.mp had).2
  exact fun heq => hne heq.symm

theorem step (h : AllCleared w) {a : Action} (ha : Reaches w a) (hstep : w.act a = some w') :
    AllCleared w' := by
  cases World.becomes_of_act hstep with
  | openBegin ht | load ht | write ht | ret ht =>
      exact h.of_step ht rfl (List.Subset.refl _) fun _ _ h => by cases h
  | openEnd _ ht => exact h.of_step ht rfl (List.Subset.refl _) fun _ _ h => by cases h
  | store ht =>
      refine h.of_step ht ?_ ?_ fun _ _ h => by cases h
      all_goals unfold World.recordEndpoint; split <;> simp
  | failWrite ht =>
      refine h.of_step ht ?_ ?_ fun _ _ h => by cases h
      all_goals unfold World.failed; split <;> simp [World.withdraw]
  | advertise _ hinvoke => exact h.invoke_forgetting _ hinvoke
  | setProxyState _ _ hinvoke => exact h.invoke_forgetting _ hinvoke
  | revoke _ hinvoke | delete _ hinvoke =>
      refine h.invoke ?_ hinvoke
      exact fun _ _ => trivial
  | @unmark _ _ removed _ _ _ _ hphase =>
      have hcleared : Cleared w.store removed.id := by simpa [Reaches, hphase] using ha
      intro ad had
      rcases List.mem_cons.mp had with rfl | had
      · exact hcleared
      · exact h ad had
  | drop _ _ =>
      refine fun ad had => (h ad had).of_subset rfl (fun state hstate => ?_) (List.Subset.refl _)
      rcases List.mem_or_eq_of_mem_set hstate with hstate | rfl
      · exact (h ad had).wrappers state hstate
      · exact List.not_mem_nil
  | restart =>
      exact fun ad had => (h ad had).of_subset rfl (List.forall_mem_nil _) (List.nil_subset _)
  | retargetUnstored | mark _ _ | failMark _ _ | failUnmark _ _ | retire _ => exact h

theorem ended (h : AllCleared w) (fromAbsoluteUri : String → Option Authority) :
    w.Ended fromAbsoluteUri := by
  intro ad had node role state _ _ hstate request authority hauthority _ hauthorized
  obtain ⟨authority', hauthority', proxy, hproxy, henabled, htarget⟩ :=
    State.authorize_iff.mp hauthorized
  obtain rfl : authority = authority' := Option.some.inj (hauthority.symm.trans hauthority')
  refine ⟨proxy, hproxy, henabled, htarget, fun revoked hrevoked heq => ?_⟩
  exact (h revoked hrevoked).wrappers state (List.mem_of_getElem? hstate)
    (heq ▸ List.mem_map_of_mem hproxy)

end AllCleared

/-! ## Where operations take turns -/

/-- When a revoke returns, no other node has the entry that it has removed. -/
def OthersLack (w : World) : Action → Prop
  | .unmark c true =>
      ∀ call ∈ w.store.calls[c]?, ∀ removed ∈ removed? call.phase,
        ∀ state ∈ w.store.wrappers.eraseIdx call.wrapper, Lacks removed.id state
  | _ => True

instance (w : World) (a : Action) : Decidable (OthersLack w a) := by
  match a with
  | .unmark c true =>
      dsimp only [OthersLack]
      infer_instance
  | .unmark _ false | .openBegin | .openEnd _ _ | .advertise _ | .revoke _ | .setProxyState _ _
  | .retargetUnstored _ _ | .delete _ | .load _ | .store _ | .write _ | .failWrite _ | .ret _
  | .mark _ _ | .retire _ | .drop _ | .restart => exact instDecidableTrue

/-- Where operations take turns a revoke has reached all copies when it returns: its own
node's and the file by its own steps. -/
theorem Turns.reaches {w w' : World} (h : Turns w) {a : Action} (ha : OthersLack w a)
    (hstep : w.act a = some w') : Reaches w a := by
  cases World.becomes_of_act hstep with
  | @unmark c _ removed _ _ _ hpurpose hphase =>
      obtain ⟨call, hcall, hreturned⟩ := Sys.phase?_eq_some.mp hphase
      have hremoved : removed ∈ removed? call.phase := by
        rw [hreturned]
        rfl
      have hunder : w.UnderWay c := ⟨_, hphase, .inr ⟨_, hpurpose, rfl⟩⟩
      have hcurrent := h.current c call hcall hunder
      have hlist := hcurrent.list removed hremoved
      simp only [Reaches, hphase]
      refine ⟨?_, fun state hstate => ?_, fun other hother => carries_of_ended ?_⟩
      · rwa [hreturned] at hlist
      · obtain ⟨node, hnode⟩ := List.mem_iff_getElem?.mp hstate
        by_cases hwrapper : node = call.wrapper
        · exact hcurrent.copy removed hremoved state (hwrapper ▸ hnode)
        · have hother : state ∈ w.store.wrappers.eraseIdx call.wrapper :=
            List.mem_eraseIdx_iff_getElem?.mpr ⟨node, hwrapper, hnode⟩
          exact ha call hcall removed hremoved state hother
      · obtain ⟨d, hd⟩ := List.mem_iff_getElem?.mp hother
        by_contra hended
        obtain rfl := h.alone c d hunder
          ⟨other.phase, Sys.phase?_eq_some.mpr ⟨other, hd, rfl⟩, .inl (by simpa using hended)⟩
        obtain rfl : call = other := Option.some.inj (hcall.symm.trans hd)
        rw [hreturned] at hended
        exact hended rfl
  | _ => exact trivial

/-- While each revoke, when it returns, has reached every copy of the list, the file and
every update on its way, revoking an advertisement ends access to it; where operations
take turns it is enough that it has reached the copies of the other nodes. -/
theorem revoked_unreachable (fromAbsoluteUri : String → Option Authority)
    (actions : List Action) (w : World) (hrun : World.run World.fresh actions = some w)
    (hreaches : Runs.Meets World.act Reaches World.fresh actions ∨
      Runs.Meets World.act (fun w a => TakesTurns w a ∧ OthersLack w a) World.fresh actions) :
    w.Ended fromAbsoluteUri := by
  have hcleared : AllCleared w := by
    rcases hreaches with hreaches | hturns
    · exact Runs.invariant (fun _ _ _ hcleared ha hstep => AllCleared.step hcleared ha hstep)
        AllCleared.fresh hreaches hrun
    · have hstep : ∀ v a v', Turns v ∧ AllCleared v → TakesTurns v a ∧ OthersLack v a →
          v.act a = some v' → Turns v' ∧ AllCleared v' := fun v a v' h ha hact =>
        ⟨h.1.step ha.1 hact, h.2.step (h.1.reaches ha.2 hact) hact⟩
      exact (Runs.invariant hstep ⟨Turns.fresh, AllCleared.fresh⟩ hturns hrun).2
  exact hcleared.ended fromAbsoluteUri

def revokeSteps : List Action :=
  [.revoke "proxy-web", .load 1, .store 1, .write 1, .ret 1, .unmark 1 true]

/-- A tunnel is started after the advertisement is revoked. -/
def startAfterwards : List Action :=
  advertiseSteps ++ revokeSteps ++ [.openBegin, .openEnd 0 (.tunnel "tunnel-a")]

/-- A tunnel is started while the advertisement is there. -/
def startBetween : List Action :=
  advertiseSteps ++ [.openBegin, .openEnd 0 (.tunnel "tunnel-a")] ++ revokeSteps

theorem revoked_unreachable_startAfterwards :
    ∃ w, World.run World.fresh startAfterwards = some w ∧ w.revoked = [webAd] ∧
      w.roles = [.peer, .tunnel "tunnel-a"] ∧
      Runs.Meets World.act Reaches World.fresh startAfterwards ∧ w.Ended fun _ => none := by
  exact ⟨_, rfl, rfl, rfl, by decide,
    revoked_unreachable (fun _ => none) startAfterwards _ rfl (.inr (by decide))⟩

/-- The tunnel's node has loaded the entry, and nothing takes it out of its copy. -/
theorem revoked_reachable :
    ¬ ∀ (fromAbsoluteUri : String → Option Authority) (actions : List Action) (w : World),
      World.run World.fresh actions = some w → w.Ended fromAbsoluteUri := by
  intro hall
  obtain ⟨proxy, hproxy, _, _, hunrevoked⟩ := hall (fun _ => none) startBetween _ rfl webAd
    List.mem_cons_self 1 (.tunnel "tunnel-a") _ rfl (fun h => by cases h) rfl (.tunnel ⟨"localhost", 80⟩)
    ⟨"localhost", 80⟩ rfl (by decide) (by decide)
  rw [List.mem_singleton.mp hproxy] at hunrevoked
  exact hunrevoked webAd List.mem_cons_self rfl

end DatumConnect.Peers
