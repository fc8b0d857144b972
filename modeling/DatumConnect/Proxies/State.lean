import Mathlib.Data.List.Basic
/-!
# The proxy list

The data of `state.rs`: what a `ListenNode` advertises, the list of it that
`state.yml` holds, and the two changes `StateWrapper::update` is called with.
-/

namespace DatumConnect.Proxies

/-- A local target. -/
structure TcpProxyData where
  host : String
  port : UInt16
  deriving DecidableEq, Repr

structure Advertisment where
  resourceId : String
  label : Option String
  data : TcpProxyData
  deriving DecidableEq, Repr

structure ProxyState where
  info : Advertisment
  enabled : Bool
  deriving DecidableEq, Repr

def ProxyState.id (proxy : ProxyState) : String := proxy.info.resourceId

/-- The contents of `state.yml`. -/
structure State where
  proxies : List ProxyState := []
  deriving DecidableEq, Repr

instance : Inhabited State := ⟨{}⟩

namespace State

/-- Overwrite the first entry with the proxy's id. -/
def replaceFirst (proxy : ProxyState) : List ProxyState → List ProxyState
  | [] => []
  | p :: ps => if p.id = proxy.id then proxy :: ps else p :: replaceFirst proxy ps

def setProxy (s : State) (proxy : ProxyState) : State :=
  if s.proxies.any (fun p => p.id = proxy.id) then
    { proxies := replaceFirst proxy s.proxies }
  else
    { proxies := s.proxies ++ [proxy] }

def removeProxy (s : State) (resourceId : String) : State × Option ProxyState :=
  match s.proxies.findIdx? (fun p => p.id = resourceId) with
  | some idx => ({ proxies := s.proxies.eraseIdx idx }, s.proxies[idx]?)
  | none => (s, none)

def ids (s : State) : List String := s.proxies.map ProxyState.id

variable {s : State} {proxy p : ProxyState} {resourceId : String}

theorem map_id_replaceFirst (proxy : ProxyState) (ps : List ProxyState) :
    (replaceFirst proxy ps).map ProxyState.id = ps.map ProxyState.id := by
  induction ps with
  | nil => rfl
  | cons p ps ih =>
      rw [replaceFirst]
      split
      · rename_i hid
        simp [hid]
      · simp [ih]

theorem mem_replaceFirst {ps : List ProxyState} (h : p ∈ replaceFirst proxy ps) :
    p = proxy ∨ p ∈ ps := by
  induction ps with
  | nil => cases h
  | cons q ps ih =>
      rw [replaceFirst] at h
      split at h
      · exact (List.mem_cons.mp h).imp_right (List.mem_cons_of_mem q)
      · rcases List.mem_cons.mp h with rfl | h
        · exact .inr List.mem_cons_self
        · exact (ih h).imp_right (List.mem_cons_of_mem q)

theorem mem_setProxy (h : p ∈ (s.setProxy proxy).proxies) : p = proxy ∨ p ∈ s.proxies := by
  rw [setProxy] at h
  split at h
  · exact mem_replaceFirst h
  · exact (List.mem_append.mp h).symm.imp_left List.mem_singleton.mp

theorem mem_replaceFirst_of_nodup {ps : List ProxyState}
    (hnodup : (ps.map ProxyState.id).Nodup) (hmem : proxy.id ∈ ps.map ProxyState.id)
    (h : p ∈ replaceFirst proxy ps) : p = proxy ∨ p ∈ ps ∧ p.id ≠ proxy.id := by
  induction ps with
  | nil => cases h
  | cons q ps ih =>
      obtain ⟨hfirst, hrest⟩ := List.nodup_cons.mp hnodup
      rw [replaceFirst] at h
      split at h
      · rename_i hid
        refine (List.mem_cons.mp h).imp_right fun hp => ⟨List.mem_cons_of_mem q hp, fun heq => ?_⟩
        exact hfirst (hid ▸ heq ▸ List.mem_map_of_mem hp)
      · rename_i hid
        rcases List.mem_cons.mp h with rfl | h
        · exact .inr ⟨List.mem_cons_self, hid⟩
        · have hlater := (List.mem_cons.mp hmem).resolve_left fun heq => hid heq.symm
          exact (ih hrest hlater h).imp_right fun hp => ⟨List.mem_cons_of_mem q hp.1, hp.2⟩

/-- With one entry an id, what is left beside the new entry has other ids. -/
theorem mem_setProxy_of_nodup (hnodup : s.ids.Nodup) (h : p ∈ (s.setProxy proxy).proxies) :
    p = proxy ∨ p ∈ s.proxies ∧ p.id ≠ proxy.id := by
  by_cases hmem : proxy.id ∈ s.ids
  · have hany : s.proxies.any (fun p => p.id = proxy.id) = true := by simpa [ids] using hmem
    rw [setProxy, if_pos hany] at h
    exact mem_replaceFirst_of_nodup hnodup hmem h
  · refine (mem_setProxy h).imp_right fun hp => ⟨hp, fun heq => ?_⟩
    exact hmem (heq ▸ List.mem_map_of_mem hp)

theorem ids_setProxy (s : State) (proxy : ProxyState) :
    (s.setProxy proxy).ids = if proxy.id ∈ s.ids then s.ids else s.ids ++ [proxy.id] := by
  have hany : s.proxies.any (fun p => p.id = proxy.id) = true ↔ proxy.id ∈ s.ids := by
    simp [ids]
  rw [setProxy]
  by_cases hmem : proxy.id ∈ s.ids
  · rw [if_pos (hany.mpr hmem), if_pos hmem]
    exact map_id_replaceFirst proxy s.proxies
  · rw [if_neg (mt hany.mp hmem), if_neg hmem]
    simp [ids]

theorem mem_ids_setProxy : resourceId ∈ (s.setProxy proxy).ids ↔
    resourceId = proxy.id ∨ resourceId ∈ s.ids := by
  rw [ids_setProxy]
  split <;> aesop

theorem nodup_ids_setProxy (h : s.ids.Nodup) : (s.setProxy proxy).ids.Nodup := by
  rw [ids_setProxy]
  split
  · exact h
  · rename_i hmem
    exact List.nodup_append.mpr ⟨h, List.pairwise_singleton _ _, by aesop⟩

theorem removeProxy_fst (s : State) (resourceId : String) :
    (s.removeProxy resourceId).1.proxies = s.proxies.eraseP fun p => p.id = resourceId := by
  rw [removeProxy, List.eraseP_eq_eraseIdx]
  cases s.proxies.findIdx? (fun p => p.id = resourceId) <;> rfl

theorem mem_removeProxy (h : p ∈ (s.removeProxy resourceId).1.proxies) : p ∈ s.proxies := by
  rw [removeProxy_fst] at h
  exact List.mem_of_mem_eraseP h

theorem ids_removeProxy (s : State) (resourceId : String) :
    (s.removeProxy resourceId).1.ids = s.ids.erase resourceId := by
  rw [ids, removeProxy_fst, ids, List.erase_eq_eraseP, List.eraseP_map]
  congr 2
  funext p
  rw [Function.comp_apply, beq_eq_decide]
  simp only [eq_comm]

theorem nodup_ids_removeProxy (h : s.ids.Nodup) : (s.removeProxy resourceId).1.ids.Nodup := by
  rw [ids_removeProxy]
  exact h.erase resourceId

/-- What is removed is what was there. -/
theorem removeProxy_snd_isSome :
    (s.removeProxy resourceId).2.isSome = true ↔ resourceId ∈ s.ids := by
  rw [removeProxy]
  cases hidx : s.proxies.findIdx? (fun p => p.id = resourceId) with
  | none => simpa [ids] using hidx
  | some idx =>
      obtain ⟨hlt, hid, _⟩ := List.findIdx?_eq_some_iff_getElem.mp hidx
      have hmem : resourceId ∈ s.ids := by
        rw [ids, List.mem_map]
        exact ⟨s.proxies[idx], List.getElem_mem hlt, by simpa using hid⟩
      simp [hlt, hmem]

theorem id_of_mem_removeProxy (h : p ∈ (s.removeProxy resourceId).2) : p.id = resourceId := by
  rw [removeProxy] at h
  split at h
  · rename_i idx hidx
    obtain ⟨hlt, hid, _⟩ := List.findIdx?_eq_some_iff_getElem.mp hidx
    obtain rfl : s.proxies[idx] = p :=
      Option.some.inj ((List.getElem?_eq_getElem hlt).symm.trans h)
    exact of_decide_eq_true hid
  · cases h

end State

/-- The closures `ListenNode::set_proxy` and `ListenNode::remove_proxy` hand to
`StateWrapper::update`. -/
inductive Update where
  | setProxy (proxy : ProxyState)
  | removeProxy (resourceId : String)
  deriving DecidableEq, Repr

/-- The list the closure leaves behind, and the entry it removed. -/
def Update.run : Update → State → State × Option ProxyState
  | .setProxy proxy, s => (s.setProxy proxy, none)
  | .removeProxy resourceId, s => s.removeProxy resourceId

def Update.apply (s : State) (op : Update) : State := (op.run s).1

end DatumConnect.Proxies
