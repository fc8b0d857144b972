import DatumConnect.Cloud.Server
import DatumConnect.Tunnels.Footprint
/-!
# What the service has made

A project with, beside its objects, the ones that the operations have created and what
they have offered to the node's store.
-/

namespace DatumConnect.Tunnels

open DatumConnect.Lib
open DatumConnect.Cloud

structure Workshop where
  cluster : Cluster
  made : List (Kind × String) := []
  offered : List Proxies.Update := []

namespace Workshop

/-- The object that a call creates. -/
def creates (s : Cluster) (answer : Answer) : Call → Option (Kind × String)
  | .create kind name _ =>
      if answer.landed ∧ (s kind).get? (Cluster.newName name answer.suffix) = none then
        some (kind, Cluster.newName name answer.suffix)
      else none
  | _ => none

def offers : Call → Option Proxies.Update
  | .updateProxies update => some update
  | _ => none

/-- The connection details are those of the node. -/
def ofNode (endpointId : String) (answer : Answer) : Answer :=
  { answer with details := answer.details.map fun d => { d with publicKeyId := endpointId } }

def handle (endpointId : String) (w : Workshop) (c : Call) (answer : Answer) :
    Workshop × c.Reply :=
  let (cluster, reply) := w.cluster.handle c (ofNode endpointId answer)
  ({ cluster
     made := (creates (w.cluster.finalize answer.finalized) answer c).toList ++ w.made
     offered := w.offered ++ (offers c).toList }, reply)

/-- The object is there and is not being deleted. -/
def Live (w : Workshop) (kind : Kind) (name : String) : Prop :=
  ∃ o, (w.cluster kind).get? name = some o ∧ o.deleting = false

variable {endpointId : String} {w : Workshop} {c : Call} {answer : Answer}

theorem mem_made {kind : Kind} {name : String}
    (h : (kind, name) ∈ (handle endpointId w c answer).1.made) :
    creates (w.cluster.finalize answer.finalized) answer c = some (kind, name) ∨
      (kind, name) ∈ w.made := by
  rcases List.mem_append.mp h with h | h
  · exact Or.inl (Option.mem_toList.mp h)
  · exact Or.inr h

theorem made_kept {made : Kind × String} (h : made ∈ w.made) :
    made ∈ (handle endpointId w c answer).1.made :=
  List.mem_append_right _ h

/-- A call that writes no object of the kind creates none. -/
theorem creates_kind {s : Cluster} {kind : Kind} {name : String}
    (h : creates s answer c = some (kind, name)) : writtenKind c = some kind := by
  unfold creates at h
  split at h
  · split at h
    · cases h
      rfl
    · cases h
  · cases h

/-- A finalizer leaves what is not being deleted. -/
theorem finalize_get? {s : Cluster} {kind : Kind} {name : String} {o : Object kind.Spec}
    (names : List (Kind × String)) (ho : (s kind).get? name = some o) (hlive : o.deleting = false) :
    (s.finalize names kind).get? name = some o := by
  rw [Cluster.finalize, Table.get?_finalize, ho]
  simp [Option.filter, hlive]

theorem get?_of_finalize {s : Cluster} {kind : Kind} {name : String} {o : Object kind.Spec}
    {names : List (Kind × String)} (ho : (s.finalize names kind).get? name = some o) :
    (s kind).get? name = some o := by
  rw [Cluster.finalize, Table.get?_finalize, Option.filter_eq_some_iff] at ho
  exact ho.1

/-- A call that does not write the kind leaves its objects as they are. -/
theorem serve_kind {s : Cluster} {kind : Kind} (h : writtenKind c ≠ some kind) :
    (s.serve answer c).1 kind = s kind := by
  apply Cluster.serve_other
  · rintro name spec rfl
    exact h rfl
  · rintro name patch rfl
    exact h rfl
  · rintro name rfl
    exact h rfl

/-- What is live stays so under a call that does not write its kind. -/
theorem Live.other {kind : Kind} {name : String} (h : w.Live kind name)
    (hkind : writtenKind c ≠ some kind) :
    (Workshop.handle endpointId w c answer).1.Live kind name := by
  obtain ⟨o, ho, hlive⟩ := h
  have ho' := finalize_get? answer.finalized ho hlive
  refine ⟨o, ?_, hlive⟩
  show (((w.cluster.finalize answer.finalized).serve (ofNode endpointId answer) c).1 kind).get?
    name = some o
  rw [serve_kind hkind]
  exact ho'

/-- And so it does under every call but a delete. -/
theorem Live.handle {kind : Kind} {name : String} (h : w.Live kind name)
    (hdelete : ∀ kind name, c ≠ .delete kind name) :
    (Workshop.handle endpointId w c answer).1.Live kind name := by
  by_cases hkind : writtenKind c = some kind
  · obtain ⟨o, ho, hlive⟩ := h
    have ho' := finalize_get? answer.finalized ho hlive
    show ∃ o, (((w.cluster.finalize answer.finalized).serve (ofNode endpointId answer) c).1
      kind).get? name = some o ∧ o.deleting = false
    generalize w.cluster.finalize answer.finalized = s at ho'
    cases c with
    | create kind' newName spec =>
        cases hkind
        rw [Cluster.serve, Cluster.replying_landed]
        split
        · rw [Cluster.get?_create]
          split
          · rename_i hname
            rw [← hname, ho']
            exact ⟨o, rfl, hlive⟩
          · exact ⟨o, ho', hlive⟩
        · exact ⟨o, ho', hlive⟩
    | patch kind' name' patch =>
        cases hkind
        rw [Cluster.serve, Cluster.replying_landed]
        split
        · rw [Cluster.get?_patch]
          split
          · rename_i hname
            rw [← hname, ho']
            exact ⟨_, rfl, hlive⟩
          · exact ⟨o, ho', hlive⟩
        · exact ⟨o, ho', hlive⟩
    | delete kind' name' => exact absurd rfl (hdelete kind' name')
    | _ => cases hkind
  · exact h.other hkind

/-- What a call has made is live after it. -/
theorem live_of_creates {kind : Kind} {name : String}
    (h : creates (w.cluster.finalize answer.finalized) answer c = some (kind, name)) :
    (handle endpointId w c answer).1.Live kind name := by
  cases c with
  | create kind' newName spec =>
      rw [creates, Option.ite_none_right_eq_some] at h
      obtain ⟨⟨hlanded, hnone⟩, heq⟩ := h
      cases heq
      refine ⟨⟨Cluster.newName newName answer.suffix, false, spec⟩, ?_, rfl⟩
      show (((w.cluster.finalize answer.finalized).serve (ofNode endpointId answer)
        (.create kind newName spec)).1 kind).get? (Cluster.newName newName answer.suffix) = _
      have hlanded' : (ofNode endpointId answer).landed = true := hlanded
      have hsuffix : (ofNode endpointId answer).suffix = answer.suffix := rfl
      rw [Cluster.serve, Cluster.replying_landed, if_pos hlanded', Cluster.get?_create, hsuffix,
        if_pos rfl, hnone]
      rfl
  | _ => cases h

/-- A create that is answered with an object has made it. -/
theorem made_of_create {kind : Kind} {newName : NewName} {spec : kind.Spec} {o : Object kind.Spec}
    (h : (handle endpointId w (.create kind newName spec) answer).2 = .ok o) :
    (kind, o.name) ∈ (handle endpointId w (.create kind newName spec) answer).1.made := by
  obtain ⟨hlanded, hname, hnone⟩ := Cluster.create_ok h
  have hlanded' : answer.landed = true := hlanded
  have hnone' : ((w.cluster.finalize answer.finalized) kind).get?
      (Cluster.newName newName answer.suffix) = none := hnone
  have hname' : o.name = Cluster.newName newName answer.suffix := hname
  rw [hname']
  apply List.mem_append_left
  apply Option.mem_toList.mpr
  exact if_pos ⟨hlanded', hnone'⟩

/-- The service of a node that has made nothing yet. -/
def nodeService : TunnelService where
  endpointId := "key"
  publishTickets := false
  createTrafficProtectionPolicies := false
  wafExemptMatches := none
  edgePolicies := false
  friendlyDeviceName := "box"
  os := "linux"
  parseUrl _ := some { hostStr := some "h", port := some 1 }

end Workshop

end DatumConnect.Tunnels
