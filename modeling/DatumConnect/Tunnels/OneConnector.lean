import DatumConnect.Lib.Runs
import DatumConnect.Tunnels.Made
/-!
# One connector for one identity

A connector is found again by the public key in its connection details, which a call
after the one that creates it publishes.
-/

namespace DatumConnect.Tunnels

open DatumConnect.Lib
open DatumConnect.Lib.Prog (Only SafeWhen)
open DatumConnect.Cloud

namespace OneConnector

/-- The operations that look the service's connector up. -/
inductive Op where
  | create (label endpoint : String)
  | update (tunnelId label endpoint : String)
  | enable (tunnelId : String)
  deriving DecidableEq, Repr

def Op.run (svc : TunnelService) (projectId : String) : Op → SvcE TunnelSummary
  | .create label endpoint => svc.createProject projectId label endpoint
  | .update tunnelId label endpoint => svc.updateProject projectId tunnelId label endpoint
  | .enable tunnelId => svc.setEnabledProject projectId tunnelId true

/-- One operation after the other, each to its end. -/
def step (svc : TunnelService) (projectId : String) (w : Workshop) (op : Op × List Answer) :
    Option Workshop :=
  let (w, result) := Prog.exec (Workshop.handle svc.endpointId) w op.2 (op.1.run svc projectId).run
  result.map fun _ => w

/-- A connector that the operations have made and that is still there. -/
def Made (w : Workshop) (o : Connector) : Prop :=
  (w.cluster .connector).get? o.name = some o ∧ (Kind.connector, o.name) ∈ w.made

/-- Of the connectors made at most one is there that is not being deleted. -/
def OneLive (w : Workshop) : Prop :=
  ∀ a b : Connector, Made w a → Made w b → a.deleting = false → b.deleting = false → a.name = b.name

/-- A connector that was made cannot be found by the identity. -/
def unpublished (endpointId : String) (w : Workshop) : Bool :=
  (w.cluster .connector).objects.any fun o =>
    (Kind.connector, o.name) ∈ w.made && o.spec.publicKeyId ≠ some endpointId

/-- While a connector that was made cannot be found, the node has connection details and
publishing them is carried out; a connector that is created is answered with. -/
def Publishes (endpointId : String) (w : Workshop) (c : Call) (answer : Answer) : Prop :=
  match c with
  | .create .connector _ _ => answer.landed → answer.outcome = .done
  | .buildConnectionDetails => unpublished endpointId w → answer.details.isSome
  | .patch .connector _ (.connectionDetails _) => unpublished endpointId w → answer.landed
  | _ => True

instance (endpointId : String) :
    ∀ w c answer, Decidable (Publishes endpointId w c answer) := fun w c answer => by
  unfold Publishes
  split <;> infer_instance

/-- The operation is answered so. -/
def Published (svc : TunnelService) (projectId : String) (w : Workshop) (op : Op × List Answer) :
    Prop :=
  Prog.Answered (Workshop.handle svc.endpointId) (Publishes svc.endpointId) w op.2
    (op.1.run svc projectId).run

/-! ## What is kept -/

variable {endpointId : String} {w t : Workshop} {c : Call} {answer : Answer}

/-- There is at most one of the connectors made, and it can be found. -/
structure Findable (endpointId : String) (w : Workshop) : Prop where
  one : ∀ a b : Connector, Made w a → Made w b → a.name = b.name
  found : ∀ o : Connector, Made w o → o.spec.publicKeyId = some endpointId

/-- There is at most one, under a name, that perhaps cannot be found yet. -/
structure Named (endpointId name : String) (w : Workshop) : Prop where
  one : ∀ a b : Connector, Made w a → Made w b → a.name = b.name
  found : ∀ o : Connector, Made w o → o.spec.publicKeyId = some endpointId ∨ o.name = name

def NoneMade (w : Workshop) : Prop := ∀ o : Connector, ¬ Made w o

theorem Findable.oneLive (h : Findable endpointId w) : OneLive w :=
  fun a b ha hb _ _ => h.one a b ha hb

theorem Named.oneLive {name : String} (h : Named endpointId name w) : OneLive w :=
  fun a b ha hb _ _ => h.one a b ha hb

theorem NoneMade.findable (h : NoneMade w) : Findable endpointId w :=
  ⟨fun a _ ha => absurd ha (h a), fun o ho => absurd ho (h o)⟩

theorem NoneMade.oneLive (h : NoneMade w) : OneLive w :=
  fun a _ ha => absurd ha (h a)

theorem Findable.named (h : Findable endpointId w) (name : String) : Named endpointId name w :=
  ⟨h.one, fun o ho => Or.inl (h.found o ho)⟩

/-- What can be found does not wait to be published. -/
theorem Named.findable {name : String} (h : Named endpointId name w)
    (hpublished : ¬ unpublished endpointId w) : Findable endpointId w := by
  refine ⟨h.one, fun o ho => ?_⟩
  by_contra hne
  apply hpublished
  have hmem : o ∈ (w.cluster .connector).objects := Table.mem_iff.mpr ho.1
  exact List.any_eq_true.mpr ⟨o, hmem, by simp [ho.2, hne]⟩

/-- After a call there are no more connectors, and their public keys are the ones they
had or that of the node. -/
def Fewer (endpointId : String) (w t : Workshop) : Prop :=
  ∀ o' : Connector, Made t o' → ∃ o, Made w o ∧ o.name = o'.name ∧
    (o'.spec.publicKeyId = o.spec.publicKeyId ∨ o'.spec.publicKeyId = some endpointId)

theorem Fewer.findable (h : Fewer endpointId w t) (hw : Findable endpointId w) :
    Findable endpointId t := by
  refine ⟨fun a b ha hb => ?_, fun o ho => ?_⟩
  · obtain ⟨a', ha', hname, -⟩ := h a ha
    obtain ⟨b', hb', hname', -⟩ := h b hb
    exact hname.symm.trans ((hw.one a' b' ha' hb').trans hname')
  · obtain ⟨o', ho', -, hkey | hkey⟩ := h o ho
    · exact hkey.trans (hw.found o' ho')
    · exact hkey

theorem Fewer.named {name : String} (h : Fewer endpointId w t) (hw : Named endpointId name w) :
    Named endpointId name t := by
  refine ⟨fun a b ha hb => ?_, fun o ho => ?_⟩
  · obtain ⟨a', ha', hname, -⟩ := h a ha
    obtain ⟨b', hb', hname', -⟩ := h b hb
    exact hname.symm.trans ((hw.one a' b' ha' hb').trans hname')
  · obtain ⟨o', ho', hname, hkey | hkey⟩ := h o ho
    · exact (hw.found o' ho').imp hkey.trans hname.symm.trans
    · exact Or.inl hkey

theorem Fewer.noneMade (h : Fewer endpointId w t) (hw : NoneMade w) : NoneMade t := by
  intro o ho
  obtain ⟨o', ho', -⟩ := h o ho
  exact hw o' ho'

/-- The calls that create no connector, and publish nothing but what is the node's. -/
def Keeping (endpointId : String) : Call → Prop
  | .create .connector _ _ => False
  | .delete .connector _ => False
  | .patch .connector _ (.connectionDetails details) => details.publicKeyId = endpointId
  | _ => True

theorem publicKeyId_annotations (deviceName deviceOs : String) (spec : ConnectorSpec) :
    ConnectorSpec.publicKeyId (Patch.merge (.annotations deviceName deviceOs) spec) =
      spec.publicKeyId := rfl

theorem publicKeyId_connectionDetails (details : ConnectionDetails) (spec : ConnectorSpec) :
    ConnectorSpec.publicKeyId (Patch.merge (.connectionDetails details) spec) =
      some details.publicKeyId := rfl

/-- A call that creates nothing: what was made was made before. -/
theorem mem_made_of_keeping (h : Keeping endpointId c) {name : String}
    (hname : (Kind.connector, name) ∈ (Workshop.handle endpointId w c answer).1.made) :
    (Kind.connector, name) ∈ w.made := by
  rcases Workshop.mem_made hname with hcreates | hname
  · unfold Workshop.creates at hcreates
    split at hcreates
    · split at hcreates
      · cases hcreates
        exact absurd h id
      · cases hcreates
    · cases hcreates
  · exact hname

theorem fewer_of_keeping (w : Workshop) (answer : Answer) (h : Keeping endpointId c) :
    Fewer endpointId w (Workshop.handle endpointId w c answer).1 := by
  rintro o' ⟨ho', hmade⟩
  have hmade' := mem_made_of_keeping h hmade
  change ((((w.cluster.finalize answer.finalized).serve (Workshop.ofNode endpointId answer) c).1)
    .connector).get? o'.name = some o' at ho'
  by_cases hkind : writtenKind c = some .connector
  · cases c with
    | create kind newName spec =>
        cases hkind
        exact absurd h id
    | delete kind name =>
        cases hkind
        exact absurd h id
    | patch kind name patch =>
        cases hkind
        rw [Cluster.serve, Cluster.replying_landed] at ho'
        split at ho'
        · rw [Cluster.get?_patch] at ho'
          split at ho'
          · rename_i hname
            obtain ⟨o, ho, rfl⟩ := Option.map_eq_some_iff.mp ho'
            have ho := Workshop.get?_of_finalize ho
            refine ⟨o, ⟨?_, hmade'⟩, rfl, ?_⟩
            · have hname' : o.name = name := Table.name_of_get? ho
              rwa [hname']
            · cases patch with
              | annotations deviceName deviceOs => exact Or.inl rfl
              | connectionDetails details => exact Or.inr (congrArg some h)
          · exact ⟨o', ⟨Workshop.get?_of_finalize ho', hmade'⟩, rfl, Or.inl rfl⟩
        · exact ⟨o', ⟨Workshop.get?_of_finalize ho', hmade'⟩, rfl, Or.inl rfl⟩
    | _ => cases hkind
  · rw [Workshop.serve_kind hkind] at ho'
    exact ⟨o', ⟨Workshop.get?_of_finalize ho', hmade'⟩, rfl, Or.inl rfl⟩

/-- Where every state has at most one of them, and the calls keep that. -/
theorem safe_of_keeping {α : Type} {J : Workshop → Prop} {p : Svc α}
    (h : Only (Keeping endpointId) p) (hfewer : ∀ w t, Fewer endpointId w t → J w → J t)
    (hone : ∀ w, J w → OneLive w) (hw : J w) :
    SafeWhen (Workshop.handle endpointId) (Publishes endpointId) OneLive (fun t _ => J t) p w :=
  h.safeWhen (fun w _ _ hc hw _ => hfewer w _ (fewer_of_keeping w _ hc) hw) hone hw

/-! ## Finding and making it -/

/-- A list that names no connector was taken where none is that was made. -/
theorem noneMade_of_list (answer : Answer) (hw : Findable endpointId w)
    (hnil : (Workshop.handle endpointId w
      (.list .connector (.field connectorSelectorField endpointId)) answer).2 = .ok []) :
    NoneMade (Workshop.handle endpointId w
      (.list .connector (.field connectorSelectorField endpointId)) answer).1 := by
  have hkeeping : Keeping endpointId (.list .connector (.field connectorSelectorField endpointId)) :=
    trivial
  have ht := (fewer_of_keeping w answer hkeeping).findable hw
  intro o ho
  have hmem := Table.mem_iff.mpr ho.1
  have hkey : o.spec.publicKeyId = some endpointId := ht.found o ho
  rcases Cluster.list_reply w.cluster .connector (.field connectorSelectorField endpointId)
      (Workshop.ofNode endpointId answer) with hok | ⟨err, herr⟩
  · have hfilter := Except.ok.inj (hok.symm.trans hnil)
    apply List.filter_eq_nil_iff.mp hfilter o hmem
    show (connectorSelectorField = connectorSelectorField &&
      decide (o.spec.publicKeyId = some endpointId)) = true
    rw [hkey]
    simp
  · have hfalse := herr.symm.trans hnil
    cases hfalse

theorem keeping_of_writes {kinds : List Kind} (h : .connector ∉ kinds) {c : Call}
    (hc : Writes kinds c) : Keeping endpointId c := by
  have hno : writtenKind c ≠ some .connector := by
    intro hkind
    exact h (hc .connector hkind)
  unfold Keeping
  split
  · exact hno rfl
  · exact hno rfl
  · exact absurd rfl hno
  · trivial

theorem keeping_patchDeviceAnnotations (svc : TunnelService) (connector : Connector) :
    Only (Keeping endpointId) (svc.patchDeviceAnnotations connector) := by
  unfold TunnelService.patchDeviceAnnotations
  split
  · exact Only.ret _
  · refine (Only.perform trivial).bind fun r => ?_
    cases r <;> exact Only.ret _

theorem keeping_client (projectId : String) :
    Only (Keeping endpointId) (SvcE.projectControlPlaneClient projectId).run :=
  Only.perform trivial

/-- Whoever finds none looked where none was. -/
theorem safe_findConnector (svc : TunnelService) (projectId : String)
    (hw : Findable svc.endpointId w) :
    SafeWhen (Workshop.handle svc.endpointId) (Publishes svc.endpointId) OneLive
      (fun t r => Findable svc.endpointId t ∧ (r = .ok none → NoneMade t))
      (svc.findConnector projectId).run w := by
  refine SafeWhen.bindE ((safe_of_keeping (keeping_client projectId) (fun _ _ => Fewer.findable)
    (fun _ => Findable.oneLive) hw).mono fun w r _ hw => ?_)
  cases r with
  | error err => exact ⟨hw, fun h => nomatch h⟩
  | ok _ =>
      refine SafeWhen.bindE ⟨hw.oneLive, fun answer _ => ?_⟩
      have hkeeping : Keeping svc.endpointId
        (.list .connector (.field connectorSelectorField svc.endpointId)) := trivial
      have ht := (fewer_of_keeping w answer hkeeping).findable hw
      refine ⟨ht.oneLive, ?_⟩
      have hnone := noneMade_of_list answer hw
      generalize (Workshop.handle svc.endpointId w
        (.list .connector (.field connectorSelectorField svc.endpointId)) answer).2 = r at hnone
      simp only
      split
      · exact ⟨ht.oneLive, ht, fun h => nomatch h⟩
      · exact ⟨ht.oneLive, ht, fun h => nomatch h⟩
      · exact ⟨ht.oneLive, ht, fun h => nomatch h⟩
      · exact ⟨ht.oneLive, ht, fun _ => hnone rfl⟩
      · rename_i connector _
        have hlift : Only (Keeping svc.endpointId)
            (SvcE.lift (svc.patchDeviceAnnotations connector)).run :=
          (keeping_patchDeviceAnnotations svc connector).bind fun _ => Only.ret _
        refine SafeWhen.bindE ((safe_of_keeping hlift (fun _ _ => Fewer.findable)
          (fun _ => Findable.oneLive) ht).mono fun w r hI hw => ?_)
        cases r with
        | error err => exact ⟨hw, fun h => nomatch h⟩
        | ok connector => exact ⟨hI, hw, fun h => nomatch h⟩

/-- What is there after a create was made by it, or before. -/
theorem made_of_create {newName : NewName} {spec : ConnectorSpec} {o : Connector}
    (ho : Made (Workshop.handle endpointId w (.create .connector newName spec) answer).1 o) :
    (answer.landed ∧ o.name = Cluster.newName newName answer.suffix ∧
      (w.cluster.finalize answer.finalized .connector).get? o.name = none) ∨ Made w o := by
  obtain ⟨ho, hmade⟩ := ho
  change ((((w.cluster.finalize answer.finalized).serve (Workshop.ofNode endpointId answer)
    (.create .connector newName spec)).1) .connector).get? o.name = some o at ho
  rcases Workshop.mem_made hmade with hcreates | hmade
  · rw [Workshop.creates, Option.ite_none_right_eq_some] at hcreates
    obtain ⟨hfree, heq⟩ := hcreates
    have hname : Cluster.newName newName answer.suffix = o.name :=
      congrArg Prod.snd (Option.some.inj heq)
    rw [← hname]
    exact Or.inl ⟨hfree.1, rfl, hfree.2⟩
  · rw [Cluster.serve, Cluster.replying_landed] at ho
    split at ho
    · rename_i hlanded
      rw [Cluster.get?_create] at ho
      split at ho
      · rename_i hname
        change o.name = Cluster.newName newName answer.suffix at hname
        change some (((w.cluster.finalize answer.finalized .connector).get?
          (Cluster.newName newName answer.suffix)).getD _) = some o at ho
        rw [← hname] at ho
        cases hold : (w.cluster.finalize answer.finalized .connector).get? o.name with
        | none => exact Or.inl ⟨hlanded, hname, rfl⟩
        | some old =>
            rw [hold] at ho
            have heq : old = o := Option.some.inj ho
            rw [heq] at hold
            exact Or.inr ⟨Workshop.get?_of_finalize hold, hmade⟩
      · exact Or.inr ⟨Workshop.get?_of_finalize ho, hmade⟩
    · exact Or.inr ⟨Workshop.get?_of_finalize ho, hmade⟩

/-- A create that is answered with a connector has made that one, and no other create has
made any. -/
theorem made_create {newName : NewName} {spec : ConnectorSpec} (hw : NoneMade w)
    (hanswer : Publishes endpointId w (.create .connector newName spec) answer) :
    match (Workshop.handle endpointId w (.create .connector newName spec) answer).2 with
    | .ok o =>
        Named endpointId o.name
          (Workshop.handle endpointId w (.create .connector newName spec) answer).1
    | .error _ =>
        NoneMade (Workshop.handle endpointId w (.create .connector newName spec) answer).1 := by
  have hmade : ∀ o, Made (Workshop.handle endpointId w (.create .connector newName spec) answer).1
      o → answer.landed ∧ o.name = Cluster.newName newName answer.suffix ∧
        (w.cluster.finalize answer.finalized .connector).get? o.name = none := by
    intro o ho
    rcases made_of_create ho with hnew | hold
    · exact hnew
    · exact absurd hold (hw o)
  cases hreply : (Workshop.handle endpointId w (.create .connector newName spec) answer).2 with
  | ok o =>
      obtain ⟨-, hname, -⟩ := Cluster.create_ok hreply
      have hname : o.name = Cluster.newName newName answer.suffix := hname
      constructor
      · intro a b ha hb
        exact (hmade a ha).2.1.trans (hmade b hb).2.1.symm
      · intro o' ho'
        exact Or.inr ((hmade o' ho').2.1.trans hname.symm)
  | error err =>
      intro o ho
      obtain ⟨hlanded, hname, hnone⟩ := hmade o ho
      have hdone : (Workshop.ofNode endpointId answer).outcome = .done := hanswer hlanded
      change ((w.cluster.finalize answer.finalized).serve (Workshop.ofNode endpointId answer)
        (.create .connector newName spec)).2 = .error err at hreply
      have hsuffix : (Workshop.ofNode endpointId answer).suffix = answer.suffix := rfl
      rw [Cluster.serve, hdone, Cluster.replying, hsuffix, Cluster.create, ← hname, hnone] at hreply
      cases hreply

/-- Retrying makes no more of them. -/
theorem safe_createRetried {newName : NewName} {spec : ConnectorSpec} (hw : NoneMade w) :
    SafeWhen (Workshop.handle endpointId) (Publishes endpointId) OneLive
      (fun t r => match r with
        | .ok o => Named endpointId o.name t
        | .error _ => NoneMade t)
      (createRetried .connector newName spec) w := by
  have hcreate : ∀ w, NoneMade w → SafeWhen (Workshop.handle endpointId) (Publishes endpointId)
      OneLive (fun t r => match r with
        | .ok o => Named endpointId o.name t
        | .error _ => NoneMade t) (Svc.create .connector newName spec) w := by
    intro w hw
    refine ⟨hw.oneLive, fun answer hanswer => ?_⟩
    have hmade := made_create hw hanswer
    generalize (Workshop.handle endpointId w (.create .connector newName spec) answer).2 = r
      at hmade
    cases r with
    | ok o => exact ⟨hmade.oneLive, hmade⟩
    | error err => exact ⟨hmade.oneLive, hmade⟩
  unfold createRetried
  generalize quotaCheckDelays = delays
  induction delays generalizing w with
  | nil => exact hcreate w hw
  | cons delay delays ih =>
      refine SafeWhen.bind ((hcreate w hw).mono fun t r hI ht => ?_)
      cases r with
      | ok o => exact ⟨hI, ht⟩
      | error err =>
          simp only
          split
          · have hsleep : Only (Keeping endpointId) (Svc.sleep delay) := Only.perform trivial
            refine SafeWhen.bind ((safe_of_keeping hsleep (fun _ _ => Fewer.noneMade)
              (fun _ => NoneMade.oneLive) ht).mono fun u _ _ hu => ?_)
            exact ih hu
          · exact ⟨hI, ht⟩

/-! ## Publishing -/

/-- A patch that is carried out gives the connector the node's key. -/
theorem found_patch {name : String} {details : ConnectionDetails}
    (hdetails : details.publicKeyId = endpointId) (hw : Named endpointId name w)
    (hlanded : answer.landed = true) :
    Findable endpointId
      (Workshop.handle endpointId w (.patch .connector name (.connectionDetails details)) answer).1 := by
  have hkeeping : Keeping endpointId (.patch .connector name (.connectionDetails details)) := hdetails
  have ht := (fewer_of_keeping w answer hkeeping).named hw
  refine ⟨ht.one, fun o ho => ?_⟩
  rcases ht.found o ho with hkey | hname
  · exact hkey
  · have ho := ho.1
    change ((((w.cluster.finalize answer.finalized).serve (Workshop.ofNode endpointId answer)
      (.patch .connector name (.connectionDetails details))).1) .connector).get? o.name = some o at ho
    have hlanded' : (Workshop.ofNode endpointId answer).landed = true := hlanded
    rw [Cluster.serve, Cluster.replying_landed, if_pos hlanded', Cluster.get?_patch, if_pos hname]
      at ho
    obtain ⟨old, -, rfl⟩ := Option.map_eq_some_iff.mp ho
    exact congrArg some hdetails

theorem safe_publishConnectionDetails {connectorName : String}
    (hw : Named endpointId connectorName w) :
    SafeWhen (Workshop.handle endpointId) (Publishes endpointId) OneLive
      (fun t _ => Findable endpointId t)
      (TunnelService.publishConnectionDetails connectorName) w := by
  refine ⟨hw.oneLive, fun answer hanswer => ?_⟩
  have hkeeping : Keeping endpointId .buildConnectionDetails := trivial
  have hfewer := fewer_of_keeping w answer hkeeping
  have ht := hfewer.named hw
  cases hdetails : answer.details with
  | none =>
      have hpublished : ¬ unpublished endpointId w := by
        intro hun
        have hsome := hanswer hun
        rw [hdetails] at hsome
        cases hsome
      have hreply : (Workshop.handle endpointId w .buildConnectionDetails answer).2 = none :=
        congrArg (Option.map _) hdetails
      rw [hreply]
      exact ⟨ht.oneLive, hfewer.findable (hw.findable hpublished)⟩
  | some details =>
      have hreply : (Workshop.handle endpointId w .buildConnectionDetails answer).2 =
          some { details with publicKeyId := endpointId } := congrArg (Option.map _) hdetails
      rw [hreply]
      refine ⟨ht.oneLive, fun answer' hanswer' => ?_⟩
      generalize (Workshop.handle endpointId w .buildConnectionDetails answer).1 = t at ht hanswer'
      have hu : Findable endpointId (Workshop.handle endpointId t (.patch .connector connectorName
          (.connectionDetails { details with publicKeyId := endpointId })) answer').1 := by
        by_cases hun : unpublished endpointId t
        · exact found_patch rfl ht (hanswer' hun)
        · have hkeeping : Keeping endpointId (.patch .connector connectorName
            (.connectionDetails { details with publicKeyId := endpointId })) := rfl
          exact (fewer_of_keeping t answer' hkeeping).findable (ht.findable hun)
      exact ⟨hu.oneLive, hu⟩

/-! ## The operations -/

/-- The computation goes from states where what was made can be found to such states. -/
def Keeps {α : Type} (endpointId : String) (p : Svc α) : Prop :=
  ∀ w, Findable endpointId w →
    SafeWhen (Workshop.handle endpointId) (Publishes endpointId) OneLive
      (fun t _ => Findable endpointId t) p w

namespace Keeps

variable {α β : Type}

theorem of_only {p : Svc α} (h : Only (Keeping endpointId) p) : Keeps endpointId p :=
  fun _ hw => safe_of_keeping h (fun _ _ => Fewer.findable) (fun _ => Findable.oneLive) hw

theorem of_writes (kinds : List Kind) {p : Svc α} (h : Only (Writes kinds) p)
    (hno : .connector ∉ kinds) : Keeps endpointId p :=
  of_only (h.mono fun _ => keeping_of_writes hno)

theorem ret (a : α) : Keeps endpointId (.ret a : Svc α) := fun _ hw => ⟨hw.oneLive, hw⟩

theorem bindE {p : SvcE α} {f : α → SvcE β} (hp : Keeps endpointId p.run)
    (hf : ∀ a, Keeps endpointId (f a).run) : Keeps endpointId (p >>= f).run := by
  intro w hw
  refine SafeWhen.bindE ((hp w hw).mono fun t r _ ht => ?_)
  cases r with
  | ok a => exact hf a t ht
  | error err => exact ht

end Keeps

variable {svc : TunnelService}

/-- Whichever way it gets the connector, what was made can be found afterwards. -/
theorem keeps_ensureConnector (projectId : String) :
    Keeps svc.endpointId (svc.ensureConnector projectId).run := by
  refine (Keeps.of_only (keeping_client projectId)).bindE fun _ w hw => ?_
  refine SafeWhen.bindE ((safe_findConnector svc projectId hw).mono fun w found _ hfound => ?_)
  obtain ⟨hw, hnone⟩ := hfound
  match found with
  | .error err => exact hw
  | .ok (some connector) =>
      refine SafeWhen.bindE (SafeWhen.bind
        ((safe_publishConnectionDetails (hw.named connector.name)).mono fun t _ hI ht => ?_))
      exact ⟨hI, hI, ht⟩
  | .ok none =>
      have hclass : Only (Keeping svc.endpointId) (SvcE.lift resolveConnectorClass).run := by
        apply Only.bind
        · exact (Only.perform trivial).bind fun r => by cases r <;> exact Only.ret _
        · exact fun _ => Only.ret _
      refine SafeWhen.bindE ((safe_of_keeping hclass (fun _ _ => Fewer.noneMade)
        (fun _ => NoneMade.oneLive) (hnone rfl)).mono fun w r _ hw => ?_)
      cases r with
      | error err => exact hw.findable
      | ok className =>
          refine SafeWhen.bindE (SafeWhen.bind
            ((safe_createRetried hw).mono fun w created hI hcreated => ?_))
          cases created with
          | error err => exact ⟨hI, hcreated.findable⟩
          | ok connector =>
              refine ⟨hI, SafeWhen.bindE (SafeWhen.bind
                ((safe_publishConnectionDetails hcreated).mono fun t _ hI ht => ?_))⟩
              exact ⟨hI, hI, ht⟩

theorem keeps_createProject (projectId label endpoint : String) :
    Keeps svc.endpointId (svc.createProject projectId label endpoint).run := by
  refine (Keeps.of_writes [] Writes.ofExcept (by simp)).bindE fun target => ?_
  refine (keeps_ensureConnector projectId).bindE fun connector => ?_
  apply Keeps.of_writes [.httpProxy, .connectorAdvertisement, .trafficProtectionPolicy]
  · refine (Writes.client projectId).bindE fun _ => ?_
    refine (Writes.mapError (Writes.create (by simp))).bindE fun proxy => ?_
    refine (Writes.mapError (Writes.create (by simp))).bindE fun _ => ?_
    refine (Writes.createPolicy svc proxy.name (by simp)).bindE fun _ => ?_
    refine (Writes.lift (Writes.spawnEdgePolicies svc)).bindE fun _ => ?_
    refine Writes.ofExcept.bindE fun proxyState => ?_
    exact (Writes.lift (Only.perform (Writes.of_none rfl))).bindE fun _ => Only.ret _
  · simp

theorem keeps_updateProject (projectId tunnelId label endpoint : String) :
    Keeps svc.endpointId (svc.updateProject projectId tunnelId label endpoint).run := by
  refine (Keeps.of_writes [] Writes.ofExcept (by simp)).bindE fun target => ?_
  refine (keeps_ensureConnector projectId).bindE fun connector => ?_
  apply Keeps.of_writes [.httpProxy, .connectorAdvertisement]
  · refine (Writes.client projectId).bindE fun _ => ?_
    refine (Writes.mapError (Only.perform (Writes.of_none rfl))).bindE fun existing => ?_
    refine (Writes.patchProxy (by simp)).bindE fun _ => ?_
    refine (Writes.patchAdvertisement (by simp)).bindE fun enabled => ?_
    exact (Writes.lift (Writes.storeProxyState svc _)).bindE fun _ => Only.ret _
  · simp

theorem keeps_enable (projectId tunnelId : String) (proxy : HTTPProxy) (endpoint label : String) :
    Keeps svc.endpointId (svc.enable projectId tunnelId proxy endpoint label).run := by
  refine (keeps_ensureConnector projectId).bindE fun connector => ?_
  apply Keeps.of_writes [.httpProxy, .connectorAdvertisement]
  · refine Writes.ofExcept.bindE fun target => ?_
    refine (Writes.patchProxy (by simp)).bindE fun written => ?_
    refine (Writes.writeAdvertisement (by simp)).bindE fun _ => ?_
    exact Writes.lift (Writes.spawnEdgePolicies svc)
  · simp

theorem keeps_setEnabledProject (projectId tunnelId : String) :
    Keeps svc.endpointId (svc.setEnabledProject projectId tunnelId true).run := by
  refine (Keeps.of_only (keeping_client projectId)).bindE fun _ => ?_
  refine (Keeps.of_writes []
    (Writes.mapError (Only.perform (Writes.of_none rfl))) (by simp)).bindE fun proxy => ?_
  refine (keeps_enable projectId tunnelId proxy _ _).bindE fun _ => ?_
  apply Keeps.of_writes []
  · exact (Writes.lift (Writes.storeProxyState svc _)).bindE fun _ => Only.ret _
  · simp

theorem keeps_run (projectId : String) (op : Op) :
    Keeps svc.endpointId (op.run svc projectId).run := by
  cases op with
  | create label endpoint => exact keeps_createProject projectId label endpoint
  | update tunnelId label endpoint => exact keeps_updateProject projectId tunnelId label endpoint
  | enable tunnelId => exact keeps_setEnabledProject projectId tunnelId

/-! ## Runs -/

instance (svc : TunnelService) (projectId : String) :
    ∀ w op, Decidable (Published svc projectId w op) := fun w op => by
  unfold Published
  infer_instance

theorem findable_step {projectId : String} {op : Op × List Answer} (hw : Findable svc.endpointId w)
    (hop : Published svc projectId w op) (hstep : step svc projectId w op = some t) :
    Findable svc.endpointId t := by
  have hpost := (keeps_run projectId op.1 w hw).exec hop
  unfold step at hstep
  obtain ⟨result, hresult, rfl⟩ := Option.map_eq_some_iff.mp hstep
  exact hpost.2 result hresult

/-- After any operations, and at every moment of another one, at most one of the
connectors they have made is live, as long as what is made gets published. -/
theorem one_live (svc : TunnelService) (projectId : String) (cluster : Cluster)
    (ops : List (Op × List Answer)) (w : Workshop) (op : Op × List Answer)
    (hrun : Runs.run (step svc projectId) { cluster } ops = some w)
    (hops : Runs.Meets (step svc projectId) (Published svc projectId) { cluster } ops)
    (hop : Published svc projectId w op) :
    OneLive (Prog.exec (Workshop.handle svc.endpointId) w op.2 (op.1.run svc projectId).run).1 := by
  have hinit : Findable svc.endpointId { cluster } :=
    NoneMade.findable fun o ho => by
      have hmem := ho.2
      cases hmem
  have hstep : ∀ w op t, Findable svc.endpointId w → Published svc projectId w op →
      step svc projectId w op = some t → Findable svc.endpointId t :=
    fun _ _ _ hw hop h => findable_step hw hop h
  have hw := Runs.invariant hstep hinit hops hrun
  exact ((keeps_run projectId op.1 w hw).exec hop).1

open Workshop (nodeService)

def details : ConnectionDetails := { homeRelay := "r", addresses := [], publicKeyId := "key" }

/-- A create that makes its connector under the name given. -/
def creating (suffix : String) : Op × List Answer :=
  (.create "a" "h:1",
    [{}, {}, {}, {}, { suffix }, { details }, {}, {}, { suffix }, {}, {}])

/-- The same before the node has reached its relay. -/
def creatingEarly (suffix : String) : Op × List Answer :=
  (.create "a" "h:1",
    [{}, {}, {}, {}, { suffix }, {}, {}, { suffix }, {}, {}])

def finding : Op × List Answer :=
  (.create "b" "h:2", [{}, {}, {}, { details }, {}, {}, { suffix := "z" }, {}, {}])

theorem one_live_found :
    ∃ w, Runs.run (step nodeService "p") { cluster := Cluster.empty } [creating "x"] = some w ∧
      OneLive (Prog.exec (Workshop.handle nodeService.endpointId) w finding.2
        (finding.1.run nodeService "p").run).1 :=
  ⟨_, rfl, one_live nodeService "p" Cluster.empty [creating "x"] _ finding rfl (by decide)
    (by decide)⟩

/-- A second create before the node has reached its relay makes a second connector. -/
theorem two_live :
    ∃ w, Runs.run (step nodeService "p") { cluster := Cluster.empty }
      [creatingEarly "x", creatingEarly "y"] = some w ∧ ¬ OneLive w := by
  refine ⟨_, rfl, fun h => ?_⟩
  have hname := h
    ⟨"datum-connect-x", false, ⟨"iroh-quic-tunnel", some "box", some "linux", none⟩⟩
    ⟨"datum-connect-y", false, ⟨"iroh-quic-tunnel", some "box", some "linux", none⟩⟩
    ⟨rfl, by decide⟩ ⟨rfl, by decide⟩ rfl rfl
  exact absurd hname (by decide)

end OneConnector

end DatumConnect.Tunnels
