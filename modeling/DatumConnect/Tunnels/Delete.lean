import DatumConnect.Cloud.Server
import DatumConnect.Tunnels.Service
/-!
# Deleting a tunnel, and trying again

`delete_project` is a sequence of calls any of which can fail.  What it may delete
is said of one call, by what the project holds at that moment; `Spares` is what
follows for the project as a whole, over one attempt and over many.
-/

namespace DatumConnect.Tunnels

open DatumConnect.Lib
open DatumConnect.Cloud

/-- Another tunnel's proxy is alive and references the connector. -/
def InUse (s : Cluster) (tunnelId connectorName : String) : Prop :=
  ∃ name proxy, (s .httpProxy).get? name = some proxy ∧ name ≠ tunnelId ∧
    liveConnectorName proxy = some connectorName

/-- The connectors that attempts may take for the tunnel's: the one that its proxy names first,
and those of the identities that attempt it. -/
def Taken (identities : List String) (s : Cluster) (tunnelId connectorName : String) : Prop :=
  (∃ proxy, (s .httpProxy).get? tunnelId = some proxy ∧
      HTTPProxy.connectorName proxy.spec = some connectorName) ∨
    ∃ connector, (s .connector).get? connectorName = some connector ∧
      ∃ identity ∈ identities, connector.spec.publicKeyId = some identity

/-- The objects that are none of the tunnel's own, where these connectors are taken for it. -/
def Foreign (taken : String → Prop) (s : Cluster) (tunnelId : String) :
    (kind : Kind) → Object kind.Spec → Prop
  | .httpProxy, o => o.name ≠ tunnelId
  | .connectorAdvertisement, o =>
      o.name ≠ tunnelId ∧ (taken o.spec.connectorRef → InUse s tunnelId o.spec.connectorRef)
  | .connector, o => taken o.name → InUse s tunnelId o.name
  | .trafficProtectionPolicy, o =>
      o.name ≠ tunnelId ∧ (o.name = wafPolicyName tunnelId → o.spec.managed = false)
  | .backendTrafficPolicy, o => o.name ≠ timeoutPolicyName tunnelId

/-- Only a connector's annotations are ever written over. -/
def SameSpec : (kind : Kind) → kind.Spec → kind.Spec → Prop
  | .connector, a, b => a.publicKeyId = b.publicKeyId
  | _, a, b => a = b

theorem SameSpec.refl (kind : Kind) (spec : kind.Spec) : SameSpec kind spec spec := by
  cases kind <;> rfl

theorem SameSpec.trans {kind : Kind} {a b c : kind.Spec} (h : SameSpec kind a b)
    (h' : SameSpec kind b c) : SameSpec kind a c := by
  cases kind <;> exact Eq.trans h h'

instance (kind : Kind) : Std.Refl (SameSpec kind) := ⟨SameSpec.refl kind⟩

instance (kind : Kind) : IsTrans kind.Spec (SameSpec kind) := ⟨fun _ _ _ => SameSpec.trans⟩

/-- Objects have only been deleted, and none that is not the tunnel's own. -/
structure Spares (taken : String → Prop) (tunnelId : String) (s s' : Cluster) : Prop where
  shrinks : ∀ kind, Table.Shrinks (SameSpec kind) (s kind) (s' kind)
  keeps : ∀ kind, Table.Keeps (SameSpec kind) (Foreign taken s tunnelId kind) (s kind) (s' kind)

variable {taken : String → Prop} {tunnelId : String} {s s' : Cluster}

theorem deleting_eq_false {proxy : HTTPProxy} {connectorName : String}
    (h : liveConnectorName proxy = some connectorName) : proxy.deleting = false := by
  unfold liveConnectorName at h
  split at h
  · cases h
  · simp_all

theorem liveConnectorName_congr {proxy proxy' : HTTPProxy} (hspec : proxy.spec = proxy'.spec)
    (hdel : proxy.deleting = proxy'.deleting) :
    liveConnectorName proxy = liveConnectorName proxy' := by
  unfold liveConnectorName
  rw [hspec, hdel]

namespace Spares

theorem refl (s : Cluster) : Spares taken tunnelId s s :=
  ⟨fun _ => Table.Shrinks.refl _, fun _ => Table.Keeps.refl _ _⟩

/-- Other tunnels use the connectors they used. -/
theorem inUse_iff (h : Spares taken tunnelId s s') {connectorName : String} :
    InUse s tunnelId connectorName ↔ InUse s' tunnelId connectorName := by
  constructor
  · rintro ⟨name, proxy, hproxy, hne, hlive⟩
    have hdel := deleting_eq_false hlive
    have hname := Table.name_of_get? hproxy
    obtain ⟨proxy', hproxy', hdel', hspec⟩ := h.keeps .httpProxy name proxy hproxy hdel
      (show proxy.name ≠ tunnelId by rwa [hname])
    refine ⟨name, proxy', hproxy', hne, ?_⟩
    rw [← liveConnectorName_congr hspec (hdel.trans hdel'.symm), hlive]
  · rintro ⟨name, proxy', hproxy', hne, hlive⟩
    have hdel' := deleting_eq_false hlive
    obtain ⟨proxy, hproxy, hdel, hspec⟩ := (h.shrinks .httpProxy).live hproxy' hdel'
    refine ⟨name, proxy, hproxy, hne, ?_⟩
    rw [liveConnectorName_congr hspec (hdel.trans hdel'.symm), hlive]

theorem foreign_iff (h : Spares taken tunnelId s s') (kind : Kind) {o o' : Object kind.Spec}
    (hname : o.name = o'.name) (hspec : SameSpec kind o.spec o'.spec) :
    Foreign taken s tunnelId kind o ↔ Foreign taken s' tunnelId kind o' := by
  cases kind with
  | httpProxy => simp only [Foreign, hname]
  | connectorAdvertisement =>
      have heq : o.spec = o'.spec := hspec
      simp only [Foreign, hname, heq, h.inUse_iff]
  | connector => simp only [Foreign, hname, h.inUse_iff]
  | trafficProtectionPolicy =>
      have heq : o.spec = o'.spec := hspec
      simp only [Foreign, hname, heq]
  | backendTrafficPolicy => simp only [Foreign, hname]

theorem trans {u : Cluster} (h : Spares taken tunnelId s s') (h' : Spares taken tunnelId s' u) :
    Spares taken tunnelId s u where
  shrinks kind := (h.shrinks kind).trans (h'.shrinks kind)
  keeps kind name o ho hlive hf := by
    obtain ⟨o', ho', hlive', hspec⟩ := h.keeps kind name o ho hlive hf
    have hname : o.name = o'.name := (Table.name_of_get? ho).trans (Table.name_of_get? ho').symm
    obtain ⟨o'', ho'', hlive'', hspec'⟩ :=
      h'.keeps kind name o' ho' hlive' ((h.foreign_iff kind hname hspec).mp hf)
    exact ⟨o'', ho'', hlive'', hspec.trans hspec'⟩

instance : Std.Refl (Spares taken tunnelId) := ⟨refl⟩

instance : IsTrans Cluster (Spares taken tunnelId) := ⟨fun _ _ _ h h' => h.trans h'⟩

/-- What happens to one kind only. -/
theorem set {kind : Kind} {table : Table kind.Spec}
    (hshrinks : Table.Shrinks (SameSpec kind) (s kind) table)
    (hkeeps : Table.Keeps (SameSpec kind) (Foreign taken s tunnelId kind) (s kind) table) :
    Spares taken tunnelId s (s.set kind table) := by
  constructor
  · intro kind'
    by_cases hk : kind' = kind
    · subst hk
      rwa [Cluster.set_self]
    · rw [Cluster.set_of_ne s table hk]
      exact Table.Shrinks.refl _
  · intro kind'
    by_cases hk : kind' = kind
    · subst hk
      rwa [Cluster.set_self]
    · rw [Cluster.set_of_ne s table hk]
      exact Table.Keeps.refl _ _

theorem finalize (s : Cluster) (finalized : List (Kind × String)) :
    Spares taken tunnelId s (s.finalize finalized) where
  shrinks _ := Table.shrinks_finalize _ _
  keeps _ := Table.keeps_finalize _ _ _

end Spares

/-- What `delete_project` may call: it creates nothing, patches the annotations of connectors
only, and deletes nothing that is not the tunnel's own. -/
def Permitted (taken : String → Prop) (s : Cluster) (tunnelId : String) : Call → Prop
  | .create _ _ _ => False
  | .patch .connector _ (.annotations _ _) => True
  | .patch _ _ _ => False
  | .delete kind name =>
      ∀ o, (s kind).get? name = some o → o.deleting = false → ¬ Foreign taken s tunnelId kind o
  | _ => True

theorem Permitted.spares {c : Call} (h : Permitted taken s tunnelId c)
    (hs : Spares taken tunnelId s s') : Permitted taken s' tunnelId c := by
  cases c with
  | delete kind name =>
      intro o' ho' hlive' hf
      obtain ⟨o, ho, hlive, hspec⟩ := (hs.shrinks kind).live ho' hlive'
      have hname := (Table.name_of_get? ho).trans (Table.name_of_get? ho').symm
      exact h o ho hlive ((hs.foreign_iff kind hname hspec).mpr hf)
  | patch kind name patch => cases kind <;> cases patch <;> exact h
  | _ => exact h

/-! ## One call -/

theorem Permitted.serve {c : Call} (h : Permitted taken s tunnelId c) (answer : Answer) :
    Spares taken tunnelId s (s.serve answer c).1 := by
  cases c with
  | create kind name spec => exact h.elim
  | patch kind name patch =>
      cases patch with
      | annotations deviceName deviceOs =>
          refine Cluster.replying_fst (Spares.refl s) ?_
          unfold Cluster.patch
          split
          · exact Spares.refl s
          · have hmerge (spec : ConnectorSpec) : SameSpec .connector spec
                (Patch.merge (.annotations deviceName deviceOs) spec) := rfl
            exact Spares.set (Table.shrinks_patch _ _ _ (SameSpec.refl .connector) hmerge)
              (Table.keeps_patch _ _ _ _ (SameSpec.refl .connector) hmerge)
      | _ => exact h.elim
  | delete kind name =>
      refine Cluster.replying_fst (Spares.refl s) ?_
      unfold Cluster.delete
      split
      · exact Spares.refl s
      · exact Spares.set (Table.shrinks_delete _ _ _) (Table.keeps_delete _ h)
  | _ =>
      rw [Cluster.serve_fst s answer (by simp) (by simp) (by simp)]
      exact Spares.refl s

theorem Permitted.handle {c : Call} (h : Permitted taken s tunnelId c) (answer : Answer) :
    Spares taken tunnelId s (s.handle c answer).1 :=
  have hfin := Spares.finalize s answer.finalized
  hfin.trans ((h.spares hfin).serve answer)

/-! ## A project under watch -/

/-- The project, and the objects a call about which was refused with 401 or 403. -/
structure Watched where
  cluster : Cluster
  refused : List (Kind × String) := []

def refusal : (c : Call) → c.Reply → List (Kind × String)
  | .getOpt kind name, .error err => if err.isDenied then [(kind, name)] else []
  | .delete kind name, .error err => if err.isDenied then [(kind, name)] else []
  | _, _ => []

namespace Watched

def handle (w : Watched) (c : Call) (answer : Answer) : Watched × c.Reply :=
  let (cluster, reply) := w.cluster.handle c answer
  ({ cluster, refused := refusal c reply ++ w.refused }, reply)

structure Spared (taken : String → Prop) (tunnelId : String) (w w' : Watched) : Prop where
  cluster : Spares taken tunnelId w.cluster w'.cluster
  refused : w.refused ⊆ w'.refused

instance : Std.Refl (Spared taken tunnelId) := ⟨fun _ => ⟨Spares.refl _, List.Subset.refl _⟩⟩

instance : IsTrans Watched (Spared taken tunnelId) :=
  ⟨fun _ _ _ h h' => ⟨h.cluster.trans h'.cluster, List.Subset.trans h.refused h'.refused⟩⟩

theorem handle_spared {w : Watched} {c : Call} (h : Permitted taken w.cluster tunnelId c)
    (answer : Answer) : Spared taken tunnelId w (w.handle c answer).1 :=
  ⟨h.handle answer, List.subset_append_right _ _⟩

end Watched

open Watched
open Prog (Within OnOk)

/-- A computation that deletes nothing but what is the tunnel's own. -/
abbrev Deletes (taken : String → Prop) (tunnelId : String) {α : Type}
    (post : Watched → α → Prop) (p : Svc α) (w : Watched) : Prop :=
  Within handle (Spared taken tunnelId) post p w

variable {w : Watched} {α β ε : Type}

theorem deletes_call {c : Call} {post : Watched → c.Reply → Prop}
    (hc : Permitted taken w.cluster tunnelId c)
    (h : ∀ answer, post (w.handle c answer).1 (w.handle c answer).2) :
    Deletes taken tunnelId post (Prog.perform c) w :=
  Within.perform fun answer => ⟨handle_spared hc answer, h answer⟩

theorem deletes_getOpt {kind : Kind} {name : String}
    {post : Watched → Except KubeError (Option (Object kind.Spec)) → Prop}
    (hok : ∀ t, Spared taken tunnelId w t → post t (.ok ((t.cluster kind).get? name)))
    (herr : ∀ t err, (err.isDenied = true → (kind, name) ∈ t.refused) → post t (.error err)) :
    Deletes taken tunnelId post (Svc.getOpt kind name) w := by
  refine deletes_call (c := .getOpt kind name) trivial fun answer => ?_
  have hspared : Spared taken tunnelId w (w.handle (.getOpt kind name) answer).1 :=
    handle_spared (c := .getOpt kind name) trivial answer
  rcases w.cluster.getOpt_reply kind name answer with hr | ⟨err, hr⟩
  · have := hok _ hspared
    rwa [show (w.handle (.getOpt kind name) answer).2 = _ from hr]
  · rw [show (w.handle (.getOpt kind name) answer).2 = _ from hr]
    refine herr _ err fun hdenied => ?_
    simp [Watched.handle, hr, refusal, hdenied]

theorem deletes_list {kind : Kind} {selector : Selector}
    {post : Watched → Except KubeError (List (Object kind.Spec)) → Prop}
    (hok : ∀ t, Spared taken tunnelId w t →
      post t (.ok ((t.cluster kind).objects.filter fun o => selector.matches kind o.spec)))
    (herr : ∀ t err, post t (.error err)) :
    Deletes taken tunnelId post (Svc.list kind selector) w := by
  refine deletes_call (c := .list kind selector) trivial fun answer => ?_
  have hspared : Spared taken tunnelId w (w.handle (.list kind selector) answer).1 :=
    handle_spared (c := .list kind selector) trivial answer
  rcases w.cluster.list_reply kind selector answer with hr | ⟨err, hr⟩
  · have := hok _ hspared
    rwa [show (w.handle (.list kind selector) answer).2 = _ from hr]
  · rw [show (w.handle (.list kind selector) answer).2 = _ from hr]
    exact herr _ err

theorem deletes_delete {kind : Kind} {name : String} {post : Watched → Except KubeError Unit → Prop}
    (hc : Permitted taken w.cluster tunnelId (.delete kind name))
    (hgone : ∀ t r, (t.cluster kind).Gone name → post t r)
    (herr : ∀ t err, err.isNotFound = false → (err.isDenied = true → (kind, name) ∈ t.refused) →
      post t (.error err)) :
    Deletes taken tunnelId post (Svc.delete kind name) w := by
  refine deletes_call (c := .delete kind name) hc fun answer => ?_
  rcases w.cluster.delete_reply kind name answer with h | ⟨err, hr, hnot⟩
  · exact hgone _ _ h
  · rw [show (w.handle (.delete kind name) answer).2 = _ from hr]
    refine herr _ err hnot fun hdenied => ?_
    simp [Watched.handle, hr, refusal, hdenied]

theorem deletes_mapError {f : ε → Error} {p : Svc (Except ε α)} {post : Watched → α → Prop}
    (h : Deletes taken tunnelId (OnOk post) p w) :
    Deletes taken tunnelId (OnOk post) (SvcE.mapError f p).run w := by
  refine Within.bind (h.mono fun t r _ hr => Within.ret ?_)
  cases r with
  | ok a =>
      rintro b hb
      cases hb
      exact hr a rfl
  | error e => exact fun b hb => nomatch hb

theorem deletes_lift {p : Svc α} {post : Watched → α → Prop} (h : Deletes taken tunnelId post p w) :
    Deletes taken tunnelId (OnOk post) (SvcE.lift p).run w := by
  refine Within.bind (h.mono fun t a _ ha => Within.ret ?_)
  rintro b hb
  cases hb
  exact ha

theorem deletes_pure {a : α} {post : Watched → α → Prop} (h : post w a) :
    Deletes taken tunnelId (OnOk post) (pure a : SvcE α).run w := by
  refine Within.ret ?_
  rintro b hb
  cases hb
  exact h

theorem deletes_throw {e : Error} {post : Watched → α → Prop} :
    Deletes taken tunnelId (OnOk post) (throw e : SvcE α).run w :=
  Within.ret fun _ h => nomatch h

theorem deletes_client {projectId : String} :
    Deletes taken tunnelId (OnOk fun _ _ => True)
      (SvcE.projectControlPlaneClient projectId).run w :=
  deletes_call (c := .projectControlPlaneClient projectId) trivial fun _ _ _ => trivial

/-! ## The parts of a delete -/

theorem deletes_deleteIfThere {kind : Kind} {name loadContext deleteContext : String}
    (hc : Permitted taken w.cluster tunnelId (.delete kind name)) :
    Deletes taken tunnelId (OnOk fun t _ => (t.cluster kind).Gone name)
      (deleteIfThere kind name loadContext deleteContext).run w := by
  refine Within.bindOk (deletes_mapError (deletes_getOpt ?_ ?_))
  · rintro t hspared existing hex
    cases hex
    cases hget : (t.cluster kind).get? name with
    | none =>
        refine deletes_pure ?_
        intro o ho
        rw [hget] at ho
        cases ho
    | some o =>
        refine Within.bindOk (deletes_mapError (deletes_delete (hc.spares hspared.cluster) ?_ ?_))
        · exact fun t _ hgone _ _ => deletes_pure hgone
        · exact fun t err _ _ _ h => nomatch h
  · exact fun t err _ _ h => nomatch h

theorem name_patch {kind : Kind} {name : String} {patch : Patch kind} {answer : Answer}
    {patched : Object kind.Spec}
    (h : (w.handle (.patch kind name patch) answer).2 = .ok patched) : patched.name = name := by
  obtain ⟨_, hpatched⟩ := Cluster.replying_ok h
  unfold Cluster.patch at hpatched
  split at hpatched
  · cases hpatched
  · rename_i o ho
    cases hpatched
    have hname : o.name = name := Table.name_of_get? ho
    exact hname

theorem deletes_patchDeviceAnnotations (svc : TunnelService) (connector : Connector) :
    Deletes taken tunnelId (fun _ c => c.name = connector.name)
      (svc.patchDeviceAnnotations connector) w := by
  unfold TunnelService.patchDeviceAnnotations
  split
  · exact Within.ret rfl
  · refine Within.bind (deletes_call (c := .patch .connector _ (.annotations _ _)) trivial
      fun answer => ?_)
    split
    · rename_i patched hreply
      exact Within.ret (name_patch hreply)
    · exact Within.ret rfl

/-- Whoever attempts the delete has its connectors taken for the tunnel's, as the proxy has. -/
def Takes (taken : String → Prop) (tunnelId identity : String) (s : Cluster) : Prop :=
  ∀ connectorName, Taken [identity] s tunnelId connectorName → taken connectorName

theorem Taken.spares {identities : List String} {connectorName : String}
    (hs : Spares taken tunnelId s s') (h : Taken identities s' tunnelId connectorName) :
    Taken identities s tunnelId connectorName := by
  rcases h with ⟨proxy', hproxy', hc⟩ | ⟨connector', hconnector', identity, hid, hkey⟩
  · obtain ⟨proxy, hproxy, hspec, _⟩ := hs.shrinks .httpProxy _ proxy' hproxy'
    have heq : proxy.spec = proxy'.spec := hspec
    exact .inl ⟨proxy, hproxy, heq ▸ hc⟩
  · obtain ⟨connector, hconnector, hspec, _⟩ := hs.shrinks .connector _ connector' hconnector'
    have heq : connector.spec.publicKeyId = connector'.spec.publicKeyId := hspec
    exact .inr ⟨connector, hconnector, identity, hid, heq.trans hkey⟩

theorem Takes.spares {identity : String} (h : Takes taken tunnelId identity s)
    (hs : Spares taken tunnelId s s') : Takes taken tunnelId identity s' :=
  fun connectorName htaken => h connectorName (htaken.spares hs)

theorem deletes_findConnector (svc : TunnelService) {projectId : String}
    (htakes : Takes taken tunnelId svc.endpointId w.cluster) :
    Deletes taken tunnelId (OnOk fun _ connector => ∀ c, connector = some c → taken c.name)
      (svc.findConnector projectId).run w := by
  refine Within.bindOk (deletes_client.mono fun t _ ht _ _ _ => ?_)
  refine Within.bindOk (deletes_lift (deletes_list (fun u hu => ?_) fun u err => ?_))
  · have hs := ht.cluster.trans hu.cluster
    split
    · rename_i heq
      cases heq
    · rename_i heq
      cases heq
    · rename_i heq
      cases heq
    · exact deletes_pure fun c hc => nomatch hc
    · rename_i connector rest heq
      have hmem : connector ∈ (u.cluster .connector).objects.filter fun o =>
          (Selector.field connectorSelectorField svc.endpointId).matches .connector o.spec := by
        rw [Except.ok.inj heq]
        exact List.mem_cons_self
      obtain ⟨hthere, hmatches⟩ := List.mem_filter.mp hmem
      have hkey : connector.spec.publicKeyId = some svc.endpointId := by
        simpa [Selector.matches] using hmatches
      have htaken : taken connector.name :=
        htakes.spares hs connector.name (.inr ⟨connector, Table.mem_iff.mp hthere,
          svc.endpointId, List.mem_singleton.mpr rfl, hkey⟩)
      refine Within.bindOk (deletes_lift ((deletes_patchDeviceAnnotations svc _).mono ?_))
      intro v patched _ hname
      refine deletes_pure fun c hc => ?_
      cases hc
      rwa [hname]
  · split
    · exact deletes_throw
    · exact deletes_throw
    · exact deletes_throw
    · rename_i heq
      cases heq
    · rename_i heq
      cases heq

/-- A policy that may be deleted goes, unless a call about it is refused. -/
theorem deletes_deletePolicy {kind : Kind} {name : String}
    (hc : Permitted taken w.cluster tunnelId (.delete kind name)) :
    Deletes taken tunnelId (OnOk fun t _ => (kind, name) ∈ t.refused ∨ (t.cluster kind).Gone name)
      (deletePolicy kind name).run w := by
  refine Within.bindOk (deletes_lift (deletes_delete hc (fun t r hgone => ?_)
    fun t err hfound hdenied => ?_))
  · cases r with
    | ok _ => exact deletes_pure (.inr hgone)
    | error err =>
        simp only
        split
        · exact deletes_pure (.inr hgone)
        · split
          · exact deletes_pure (.inr hgone)
          · exact deletes_throw
  · simp only
    split
    · simp [KubeError.isNotFound] at hfound
    · split
      · rename_i h
        exact deletes_pure (.inl (hdenied h))
      · exact deletes_throw

theorem deletes_checkPolicy {kind : Kind} {what name : String} :
    Deletes taken tunnelId (OnOk fun t policy =>
        (policy = (t.cluster kind).get? name) ∨ policy = none ∧ (kind, name) ∈ t.refused)
      (checkPolicy kind what name).run w := by
  refine Within.bindOk (deletes_lift (deletes_getOpt (fun t _ => ?_) fun t err hdenied => ?_))
  · exact deletes_pure (.inl rfl)
  · simp only
    split
    · rename_i h
      exact deletes_pure (.inr ⟨rfl, hdenied h⟩)
    · exact deletes_throw

/-- What is left of the tunnel's WAF policy is not this code's, or a call about it
was refused. -/
def WafDone (tunnelId : String) (t : Watched) : Prop :=
  (Kind.trafficProtectionPolicy, wafPolicyName tunnelId) ∈ t.refused ∨
    ∀ o, (t.cluster .trafficProtectionPolicy).get? (wafPolicyName tunnelId) = some o →
      o.spec.managed = true → o.deleting = true

def TimeoutDone (tunnelId : String) (t : Watched) : Prop :=
  (Kind.backendTrafficPolicy, timeoutPolicyName tunnelId) ∈ t.refused ∨
    (t.cluster .backendTrafficPolicy).Gone (timeoutPolicyName tunnelId)

theorem WafDone.spared {t t' : Watched} (h : WafDone tunnelId t) (hs : Spared taken tunnelId t t') :
    WafDone tunnelId t' := by
  rcases h with h | h
  · exact .inl (hs.refused h)
  · refine .inr fun o' ho' hmanaged => ?_
    obtain ⟨o, ho, hspec, hdel⟩ := hs.cluster.shrinks .trafficProtectionPolicy _ o' ho'
    have heq : o.spec = o'.spec := hspec
    exact hdel (h o ho (heq ▸ hmanaged))

theorem TimeoutDone.spared {t t' : Watched} (h : TimeoutDone tunnelId t)
    (hs : Spared taken tunnelId t t') : TimeoutDone tunnelId t' :=
  h.imp (fun h => hs.refused h) (hs.cluster.shrinks .backendTrafficPolicy).gone

theorem deletes_deleteWafPolicy :
    Deletes taken tunnelId (OnOk fun t _ => WafDone tunnelId t)
      (deleteWafPolicy (wafPolicyName tunnelId)).run w := by
  refine Within.bindOk (deletes_checkPolicy.mono fun t r _ hr policy hpolicy => ?_)
  cases hpolicy
  have hr := hr _ rfl
  cases policy with
  | none =>
      refine deletes_pure ?_
      rcases hr with hnone | ⟨_, hrefused⟩
      · exact .inr fun o ho => by rw [← hnone] at ho; cases ho
      · exact .inl hrefused
  | some policy =>
      rcases hr with hsome | ⟨hnone, _⟩
      · simp only
        split
        · rename_i hmanaged
          refine Within.bindOk ((deletes_deletePolicy ?_).mono ?_)
          · rintro o ho _ ⟨_, hforeign⟩
            rw [← hsome] at ho
            cases ho
            have := hforeign (Table.name_of_get? hsome.symm)
            rw [hmanaged] at this
            cases this
          · rintro t r _ hr deleted hdeleted
            refine deletes_pure ?_
            rcases hr deleted hdeleted with hrefused | hgone
            · exact .inl hrefused
            · exact .inr fun o ho _ => hgone o ho
        · rename_i hmanaged
          refine deletes_pure (.inr fun o ho hm => ?_)
          rw [← hsome] at ho
          cases ho
          exact absurd hm hmanaged
      · cases hnone

theorem deletes_deleteTimeoutPolicy :
    Deletes taken tunnelId (OnOk fun t _ => TimeoutDone tunnelId t)
      (deleteTimeoutPolicy (timeoutPolicyName tunnelId)).run w := by
  refine Within.bindOk (deletes_checkPolicy.mono fun t r _ hr policy hpolicy => ?_)
  cases hpolicy
  have hr := hr _ rfl
  cases policy with
  | none =>
      refine deletes_pure ?_
      rcases hr with hnone | ⟨_, hrefused⟩
      · exact .inr fun o ho => by rw [← hnone] at ho; cases ho
      · exact .inl hrefused
  | some policy =>
      refine Within.bindOk ((deletes_deletePolicy ?_).mono fun t r _ hr deleted hdeleted => ?_)
      · intro o ho _ hforeign
        exact hforeign (Table.name_of_get? ho)
      · exact deletes_pure (hr deleted hdeleted)

theorem deletes_deleteEdgePolicies :
    Deletes taken tunnelId (OnOk fun t _ => WafDone tunnelId t ∧ TimeoutDone tunnelId t)
      (deleteEdgePolicies tunnelId).run w := by
  refine Within.bindOk (deletes_deleteWafPolicy.mono fun t r _ hr waf hwaf => ?_)
  refine Within.bindOk (deletes_deleteTimeoutPolicy.mono ?_)
  intro t' r' hspared hr' timeout htimeout
  exact deletes_pure ⟨(hr waf hwaf).spared hspared, hr' timeout htimeout⟩

/-- Deleting a list of advertisements, each of which may be deleted. -/
theorem deletes_deleteEach {kind : Kind} {names : List String}
    (hc : ∀ name ∈ names, Permitted taken w.cluster tunnelId (.delete kind name)) :
    Deletes taken tunnelId (fun _ _ => True) (deleteEach kind names) w := by
  induction names generalizing w with
  | nil => exact Within.ret trivial
  | cons name names ih =>
      refine Within.bind (Within.bind (deletes_call (hc name List.mem_cons_self) fun answer => ?_))
      have hspared : Spared taken tunnelId w (w.handle (.delete kind name) answer).1 :=
        handle_spared (hc name List.mem_cons_self) answer
      refine Within.ret (ih fun name' hname' => ?_)
      exact (hc name' (List.mem_cons_of_mem name hname')).spares hspared.cluster

/-- The connector is gone, or another tunnel uses it. -/
def ConnectorDone (tunnelId connectorName : String) (s : Cluster) : Prop :=
  (s .connector).Gone connectorName ∨ InUse s tunnelId connectorName

theorem deletes_deleteConnectorIfUnused {connectorName : String} (htaken : taken connectorName)
    (hgone : (w.cluster .httpProxy).Gone tunnelId) :
    Deletes taken tunnelId (OnOk fun t _ => ConnectorDone tunnelId connectorName t.cluster)
      (deleteConnectorIfUnused connectorName).run w := by
  refine Within.bindOk (deletes_mapError (deletes_list ?_ ?_))
  · rintro t hspared remaining hremaining
    cases hremaining
    -- in the list just read, the connector is in use exactly where it is in the project
    have hlisted : (t.cluster .httpProxy).objects.any (fun proxy =>
        liveConnectorName proxy = some connectorName) = true ↔
          InUse t.cluster tunnelId connectorName := by
      rw [List.any_eq_true]
      constructor
      · rintro ⟨proxy, hmem, hlive⟩
        rw [decide_eq_true_eq] at hlive
        refine ⟨proxy.name, proxy, Table.mem_iff.mp hmem, ?_, hlive⟩
        rintro heq
        have hdel := (hspared.cluster.shrinks .httpProxy).gone hgone proxy
          (heq ▸ Table.mem_iff.mp hmem)
        rw [deleting_eq_false hlive] at hdel
        cases hdel
      · rintro ⟨name, proxy, hproxy, _, hlive⟩
        exact ⟨proxy, List.mem_of_find?_eq_some hproxy, by simpa using hlive⟩
    simp only [Selector.matches, List.filter_true]
    split
    · rename_i hany
      exact deletes_pure (.inr (hlisted.mp hany))
    · rename_i hany
      have hunused : ¬ InUse t.cluster tunnelId connectorName := fun h => hany (hlisted.mpr h)
      refine Within.bindOk (deletes_mapError (deletes_list ?_ ?_))
      · rintro u hspared' ads hads
        cases hads
        have hunused' : ¬ InUse u.cluster tunnelId connectorName :=
          fun h => hunused (hspared'.cluster.inUse_iff.mpr h)
        refine Within.bindOk (deletes_lift ((deletes_deleteEach ?_).mono ?_))
        · intro name hname o ho _ hforeign
          obtain ⟨ad, had, rfl⟩ := List.mem_map.mp hname
          obtain ⟨hmem, href⟩ := List.mem_filter.mp had
          rw [Table.mem_iff.mp (List.mem_of_mem_filter hmem)] at ho
          cases ho
          rw [decide_eq_true_eq] at href
          exact hunused' (href ▸ hforeign.2 (href.symm ▸ htaken))
        · rintro v _ hspared'' _ 
          refine (deletes_deleteIfThere ?_).mono fun v' r _ hr name hname => .inl (hr name hname)
          intro o ho _ hforeign
          have huse : taken o.name → InUse v.cluster tunnelId o.name := hforeign
          rw [Table.name_of_get? ho] at huse
          exact hunused' (hspared''.cluster.inUse_iff.mpr (huse htaken))
      · exact fun t err _ h => nomatch h
  · exact fun t err _ h => nomatch h

theorem ConnectorDone.spares {connectorName : String} (h : ConnectorDone tunnelId connectorName s)
    (hs : Spares taken tunnelId s s') : ConnectorDone tunnelId connectorName s' :=
  h.imp (hs.shrinks .connector).gone hs.inUse_iff.mp

/-! ## A whole attempt -/

/-- Nothing is left of the tunnel's own objects. -/
structure Removed (tunnelId : String) (w : Watched) : Prop where
  proxy : (w.cluster .httpProxy).Gone tunnelId
  advertisement : (w.cluster .connectorAdvertisement).Gone tunnelId
  policy : (w.cluster .trafficProtectionPolicy).Gone tunnelId
  waf : WafDone tunnelId w
  timeout : TimeoutDone tunnelId w

/-- The connector of the proxy that was read at the start, or one of the service's own. -/
theorem deletes_connectorToDelete (svc : TunnelService) {projectId : String}
    (htakes : Takes taken tunnelId svc.endpointId w.cluster) (proxy : Option HTTPProxy)
    (hproxy : proxy = (w.cluster .httpProxy).get? tunnelId) :
    Deletes taken tunnelId
      (OnOk fun _ name => (∀ c, name = some c → taken c) ∧
        ∀ c, proxy.bind (fun p => HTTPProxy.connectorName p.spec) = some c → name = some c)
      (svc.connectorToDelete projectId proxy).run w := by
  unfold TunnelService.connectorToDelete
  cases h : proxy.bind fun p => HTTPProxy.connectorName p.spec with
  | some name =>
      refine deletes_pure ⟨fun c hc => ?_, fun c hc => hc⟩
      obtain ⟨p, hp, hname⟩ := Option.bind_eq_some_iff.mp h
      cases hc
      exact htakes _ (.inl ⟨p, hproxy ▸ hp, hname⟩)
  | none =>
      refine Within.bindOk ((deletes_findConnector svc htakes).mono fun t r _ hr connector hc => ?_)
      refine deletes_pure ⟨fun c hname => ?_, fun c hc => nomatch hc⟩
      obtain ⟨found, rfl, rfl⟩ := Option.map_eq_some_iff.mp hname
      exact hr _ hc found rfl

theorem deletes_deleteProxy {existing : Option HTTPProxy}
    (h : existing = none → (w.cluster .httpProxy).Gone tunnelId) :
    Deletes taken tunnelId (OnOk fun t _ => (t.cluster .httpProxy).Gone tunnelId)
      (deleteProxy existing tunnelId).run w := by
  cases existing with
  | none => exact deletes_pure (h rfl)
  | some proxy =>
      refine deletes_mapError (deletes_delete ?_ (fun t r hgone _ _ => hgone) ?_)
      · exact fun o ho _ hforeign => hforeign (Table.name_of_get? ho)
      · exact fun t err _ _ _ h => nomatch h

theorem deletes_deleteConnectorOf {connectorName : Option String}
    (htaken : ∀ c, connectorName = some c → taken c)
    (hgone : (w.cluster .httpProxy).Gone tunnelId) :
    Deletes taken tunnelId
      (OnOk fun t _ => ∀ c, connectorName = some c → ConnectorDone tunnelId c t.cluster)
      (deleteConnectorOf connectorName).run w := by
  cases connectorName with
  | none => exact deletes_pure fun c hc => nomatch hc
  | some name =>
      refine (deletes_deleteConnectorIfUnused (htaken name rfl) hgone).mono ?_
      intro t r _ hr out hout c hc
      cases hc
      exact hr out hout

theorem deletes_deleteProject (svc : TunnelService) (projectId : String)
    (htakes : Takes taken tunnelId svc.endpointId w.cluster) :
    Deletes taken tunnelId
      (OnOk fun t outcome => Removed tunnelId t ∧ (outcome.httpProxy = some tunnelId →
        ∃ proxy, (w.cluster .httpProxy).get? tunnelId = some proxy ∧
          ∀ c, HTTPProxy.connectorName proxy.spec = some c → ConnectorDone tunnelId c t.cluster))
      (svc.deleteProject projectId tunnelId).run w := by
  refine Within.bindOk (deletes_client.mono fun t₁ _ hw₁ _ _ _ => ?_)
  refine Within.bindOk (deletes_mapError (deletes_getOpt ?_ ?_))
  · rintro t₂ h₁₂ existing hexisting
    obtain rfl : (t₂.cluster .httpProxy).get? tunnelId = existing := Except.ok.inj hexisting
    have htakes₂ := htakes.spares (hw₁.cluster.trans h₁₂.cluster)
    refine Within.bindOk ((deletes_connectorToDelete svc htakes₂ _ rfl).mono ?_)
    intro t₃ r₃ h₂₃ hr₃ connectorName hconnectorName
    obtain ⟨htaken, hconnector⟩ := hr₃ connectorName hconnectorName
    refine Within.bindOk (deletes_mapError (deletes_deleteEdgePolicies.mono ?_))
    intro t₄ r₄ h₃₄ hr₄ edge hedge
    obtain ⟨hwaf, htimeout⟩ := hr₄ edge hedge
    have h₂₄ := IsTrans.trans _ _ _ h₂₃ h₃₄
    refine Within.bindOk ((deletes_deleteProxy fun hnone => ?_).mono ?_)
    · refine (h₂₄.cluster.shrinks .httpProxy).gone fun o ho => ?_
      rw [hnone] at ho
      cases ho
    intro t₅ r₅ h₄₅ hr₅ _ h5
    have hproxy := hr₅ _ h5
    refine Within.bindOk ((deletes_deleteIfThere fun o ho _ hf => ?_).mono ?_)
    · exact hf.1 (Table.name_of_get? ho)
    intro t₆ r₆ h₅₆ hr₆ _ h6
    have had := hr₆ _ h6
    refine Within.bindOk ((deletes_deleteIfThere fun o ho _ hf => ?_).mono ?_)
    · exact hf.1 (Table.name_of_get? ho)
    intro t₇ r₇ h₆₇ hr₇ _ h7
    have htpp := hr₇ _ h7
    refine Within.bindOk (deletes_lift (deletes_call (c := .updateProxies _) trivial ?_))
    intro answer
    set t₈ := (t₇.handle (.updateProxies (.removeProxy tunnelId)) answer).1
    have h₇₈ : Spared taken tunnelId t₇ t₈ := handle_spared (c := .updateProxies _) trivial answer
    have h₅₈ := IsTrans.trans _ _ _ (IsTrans.trans _ _ _ h₅₆ h₆₇) h₇₈
    refine Within.bindOk ((deletes_deleteConnectorOf htaken ?_).mono ?_)
    · exact (h₅₈.cluster.shrinks .httpProxy).gone hproxy
    intro t₉ r₉ h₈₉ hr₉ _ h9
    have hdone := hr₉ _ h9
    refine Within.bindOk (deletes_lift (deletes_call (c := .deleteTunnelDir _ _) trivial ?_))
    intro answer
    set t := (t₉.handle (.deleteTunnelDir projectId tunnelId) answer).1
    have h₉ : Spared taken tunnelId t₉ t := handle_spared (c := .deleteTunnelDir _ _) trivial answer
    have h₇ := IsTrans.trans _ _ _ (IsTrans.trans _ _ _ h₇₈ h₈₉) h₉
    have h₆ := IsTrans.trans _ _ _ h₆₇ h₇
    have h₅ := IsTrans.trans _ _ _ h₅₆ h₆
    have h₄ := IsTrans.trans _ _ _ h₄₅ h₅
    refine deletes_pure ⟨⟨(h₅.cluster.shrinks _).gone hproxy, (h₆.cluster.shrinks _).gone had,
      (h₇.cluster.shrinks _).gone htpp, hwaf.spared h₄, htimeout.spared h₄⟩, ?_⟩
    intro hfound
    -- the proxy the attempt found is the one that was there when it began
    cases hread : (t₂.cluster .httpProxy).get? tunnelId with
    | none => simp [hread] at hfound
    | some found =>
        have hw₂ := IsTrans.trans _ _ _ hw₁ h₁₂
        obtain ⟨proxy, hproxy, hspec, _⟩ := hw₂.cluster.shrinks .httpProxy tunnelId found hread
        have heq : proxy.spec = found.spec := hspec
        refine ⟨proxy, hproxy, fun c hc => ?_⟩
        exact (hdone c (hconnector c (by simp [hread, ← heq, hc]))).spares h₉.cluster
  · exact fun t err _ _ h => nomatch h

/-! ## Trying again -/

/-- One attempt: the service that makes it, and how its calls go until it ends or
is given up. -/
structure Attempt where
  svc : TunnelService
  answers : List Answer

section Retry

variable (projectId tunnelId : String)

def Attempt.run (s : Cluster) (a : Attempt) : Watched × Option (Except Error TunnelDeleteOutcome) :=
  Prog.exec Watched.handle { cluster := s } a.answers (a.svc.deleteProject projectId tunnelId).run

/-- What a sequence of attempts leaves behind. -/
def afterAttempts (s : Cluster) (attempts : List Attempt) : Cluster :=
  attempts.foldl (fun s a => (a.run projectId tunnelId s).1.cluster) s

end Retry

theorem Attempt.run_spec (projectId tunnelId : String) (s : Cluster) (a : Attempt)
    (htakes : Takes taken tunnelId a.svc.endpointId s) :
    Spared taken tunnelId { cluster := s } (a.run projectId tunnelId s).1 ∧
      ∀ outcome, (a.run projectId tunnelId s).2 = some (.ok outcome) →
        Removed tunnelId (a.run projectId tunnelId s).1 ∧ (outcome.httpProxy = some tunnelId →
          ∃ proxy, (s .httpProxy).get? tunnelId = some proxy ∧
            ∀ c, HTTPProxy.connectorName proxy.spec = some c →
              ConnectorDone tunnelId c (a.run projectId tunnelId s).1.cluster) := by
  have h : Deletes taken tunnelId _ (a.svc.deleteProject projectId tunnelId).run { cluster := s } :=
    deletes_deleteProject a.svc projectId htakes
  obtain ⟨hspared, hpost⟩ := h.exec a.answers
  exact ⟨hspared, fun outcome hok => hpost (.ok outcome) hok outcome rfl⟩

theorem afterAttempts_spares (projectId : String) (s : Cluster) (attempts : List Attempt)
    (htakes : ∀ a ∈ attempts, Takes taken tunnelId a.svc.endpointId s) :
    Spares taken tunnelId s (afterAttempts projectId tunnelId s attempts) := by
  induction attempts generalizing s with
  | nil => exact Spares.refl s
  | cons a attempts ih =>
      have hfirst := (a.run_spec projectId tunnelId s (htakes a List.mem_cons_self)).1.cluster
      exact hfirst.trans (ih _ fun b hb => (htakes b (List.mem_cons_of_mem a hb)).spares hfirst)

/-- Those who have made the attempts. -/
def identities (attempts : List Attempt) : List String := attempts.map (·.svc.endpointId)

theorem takes_identities {attempts : List Attempt} {a : Attempt} (ha : a ∈ attempts) :
    Takes (Taken (identities attempts) s tunnelId) tunnelId a.svc.endpointId s := by
  rintro connectorName (hproxy | ⟨connector, hconnector, identity, hid, hkey⟩)
  · exact .inl hproxy
  · rw [List.mem_singleton.mp hid] at hkey
    exact .inr ⟨connector, hconnector, _, List.mem_map_of_mem ha, hkey⟩

/-! ### The other tunnels -/

/-- The object is still there as it was. -/
def Kept (s s' : Cluster) (kind : Kind) (name : String) : Prop :=
  ∀ o, (s kind).get? name = some o → o.deleting = false →
    ∃ o', (s' kind).get? name = some o' ∧ o'.deleting = false ∧ SameSpec kind o.spec o'.spec

/-- Another tunnel is still there with all that is its own. -/
structure TunnelKept (tunnelId : String) (s s' : Cluster) (other : String) (proxy : HTTPProxy) :
    Prop where
  itself : Kept s s' .httpProxy other
  /-- The connector that its proxy names first, and the advertisement that points there. -/
  connector : ∀ c, HTTPProxy.connectorName proxy.spec = some c → Kept s s' .connector c ∧
    ∀ ad, (s .connectorAdvertisement).get? other = some ad → ad.spec.connectorRef = c →
      Kept s s' .connectorAdvertisement other
  policy : other ≠ wafPolicyName tunnelId → Kept s s' .trafficProtectionPolicy other
  waf : wafPolicyName other ≠ tunnelId → Kept s s' .trafficProtectionPolicy (wafPolicyName other)
  timeout : Kept s s' .backendTrafficPolicy (timeoutPolicyName other)

theorem Spares.kept (h : Spares taken tunnelId s s') {kind : Kind} {name : String}
    (hforeign : ∀ o, (s kind).get? name = some o → Foreign taken s tunnelId kind o) :
    Kept s s' kind name :=
  fun o ho hlive => h.keeps kind name o ho hlive (hforeign o ho)

theorem eq_of_append_eq {a b suffix : String} (h : a ++ suffix = b ++ suffix) : a = b := by
  have hchars := congrArg String.toList h
  rw [String.toList_append, String.toList_append] at hchars
  exact String.toList_inj.mp (List.append_cancel_right hchars)

theorem Spares.tunnelKept (h : Spares taken tunnelId s s') {other : String} {proxy : HTTPProxy}
    (hproxy : (s .httpProxy).get? other = some proxy) (hlive : proxy.deleting = false)
    (hne : other ≠ tunnelId) : TunnelKept tunnelId s s' other proxy := by
  have huse (c : String) (hc : HTTPProxy.connectorName proxy.spec = some c) :
      InUse s tunnelId c := by
    refine ⟨other, proxy, hproxy, hne, ?_⟩
    rw [liveConnectorName, hlive]
    exact hc
  refine ⟨h.kept fun o ho => ?_, fun c hc => ⟨h.kept fun o ho => ?_, fun ad had href => ?_⟩,
    fun hname => h.kept fun o ho => ?_, fun hname => h.kept fun o ho => ?_, h.kept fun o ho => ?_⟩
  · show o.name ≠ tunnelId
    rwa [Table.name_of_get? ho]
  · intro _
    rw [Table.name_of_get? ho]
    exact huse c hc
  · refine h.kept fun o ho => ⟨by rwa [Table.name_of_get? ho], fun _ => ?_⟩
    obtain rfl : ad = o := Option.some.inj (had.symm.trans ho)
    exact href ▸ huse c hc
  · refine ⟨by rwa [Table.name_of_get? ho], fun hwaf => ?_⟩
    rw [Table.name_of_get? ho] at hwaf
    exact absurd hwaf hname
  · refine ⟨by rwa [Table.name_of_get? ho], fun hwaf => ?_⟩
    rw [Table.name_of_get? ho] at hwaf
    exact absurd (eq_of_append_eq hwaf) hne
  · intro htimeout
    rw [Table.name_of_get? ho] at htimeout
    exact hne (eq_of_append_eq htimeout)

/-- However often a delete has been tried before, an attempt that succeeds leaves nothing of the
tunnel's own, and no attempt has touched anything else: what is taken for its connector and is in no
other's use, with what points there, is all that goes beside what has its name.  The connector goes
too if the attempt still found the proxy that names it. -/
theorem delete_retried (projectId tunnelId : String) (s : Cluster) (before : List Attempt)
    (last : Attempt) (outcome : TunnelDeleteOutcome)
    (hok : (last.run projectId tunnelId (afterAttempts projectId tunnelId s before)).2 =
      some (.ok outcome)) :
    let w := (last.run projectId tunnelId (afterAttempts projectId tunnelId s before)).1
    Spares (Taken (identities (last :: before)) s tunnelId) tunnelId s w.cluster ∧
      Removed tunnelId w ∧
      (∀ proxy c, (s .httpProxy).get? tunnelId = some proxy →
        HTTPProxy.connectorName proxy.spec = some c → outcome.httpProxy = some tunnelId →
        ConnectorDone tunnelId c w.cluster) ∧
      ∀ other proxy, (s .httpProxy).get? other = some proxy → proxy.deleting = false →
        other ≠ tunnelId → TunnelKept tunnelId s w.cluster other proxy := by
  intro w
  have htakes : ∀ a ∈ last :: before,
      Takes (Taken (identities (last :: before)) s tunnelId) tunnelId a.svc.endpointId s :=
    fun a ha => takes_identities ha
  have hbefore : Spares (Taken (identities (last :: before)) s tunnelId) tunnelId s
      (afterAttempts projectId tunnelId s before) :=
    afterAttempts_spares projectId s before fun a ha => htakes a (List.mem_cons_of_mem last ha)
  obtain ⟨hspared, hpost⟩ :=
    last.run_spec projectId tunnelId (afterAttempts projectId tunnelId s before)
      ((htakes last List.mem_cons_self).spares hbefore)
  obtain ⟨hremoved, hconnector⟩ := hpost outcome hok
  have hall := hbefore.trans hspared.cluster
  refine ⟨hall, hremoved, fun proxy c hproxy hc hfound => ?_,
    fun other proxy hproxy hlive hne => hall.tunnelKept hproxy hlive hne⟩
  obtain ⟨found, hthere, hdone⟩ := hconnector hfound
  obtain ⟨o, ho, hspec, _⟩ := hbefore.shrinks .httpProxy tunnelId found hthere
  have heq : o.spec = found.spec := hspec
  obtain rfl : proxy = o := Option.some.inj (hproxy.symm.trans ho)
  exact hdone c (heq ▸ hc)

/-! ## One tunnel -/

/-- A project with one tunnel, its connector, its advertisement and its policy. -/
def oneTunnel : Cluster
  | .httpProxy => {
      objects := [{
        name := "tunnel-a"
        spec := {
          label := some "a"
          hostnames := none
          rules := desiredProxyRules "http://h:1" "conn-a" none } }] }
  | .connectorAdvertisement => {
      objects := [{
        name := "tunnel-a", spec := advertisementSpec "conn-a" { address := "h", port := 1 } }] }
  | .connector => {
      objects := [{
        name := "conn-a"
        spec := {
          className := "iroh-quic-tunnel", deviceName := none, deviceOs := none, status := none } }] }
  | .trafficProtectionPolicy => {
      objects := [{
        name := "tunnel-a-waf"
        spec := { managed := true, targetRefs := [], mode := some "Enforce" } }] }
  | .backendTrafficPolicy => {}

/-- A service whose identity has no connector. -/
def controlService : TunnelService where
  endpointId := "control"
  publishTickets := false
  createTrafficProtectionPolicies := false
  wafExemptMatches := none
  edgePolicies := false
  friendlyDeviceName := "box"
  os := "linux"
  parseUrl _ := none

/-- The proxy is deleted, and the look at the advertisement fails. -/
def failsAtAdvertisement : Attempt where
  svc := controlService
  answers := List.replicate 6 {} ++ [{ outcome := .failed (.other "timeout") }]

/-- The look at the WAF policy is refused. -/
def refusedAtWaf : Attempt where
  svc := controlService
  answers := [{}, {}, { outcome := .failed (.api 403 "forbidden") }] ++ List.replicate 20 {}

def goesThrough : Attempt where
  svc := controlService
  answers := List.replicate 20 {}

/-- Another tunnel, whose proxy names a connector of its own and the first tunnel's after it, and
whose advertisement still points at the first tunnel's. -/
def twoTunnels : Cluster
  | .httpProxy => {
      objects := [
        { name := "tunnel-a"
          spec := {
            label := some "a"
            hostnames := none
            rules := desiredProxyRules "http://h:1" "conn-a" none } },
        { name := "tunnel-b"
          spec := {
            label := some "b"
            hostnames := none
            rules := desiredProxyRules "http://h:2" "conn-b" none ++
              desiredProxyRules "http://h:2" "conn-a" none } }] }
  | .connectorAdvertisement => {
      objects := [{
        name := "tunnel-b", spec := advertisementSpec "conn-a" { address := "h", port := 2 } }] }
  | .connector => {
      objects := ["conn-a", "conn-b"].map fun name => {
        name
        spec := {
          className := "iroh-quic-tunnel"
          deviceName := none
          deviceOs := none
          status := none } } }
  | .trafficProtectionPolicy | .backendTrafficPolicy => {}

theorem delete_retried_goesThrough :
    let w := (goesThrough.run "p" "tunnel-a" oneTunnel).1
    let both := (goesThrough.run "p" "tunnel-a" twoTunnels).1
    Removed "tunnel-a" w ∧ ConnectorDone "tunnel-a" "conn-a" w.cluster ∧
      Kept twoTunnels both.cluster .httpProxy "tunnel-b" ∧
      Kept twoTunnels both.cluster .connector "conn-b" := by
  obtain ⟨_, hremoved, hdone, _⟩ := delete_retried "p" "tunnel-a" oneTunnel [] goesThrough _ rfl
  obtain ⟨_, _, _, hothers⟩ := delete_retried "p" "tunnel-a" twoTunnels [] goesThrough _ rfl
  have hother := hothers "tunnel-b" _ rfl rfl (by decide)
  exact ⟨hremoved, hdone _ _ rfl rfl rfl, hother.itself, (hother.connector "conn-b" rfl).1⟩

/-- A policy that may not be read stays; where the first attempt fails once the proxy is gone, the
one that succeeds no longer knows the connector; and what points at the connector that goes, goes
with it, as does the connector that another proxy names after its own. -/
theorem delete_retried_leaves_behind :
    let refused := refusedAtWaf.run "p" "tunnel-a" oneTunnel
    let s := afterAttempts "p" "tunnel-a" oneTunnel [failsAtAdvertisement]
    let retried := goesThrough.run "p" "tunnel-a" s
    let both := goesThrough.run "p" "tunnel-a" twoTunnels
    ((∃ outcome, refused.2 = some (.ok outcome)) ∧
      ¬ (refused.1.cluster .trafficProtectionPolicy).Gone "tunnel-a-waf") ∧
    ((∃ outcome, retried.2 = some (.ok outcome)) ∧ (retried.1.cluster .httpProxy).objects = [] ∧
      ¬ (retried.1.cluster .connector).Gone "conn-a") ∧
    (∃ outcome, both.2 = some (.ok outcome)) ∧
      ¬ Kept twoTunnels both.1.cluster .connectorAdvertisement "tunnel-b" ∧
      ¬ Kept twoTunnels both.1.cluster .connector "conn-a" := by
  refine ⟨⟨⟨_, rfl⟩, by decide⟩, ⟨⟨_, rfl⟩, by decide, by decide⟩, ⟨_, rfl⟩, fun h => ?_,
    fun h => ?_⟩
  · obtain ⟨o', ho', _⟩ := h _ rfl rfl
    cases ho'
  · obtain ⟨o', ho', _⟩ := h _ rfl rfl
    cases ho'

end DatumConnect.Tunnels
