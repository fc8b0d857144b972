import DatumConnect.Lib.Pool
import DatumConnect.Cloud.Server
import DatumConnect.Tunnels.Service
/-!
# Connectors and the proxies that reference them

An operation looks its connector up, or creates it, and references it from a proxy
some calls later; a delete, or a cleanup, lists the proxies and deletes connectors
some calls later.  The calls of any number of operations interleave.
-/

namespace DatumConnect.Tunnels

open DatumConnect.Lib
open DatumConnect.Lib.Prog (Protocol Follows Stays OnOk)
open DatumConnect.Cloud

namespace Connectors

/-! ## What an operation goes by -/

/-- The connectors the operation has looked up or created, and the proxies it has
listed last. -/
structure Seen where
  found : List String := []
  listed : Option (List HTTPProxy) := none

/-- The rules of the proxy that a call writes. -/
def rulesOf : Call → Option (List ProxyRule)
  | .create .httpProxy _ spec => some spec.rules
  | .patch .httpProxy _ (.proxy _ _ rules) => some rules
  | _ => none

/-- The connector that a call deletes. -/
def deletedBy : Call → Option String
  | .delete .connector name => some name
  | _ => none

/-- The connector that a call writes to. -/
def patchedBy : Call → Option String
  | .patch .connector name _ => some name
  | _ => none

/-- All backends name one connector. -/
def OneConnector (rules : List ProxyRule) : Prop :=
  ∀ c ∈ connectorsOf rules, ∀ d ∈ connectorsOf rules, c = d

/-- A proxy is pointed at a connector that was looked up, and a connector is deleted
that no proxy of the list references. -/
structure Seen.Allowed (g : Seen) (c : Call) : Prop where
  names : ∀ rules ∈ rulesOf c, OneConnector rules ∧ ∀ name ∈ connectorsOf rules, name ∈ g.found
  deletes : ∀ name ∈ deletedBy c, ∃ proxies, g.listed = some proxies ∧
    ∀ proxy ∈ proxies, liveConnectorName proxy ≠ some name
  patches : ∀ name ∈ patchedBy c, name ∈ g.found

theorem allowed_list {g : Seen} {kind : Kind} {selector : Selector} :
    g.Allowed (.list kind selector) :=
  ⟨by simp [rulesOf], by simp [deletedBy], by simp [patchedBy]⟩

def Seen.advance (g : Seen) : (c : Call) → c.Reply → Seen
  | .list .connector (.field _ _), .ok connectors => { g with found := connectors.map Object.name }
  | .create .connector _ _, .ok connector => { g with found := [connector.name] }
  | .patch .connector _ _, .ok connector => { g with found := connector.name :: g.found }
  | .list .httpProxy .everything, .ok proxies => { g with listed := some proxies }
  | _, _ => g

def protocol : Protocol Call Call.Reply Seen where
  allowed := Seen.Allowed
  advance := Seen.advance

/-! ## The operations keep to it -/

variable {α ε : Type} {g : Seen}

/-- A call that neither needs nor changes what has been seen. -/
theorem stays_perform {c : Call} (hrules : rulesOf c = none) (hdeleted : deletedBy c = none)
    (hpatched : patchedBy c = none) (hadvance : ∀ r, g.advance c r = g) :
    Stays protocol g (Prog.perform c) :=
  Stays.perform ⟨by simp [hrules], by simp [hdeleted], by simp [hpatched]⟩ hadvance

theorem stays_mapError {f : ε → Error} {p : Svc (Except ε α)} (h : Stays protocol g p) :
    Stays protocol g (SvcE.mapError f p).run :=
  h.bind fun _ => Stays.ret _

theorem stays_lift {p : Svc α} (h : Stays protocol g p) : Stays protocol g (SvcE.lift p).run :=
  h.bind fun _ => Stays.ret _

theorem follows_mapError {f : ε → Error} {p : Svc (Except ε α)} {post : Seen → α → Prop}
    (h : Follows protocol (OnOk post) p g) :
    Follows protocol (OnOk post) (SvcE.mapError f p).run g := by
  refine Follows.bind (h.mono fun g r hr => ?_)
  cases r with
  | ok a =>
      rintro b hb
      cases hb
      exact hr a rfl
  | error e => exact fun b hb => nomatch hb

theorem follows_lift {p : Svc α} {post : Seen → α → Prop} (h : Follows protocol post p g) :
    Follows protocol (OnOk post) (SvcE.lift p).run g := by
  refine Follows.bind (h.mono fun g a ha => ?_)
  rintro b hb
  cases hb
  exact ha

theorem stays_client (projectId : String) :
    Stays protocol g (SvcE.projectControlPlaneClient projectId).run :=
  stays_perform (c := .projectControlPlaneClient projectId) rfl rfl rfl fun _ => rfl

theorem stays_getOpt (kind : Kind) (name : String) : Stays protocol g (Svc.getOpt kind name) :=
  stays_perform rfl rfl rfl fun _ => rfl

theorem stays_get (kind : Kind) (name : String) : Stays protocol g (Svc.get kind name) :=
  stays_perform rfl rfl rfl fun _ => rfl

theorem stays_delete {kind : Kind} (name : String) (hkind : kind ≠ .connector) :
    Stays protocol g (Svc.delete kind name) := by
  cases kind with
  | connector => exact absurd rfl hkind
  | _ => exact stays_perform rfl rfl rfl fun _ => rfl

/-- Retrying changes nothing where the call itself does not. -/
theorem stays_retry {f : Svc (Except KubeError α)} (hf : Stays protocol g f) (delays : List Nat) :
    Stays protocol g (withQuotaCheckRetry f delays) := by
  induction delays with
  | nil => exact hf
  | cons delay delays ih =>
      refine hf.bind fun r => ?_
      cases r with
      | ok a => exact Stays.ret _
      | error err =>
          simp only
          split
          · exact (stays_perform (c := .sleep delay) rfl rfl rfl fun _ => rfl).bind fun _ => ih
          · exact Stays.ret _

theorem follows_retry {f : Svc (Except KubeError α)} {post : Seen → α → Prop}
    (hf : ∀ g, Follows protocol (OnOk post) f g) (delays : List Nat) :
    Follows protocol (OnOk post) (withQuotaCheckRetry f delays) g := by
  induction delays generalizing g with
  | nil => exact hf g
  | cons delay delays ih =>
      refine Follows.bind ((hf g).mono fun g r hr => ?_)
      cases r with
      | ok a => exact hr
      | error err =>
          simp only
          split
          · exact (stays_perform (c := .sleep delay) rfl rfl rfl fun _ => rfl).andThen fun _ => ih
          · exact hr

/-! ### Looking the connector up -/

theorem follows_patchDeviceAnnotations (svc : TunnelService) {connector : Connector}
    (h : connector.name ∈ g.found) :
    Follows protocol (fun g connector => connector.name ∈ g.found)
      (svc.patchDeviceAnnotations connector) g := by
  unfold TunnelService.patchDeviceAnnotations
  split
  · exact h
  · refine ⟨⟨by simp [rulesOf], by simp [deletedBy], ?_⟩, fun r => ?_⟩
    · rintro name hname
      cases hname
      exact h
    · cases r with
      | ok patched => exact List.mem_cons_self
      | error err => exact h

theorem follows_findConnector (svc : TunnelService) (projectId : String) :
    Follows protocol (OnOk fun g r => ∀ connector ∈ r, connector.name ∈ g.found)
      (svc.findConnector projectId).run g := by
  refine (stays_client projectId).andThenOk fun _ => ?_
  refine Follows.bindOk (follows_lift ⟨allowed_list, fun r => ?_⟩)
  simp only [Follows]
  split
  · exact fun _ h => nomatch h
  · exact fun _ h => nomatch h
  · exact fun _ h => nomatch h
  · rintro a ha
    cases ha
    simp
  · rename_i connector rest
    refine Follows.bindOk (follows_lift ((follows_patchDeviceAnnotations svc ?_).mono ?_))
    · exact List.mem_cons_self
    · rintro g patched h a ha
      cases ha
      simpa using h

theorem follows_publishConnectionDetails {connectorName : String} (h : connectorName ∈ g.found) :
    Follows protocol (fun g _ => connectorName ∈ g.found)
      (TunnelService.publishConnectionDetails connectorName) g := by
  refine (stays_perform (c := .buildConnectionDetails) rfl rfl rfl fun _ => rfl).andThen
    fun details => ?_
  cases details with
  | none => exact h
  | some details =>
      refine ⟨⟨by simp [rulesOf], by simp [deletedBy], ?_⟩, fun r => ?_⟩
      · rintro name hname
        cases hname
        exact h
      · cases r with
        | ok patched => exact List.mem_cons_of_mem _ h
        | error err => exact h

theorem stays_resolveConnectorClass : Stays protocol g resolveConnectorClass := by
  refine (stays_perform (c := .listConnectorClasses) rfl rfl rfl fun _ => rfl).bind fun r => ?_
  cases r <;> exact Stays.ret _

theorem follows_createConnector {name : NewName} {spec : ConnectorSpec} :
    Follows protocol (OnOk fun g connector => connector.name ∈ g.found)
      (createRetried .connector name spec) g := by
  refine follows_retry (fun g => ?_) _
  refine ⟨⟨by simp [rulesOf], by simp [deletedBy], by simp [patchedBy]⟩, fun r => ?_⟩
  cases r with
  | ok connector =>
      rintro a ha
      cases ha
      exact List.mem_singleton.mpr rfl
  | error err => exact fun _ h => nomatch h

theorem follows_ensureConnector (svc : TunnelService) (projectId : String) :
    Follows protocol (OnOk fun g connector => connector.name ∈ g.found)
      (svc.ensureConnector projectId).run g := by
  refine (stays_client projectId).andThenOk fun _ => ?_
  refine Follows.bindOk ((follows_findConnector svc projectId).mono fun g r hr found hfound => ?_)
  have hfound := hr found hfound
  cases found with
  | some connector =>
      refine Follows.bindOk (follows_lift ((follows_publishConnectionDetails ?_).mono ?_))
      · exact hfound connector rfl
      · rintro g _ h a ha
        cases ha
        exact h
  | none =>
      refine (stays_lift stays_resolveConnectorClass).andThenOk fun className => ?_
      refine Follows.bindOk (follows_mapError (follows_createConnector.mono ?_))
      intro g r hr connector hconnector
      have h := hr connector hconnector
      refine Follows.bindOk (follows_lift ((follows_publishConnectionDetails h).mono ?_))
      rintro g _ h a ha
      cases ha
      exact h

/-! ### Writing proxies and advertisements -/

/-- Pointing a proxy at a connector that has been looked up. -/
theorem allowed_desired {c : Call} {endpoint connectorName : String}
    {wafExemptMatches : Option (List RouteMatch)}
    (hrules : rulesOf c = some (desiredProxyRules endpoint connectorName wafExemptMatches))
    (hdeleted : deletedBy c = none) (hpatched : patchedBy c = none)
    (hfound : connectorName ∈ g.found) : g.Allowed c where
  names rules hr := by
    rw [hrules] at hr
    cases hr
    refine ⟨fun a ha b hb => ?_, fun name hname => ?_⟩
    · rw [connectorsOf_desiredProxyRules a ha, connectorsOf_desiredProxyRules b hb]
    · rwa [connectorsOf_desiredProxyRules name hname]
  deletes := by simp [hdeleted]
  patches := by simp [hpatched]

theorem stays_createRetried {kind : Kind} {name : NewName} {spec : kind.Spec}
    (hallowed : g.Allowed (.create kind name spec)) (hkind : kind ≠ .connector) :
    Stays protocol g (createRetried kind name spec) := by
  refine stays_retry (Stays.perform hallowed fun r => ?_) _
  cases kind with
  | connector => exact absurd rfl hkind
  | _ => rfl

theorem stays_createOrFail {kind : Kind} {name : NewName} {spec : kind.Spec} {what : String}
    (hallowed : g.Allowed (.create kind name spec)) (hkind : kind ≠ .connector) :
    Stays protocol g (createOrFail kind name spec what).run :=
  stays_mapError (stays_createRetried hallowed hkind)

theorem stays_createPolicy (svc : TunnelService) (proxyName : String) :
    Stays protocol g (svc.createPolicy proxyName).run := by
  unfold TunnelService.createPolicy
  split
  · refine (stays_createOrFail ⟨by simp [rulesOf], by simp [deletedBy], by simp [patchedBy]⟩
      (by decide)).bindE fun _ => Stays.ret _
  · exact Stays.ret _

theorem stays_spawnEdgePolicies (svc : TunnelService) {projectId tunnelId label : String}
    {rules : List ProxyRule} :
    Stays protocol g (svc.spawnEdgePolicies projectId tunnelId label rules) := by
  unfold TunnelService.spawnEdgePolicies
  split
  · exact stays_perform rfl rfl rfl fun _ => rfl
  · exact Stays.ret _

theorem stays_ofExcept {r : Except String α} : Stays protocol g (SvcE.ofExcept r).run := by
  cases r <;> exact Stays.ret _

theorem stays_updateProxies (update : Proxies.Update) :
    Stays protocol g (Svc.updateProxies update) :=
  stays_perform rfl rfl rfl fun _ => rfl

theorem stays_storeProxyState (svc : TunnelService) (summary : TunnelSummary) :
    Stays protocol g (svc.storeProxyState summary) := by
  unfold TunnelService.storeProxyState
  split
  · exact Stays.ret _
  · split
    · exact Stays.ret _
    · exact (stays_updateProxies _).bind fun _ => Stays.ret _

theorem stays_patchProxy {tunnelId endpoint connectorName label context : String}
    {existing : HTTPProxy} {wafExemptMatches : Option (List RouteMatch)}
    (hfound : connectorName ∈ g.found) :
    Stays protocol g (TunnelService.patchProxy tunnelId existing label
      (desiredProxyRules endpoint connectorName wafExemptMatches) context).run := by
  unfold TunnelService.patchProxy
  split
  · exact Stays.ret _
  · exact stays_mapError (Stays.perform (allowed_desired rfl rfl rfl hfound) fun _ => rfl)

theorem stays_patchAdvertisement {tunnelId context : String}
    {desired : AdvertisementSpec → AdvertisementSpec} :
    Stays protocol g (TunnelService.patchAdvertisement tunnelId desired context).run := by
  refine (stays_mapError (stays_getOpt _ _)).bindE fun existing => ?_
  cases existing with
  | none => exact Stays.ret _
  | some ad =>
      simp only
      split
      · exact Stays.ret _
      · exact (stays_mapError (stays_perform rfl rfl rfl fun _ => rfl)).bindE fun _ => Stays.ret _

theorem stays_writeAdvertisement {tunnelId : String} {adSpec : AdvertisementSpec} :
    Stays protocol g (TunnelService.writeAdvertisement tunnelId adSpec).run := by
  refine (stays_mapError (stays_getOpt _ _)).bindE fun existing => ?_
  cases existing with
  | some ad =>
      exact (stays_mapError (stays_perform rfl rfl rfl fun _ => rfl)).bindE fun _ => Stays.ret _
  | none =>
      refine (stays_mapError (stays_createRetried ?_ (by decide))).bindE fun _ => Stays.ret _
      exact ⟨by simp [rulesOf], by simp [deletedBy], by simp [patchedBy]⟩

theorem stays_deleteIfThere {kind : Kind} {name loadContext deleteContext : String}
    (hkind : kind ≠ .connector) :
    Stays protocol g (deleteIfThere kind name loadContext deleteContext).run := by
  refine (stays_mapError (stays_getOpt _ _)).bindE fun existing => ?_
  cases existing with
  | none => exact Stays.ret _
  | some _ =>
      exact (stays_mapError (stays_delete _ hkind)).bindE fun _ => Stays.ret _

/-! ### The operations -/

/-- The computation keeps to the protocol, whatever it returns. -/
abbrev Keeps (p : SvcE α) (g : Seen) : Prop := Follows protocol (OnOk fun _ _ => True) p.run g

theorem Keeps.of_stays {p : SvcE α} (h : Stays protocol g p.run) : Keeps p g :=
  Follows.mono h fun _ _ _ _ _ => trivial

theorem keeps_pure {a : α} : Keeps (pure a) g := fun _ _ => trivial

theorem keeps_createProject (svc : TunnelService) (projectId label endpoint : String) :
    Keeps (svc.createProject projectId label endpoint) g := by
  refine stays_ofExcept.andThenOk fun target => ?_
  refine Follows.bindOk ((follows_ensureConnector svc projectId).mono fun g r hr connector hc => ?_)
  have hfound := hr connector hc
  refine (stays_client projectId).andThenOk fun _ => ?_
  refine (stays_createOrFail (allowed_desired rfl rfl rfl hfound) (by decide)).andThenOk fun proxy => ?_
  refine (stays_createOrFail ⟨by simp [rulesOf], by simp [deletedBy], by simp [patchedBy]⟩
    (by decide)).andThenOk fun _ => ?_
  refine (stays_createPolicy svc _).andThenOk fun _ => ?_
  refine (stays_lift (stays_spawnEdgePolicies svc)).andThenOk fun _ => ?_
  refine stays_ofExcept.andThenOk fun _ => ?_
  exact (stays_lift (stays_updateProxies _)).andThenOk fun _ => keeps_pure

theorem keeps_updateProject (svc : TunnelService) (projectId tunnelId label endpoint : String) :
    Keeps (svc.updateProject projectId tunnelId label endpoint) g := by
  refine stays_ofExcept.andThenOk fun target => ?_
  refine Follows.bindOk ((follows_ensureConnector svc projectId).mono fun g r hr connector hc => ?_)
  have hfound := hr connector hc
  refine (stays_client projectId).andThenOk fun _ => ?_
  refine (stays_mapError (stays_get _ _)).andThenOk fun existing => ?_
  refine (stays_patchProxy hfound).andThenOk fun _ => ?_
  refine stays_patchAdvertisement.andThenOk fun _ => ?_
  exact (stays_lift (stays_storeProxyState svc _)).andThenOk fun _ => keeps_pure

theorem keeps_enable (svc : TunnelService) {projectId tunnelId endpoint label : String}
    {proxy : HTTPProxy} : Keeps (svc.enable projectId tunnelId proxy endpoint label) g := by
  refine Follows.bindOk ((follows_ensureConnector svc projectId).mono fun g r hr connector hc => ?_)
  have hfound := hr connector hc
  refine stays_ofExcept.andThenOk fun target => ?_
  refine (stays_patchProxy hfound).andThenOk fun written => ?_
  refine stays_writeAdvertisement.andThenOk fun _ => ?_
  exact Keeps.of_stays (stays_lift (stays_spawnEdgePolicies svc))

theorem keeps_setEnabledProject (svc : TunnelService) (projectId tunnelId : String)
    (enabled : Bool) : Keeps (svc.setEnabledProject projectId tunnelId enabled) g := by
  refine (stays_client projectId).andThenOk fun _ => ?_
  refine (stays_mapError (stays_get _ _)).andThenOk fun proxy => ?_
  have hswitch : Keeps (svc.switch projectId tunnelId proxy
      (normalizeEndpoint ((HTTPProxy.backendEndpoint proxy.spec).getD ""))
      (HTTPProxy.labelOr proxy.spec tunnelId) enabled) g := by
    unfold TunnelService.switch
    split
    · exact keeps_enable svc
    · exact Keeps.of_stays ((stays_deleteIfThere (by decide)).bindE fun _ => Stays.ret _)
  refine Follows.bindOk (hswitch.mono fun g r _ _ _ => ?_)
  exact (stays_lift (stays_storeProxyState svc _)).andThenOk fun _ => keeps_pure

theorem stays_deletePolicy {kind : Kind} {name : String} (hkind : kind ≠ .connector) :
    Stays protocol g (deletePolicy kind name).run := by
  refine (stays_lift (stays_delete _ hkind)).bindE fun r => ?_
  cases r with
  | ok _ => exact Stays.ret _
  | error err =>
      simp only
      split
      · exact Stays.ret _
      · split <;> exact Stays.ret _

theorem stays_checkPolicy {kind : Kind} {what name : String} :
    Stays protocol g (checkPolicy kind what name).run := by
  refine (stays_lift (stays_getOpt _ _)).bindE fun r => ?_
  cases r with
  | ok _ => exact Stays.ret _
  | error err =>
      simp only
      split <;> exact Stays.ret _

theorem stays_deleteEdgePolicies {tunnelId : String} :
    Stays protocol g (deleteEdgePolicies tunnelId).run := by
  have hwaf : Stays protocol g (deleteWafPolicy (wafPolicyName tunnelId)).run := by
    refine stays_checkPolicy.bindE fun policy => ?_
    cases policy with
    | none => exact Stays.ret _
    | some policy =>
        simp only
        split
        · exact (stays_deletePolicy (by decide)).bindE fun _ => Stays.ret _
        · exact Stays.ret _
  have htimeout : Stays protocol g (deleteTimeoutPolicy (timeoutPolicyName tunnelId)).run := by
    refine stays_checkPolicy.bindE fun policy => ?_
    cases policy with
    | none => exact Stays.ret _
    | some policy => exact (stays_deletePolicy (by decide)).bindE fun _ => Stays.ret _
  exact hwaf.bindE fun _ => htimeout.bindE fun _ => Stays.ret _

theorem stays_deleteEach {kind : Kind} {names : List String} (hkind : kind ≠ .connector) :
    Stays protocol g (deleteEach kind names) :=
  Stays.forM fun _ _ => (stays_delete _ hkind).bind fun _ => Stays.ret _

/-- Deleting a connector that no proxy of the list references. -/
theorem follows_deleteConnector {name : String} {proxies : List HTTPProxy} {post : Seen → _ → Prop}
    (hlisted : g.listed = some proxies)
    (hunused : ∀ proxy ∈ proxies, liveConnectorName proxy ≠ some name)
    (hpost : ∀ r, post g r) : Follows protocol post (Svc.delete .connector name) g := by
  refine ⟨⟨by simp [rulesOf], ?_, by simp [patchedBy]⟩, fun r => hpost r⟩
  rintro deleted hdeleted
  cases hdeleted
  exact ⟨proxies, hlisted, hunused⟩

theorem keeps_deleteConnectorIfUnused {connectorName : String} :
    Keeps (deleteConnectorIfUnused connectorName) g := by
  refine Follows.bindOk (follows_mapError ⟨⟨by simp [rulesOf], by simp [deletedBy],
    by simp [patchedBy]⟩, fun r => ?_⟩)
  rintro remaining hremaining
  subst hremaining
  simp only
  split
  · exact keeps_pure
  · rename_i hunused
    refine (stays_mapError (stays_perform rfl rfl rfl fun _ => rfl)).andThenOk fun ads => ?_
    refine (stays_lift (stays_deleteEach (by decide))).andThenOk fun _ => ?_
    refine (stays_mapError (stays_getOpt _ _)).andThenOk fun existing => ?_
    cases existing with
    | none => exact keeps_pure
    | some _ =>
        refine Follows.bindOk (follows_mapError (follows_deleteConnector rfl ?_ ?_))
        · simpa using hunused
        · exact fun _ _ _ => keeps_pure

theorem keeps_deleteProject (svc : TunnelService) (projectId tunnelId : String) :
    Keeps (svc.deleteProject projectId tunnelId) g := by
  refine (stays_client projectId).andThenOk fun _ => ?_
  refine (stays_mapError (stays_getOpt _ _)).andThenOk fun existing => ?_
  have hname : Keeps (svc.connectorToDelete projectId existing) g := by
    unfold TunnelService.connectorToDelete
    split
    · exact keeps_pure
    · exact Follows.bindOk ((follows_findConnector svc projectId).mono fun _ _ _ _ _ => keeps_pure)
  refine Follows.bindOk (hname.mono fun g r _ connectorName _ => ?_)
  refine (stays_mapError stays_deleteEdgePolicies).andThenOk fun _ => ?_
  have hproxy : Stays protocol g (deleteProxy existing tunnelId).run := by
    cases existing with
    | none => exact Stays.ret _
    | some _ => exact stays_mapError (stays_delete _ (by decide))
  refine hproxy.andThenOk fun _ => ?_
  refine (stays_deleteIfThere (by decide)).andThenOk fun _ => ?_
  refine (stays_deleteIfThere (by decide)).andThenOk fun _ => ?_
  refine (stays_lift (stays_updateProxies _)).andThenOk fun _ => ?_
  have hconnector : Keeps (deleteConnectorOf connectorName) g := by
    cases connectorName with
    | none => exact keeps_pure
    | some _ => exact keeps_deleteConnectorIfUnused
  refine Follows.bindOk (hconnector.mono fun g r _ _ _ => ?_)
  exact (stays_lift (stays_perform rfl rfl rfl fun _ => rfl)).andThenOk fun _ => keeps_pure

/-- Deleting connectors none of which a proxy of the list references. -/
theorem stays_deleteOrphans {names : List String} {proxies : List HTTPProxy}
    (hlisted : g.listed = some proxies)
    (hunused : ∀ name ∈ names, ∀ proxy ∈ proxies, liveConnectorName proxy ≠ some name) :
    Stays protocol g (deleteOrphans names) := by
  induction names with
  | nil => exact Stays.ret _
  | cons name names ih =>
      have horphan : Stays protocol g (deleteOrphan name) := by
        refine (stays_perform rfl rfl rfl fun _ => rfl).bind fun ads => ?_
        refine (stays_deleteEach (by decide)).bind fun _ => ?_
        exact Stays.bind (follows_deleteConnector hlisted (hunused name List.mem_cons_self)
          fun _ => rfl) fun _ => Stays.ret _
      refine horphan.bind fun deleted => ?_
      exact (ih fun n hn => hunused n (List.mem_cons_of_mem name hn)).bind fun _ => Stays.ret _

theorem keeps_cleanupOrphanedConnectorsProject (projectId : String) :
    Keeps (cleanupOrphanedConnectorsProject projectId) g := by
  refine (stays_client projectId).andThenOk fun _ => ?_
  refine Follows.bindOk (follows_mapError ⟨⟨by simp [rulesOf], by simp [deletedBy],
    by simp [patchedBy]⟩, fun r => ?_⟩)
  rintro proxies hproxies
  subst hproxies
  refine (stays_mapError (stays_perform rfl rfl rfl fun _ => rfl)).andThenOk fun connectors => ?_
  refine Keeps.of_stays (stays_lift (stays_deleteOrphans rfl fun name hname proxy hproxy hlive => ?_))
  obtain ⟨c, hc, rfl⟩ := List.mem_map.mp hname
  have horphan := (List.mem_filter.mp hc).2
  rw [decide_eq_true_eq, List.mem_filterMap] at horphan
  exact horphan ⟨proxy, hproxy, hlive⟩

end Connectors

end DatumConnect.Tunnels
