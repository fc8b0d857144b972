import DatumConnect.Tunnels.Service
/-!
# Which calls the operations make

The reads are the same for all of them.  Of an operation is said which writes it
makes beside those, whatever the server replies: a property of calls that holds of
the reads and of these writes holds of every call of the operation.
-/

namespace DatumConnect.Tunnels

open DatumConnect.Lib
open DatumConnect.Lib.Prog (Only)
open DatumConnect.Cloud

/-- The call writes neither an object nor a local file. -/
def isPlain : Call → Bool
  | .create _ _ _ | .patch _ _ _ | .delete _ _ | .updateProxies _ | .deleteTunnelDir _ _ => false
  | _ => true

/-- The property holds of the calls that write nothing. -/
def Plainly (K : Call → Prop) : Prop := ∀ c, isPlain c = true → K c

/-- The property holds of the lists of a project. -/
structure Listing (K : Call → Prop) : Prop where
  client : ∀ projectId, K (.projectControlPlaneClient projectId)
  list : ∀ kind selector, K (.list kind selector)

theorem Plainly.listing {K : Call → Prop} (h : Plainly K) : Listing K where
  client _ := h _ rfl
  list _ _ := h _ rfl

/-- And of those that make a service's connector known. -/
structure Connecting (K : Call → Prop) : Prop where
  plainly : Plainly K
  patch : ∀ name patch, K (.patch .connector name patch)
  create : ∀ spec, K (.create .connector (.generate "datum-connect-") spec)

namespace Makes

variable {α ε : Type} {K : Call → Prop}

theorem lift {p : Svc α} (h : Only K p) : Only K (SvcE.lift p).run :=
  h.bind fun _ => Only.ret _

theorem mapError {f : ε → Error} {p : Svc (Except ε α)} (h : Only K p) :
    Only K (SvcE.mapError f p).run :=
  h.bind fun _ => Only.ret _

theorem ofExcept {r : Except String α} : Only K (SvcE.ofExcept r).run := by
  cases r <;> exact Only.ret _

/-! ## Reading -/

theorem client (h : Listing K) (projectId : String) :
    Only K (SvcE.projectControlPlaneClient projectId).run :=
  Only.perform (h.client projectId)

theorem selected (h : Plainly K) {op : String → SvcE α}
    (hop : ∀ projectId, Only K (op projectId).run) : Only K (inSelectedProject op).run := by
  refine (lift (Only.perform (h .selectedContext rfl))).bindE fun project => ?_
  cases project with
  | none => exact Only.throw _
  | some projectId => exact hop projectId

theorem listActive (h : Plainly K) : Only K TunnelService.listActive.run := by
  refine (lift (Only.perform (h .selectedContext rfl))).bindE fun project => ?_
  cases project with
  | none => exact Only.ret _
  | some projectId =>
      refine Only.bindE ?_ fun _ => Only.ret _
      refine (client h.listing projectId).bindE fun _ => ?_
      refine (mapError (Only.perform (h _ rfl))).bindE fun proxies => ?_
      refine (mapError (Only.perform (h _ rfl))).bindE fun ads => ?_
      exact (mapError (Only.perform (h _ rfl))).bindE fun connectors => Only.ret _

theorem getActive (h : Plainly K) (tunnelId : String) :
    Only K (TunnelService.getActive tunnelId).run :=
  (listActive h).bindE fun _ => Only.ret _

/-! ## Creating and patching -/

theorem createRetried (h : Plainly K) {kind : Kind} {name : NewName} {spec : kind.Spec}
    (hcreate : K (.create kind name spec)) :
    Only K (Tunnels.createRetried kind name spec) := by
  unfold Tunnels.createRetried
  generalize quotaCheckDelays = delays
  induction delays with
  | nil => exact Only.perform hcreate
  | cons delay delays ih =>
      refine (Only.perform hcreate).bind fun r => ?_
      cases r with
      | ok a => exact Only.ret _
      | error err =>
          simp only
          split
          · exact (Only.perform (h (.sleep delay) rfl)).bind fun _ => ih
          · exact Only.ret _

theorem patchDeviceAnnotations (svc : TunnelService) (connector : Connector)
    (hpatch : ∀ name patch, K (.patch .connector name patch)) :
    Only K (svc.patchDeviceAnnotations connector) := by
  unfold TunnelService.patchDeviceAnnotations
  split
  · exact Only.ret _
  · refine (Only.perform (hpatch _ _)).bind fun r => ?_
    cases r <;> exact Only.ret _

theorem findConnector (svc : TunnelService) (projectId : String) (h : Listing K)
    (hpatch : ∀ name patch, K (.patch .connector name patch)) :
    Only K (svc.findConnector projectId).run := by
  refine (client h projectId).bindE fun _ => ?_
  refine (lift (Only.perform (h.list _ _))).bindE fun r => ?_
  split
  · exact Only.throw _
  · exact Only.throw _
  · exact Only.throw _
  · exact Only.ret _
  · exact (lift (patchDeviceAnnotations svc _ hpatch)).bindE fun _ => Only.ret _

theorem publishConnectionDetails (connectorName : String) (h : Plainly K)
    (hpatch : ∀ name patch, K (.patch .connector name patch)) :
    Only K (TunnelService.publishConnectionDetails connectorName) := by
  refine (Only.perform (h .buildConnectionDetails rfl)).bind fun details => ?_
  cases details with
  | none => exact Only.ret _
  | some details => exact (Only.perform (hpatch _ _)).bind fun _ => Only.ret _

theorem ensureConnector (svc : TunnelService) (projectId : String) (h : Connecting K) :
    Only K (svc.ensureConnector projectId).run := by
  refine (client h.plainly.listing projectId).bindE fun _ => ?_
  refine (findConnector svc projectId h.plainly.listing h.patch).bindE fun found => ?_
  cases found with
  | some connector =>
      exact (lift (publishConnectionDetails _ h.plainly h.patch)).bindE fun _ => Only.ret _
  | none =>
      have hclass : Only K resolveConnectorClass :=
        (Only.perform (h.plainly .listConnectorClasses rfl)).bind fun r => by
          cases r <;> exact Only.ret _
      refine (lift hclass).bindE fun className => ?_
      refine (mapError (createRetried h.plainly (h.create _))).bindE fun connector => ?_
      exact (lift (publishConnectionDetails _ h.plainly h.patch)).bindE fun _ => Only.ret _

theorem patchProxy {tunnelId label context : String} {existing : HTTPProxy}
    {rules : List ProxyRule} (hpatch : ∀ patch, K (.patch .httpProxy tunnelId patch)) :
    Only K (TunnelService.patchProxy tunnelId existing label rules context).run := by
  unfold TunnelService.patchProxy
  split
  · exact Only.ret _
  · exact mapError (Only.perform (hpatch _))

theorem patchAdvertisement {tunnelId context : String} (h : Plainly K)
    {desired : AdvertisementSpec → AdvertisementSpec}
    (hpatch : ∀ patch, K (.patch .connectorAdvertisement tunnelId patch)) :
    Only K (TunnelService.patchAdvertisement tunnelId desired context).run := by
  refine (mapError (Only.perform (h _ rfl))).bindE fun existing => ?_
  cases existing with
  | none => exact Only.ret _
  | some ad =>
      simp only
      split
      · exact Only.ret _
      · exact (mapError (Only.perform (hpatch _))).bindE fun _ => Only.ret _

theorem writeAdvertisement {tunnelId : String} {adSpec : AdvertisementSpec} (h : Plainly K)
    (hpatch : ∀ patch, K (.patch .connectorAdvertisement tunnelId patch))
    (hcreate : ∀ spec, K (.create .connectorAdvertisement (.exactly tunnelId) spec)) :
    Only K (TunnelService.writeAdvertisement tunnelId adSpec).run := by
  refine (mapError (Only.perform (h _ rfl))).bindE fun existing => ?_
  cases existing with
  | none => exact (mapError (createRetried h (hcreate _))).bindE fun _ => Only.ret _
  | some ad => exact (mapError (Only.perform (hpatch _))).bindE fun _ => Only.ret _

theorem createPolicy (svc : TunnelService) (proxyName : String) (h : Plainly K)
    (hcreate : ∀ spec, K (.create .trafficProtectionPolicy (.exactly proxyName) spec)) :
    Only K (svc.createPolicy proxyName).run := by
  unfold TunnelService.createPolicy
  split
  · exact (mapError (createRetried h (hcreate _))).bindE fun _ => Only.ret _
  · exact Only.ret _

theorem spawnEdgePolicies (svc : TunnelService) {projectId tunnelId label : String}
    {rules : List ProxyRule} (h : Plainly K) :
    Only K (svc.spawnEdgePolicies projectId tunnelId label rules) := by
  unfold TunnelService.spawnEdgePolicies
  split
  · exact Only.perform (h _ rfl)
  · exact Only.ret _

theorem storeProxyState (svc : TunnelService) (summary : TunnelSummary)
    (hstate : ∀ update, K (.updateProxies update)) :
    Only K (svc.storeProxyState summary) := by
  unfold TunnelService.storeProxyState
  split
  · exact Only.ret _
  · split
    · exact Only.ret _
    · exact (Only.perform (hstate _)).bind fun _ => Only.ret _

/-! ## Deleting -/

theorem deleteIfThere {kind : Kind} {name loadContext deleteContext : String}
    (hget : K (.getOpt kind name)) (hdelete : K (.delete kind name)) :
    Only K (Tunnels.deleteIfThere kind name loadContext deleteContext).run := by
  refine (mapError (Only.perform hget)).bindE fun existing => ?_
  cases existing with
  | none => exact Only.ret _
  | some _ => exact (mapError (Only.perform hdelete)).bindE fun _ => Only.ret _

theorem deletePolicy {kind : Kind} {name : String} (hdelete : K (.delete kind name)) :
    Only K (Tunnels.deletePolicy kind name).run := by
  refine (lift (Only.perform hdelete)).bindE fun r => ?_
  cases r with
  | ok _ => exact Only.ret _
  | error err =>
      simp only
      split
      · exact Only.ret _
      · split
        · exact Only.ret _
        · exact Only.throw _

theorem checkPolicy {kind : Kind} {what name : String} (h : Plainly K) :
    Only K (Tunnels.checkPolicy kind what name).run := by
  refine (lift (Only.perform (h _ rfl))).bindE fun r => ?_
  cases r with
  | ok policy => exact Only.ret _
  | error err =>
      simp only
      split
      · exact Only.ret _
      · exact Only.throw _

theorem deleteEdgePolicies {tunnelId : String} (h : Plainly K)
    (hdelete : ∀ kind name, K (.delete kind name)) :
    Only K (Tunnels.deleteEdgePolicies tunnelId).run := by
  have hwaf : Only K (deleteWafPolicy (wafPolicyName tunnelId)).run := by
    refine (checkPolicy h).bindE fun policy => ?_
    cases policy with
    | none => exact Only.ret _
    | some policy =>
        simp only
        split
        · exact (deletePolicy (hdelete _ _)).bindE fun _ => Only.ret _
        · exact Only.ret _
  have htimeout : Only K (deleteTimeoutPolicy (timeoutPolicyName tunnelId)).run := by
    refine (checkPolicy h).bindE fun policy => ?_
    cases policy with
    | none => exact Only.ret _
    | some _ => exact (deletePolicy (hdelete _ _)).bindE fun _ => Only.ret _
  exact hwaf.bindE fun _ => htimeout.bindE fun _ => Only.ret _

theorem deleteEach {kind : Kind} (names : List String) (hdelete : ∀ name, K (.delete kind name)) :
    Only K (Tunnels.deleteEach kind names) := by
  unfold Tunnels.deleteEach
  induction names with
  | nil => exact Only.ret _
  | cons name names ih =>
      refine Only.bind ?_ fun _ => ih
      exact (Only.perform (hdelete name)).bind fun _ => Only.ret _

theorem deleteConnectorIfUnused {connectorName : String} (h : Listing K)
    (hget : K (.getOpt .connector connectorName))
    (had : ∀ name, K (.delete .connectorAdvertisement name))
    (hdelete : K (.delete .connector connectorName)) :
    Only K (Tunnels.deleteConnectorIfUnused connectorName).run := by
  refine (mapError (Only.perform (h.list _ _))).bindE fun remaining => ?_
  simp only
  split
  · exact Only.ret _
  · refine (mapError (Only.perform (h.list _ _))).bindE fun ads => ?_
    refine (lift (deleteEach _ had)).bindE fun _ => ?_
    exact deleteIfThere hget hdelete

theorem deleteConnectorOf {connectorName : Option String} (h : Listing K)
    (hget : ∀ name, K (.getOpt .connector name))
    (had : ∀ name, K (.delete .connectorAdvertisement name))
    (hdelete : ∀ name, K (.delete .connector name)) :
    Only K (Tunnels.deleteConnectorOf connectorName).run := by
  cases connectorName with
  | none => exact Only.ret _
  | some name => exact deleteConnectorIfUnused h (hget name) had (hdelete name)

theorem deleteProxy {existing : Option HTTPProxy} {tunnelId : String}
    (hdelete : K (.delete .httpProxy tunnelId)) :
    Only K (Tunnels.deleteProxy existing tunnelId).run := by
  cases existing with
  | none => exact Only.ret _
  | some _ => exact mapError (Only.perform hdelete)

theorem connectorToDelete (svc : TunnelService) {projectId : String} {proxy : Option HTTPProxy}
    (h : Listing K) (hpatch : ∀ name patch, K (.patch .connector name patch)) :
    Only K (svc.connectorToDelete projectId proxy).run := by
  unfold TunnelService.connectorToDelete
  split
  · exact Only.ret _
  · exact (findConnector svc projectId h hpatch).bindE fun _ => Only.ret _

theorem deleteProject (svc : TunnelService) {projectId tunnelId : String} (h : Plainly K)
    (hpatch : ∀ name patch, K (.patch .connector name patch))
    (hdelete : ∀ kind name, K (.delete kind name))
    (hstate : K (.updateProxies (.removeProxy tunnelId)))
    (hdir : K (.deleteTunnelDir projectId tunnelId)) :
    Only K (svc.deleteProject projectId tunnelId).run := by
  refine (client h.listing projectId).bindE fun _ => ?_
  refine (mapError (Only.perform (h _ rfl))).bindE fun existing => ?_
  refine (connectorToDelete svc h.listing hpatch).bindE fun connectorName => ?_
  refine (mapError (deleteEdgePolicies h hdelete)).bindE fun edge => ?_
  refine (deleteProxy (hdelete _ _)).bindE fun _ => ?_
  refine (deleteIfThere (h _ rfl) (hdelete _ _)).bindE fun connectorAd => ?_
  refine (deleteIfThere (h _ rfl) (hdelete _ _)).bindE fun policy => ?_
  refine (lift (Only.perform hstate)).bindE fun _ => ?_
  refine (deleteConnectorOf h.listing (fun _ => h _ rfl) (hdelete _) (hdelete _)).bindE
    fun connector => ?_
  exact (lift (Only.perform hdir)).bindE fun _ => Only.ret _

end Makes

end DatumConnect.Tunnels
