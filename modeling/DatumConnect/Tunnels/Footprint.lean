import DatumConnect.Tunnels.Service
/-!
# Which kinds of object the operations write

Whatever the server replies, the parts of an operation write objects of a few
kinds only.
-/

namespace DatumConnect.Tunnels

open DatumConnect.Lib
open DatumConnect.Lib.Prog (Only)
open DatumConnect.Cloud

/-- The kind of object that a call writes. -/
def writtenKind : Call → Option Kind
  | .create kind _ _ => some kind
  | .patch kind _ _ => some kind
  | .delete kind _ => some kind
  | _ => none

/-- If the call writes, it writes one of the kinds. -/
def Writes (kinds : List Kind) (c : Call) : Prop := ∀ kind ∈ writtenKind c, kind ∈ kinds

namespace Writes

variable {α ε : Type} {kinds : List Kind}

theorem of_none {c : Call} (h : writtenKind c = none) : Writes kinds c := by
  simp [Writes, h]

theorem of_kind {c : Call} {kind : Kind} (h : writtenKind c = some kind) (hmem : kind ∈ kinds) :
    Writes kinds c := by
  rintro kind' hkind'
  rw [h] at hkind'
  cases hkind'
  exact hmem

theorem lift {p : Svc α} (h : Only (Writes kinds) p) : Only (Writes kinds) (SvcE.lift p).run :=
  h.bind fun _ => Only.ret _

theorem mapError {f : ε → Error} {p : Svc (Except ε α)} (h : Only (Writes kinds) p) :
    Only (Writes kinds) (SvcE.mapError f p).run :=
  h.bind fun _ => Only.ret _

theorem client (projectId : String) :
    Only (Writes kinds) (SvcE.projectControlPlaneClient projectId).run :=
  Only.perform (of_none rfl)

theorem ofExcept {r : Except String α} : Only (Writes kinds) (SvcE.ofExcept r).run := by
  cases r <;> exact Only.ret _

theorem create {kind : Kind} {name : NewName} {spec : kind.Spec} (hmem : kind ∈ kinds) :
    Only (Writes kinds) (createRetried kind name spec) := by
  unfold createRetried
  generalize quotaCheckDelays = delays
  induction delays with
  | nil => exact Only.perform (of_kind rfl hmem)
  | cons delay delays ih =>
      refine (Only.perform (of_kind rfl hmem)).bind fun r => ?_
      cases r with
      | ok a => exact Only.ret _
      | error err =>
          simp only
          split
          · exact (Only.perform (of_none rfl)).bind fun _ => ih
          · exact Only.ret _

theorem patchDeviceAnnotations (svc : TunnelService) (connector : Connector)
    (hmem : .connector ∈ kinds) : Only (Writes kinds) (svc.patchDeviceAnnotations connector) := by
  unfold TunnelService.patchDeviceAnnotations
  split
  · exact Only.ret _
  · refine (Only.perform (of_kind rfl hmem)).bind fun r => ?_
    cases r <;> exact Only.ret _

theorem findConnector (svc : TunnelService) (projectId : String) (hmem : .connector ∈ kinds) :
    Only (Writes kinds) (svc.findConnector projectId).run := by
  refine (client projectId).bindE fun _ => ?_
  refine (lift (Only.perform (of_none rfl))).bindE fun r => ?_
  split
  · exact Only.ret _
  · exact Only.ret _
  · exact Only.ret _
  · exact Only.ret _
  · exact (lift (patchDeviceAnnotations svc _ hmem)).bindE fun _ => Only.ret _

theorem publishConnectionDetails (connectorName : String) (hmem : .connector ∈ kinds) :
    Only (Writes kinds) (TunnelService.publishConnectionDetails connectorName) := by
  refine (Only.perform (of_none rfl)).bind fun details => ?_
  cases details with
  | none => exact Only.ret _
  | some details => exact (Only.perform (of_kind rfl hmem)).bind fun _ => Only.ret _

theorem ensureConnector (svc : TunnelService) (projectId : String) (hmem : .connector ∈ kinds) :
    Only (Writes kinds) (svc.ensureConnector projectId).run := by
  refine (client projectId).bindE fun _ => ?_
  refine (findConnector svc projectId hmem).bindE fun found => ?_
  cases found with
  | some connector =>
      exact (lift (publishConnectionDetails _ hmem)).bindE fun _ => Only.ret _
  | none =>
      have hclass : Only (Writes kinds) resolveConnectorClass :=
        (Only.perform (of_none rfl)).bind fun r => by cases r <;> exact Only.ret _
      refine (lift hclass).bindE fun className => ?_
      refine (mapError (create hmem)).bindE fun connector => ?_
      exact (lift (publishConnectionDetails _ hmem)).bindE fun _ => Only.ret _

theorem patchProxy {tunnelId label context : String} {existing : HTTPProxy}
    {rules : List ProxyRule} (hmem : .httpProxy ∈ kinds) :
    Only (Writes kinds) (TunnelService.patchProxy tunnelId existing label rules context).run := by
  unfold TunnelService.patchProxy
  split
  · exact Only.ret _
  · exact mapError (Only.perform (of_kind rfl hmem))

theorem patchAdvertisement {tunnelId context : String}
    {desired : AdvertisementSpec → AdvertisementSpec} (hmem : .connectorAdvertisement ∈ kinds) :
    Only (Writes kinds) (TunnelService.patchAdvertisement tunnelId desired context).run := by
  refine (mapError (Only.perform (of_none rfl))).bindE fun existing => ?_
  cases existing with
  | none => exact Only.ret _
  | some ad =>
      simp only
      split
      · exact Only.ret _
      · exact (mapError (Only.perform (of_kind rfl hmem))).bindE fun _ => Only.ret _

theorem writeAdvertisement {tunnelId : String} {adSpec : AdvertisementSpec}
    (hmem : .connectorAdvertisement ∈ kinds) :
    Only (Writes kinds) (TunnelService.writeAdvertisement tunnelId adSpec).run := by
  refine (mapError (Only.perform (of_none rfl))).bindE fun existing => ?_
  cases existing with
  | none => exact (mapError (create hmem)).bindE fun _ => Only.ret _
  | some ad => exact (mapError (Only.perform (of_kind rfl hmem))).bindE fun _ => Only.ret _

theorem createPolicy (svc : TunnelService) (proxyName : String)
    (hmem : .trafficProtectionPolicy ∈ kinds) :
    Only (Writes kinds) (svc.createPolicy proxyName).run := by
  unfold TunnelService.createPolicy
  split
  · exact (mapError (create hmem)).bindE fun _ => Only.ret _
  · exact Only.ret _

theorem spawnEdgePolicies (svc : TunnelService) {projectId tunnelId label : String}
    {rules : List ProxyRule} :
    Only (Writes kinds) (svc.spawnEdgePolicies projectId tunnelId label rules) := by
  unfold TunnelService.spawnEdgePolicies
  split
  · exact Only.perform (of_none rfl)
  · exact Only.ret _

theorem storeProxyState (svc : TunnelService) (summary : TunnelSummary) :
    Only (Writes kinds) (svc.storeProxyState summary) := by
  unfold TunnelService.storeProxyState
  split
  · exact Only.ret _
  · split
    · exact Only.ret _
    · exact (Only.perform (of_none rfl)).bind fun _ => Only.ret _

end Writes

end DatumConnect.Tunnels
