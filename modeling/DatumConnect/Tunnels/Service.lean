import DatumConnect.Cloud.Calls
/-!
# The tunnel service

The operations of `TunnelService`: each is the calls it makes, in their order, and
what it does with their replies.  A service is known by the identity of its listen
node; the rest of its configuration is what the environment and the daemon set.
-/

namespace DatumConnect.Tunnels

open DatumConnect.Lib
open DatumConnect.Cloud
open DatumConnect.Proxies

structure TunnelService where
  endpointId : String
  publishTickets : Bool
  createTrafficProtectionPolicies : Bool
  wafExemptMatches : Option (List RouteMatch)
  edgePolicies : Bool
  friendlyDeviceName : String
  os : String
  parseUrl : String → Option Url

structure TunnelSummary where
  id : String
  label : String
  endpoint : String
  hostnames : List String
  enabled : Bool
  accepted : Bool
  programmed : Bool
  connectorMetadataProgrammed : Bool
  connectorReady : Bool
  connectorName : Option String
  connectorDevice : Option String
  createdAt : Option String
  deriving DecidableEq, Repr

structure OrphanedConnector where
  name : String
  ready : Bool
  device : Option String
  deriving DecidableEq, Repr

structure TunnelDeleteOutcome where
  projectId : String
  httpProxy : Option String
  connectorAd : Option String
  trafficProtectionPolicy : Option String
  connector : Option String
  wafPolicy : Option String
  timeoutPolicy : Option String
  deriving DecidableEq, Repr

structure EdgePolicyRemoval where
  wafDeleted : Option String := none
  wafKept : Option String := none
  timeoutDeleted : Option String := none
  deriving DecidableEq, Repr

/-- What the service reports of a proxy it has just written or read. -/
def summaryOf (spec : ProxySpec) (id label endpoint : String) (enabled : Bool)
    (connectorName connectorDevice : Option String) : TunnelSummary where
  id
  label
  endpoint
  hostnames := HTTPProxy.effectiveHostnames spec
  enabled
  accepted := conditionStatus (HTTPProxy.statusConditions spec) "Accepted" true
  programmed := conditionStatus (HTTPProxy.statusConditions spec) "Programmed" true
  connectorMetadataProgrammed :=
    conditionStatus (HTTPProxy.statusConditions spec) "ConnectorMetadataProgrammed" false
  connectorReady := false
  connectorName
  connectorDevice
  createdAt := spec.createdAt

/-! ## Connectors -/

def connectorClassNames : String × String := ("iroh-quic-tunnel", "datum-connect")

/-- The preferred class that exists, else the first that does, else the current
name. -/
def pickConnectorClass (existing : List String) : String :=
  if connectorClassNames.1 ∈ existing then connectorClassNames.1
  else if connectorClassNames.2 ∈ existing then connectorClassNames.2
  else existing.head?.getD connectorClassNames.1

def resolveConnectorClass : Svc String := do
  match ← Svc.listConnectorClasses with
  | .ok classes => return pickConnectorClass classes
  | .error _ => return connectorClassNames.1

/-- The delays between the attempts of `with_quota_check_retry`. -/
def quotaCheckDelays : List Nat := [1, 2, 4, 8]

def withQuotaCheckRetry {α : Type} (f : Svc (Except KubeError α)) :
    List Nat → Svc (Except KubeError α)
  | [] => f
  | delay :: delays => do
      match ← f with
      | .ok a => return .ok a
      | .error err =>
          if err.isQuotaCheckTimeout then
            Svc.sleep delay
            withQuotaCheckRetry f delays
          else return .error err

/-- A create, retried while the server is checking the quota. -/
def createRetried (kind : Kind) (name : NewName) (spec : kind.Spec) :
    Svc (Except KubeError (Object kind.Spec)) :=
  withQuotaCheckRetry (Svc.create kind name spec) quotaCheckDelays

/-- `format_quota_error`, and the message of a create that failed for another
reason. -/
def createFailed (resourceType : String) (err : KubeError) : Error :=
  if !err.isQuotaCheckTimeout && Text.contains err.message.toList "quota".toList then
    .bail s!"Quota limit exceeded for {resourceType} resources.\n\nYou've reached the limit for creating {resourceType} resources in this project.\n\nTo fix this, you can:\n  - Delete unused tunnels to free up capacity\n  - Contact support to request a higher quota limit\n\nRun 'tunnel list' to see existing tunnels."
  else .kube ("Failed to create " ++ resourceType) err

def createOrFail (kind : Kind) (name : NewName) (spec : kind.Spec) (resourceType : String) :
    SvcE (Object kind.Spec) :=
  SvcE.mapError (createFailed resourceType) (createRetried kind name spec)

/-- Delete the object if it is there. -/
def deleteIfThere (kind : Kind) (name loadContext deleteContext : String) : SvcE (Option String) := do
  match ← SvcE.orElseContext (Svc.getOpt kind name) loadContext with
  | none => return none
  | some _ =>
      SvcE.orElseContext (Svc.delete kind name) deleteContext
      return some name

def deleteAdvertisement (tunnelId : String) : SvcE (Option String) :=
  deleteIfThere .connectorAdvertisement tunnelId "Failed to load ConnectorAdvertisement"
    "Failed to delete ConnectorAdvertisement"

namespace TunnelService

variable (svc : TunnelService)

/-- `patch_device_annotations`: the connector as the server then has it. -/
def patchDeviceAnnotations (connector : Connector) : Svc Connector := do
  if connector.spec.deviceName = some svc.friendlyDeviceName ∧
      connector.spec.deviceOs = some svc.os then
    return connector
  else
    match ← Svc.patch connector.name (Patch.annotations svc.friendlyDeviceName svc.os) with
    | .ok patched => return patched
    | .error _ => return connector

/-- The connector of this service's identity, if there is one. -/
def findConnector (projectId : String) : SvcE (Option Connector) := do
  SvcE.projectControlPlaneClient projectId
  match ← SvcE.lift (Svc.list .connector (.field connectorSelectorField svc.endpointId)) with
  | .error (.api 403 _) => throw (.bail s!"Permission denied listing connectors in project {projectId}. Switch your datumctl context to this project first: 'datumctl ctx switch {projectId}'")
  | .error (.api 401 _) => throw (.bail s!"Authentication failed for project {projectId}. Switch your datumctl context to this project first: 'datumctl ctx switch {projectId}'")
  | .error err => throw (.kube "Failed to list connectors" err)
  | .ok [] => return none
  | .ok (connector :: _) => return some (← SvcE.lift (svc.patchDeviceAnnotations connector))

/-- Publish where the node can be reached; a failure is only logged. -/
def publishConnectionDetails (connectorName : String) : Svc Unit := do
  match ← Svc.buildConnectionDetails with
  | some details =>
      let _ ← Svc.patch connectorName (Patch.connectionDetails details)
      return ()
  | none => return ()

def ensureConnector (projectId : String) : SvcE Connector := do
  SvcE.projectControlPlaneClient projectId
  match ← svc.findConnector projectId with
  | some connector =>
      SvcE.lift (publishConnectionDetails connector.name)
      return connector
  | none =>
      let className ← SvcE.lift resolveConnectorClass
      let connector ← SvcE.orElseContext
        (createRetried .connector (.generate "datum-connect-") {
          className
          deviceName := some svc.friendlyDeviceName
          deviceOs := some svc.os
          status := none })
        "Failed to create Connector"
      SvcE.lift (publishConnectionDetails connector.name)
      return connector

/-! ## Reading tunnels -/

/-- One entry of the list of tunnels. -/
def summarize (ads : List ConnectorAdvertisement) (connectors : List Connector)
    (proxy : HTTPProxy) : TunnelSummary :=
  let connectorName := HTTPProxy.connectorName proxy.spec
  let connector := connectorName.bind fun name => connectors.reverse.find? fun c => c.name = name
  { summaryOf proxy.spec proxy.name (HTTPProxy.labelOr proxy.spec proxy.name)
      (normalizeEndpoint ((HTTPProxy.backendEndpoint proxy.spec).getD ""))
      (ads.any fun ad => ad.name = proxy.name)
      connectorName
      (connector.bind fun c => c.spec.deviceName) with
    connectorReady := match connector with
      | some c => conditionStatus (c.spec.status.bind ConnectorStatus.conditions) "Ready" true
      | none => false }

/-- The proxies that are listed as tunnels. -/
def tunnelProxies (proxies : List HTTPProxy) : List HTTPProxy :=
  proxies.filter fun proxy => "tunnel-".toList.isPrefixOf proxy.name.toList

def orphansOf (proxies : List HTTPProxy) (connectors : List Connector) : List OrphanedConnector :=
  let referenced := (tunnelProxies proxies).filterMap fun proxy => HTTPProxy.connectorName proxy.spec
  (connectors.filter fun c => c.name ∉ referenced).map fun c => {
    name := c.name
    ready := conditionStatus (c.spec.status.bind ConnectorStatus.conditions) "Ready" true
    device := c.spec.deviceName }

def listProjectWithOrphans (projectId : String) :
    SvcE (List TunnelSummary × List OrphanedConnector) := do
  SvcE.projectControlPlaneClient projectId
  let proxies ← SvcE.orElseContext (Svc.list .httpProxy .everything)
    "Failed to list HTTPProxy objects"
  let ads ← SvcE.orElseContext (Svc.list .connectorAdvertisement .everything)
    "Failed to list ConnectorAdvertisement objects"
  let connectors ← SvcE.orElseContext (Svc.list .connector .everything)
    "Failed to list Connector objects"
  return ((tunnelProxies proxies).map (summarize ads connectors), orphansOf proxies connectors)

def listProject (projectId : String) : SvcE (List TunnelSummary) := do
  return (← listProjectWithOrphans projectId).1

def listActive : SvcE (List TunnelSummary) := do
  match ← SvcE.lift Svc.selectedContext with
  | none => return []
  | some projectId => listProject projectId

def getActive (tunnelId : String) : SvcE (Option TunnelSummary) := do
  return (← listActive).find? fun tunnel => tunnel.id = tunnelId

/-! ## Writing tunnels -/

/-- The background pass over a tunnel's edge policies, if the service does them. -/
def spawnEdgePolicies (projectId tunnelId label : String) (rules : List ProxyRule) : Svc Unit :=
  if svc.edgePolicies then
    Svc.ensureEdgePolicies projectId tunnelId label
      (rules.any fun rule => rule.name = some "protected")
  else return ()

/-- Keep the local proxy list up to date; only where no tickets are published. -/
def storeProxyState (summary : TunnelSummary) : Svc Unit := do
  if svc.publishTickets then return ()
  else
    match proxyStateFromSummary svc.parseUrl summary.id summary.endpoint summary.label
      summary.enabled with
    | .error _ => return ()
    | .ok proxyState =>
        let _ ← Svc.updateProxies (.setProxy proxyState)
        return ()

/-- The tunnel's own policy, where the environment asks for one. -/
def createPolicy (proxyName : String) : SvcE Unit := do
  if svc.createTrafficProtectionPolicies then
    let _ ← createOrFail .trafficProtectionPolicy (.exactly proxyName)
      (trafficProtectionPolicy proxyName) "TrafficProtectionPolicy"
    return ()
  else return ()

def createProject (projectId label endpoint : String) : SvcE TunnelSummary := do
  let endpoint := normalizeEndpoint endpoint
  let target ← SvcE.ofExcept (parseTarget svc.parseUrl endpoint)
  let connector ← svc.ensureConnector projectId
  SvcE.projectControlPlaneClient projectId
  let proxy ← createOrFail .httpProxy (.generate "tunnel-") {
      label := some label
      hostnames := none
      rules := desiredProxyRules endpoint connector.name svc.wafExemptMatches }
    "HTTPProxy"
  let _ ← createOrFail .connectorAdvertisement (.exactly proxy.name)
    (advertisementSpec connector.name target) "ConnectorAdvertisement"
  svc.createPolicy proxy.name
  SvcE.lift (svc.spawnEdgePolicies projectId proxy.name label proxy.spec.rules)
  let proxyState ← SvcE.ofExcept
    (proxyStateFromSummary svc.parseUrl proxy.name endpoint label true)
  let _ ← SvcE.lift (Svc.updateProxies (.setProxy proxyState))
  return summaryOf proxy.spec proxy.name label endpoint true (some connector.name)
    (some svc.friendlyDeviceName)

/-- Bring label and rules to the server, unless it has them already. -/
def patchProxy (tunnelId : String) (existing : HTTPProxy) (label : String)
    (rules : List ProxyRule) (context : String) : SvcE HTTPProxy := do
  if HTTPProxy.specMatches existing.spec label rules then return existing
  else
    SvcE.orElseContext
      (Svc.patch tunnelId (Patch.proxy label (existing.spec.hostnames.getD []) rules)) context

/-- Bring the target to the advertisement, if there is one. -/
def patchAdvertisement (tunnelId : String) (desired : AdvertisementSpec → AdvertisementSpec)
    (context : String) : SvcE Bool := do
  let existing ← SvcE.orElseContext (Svc.getOpt .connectorAdvertisement tunnelId)
    "Failed to fetch ConnectorAdvertisement"
  match existing with
  | none => return false
  | some ad =>
      if ad.spec = desired ad.spec then return true
      else
        let _ ← SvcE.orElseContext
          (Svc.patch tunnelId (Patch.advertisement (desired ad.spec))) context
        return true

def updateProject (projectId tunnelId label endpoint : String) : SvcE TunnelSummary := do
  let endpoint := normalizeEndpoint endpoint
  let target ← SvcE.ofExcept (parseTarget svc.parseUrl endpoint)
  let connector ← svc.ensureConnector projectId
  SvcE.projectControlPlaneClient projectId
  let existing ← SvcE.orElseContext (Svc.get .httpProxy tunnelId) "Failed to fetch HTTPProxy"
  let _ ← patchProxy tunnelId existing label
    (desiredProxyRules endpoint connector.name svc.wafExemptMatches) "Failed to update HTTPProxy"
  let enabled ← patchAdvertisement tunnelId (fun _ => advertisementSpec connector.name target)
    "Failed to update ConnectorAdvertisement"
  let summary := summaryOf existing.spec tunnelId label endpoint enabled
    (HTTPProxy.connectorName existing.spec) none
  SvcE.lift (svc.storeProxyState summary)
  return summary

/-- Only the endpoint changes: the proxy and the advertisement keep their
connector.  A proxy without one is updated as a whole. -/
def retargetProject (projectId tunnelId endpoint : String) : SvcE TunnelSummary := do
  let endpoint := normalizeEndpoint endpoint
  let target ← SvcE.ofExcept (parseTarget svc.parseUrl endpoint)
  SvcE.projectControlPlaneClient projectId
  let existing ← SvcE.orElseContext (Svc.get .httpProxy tunnelId) "Failed to fetch HTTPProxy"
  let label := HTTPProxy.labelOr existing.spec tunnelId
  match retargetProxyRules existing.spec endpoint svc.wafExemptMatches with
  | none => svc.updateProject projectId tunnelId label endpoint
  | some rules =>
      let _ ← patchProxy tunnelId existing label rules "Failed to update HTTPProxy endpoint"
      let enabled ← patchAdvertisement tunnelId (fun spec => retargetAdvertisementSpec spec target)
        "Failed to update ConnectorAdvertisement endpoint"
      let summary := summaryOf existing.spec tunnelId label endpoint enabled
        (HTTPProxy.connectorName existing.spec) none
      SvcE.lift (svc.storeProxyState summary)
      return summary

/-- Make the advertisement, or overwrite it. -/
def writeAdvertisement (tunnelId : String) (adSpec : AdvertisementSpec) : SvcE Unit := do
  match ← SvcE.orElseContext (Svc.getOpt .connectorAdvertisement tunnelId)
    "Failed to load ConnectorAdvertisement" with
  | some _ =>
      let _ ← SvcE.orElseContext (Svc.patch tunnelId (Patch.advertisement adSpec))
        "Failed to update ConnectorAdvertisement"
      return ()
  | none =>
      let _ ← SvcE.orElseContext (createRetried .connectorAdvertisement (.exactly tunnelId) adSpec)
        "Failed to create ConnectorAdvertisement"
      return ()

/-- Turning a tunnel on: the proxy is pointed at this service's connector, and
the advertisement made or overwritten. -/
def enable (projectId tunnelId : String) (proxy : HTTPProxy) (endpoint label : String) :
    SvcE Unit := do
  let connector ← svc.ensureConnector projectId
  let target ← SvcE.ofExcept (parseTarget svc.parseUrl endpoint)
  let written ← patchProxy tunnelId proxy label
    (desiredProxyRules endpoint connector.name svc.wafExemptMatches)
    "Failed to patch HTTPProxy connector reference"
  writeAdvertisement tunnelId (advertisementSpec connector.name target)
  SvcE.lift (svc.spawnEdgePolicies projectId tunnelId label written.spec.rules)

/-- What turning a tunnel on or off does to its objects. -/
def switch (projectId tunnelId : String) (proxy : HTTPProxy) (endpoint label : String)
    (enabled : Bool) : SvcE Unit := do
  if enabled then svc.enable projectId tunnelId proxy endpoint label
  else
    let _ ← deleteAdvertisement tunnelId
    return ()

def setEnabledProject (projectId tunnelId : String) (enabled : Bool) : SvcE TunnelSummary := do
  SvcE.projectControlPlaneClient projectId
  let proxy ← SvcE.orElseContext (Svc.get .httpProxy tunnelId) "Failed to fetch HTTPProxy"
  let endpoint := normalizeEndpoint ((HTTPProxy.backendEndpoint proxy.spec).getD "")
  let label := HTTPProxy.labelOr proxy.spec tunnelId
  svc.switch projectId tunnelId proxy endpoint label enabled
  let summary := summaryOf proxy.spec tunnelId label endpoint enabled
    (HTTPProxy.connectorName proxy.spec) none
  SvcE.lift (svc.storeProxyState summary)
  return summary

end TunnelService

/-! ## Deleting -/

/-- Whether the policy was deleted: not if it was gone, nor if deleting it was
refused. -/
def deletePolicy (kind : Kind) (name : String) : SvcE Bool := do
  match ← SvcE.lift (Svc.delete kind name) with
  | .ok () => return true
  | .error err =>
      match err with
      | .api 404 _ => return false
      | _ =>
        if err.isDenied then return false
        else throw (.kube ("could not delete policy " ++ name) err)

/-- The look at a policy before it is deleted; one that may not be read is kept. -/
def checkPolicy (kind : Kind) (what name : String) : SvcE (Option (Object kind.Spec)) := do
  match ← SvcE.lift (Svc.getOpt kind name) with
  | .ok policy => return policy
  | .error err =>
      if err.isDenied then return none
      else throw (.kube ("could not check " ++ what ++ " policy " ++ name) err)

/-- The WAF policy goes only if this code made it. -/
def deleteWafPolicy (name : String) : SvcE EdgePolicyRemoval := do
  match ← checkPolicy .trafficProtectionPolicy "WAF" name with
  | none => return {}
  | some policy =>
      if policy.spec.managed then
        let deleted ← deletePolicy .trafficProtectionPolicy name
        return { wafDeleted := if deleted then some name else none }
      else return { wafKept := some name }

/-- The request timeout always goes. -/
def deleteTimeoutPolicy (name : String) : SvcE (Option String) := do
  match ← checkPolicy .backendTrafficPolicy "request timeout" name with
  | none => return none
  | some _ =>
      let deleted ← deletePolicy .backendTrafficPolicy name
      return if deleted then some name else none

def deleteEdgePolicies (tunnelId : String) : SvcE EdgePolicyRemoval := do
  let waf ← deleteWafPolicy (wafPolicyName tunnelId)
  let timeoutDeleted ← deleteTimeoutPolicy (timeoutPolicyName tunnelId)
  return { waf with timeoutDeleted }

/-- The connector the proxy references, as long as it is not being deleted. -/
def liveConnectorName (proxy : HTTPProxy) : Option String :=
  if proxy.deleting then none else HTTPProxy.connectorName proxy.spec

/-- Delete the objects one after the other; a failure is only logged. -/
def deleteEach (kind : Kind) (names : List String) : Svc Unit :=
  names.forM fun name => do
    let _ ← Svc.delete kind name
    return ()

/-- The connector goes with the advertisements that point at it, unless a proxy
still uses it. -/
def deleteConnectorIfUnused (connectorName : String) : SvcE (Option String) := do
  let remaining ← SvcE.orElseContext (Svc.list .httpProxy .everything)
    "Failed to list remaining HTTPProxy objects"
  if remaining.any fun proxy => liveConnectorName proxy = some connectorName then
    return none
  else
    let ads ← SvcE.orElseContext
      (Svc.list .connectorAdvertisement (.field advertisementConnectorField connectorName))
      "Failed to list remaining ConnectorAdvertisements"
    let pointing := ads.filter fun ad => ad.spec.connectorRef = connectorName
    SvcE.lift (deleteEach .connectorAdvertisement (pointing.map Object.name))
    deleteIfThere .connector connectorName "Failed to load Connector" "Failed to delete Connector"

/-- The proxy goes if it was there at the start. -/
def deleteProxy (existing : Option HTTPProxy) (tunnelId : String) : SvcE Unit :=
  match existing with
  | some _ => SvcE.orElseContext (Svc.delete .httpProxy tunnelId) "Failed to delete HTTPProxy"
  | none => pure ()

def deleteConnectorOf : Option String → SvcE (Option String)
  | some connectorName => deleteConnectorIfUnused connectorName
  | none => pure none

namespace TunnelService

variable (svc : TunnelService)

/-- The connector to delete with the tunnel: the one the proxy references, else
the one of this service's identity. -/
def connectorToDelete (projectId : String) (proxy : Option HTTPProxy) : SvcE (Option String) := do
  match proxy.bind fun proxy => HTTPProxy.connectorName proxy.spec with
  | some name => return some name
  | none => return (← svc.findConnector projectId).map Object.name

def deleteProject (projectId tunnelId : String) : SvcE TunnelDeleteOutcome := do
  SvcE.projectControlPlaneClient projectId
  let existing ← SvcE.orElseContext (Svc.getOpt .httpProxy tunnelId) "Failed to load HTTPProxy"
  let connectorName ← svc.connectorToDelete projectId existing
  let edge ← SvcE.mapError (.within "Failed to delete the tunnel's edge policies")
    (deleteEdgePolicies tunnelId).run
  deleteProxy existing tunnelId
  let connectorAd ← deleteAdvertisement tunnelId
  let trafficProtectionPolicy ← deleteIfThere .trafficProtectionPolicy tunnelId
    "Failed to load TrafficProtectionPolicy" "Failed to delete TrafficProtectionPolicy"
  let _ ← SvcE.lift (Svc.updateProxies (.removeProxy tunnelId))
  let connector ← deleteConnectorOf connectorName
  let _ ← SvcE.lift (Svc.deleteTunnelDir projectId tunnelId)
  return {
    projectId
    httpProxy := existing.map fun _ => tunnelId
    connectorAd
    trafficProtectionPolicy
    connector
    wafPolicy := edge.wafDeleted
    timeoutPolicy := edge.timeoutDeleted }

end TunnelService

/-- The connector and the advertisements left of it; a failure is only logged. -/
def deleteOrphan (connectorName : String) : Svc Bool := do
  let ads ← Svc.list .connectorAdvertisement (.field advertisementConnectorField connectorName)
  deleteEach .connectorAdvertisement ((ads.toOption.getD []).map Object.name)
  return (← Svc.delete .connector connectorName).isOk

/-- The names of those that could be deleted. -/
def deleteOrphans : List String → Svc (List String)
  | [] => return []
  | name :: names => do
      let deleted ← deleteOrphan name
      let more ← deleteOrphans names
      return if deleted then name :: more else more

/-- Delete the connectors that no live proxy references. -/
def cleanupOrphanedConnectorsProject (projectId : String) : SvcE (List String) := do
  SvcE.projectControlPlaneClient projectId
  let proxies ← SvcE.orElseContext (Svc.list .httpProxy .everything)
    "Failed to list HTTPProxy objects"
  let referenced := proxies.filterMap liveConnectorName
  let connectors ← SvcE.orElseContext (Svc.list .connector .everything)
    "Failed to list Connector objects"
  let orphans := connectors.filter fun c => c.name ∉ referenced
  SvcE.lift (deleteOrphans (orphans.map Object.name))

/-! ## In the selected project -/

/-- The operations on one tunnel fail where no project is selected. -/
def inSelectedProject {α : Type} (op : String → SvcE α) : SvcE α := do
  match ← SvcE.lift Svc.selectedContext with
  | none => throw (.bail "No project selected")
  | some projectId => op projectId

namespace TunnelService

variable (svc : TunnelService)

def createActive (label endpoint : String) : SvcE TunnelSummary :=
  inSelectedProject fun projectId => svc.createProject projectId label endpoint

def updateActive (tunnelId label endpoint : String) : SvcE TunnelSummary :=
  inSelectedProject fun projectId => svc.updateProject projectId tunnelId label endpoint

def retargetActive (tunnelId endpoint : String) : SvcE TunnelSummary :=
  inSelectedProject fun projectId => svc.retargetProject projectId tunnelId endpoint

def setEnabledActive (tunnelId : String) (enabled : Bool) : SvcE TunnelSummary :=
  inSelectedProject fun projectId => svc.setEnabledProject projectId tunnelId enabled

def deleteActive (tunnelId : String) : SvcE TunnelDeleteOutcome :=
  inSelectedProject fun projectId => svc.deleteProject projectId tunnelId

end TunnelService

def cleanupOrphanedConnectors : SvcE (List String) := do
  match ← SvcE.lift Svc.selectedContext with
  | none => return []
  | some projectId => cleanupOrphanedConnectorsProject projectId

end DatumConnect.Tunnels
