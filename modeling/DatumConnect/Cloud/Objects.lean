import DatumConnect.Lib.Objects
/-!
# The project's objects

The resources of a project control plane that the tunnel service reads and
writes, and what it makes of an HTTPProxy.
-/

namespace DatumConnect.Cloud

open DatumConnect.Lib

/-! ## HTTPProxy -/

structure PathMatch where
  type : Option String
  value : Option String
  deriving DecidableEq, Repr

structure HeaderMatch where
  name : String
  type : Option String
  value : String
  deriving DecidableEq, Repr

/-- `HTTPRouteMatch`; `others` stands for the fields that are only ever copied. -/
structure RouteMatch where
  path : Option PathMatch
  headers : Option (List HeaderMatch) := none
  method : Option String := none
  others : String := ""
  deriving DecidableEq, Repr

structure RequestRedirect where
  scheme : Option String
  statusCode : Option Nat
  deriving DecidableEq, Repr

structure RouteFilter where
  type : String
  requestRedirect : Option RequestRedirect
  others : String := ""
  deriving DecidableEq, Repr

structure Backend where
  endpoint : String
  connector : Option String
  filters : Option (List RouteFilter) := none
  deriving DecidableEq, Repr

structure ProxyRule where
  name : Option String
  routes : List RouteMatch
  filters : Option (List RouteFilter)
  backends : Option (List Backend)
  deriving DecidableEq, Repr

structure Condition where
  type : String
  status : String
  deriving DecidableEq, Repr

structure ProxyStatus where
  hostnames : Option (List String)
  conditions : Option (List Condition)
  deriving DecidableEq, Repr

/-- An HTTPProxy, with its display-name annotation. -/
structure ProxySpec where
  label : Option String
  hostnames : Option (List String)
  rules : List ProxyRule
  status : Option ProxyStatus := none
  createdAt : Option String := none
  deriving DecidableEq, Repr

abbrev HTTPProxy := Object ProxySpec

/-- The connectors that the backends of the rules name, in their order. -/
def connectorsOf (rules : List ProxyRule) : List String :=
  (rules.flatMap fun rule => rule.backends.getD []).filterMap Backend.connector

namespace HTTPProxy

def connectors (spec : ProxySpec) : List String := connectorsOf spec.rules

/-- The name of the first backend that references a connector. -/
def connectorName (spec : ProxySpec) : Option String :=
  (spec.rules.flatMap fun rule => rule.backends.getD []).findSome? Backend.connector

theorem connectorName_eq_head? (spec : ProxySpec) : connectorName spec = (connectors spec).head? := by
  rw [connectorName, connectors, connectorsOf, List.head?_filterMap]

/-- The endpoint of the first rule with a backend. -/
def backendEndpoint (spec : ProxySpec) : Option String :=
  (spec.rules.findSome? fun rule => rule.backends.bind List.head?).map Backend.endpoint

def statusConditions (spec : ProxySpec) : Option (List Condition) :=
  spec.status.bind ProxyStatus.conditions

/-- `proxy_hostnames`. -/
def effectiveHostnames (spec : ProxySpec) : List String :=
  ((spec.status.bind ProxyStatus.hostnames).or spec.hostnames).getD []

/-- The display label, or the name of a proxy that has none. -/
def labelOr (spec : ProxySpec) (tunnelId : String) : String := spec.label.getD tunnelId

/-- The spec already has what a write would bring. -/
def specMatches (existing : ProxySpec) (label : String) (rules : List ProxyRule) : Bool :=
  existing.label = some label && existing.rules = rules

end HTTPProxy

/-- `condition_status`: an absent condition counts as true where it is not required. -/
def conditionStatus (conditions : Option (List Condition)) (kind : String)
    (requireTrue : Bool) : Bool :=
  match (conditions.getD []).find? fun c => c.type = kind with
  | some c => c.status = "True"
  | none => !requireTrue

/-! ## The rules a service writes -/

def defaultMatch : RouteMatch where
  path := some { type := some "PathPrefix", value := some "/" }

def httpsRedirectRule : ProxyRule where
  name := none
  routes := [{
    path := some { type := some "PathPrefix", value := some "/" }
    headers := some [{ name := "x-forwarded-proto", type := some "Exact", value := "http" }] }]
  filters := some [{
    type := "RequestRedirect"
    requestRedirect := some { scheme := some "https", statusCode := some 301 } }]
  backends := none

def proxyRule (endpoint connectorName : String) : ProxyRule where
  name := none
  routes := [defaultMatch]
  filters := none
  backends := some [{ endpoint, connector := some connectorName }]

def desiredProxyRules (endpoint connectorName : String)
    (wafExemptMatches : Option (List RouteMatch)) : List ProxyRule :=
  match wafExemptMatches with
  | some (m :: ms) => [
      httpsRedirectRule,
      { proxyRule endpoint connectorName with name := some "streams", routes := m :: ms },
      { proxyRule endpoint connectorName with name := some "protected" }]
  | _ => [httpsRedirectRule, proxyRule endpoint connectorName]

/-- `retarget_proxy_rules`: the connector stays, if there is one. -/
def retargetProxyRules (existing : ProxySpec) (endpoint : String)
    (wafExemptMatches : Option (List RouteMatch)) : Option (List ProxyRule) :=
  (HTTPProxy.connectorName existing).map fun connectorName =>
    desiredProxyRules endpoint connectorName wafExemptMatches

/-- Every backend of the rules a service writes names the one connector. -/
theorem connectorsOf_desiredProxyRules {endpoint connectorName : String}
    {wafExemptMatches : Option (List RouteMatch)} :
    ∀ name ∈ connectorsOf (desiredProxyRules endpoint connectorName wafExemptMatches),
      name = connectorName := by
  intro name hname
  unfold connectorsOf desiredProxyRules at hname
  split at hname <;> simpa [httpsRedirectRule, proxyRule] using hname

theorem connectorName_desiredProxyRules {spec : ProxySpec} {endpoint connectorName : String}
    {wafExemptMatches : Option (List RouteMatch)}
    (h : spec.rules = desiredProxyRules endpoint connectorName wafExemptMatches) :
    HTTPProxy.connectorName spec = some connectorName := by
  rw [HTTPProxy.connectorName, h]
  unfold desiredProxyRules
  split <;> rfl

theorem backendEndpoint_desiredProxyRules {spec : ProxySpec} {endpoint connectorName : String}
    {wafExemptMatches : Option (List RouteMatch)}
    (h : spec.rules = desiredProxyRules endpoint connectorName wafExemptMatches) :
    HTTPProxy.backendEndpoint spec = some endpoint := by
  rw [HTTPProxy.backendEndpoint, h]
  unfold desiredProxyRules
  split <;> rfl

/-! ## Connectors, advertisements and policies -/

structure ConnectionDetails where
  publicKeyId : String
  homeRelay : String
  addresses : List (String × UInt16)
  deriving DecidableEq, Repr

structure ConnectorStatus where
  conditions : Option (List Condition)
  connectionDetails : Option ConnectionDetails
  deriving DecidableEq, Repr

/-- A Connector, with its two device annotations. -/
structure ConnectorSpec where
  className : String
  deviceName : Option String
  deviceOs : Option String
  status : Option ConnectorStatus
  deriving DecidableEq, Repr

abbrev Connector := Object ConnectorSpec

/-- The value `CONNECTOR_SELECTOR_FIELD` selects by. -/
def ConnectorSpec.publicKeyId (spec : ConnectorSpec) : Option String :=
  (spec.status.bind ConnectorStatus.connectionDetails).map ConnectionDetails.publicKeyId

structure ServicePort where
  name : String
  port : Nat
  protocol : String
  deriving DecidableEq, Repr

structure Layer4Service where
  address : String
  ports : List ServicePort
  deriving DecidableEq, Repr

structure Layer4 where
  name : String
  services : List Layer4Service
  deriving DecidableEq, Repr

structure AdvertisementSpec where
  connectorRef : String
  layer4 : Option (List Layer4)
  deriving DecidableEq, Repr

abbrev ConnectorAdvertisement := Object AdvertisementSpec

structure ParsedTarget where
  address : String
  port : UInt16
  deriving DecidableEq, Repr

def advertisementSpec (connectorName : String) (target : ParsedTarget) : AdvertisementSpec where
  connectorRef := connectorName
  layer4 := some [{
    name := "default"
    services := [{
      address := target.address
      ports := [{
        name := "tcp-" ++ toString target.port.toNat
        port := target.port.toNat
        protocol := "TCP" }] }] }]

def retargetAdvertisementSpec (existing : AdvertisementSpec) (target : ParsedTarget) :
    AdvertisementSpec :=
  advertisementSpec existing.connectorRef target

structure PolicyTarget where
  group : String
  kind : String
  name : String
  sectionName : Option String
  deriving DecidableEq, Repr

/-- A TrafficProtectionPolicy: whether it carries the managed-by annotation, and
the part of its spec that a tunnel's own policy sets. -/
structure PolicySpec where
  managed : Bool
  targetRefs : List PolicyTarget
  mode : Option String
  deriving DecidableEq, Repr

def trafficProtectionPolicy (proxyName : String) : PolicySpec where
  managed := false
  targetRefs := [{
    group := "gateway.networking.k8s.io", kind := "Gateway", name := proxyName, sectionName := none }]
  mode := some "Enforce"

/-- A BackendTrafficPolicy sets the request timeout. -/
structure TimeoutSpec where
  requestTimeout : Option String
  deriving DecidableEq, Repr

def wafPolicyName (tunnelId : String) : String := tunnelId ++ "-waf"

def timeoutPolicyName (tunnelId : String) : String := tunnelId ++ "-timeout"

end DatumConnect.Cloud
