import DatumConnect.Lib.Prog
import DatumConnect.Cloud.Endpoint
/-!
# Calls of the tunnel service

What `TunnelService` asks of its surroundings, one call each: the API server of
the selected project, its own listen node, and the directory it keeps files in.
-/

namespace DatumConnect.Cloud

open DatumConnect.Lib
open DatumConnect.Proxies

/-! ## Kinds of object -/

inductive Kind where
  | httpProxy
  | connectorAdvertisement
  | connector
  | trafficProtectionPolicy
  | backendTrafficPolicy
  deriving DecidableEq, Repr

abbrev Kind.Spec : Kind → Type
  | .httpProxy => ProxySpec
  | .connectorAdvertisement => AdvertisementSpec
  | .connector => ConnectorSpec
  | .trafficProtectionPolicy => PolicySpec
  | .backendTrafficPolicy => TimeoutSpec

/-- The merge patches the service sends; the kinds without one are never patched. -/
inductive Patch : Kind → Type where
  | proxy (label : String) (hostnames : List String) (rules : List ProxyRule) : Patch .httpProxy
  | advertisement (spec : AdvertisementSpec) : Patch .connectorAdvertisement
  | annotations (deviceName deviceOs : String) : Patch .connector
  | connectionDetails (details : ConnectionDetails) : Patch .connector
  deriving DecidableEq, Repr

def Patch.merge : {kind : Kind} → Patch kind → kind.Spec → kind.Spec
  | _, .proxy label hostnames rules, spec =>
      { spec with label := some label, hostnames := some hostnames, rules }
  | _, .advertisement spec, _ => spec
  | _, .annotations deviceName deviceOs, spec =>
      { spec with deviceName := some deviceName, deviceOs := some deviceOs }
  | _, .connectionDetails details, spec =>
      { spec with status := some {
          conditions := spec.status.bind ConnectorStatus.conditions
          connectionDetails := some details } }

/-- Which objects of a kind are listed. -/
inductive Selector where
  | everything
  | field (path value : String)
  deriving DecidableEq, Repr

def connectorSelectorField : String := "status.connectionDetails.publicKey.id"

def advertisementConnectorField : String := "spec.connectorRef.name"

/-- The field selectors the server knows. -/
def Selector.matches (selector : Selector) : (kind : Kind) → kind.Spec → Bool :=
  match selector with
  | .everything => fun _ _ => true
  | .field path value => fun
    | .connector, spec => path = connectorSelectorField && spec.publicKeyId = some value
    | .connectorAdvertisement, spec =>
        path = advertisementConnectorField && spec.connectorRef = value
    | _, _ => false

/-- The name a new object gets. -/
inductive NewName where
  | exactly (name : String)
  | generate (base : String)
  deriving DecidableEq, Repr

/-! ## Errors -/

/-- `kube::Error`: an answer of the server, or anything else. -/
inductive KubeError where
  | api (code : Nat) (message : String)
  | other (message : String)
  deriving DecidableEq, Repr

/-- `is_quota_check_timeout`. -/
def KubeError.isQuotaCheckTimeout : KubeError → Bool
  | .api code message =>
      code = 403 &&
        Text.contains message.toList "took too long to be checked against your quota".toList
  | .other _ => false

/-- `is_denied`. -/
def KubeError.isDenied : KubeError → Bool
  | .api code _ => code = 401 || code = 403
  | .other _ => false

def KubeError.isNotFound : KubeError → Bool
  | .api code _ => code = 404
  | .other _ => false

def KubeError.message : KubeError → String
  | .api _ message => message
  | .other message => message

/-- An error of the server with the context it is returned under, or one of the
service's own. -/
inductive Error where
  | kube (context : String) (err : KubeError)
  | bail (message : String)
  | within (context : String) (err : Error)
  deriving DecidableEq, Repr

/-! ## Calls -/

inductive Call where
  | selectedContext
  | projectControlPlaneClient (projectId : String)
  | get (kind : Kind) (name : String)
  | getOpt (kind : Kind) (name : String)
  | list (kind : Kind) (selector : Selector)
  | create (kind : Kind) (name : NewName) (spec : kind.Spec)
  | patch (kind : Kind) (name : String) (patch : Patch kind)
  | delete (kind : Kind) (name : String)
  | listConnectorClasses
  | sleep (seconds : Nat)
  | buildConnectionDetails
  | updateProxies (update : Update)
  | deleteTunnelDir (projectId tunnelId : String)
  | ensureEdgePolicies (projectId tunnelId label : String) (hasProtectedRule : Bool)

abbrev Call.Reply : Call → Type
  | .selectedContext => Option String
  | .projectControlPlaneClient _ => Except Error Unit
  | .get kind _ => Except KubeError (Object kind.Spec)
  | .getOpt kind _ => Except KubeError (Option (Object kind.Spec))
  | .list kind _ => Except KubeError (List (Object kind.Spec))
  | .create kind _ _ => Except KubeError (Object kind.Spec)
  | .patch kind _ _ => Except KubeError (Object kind.Spec)
  | .delete _ _ => Except KubeError Unit
  | .listConnectorClasses => Except KubeError (List String)
  | .sleep _ => Unit
  | .buildConnectionDetails => Option ConnectionDetails
  | .updateProxies _ => Except Error Unit
  | .deleteTunnelDir _ _ => Except Error Unit
  | .ensureEdgePolicies _ _ _ _ => Unit

/-- A computation of the service, and one that can fail. -/
abbrev Svc := Prog Call Call.Reply

abbrev SvcE := ExceptT Error Svc

namespace Svc

def selectedContext : Svc (Option String) := Prog.perform Call.selectedContext

def get (kind : Kind) (name : String) : Svc (Except KubeError (Object kind.Spec)) :=
  Prog.perform (Call.get kind name)

def getOpt (kind : Kind) (name : String) : Svc (Except KubeError (Option (Object kind.Spec))) :=
  Prog.perform (Call.getOpt kind name)

def list (kind : Kind) (selector : Selector) :
    Svc (Except KubeError (List (Object kind.Spec))) :=
  Prog.perform (Call.list kind selector)

def create (kind : Kind) (name : NewName) (spec : kind.Spec) :
    Svc (Except KubeError (Object kind.Spec)) :=
  Prog.perform (Call.create kind name spec)

def patch {kind : Kind} (name : String) (patch : Patch kind) :
    Svc (Except KubeError (Object kind.Spec)) :=
  Prog.perform (Call.patch kind name patch)

def delete (kind : Kind) (name : String) : Svc (Except KubeError Unit) :=
  Prog.perform (Call.delete kind name)

def listConnectorClasses : Svc (Except KubeError (List String)) :=
  Prog.perform Call.listConnectorClasses

def sleep (seconds : Nat) : Svc Unit := Prog.perform (Call.sleep seconds)

def buildConnectionDetails : Svc (Option ConnectionDetails) :=
  Prog.perform Call.buildConnectionDetails

def updateProxies (update : Update) : Svc (Except Error Unit) :=
  Prog.perform (Call.updateProxies update)

def deleteTunnelDir (projectId tunnelId : String) : Svc (Except Error Unit) :=
  Prog.perform (Call.deleteTunnelDir projectId tunnelId)

def ensureEdgePolicies (projectId tunnelId label : String) (hasProtectedRule : Bool) : Svc Unit :=
  Prog.perform (Call.ensureEdgePolicies projectId tunnelId label hasProtectedRule)

end Svc

namespace SvcE

/-- A computation that cannot fail, or whose failure is looked at. -/
def lift {α : Type} (p : Svc α) : SvcE α := ExceptT.lift p

def projectControlPlaneClient (projectId : String) : SvcE Unit :=
  ExceptT.mk (Prog.perform (Call.projectControlPlaneClient projectId))

/-- `map_err` and `?`. -/
def mapError {α ε : Type} (f : ε → Error) (p : Svc (Except ε α)) : SvcE α :=
  ExceptT.mk do return (← p).mapError f

/-- `std_context` and `?`. -/
def orElseContext {α : Type} (p : Svc (Except KubeError α)) (context : String) : SvcE α :=
  mapError (Error.kube context) p

def ofExcept {α : Type} : Except String α → SvcE α
  | .ok a => pure a
  | .error message => throw (.bail message)

end SvcE

end DatumConnect.Cloud
