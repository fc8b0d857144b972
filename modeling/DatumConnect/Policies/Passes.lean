import DatumConnect.Lib.Pool
import DatumConnect.Policies.Waf
import DatumConnect.Cloud.Server
import DatumConnect.Tunnels.Service
/-!
# Passes, deletes and edits

`ensure_edge_policies` as it runs in the background after a create or an enable, beside
deletes of the same tunnel and the edits of other clients.  The server gives every write a
new version; a replace that carries an older one is refused.
-/

namespace DatumConnect.Policies

open DatumConnect.Lib
open DatumConnect.Cloud
open DatumConnect.Tunnels

inductive Which where
  | waf
  | timeout
  deriving DecidableEq, Repr

/-- The two policies of the tunnel, as the server holds them. -/
structure Store where
  objects : Which → Option DynamicObject
  /-- The last version given out. -/
  version : Nat := 0
  numbered : ∀ which o, objects which = some o → ∃ v, o.resourceVersion = some v ∧ v ≤ version

namespace Store

/-- The policy is written, under the next version. -/
def write (s : Store) (which : Which) (policy : DynamicObject) : Store where
  objects := Function.update s.objects which
    (some { policy with resourceVersion := some (s.version + 1) })
  version := s.version + 1
  numbered := by
    intro which' o ho
    by_cases h : which' = which
    · subst h
      rw [Function.update_self] at ho
      cases ho
      exact ⟨s.version + 1, rfl, Nat.le_refl _⟩
    · rw [Function.update_of_ne h] at ho
      obtain ⟨v, hv, hle⟩ := s.numbered which' o ho
      exact ⟨v, hv, by omega⟩

def remove (s : Store) (which : Which) : Store where
  objects := Function.update s.objects which none
  version := s.version
  numbered := by
    intro which' o ho
    by_cases h : which' = which
    · subst h
      rw [Function.update_self] at ho
      cases ho
    · rw [Function.update_of_ne h] at ho
      exact s.numbered which' o ho

theorem objects_write (s : Store) (which : Which) (policy : DynamicObject) :
    (s.write which policy).objects which =
      some { policy with resourceVersion := some (s.version + 1) } := Function.update_self ..

theorem objects_write_of_ne (s : Store) {which other : Which} (policy : DynamicObject)
    (h : other ≠ which) : (s.write which policy).objects other = s.objects other :=
  Function.update_of_ne h ..

theorem objects_remove (s : Store) (which : Which) : (s.remove which).objects which = none :=
  Function.update_self ..

theorem objects_remove_of_ne (s : Store) {which other : Which} (h : other ≠ which) :
    (s.remove which).objects other = s.objects other := Function.update_of_ne h ..

end Store

/-! ## Calls -/

/-- The calls of a pass, the write of another client, and the calls of the tunnel service. -/
inductive Call where
  | getOpt (which : Which)
  | create (which : Which) (policy : DynamicObject)
  | replace (which : Which) (policy : DynamicObject)
  | edit (which : Which) (policy : Option DynamicObject)
  | service (c : Cloud.Call)

abbrev Call.Reply : Call → Type
  | .getOpt _ => Except KubeError (Option DynamicObject)
  | .create _ _ | .replace _ _ => Except KubeError Unit
  | .edit _ _ => Unit
  | .service c => c.Reply

abbrev EdgeProg := Prog Call Call.Reply

namespace EdgeProg

def getOpt (which : Which) : EdgeProg (Except KubeError (Option DynamicObject)) :=
  Prog.perform (Call.getOpt which)

def create (which : Which) (policy : DynamicObject) : EdgeProg (Except KubeError Unit) :=
  Prog.perform (Call.create which policy)

def replace (which : Which) (policy : DynamicObject) : EdgeProg (Except KubeError Unit) :=
  Prog.perform (Call.replace which policy)

def edit (which : Which) (policy : Option DynamicObject) : EdgeProg Unit :=
  Prog.perform (Call.edit which policy)

end EdgeProg

/-! ## The pass -/

def ensureRequestTimeout (tunnelId : String) : EdgeProg Unit := do
  match ← EdgeProg.getOpt .timeout with
  | .ok (some _) => return ()
  | .error _ => return ()
  | .ok none =>
      let _ ← EdgeProg.create .timeout (newTimeoutPolicy tunnelId)
      return ()

def ensureWaf (tunnelId label : String) : EdgeProg Unit := do
  match ← EdgeProg.getOpt .waf with
  | .error _ => return ()
  | .ok (some existing) =>
      match classifyExistingWaf existing.toJson tunnelId with
      | .managed | .foreign => return ()
      | .legacy =>
          let _ ← EdgeProg.replace .waf (upgradedWafPolicy existing tunnelId)
          return ()
  | .ok none =>
      let _ ← EdgeProg.create .waf (newWafPolicy tunnelId label)
      return ()

def ensureEdgePolicies (tunnelId label : String) : EdgeProg Unit := do
  ensureRequestTimeout tunnelId
  ensureWaf tunnelId label

inductive Op where
  | pass (label : String)
  | delete (svc : TunnelService) (projectId : String)
  | edit (which : Which) (policy : Option DynamicObject)

/-- What a delete returns; the others return nothing. -/
abbrev Result := Option (Except Error TunnelDeleteOutcome)

def Op.code (tunnelId : String) : Op → EdgeProg Result
  | .pass label => do
      ensureEdgePolicies tunnelId label
      return none
  | .delete svc projectId => do
      let r ← Prog.embed Call.service (svc.deleteProject projectId tunnelId).run
      return some r
  | .edit which policy => do
      EdgeProg.edit which policy
      return none

/-! ## The server -/

/-- The policy an object of the tunnel service's own calls is. -/
def whichOf (tunnelId : String) : Kind → String → Option Which
  | .trafficProtectionPolicy, name => if name = wafPolicyName tunnelId then some .waf else none
  | .backendTrafficPolicy, name => if name = timeoutPolicyName tunnelId then some .timeout else none
  | _, _ => none

def policyTarget (ref : Json.Value) : PolicyTarget where
  group := (ref.index "group").asStr.getD ""
  kind := (ref.index "kind").asStr.getD ""
  name := (ref.index "name").asStr.getD ""
  sectionName := (ref.get "sectionName").bind Json.Value.asStr

/-- What the tunnel service sees of a policy. -/
def shown : (kind : Kind) → DynamicObject → Option (Object kind.Spec)
  | .trafficProtectionPolicy, o =>
      let spec := o.toJson.index "spec"
      some {
        name := o.name
        spec := {
          managed := hasManagedBy o.toJson
          targetRefs := ((spec.index "targetRefs").asArray.getD []).map policyTarget
          mode := (spec.index "mode").asStr } }
  | .backendTrafficPolicy, o =>
      some {
        name := o.name
        spec := {
          requestTimeout :=
            (o.toJson.pointer ["spec", "timeout", "http", "requestTimeout"]).bind Json.Value.asStr } }
  | _, _ => none

/-- The replies of a project in which there is nothing else. -/
def emptyProject : (c : Cloud.Call) → c.Reply
  | .selectedContext | .buildConnectionDetails => none
  | .projectControlPlaneClient _ | .updateProxies _ | .deleteTunnelDir _ _ | .delete _ _ => .ok ()
  | .get _ name | .create _ (.exactly name) _ | .create _ (.generate name) _ | .patch _ name _ =>
      .error (Cluster.notFound name)
  | .getOpt _ _ => .ok none
  | .list _ _ | .listConnectorClasses => .ok []
  | .sleep _ | .ensureEdgePolicies _ _ _ _ => ()

/-- How a call goes, and what is replied to the calls that are not about the policies. -/
structure Answer where
  outcome : Outcome := .done
  elsewhere : (c : Cloud.Call) → c.Reply := emptyProject

namespace Store

def replying {α : Type} (s : Store) (outcome : Outcome) (r : Store × Except KubeError α) :
    Store × Except KubeError α :=
  match outcome with
  | .done => r
  | .failed err _ => (s, .error err)
  | .lost err _ => (r.1, .error err)

def name (tunnelId : String) : Which → String
  | .waf => wafPolicyName tunnelId
  | .timeout => timeoutPolicyName tunnelId

def create (s : Store) (tunnelId : String) (which : Which) (policy : DynamicObject) :
    Store × Except KubeError Unit :=
  match s.objects which with
  | some _ => (s, .error (Cluster.alreadyExists (name tunnelId which)))
  | none => (s.write which policy, .ok ())

/-- A replace goes through on the version it was made of, or if it names none. -/
def replace (s : Store) (tunnelId : String) (which : Which) (policy : DynamicObject) :
    Store × Except KubeError Unit :=
  match s.objects which with
  | none => (s, .error (Cluster.notFound (name tunnelId which)))
  | some current =>
      if policy.resourceVersion = none ∨ policy.resourceVersion = current.resourceVersion then
        (s.write which policy, .ok ())
      else (s, .error (.api 409 "the object has been modified"))

def edit (s : Store) (which : Which) : Option DynamicObject → Store
  | some policy => s.write which policy
  | none => s.remove which

def delete (s : Store) (tunnelId : String) (which : Which) : Store × Except KubeError Unit :=
  match s.objects which with
  | none => (s, .error (Cluster.notFound (name tunnelId which)))
  | some _ => (s.remove which, .ok ())

/-- The tunnel service's own calls. -/
def serve (s : Store) (tunnelId : String) (answer : Answer) : (c : Cloud.Call) → Store × c.Reply
  | .getOpt kind name =>
      match whichOf tunnelId kind name with
      | some which => s.replying answer.outcome (s, .ok ((s.objects which).bind (shown kind)))
      | none => (s, answer.elsewhere (.getOpt kind name))
  | .delete kind name =>
      match whichOf tunnelId kind name with
      | some which => s.replying answer.outcome (s.delete tunnelId which)
      | none => (s, answer.elsewhere (.delete kind name))
  | c => (s, answer.elsewhere c)

end Store

def handle (tunnelId : String) (s : Store) : (c : Call) → Answer → Store × c.Reply
  | .getOpt which, answer => s.replying answer.outcome (s, .ok (s.objects which))
  | .create which policy, answer =>
      s.replying answer.outcome (s.create tunnelId which policy)
  | .replace which policy, answer =>
      s.replying answer.outcome (s.replace tunnelId which policy)
  | .edit which policy, _ => (s.edit which policy, ())
  | .service c, answer => s.serve tunnelId answer c

end DatumConnect.Policies
