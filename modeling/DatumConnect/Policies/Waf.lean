import DatumConnect.Lib.Json
import DatumConnect.Cloud.Objects
/-!
# The edge policies of a tunnel

The two policies as the service writes them, whole JSON objects, and what it makes of a
WAF policy it finds: its own, the one that an earlier add-on made, or somebody else's.
-/

namespace DatumConnect.Policies

open DatumConnect.Lib
open DatumConnect.Lib.Json
open DatumConnect.Cloud

def managedByAnnotation : String := "connect.datum.net/managed-by"

def managedByValue : String := "datum-connect-addon"

def displayNameAnnotation : String := "networking.datumapis.com/display-name"

def httpRouteGroup : String := "gateway.networking.k8s.io"

def requestTimeout : String := "1h"

def wafProtectedRuleName : String := "protected"

def num (n : UInt64) : Value := .number (.posInt n)

/-! ## The specs -/

def paranoiaLevels : Value := .object [("blocking", num 1), ("detection", num 1)]

def scoreThresholds : Value := .object [("inbound", num 5), ("outbound", num 4)]

def ruleExclusions : Value := .object [("ids", .array [num 920420])]

def ruleSets : Value :=
  .array [.object [
    ("owaspCoreRuleSet", .object [
      ("paranoiaLevels", paranoiaLevels),
      ("ruleExclusions", ruleExclusions),
      ("scoreThresholds", scoreThresholds)]),
    ("type", .string "OWASPCoreRuleSet")]]

def desiredWafSpec (tunnelId : String) : Value :=
  .object [
    ("mode", .string "Enforce"),
    ("ruleSets", ruleSets),
    ("samplingPercentage", num 100),
    ("targetRefs", .array [.object [
      ("group", .string httpRouteGroup),
      ("kind", .string "HTTPRoute"),
      ("name", .string tunnelId),
      ("sectionName", .string wafProtectedRuleName)]])]

def desiredTimeoutSpec (tunnelId : String) : Value :=
  .object [
    ("targetRefs", .array [.object [
      ("group", .string httpRouteGroup),
      ("kind", .string "HTTPRoute"),
      ("name", .string tunnelId)]]),
    ("timeout", .object [("http", .object [("requestTimeout", .string requestTimeout)])])]

/-- The spec of the policy that the add-on 0.1.5 and 0.1.6 created. -/
def legacyWafSpec (tunnelId : String) : Value :=
  .object [
    ("mode", .string "Disabled"),
    ("ruleSets", ruleSets),
    ("samplingPercentage", num 100),
    ("targetRefs", .array [.object [
      ("group", .string httpRouteGroup),
      ("kind", .string "HTTPRoute"),
      ("name", .string tunnelId)]])]

/-! ## Reading a policy -/

def hasManagedBy (policy : Value) : Bool :=
  match policy.pointer ["metadata", "annotations"] with
  | some (.object annotations) => (annotations.lookup managedByAnnotation).isSome
  | _ => false

mutual

/-- `json_eq`: equality with the numbers compared by value. -/
def jsonEq : Value → Value → Bool
  | .number x, .number y => x.asF64 = y.asF64
  | .array xs, .array ys => xs.length = ys.length && jsonEqItems xs ys
  | .object xs, .object ys => xs.length = ys.length && jsonEqFields xs ys
  | .null, b => b.isNull
  | .bool a, b => Value.beq (.bool a) b
  | .string a, b => b.isStr a
  | _, _ => false

def jsonEqItems : List Value → List Value → Bool
  | x :: xs, y :: ys => jsonEq x y && jsonEqItems xs ys
  | _, _ => true

def jsonEqFields : List (String × Value) → List (String × Value) → Bool
  | [], _ => true
  | (k, v) :: xs, ys =>
      (match ys.lookup k with
        | some w => jsonEq v w
        | none => false) && jsonEqFields xs ys

end

/-- `or_default`: a missing, null or false value falls back. -/
def orDefault (value : Option Value) (default : Value) : Value :=
  match value with
  | none | some .null | some (.bool false) => default
  | some v => v

def isLegacyAddonWaf (policy : Value) (tunnelId : String) : Bool :=
  let spec := policy.index "spec"
  let refs := (spec.index "targetRefs").asArray.getD []
  let rules := (spec.index "ruleSets").asArray.getD []
  let crs := ((spec.index "ruleSets").item 0).index "owaspCoreRuleSet"
  (spec.index "mode").isStr "Disabled" &&
    !hasManagedBy policy &&
    jsonEq (orDefault (spec.get "samplingPercentage") (num 100)) (num 100) &&
    refs.length = 1 &&
    ((refs.headD .null).index "kind").isStr "HTTPRoute" &&
    ((refs.headD .null).index "name").isStr tunnelId &&
    (orDefault ((refs.headD .null).get "sectionName") (.string "")).isStr "" &&
    rules.length = 1 &&
    ((rules.headD .null).index "type").isStr "OWASPCoreRuleSet" &&
    jsonEq (crs.index "paranoiaLevels") paranoiaLevels &&
    jsonEq (crs.index "scoreThresholds") scoreThresholds &&
    jsonEq (crs.index "ruleExclusions") ruleExclusions

/-- A field left at its default. -/
def Unset (value : Option Value) : Prop :=
  value = none ∨ value = some .null ∨ value = some (.bool false)

/-- The policy of the earlier add-on, as far as it is looked at: switched off, aimed at the
whole route, not managed, its rule set as that add-on made it. -/
structure LooksLegacy (policy : Value) (tunnelId : String) : Prop where
  disabled : (policy.index "spec").get "mode" = some (.string "Disabled")
  unmanaged : hasManagedBy policy = false
  sampling : Unset ((policy.index "spec").get "samplingPercentage") ∨
    ∃ n : Number, (policy.index "spec").get "samplingPercentage" = some (.number n) ∧ n.asF64 = 100
  target : ∃ ref, (policy.index "spec").get "targetRefs" = some (.array [ref]) ∧
    ref.get "kind" = some (.string "HTTPRoute") ∧ ref.get "name" = some (.string tunnelId) ∧
    (Unset (ref.get "sectionName") ∨ ref.get "sectionName" = some (.string ""))
  rules : ∃ rule, (policy.index "spec").get "ruleSets" = some (.array [rule]) ∧
    rule.get "type" = some (.string "OWASPCoreRuleSet") ∧
    jsonEq ((rule.index "owaspCoreRuleSet").index "paranoiaLevels") paranoiaLevels = true ∧
    jsonEq ((rule.index "owaspCoreRuleSet").index "scoreThresholds") scoreThresholds = true ∧
    jsonEq ((rule.index "owaspCoreRuleSet").index "ruleExclusions") ruleExclusions = true

theorem orDefault_iff {value : Option Value} {default : Value} {P : Value → Prop}
    (hdefault : P default) :
    P (orDefault value default) ↔ Unset value ∨ ∃ v, value = some v ∧ P v := by
  constructor
  · intro h
    cases value with
    | none => exact .inl (.inl rfl)
    | some v => 
        cases v with
        | null => exact .inl (.inr (.inl rfl))
        | bool b =>
            cases b with
            | false => exact .inl (.inr (.inr rfl))
            | true => exact .inr ⟨_, rfl, h⟩
        | _ => exact .inr ⟨_, rfl, h⟩
  · rintro ((rfl | rfl | rfl) | ⟨v, rfl, hv⟩)
    · exact hdefault
    · exact hdefault
    · exact hdefault
    · unfold orDefault
      split
      · exact hdefault
      · exact hdefault
      · exact hdefault
      · rename_i heq
        cases heq
        exact hv

theorem jsonEq_hundred {v : Value} :
    jsonEq v (num 100) = true ↔ ∃ n : Number, v = .number n ∧ n.asF64 = 100 := by
  have hundred : (Number.posInt 100).asF64 = 100 := by decide
  cases v <;> simp [jsonEq, num, Value.isNull, Value.isStr, Value.beq, hundred]

theorem samplingUnset_iff {spec : Value} :
    jsonEq (orDefault (spec.get "samplingPercentage") (num 100)) (num 100) = true ↔
      Unset (spec.get "samplingPercentage") ∨
        ∃ n : Number, spec.get "samplingPercentage" = some (.number n) ∧ n.asF64 = 100 := by
  have hdefault : jsonEq (num 100) (num 100) = true := jsonEq_hundred.mpr ⟨_, rfl, by decide⟩
  rw [orDefault_iff (P := fun v => jsonEq v (num 100) = true) hdefault]
  refine or_congr_right ⟨?_, ?_⟩
  · rintro ⟨v, hv, heq⟩
    obtain ⟨n, rfl, hn⟩ := jsonEq_hundred.mp heq
    exact ⟨n, hv, hn⟩
  · rintro ⟨n, hv, hn⟩
    exact ⟨_, hv, jsonEq_hundred.mpr ⟨n, rfl, hn⟩⟩

theorem sectionUnset_iff {ref : Value} :
    (orDefault (ref.get "sectionName") (.string "")).isStr "" = true ↔
      Unset (ref.get "sectionName") ∨ ref.get "sectionName" = some (.string "") := by
  rw [orDefault_iff (P := fun v => v.isStr "" = true) rfl]
  refine or_congr_right ⟨?_, ?_⟩
  · rintro ⟨v, hv, heq⟩
    rw [hv, Value.isStr_iff.mp heq]
  · intro h
    exact ⟨_, h, rfl⟩

/-- An element of an array of one is found at its head and at its first place. -/
theorem one_of_get {spec item : Value} {key : String} (h : spec.get key = some (.array [item])) :
    ((spec.index key).asArray.getD []).headD .null = item ∧ (spec.index key).item 0 = item := by
  unfold Value.index
  rw [h]
  exact ⟨rfl, rfl⟩

theorem isLegacyAddonWaf_iff {policy : Value} {tunnelId : String} :
    isLegacyAddonWaf policy tunnelId = true ↔ LooksLegacy policy tunnelId := by
  simp only [isLegacyAddonWaf, Bool.and_eq_true, Bool.not_eq_eq_eq_not, Bool.not_true,
    decide_eq_true_eq, Value.isStr_iff, Value.index_eq_string]
  constructor
  · rintro ⟨⟨⟨⟨⟨⟨⟨⟨⟨⟨⟨hmode, hunmanaged⟩, hsampling⟩, hrefs⟩, hkind⟩, hname⟩, hsection⟩, hrules⟩,
      htype⟩, hlevels⟩, hthresholds⟩, hexclusions⟩
    obtain ⟨ref, href⟩ := Value.asArray_one_iff.mp hrefs
    obtain ⟨rule, hrule⟩ := Value.asArray_one_iff.mp hrules
    rw [(one_of_get href).1] at hkind hname
    rw [(one_of_get hrule).1] at htype
    rw [(one_of_get hrule).2] at hlevels hthresholds hexclusions
    have hplain : (orDefault (ref.get "sectionName") (.string "")).isStr "" = true := by
      rw [(one_of_get href).1] at hsection
      exact Value.isStr_iff.mpr hsection
    exact {
      disabled := hmode
      unmanaged := hunmanaged
      sampling := samplingUnset_iff.mp hsampling
      target := ⟨ref, href, hkind, hname, sectionUnset_iff.mp hplain⟩
      rules := ⟨rule, hrule, htype, hlevels, hthresholds, hexclusions⟩ }
  · intro h
    obtain ⟨ref, href, hkind, hname, hsection⟩ := h.target
    obtain ⟨rule, hrule, htype, hlevels, hthresholds, hexclusions⟩ := h.rules
    have hplain := Value.isStr_iff.mp (sectionUnset_iff.mpr hsection)
    rw [(one_of_get href).1, (one_of_get hrule).1, (one_of_get hrule).2]
    exact ⟨⟨⟨⟨⟨⟨⟨⟨⟨⟨⟨h.disabled, h.unmanaged⟩, samplingUnset_iff.mpr h.sampling⟩,
      Value.asArray_one_iff.mpr ⟨ref, href⟩⟩, hkind⟩, hname⟩, hplain⟩,
      Value.asArray_one_iff.mpr ⟨rule, hrule⟩⟩, htype⟩, hlevels⟩, hthresholds⟩, hexclusions⟩

/-- What to do with a WAF policy that exists: kept as set, upgraded, never touched. -/
inductive ExistingWaf where
  | managed
  | legacy
  | foreign
  deriving DecidableEq, Repr

def classifyExistingWaf (policy : Value) (tunnelId : String) : ExistingWaf :=
  if hasManagedBy policy then .managed
  else if isLegacyAddonWaf policy tunnelId then .legacy
  else .foreign

theorem looksLegacy_of_classify {policy : Value} {tunnelId : String}
    (h : classifyExistingWaf policy tunnelId = .legacy) : LooksLegacy policy tunnelId := by
  unfold classifyExistingWaf at h
  split at h
  · cases h
  · split at h
    · rename_i hlegacy
      exact isLegacyAddonWaf_iff.mp hlegacy
    · cases h

/-! ## The policies as objects -/

/-- A `DynamicObject`; `data` are its fields beside the type and the metadata. -/
structure DynamicObject where
  apiVersion : String
  kind : String
  name : String
  resourceVersion : Option Nat := none
  annotations : Option (List (String × String)) := none
  data : List (String × Value)
  deriving DecidableEq, Repr

namespace DynamicObject

def metadata (o : DynamicObject) : Value :=
  .object ((o.annotations.map fun annotations =>
      ("annotations", .object (annotations.map fun a => (a.1, .string a.2)))).toList ++
    [("name", .string o.name), ("namespace", .string "default")] ++
    (o.resourceVersion.map fun v => ("resourceVersion", .string (toString v))).toList)

def toJson (o : DynamicObject) : Value :=
  .object (insertKey "apiVersion" (.string o.apiVersion)
    (insertKey "kind" (.string o.kind) (insertKey "metadata" o.metadata o.data)))

end DynamicObject

/-- `BTreeMap::insert`. -/
def annotationInserted (key value : String) : List (String × String) → List (String × String)
  | [] => [(key, value)]
  | (k, v) :: rest =>
      if key = k then (key, value) :: rest
      else if key < k then (key, value) :: (k, v) :: rest
      else (k, v) :: annotationInserted key value rest

def newWafPolicy (tunnelId label : String) : DynamicObject where
  apiVersion := "networking.datumapis.com/v1alpha"
  kind := "TrafficProtectionPolicy"
  name := wafPolicyName tunnelId
  annotations := some (annotationInserted managedByAnnotation managedByValue
    (annotationInserted displayNameAnnotation label []))
  data := [("spec", desiredWafSpec tunnelId)]

/-- The legacy policy moved to the current spec; it keeps the version it was read with. -/
def upgradedWafPolicy (existing : DynamicObject) (tunnelId : String) : DynamicObject :=
  { existing with
    annotations := some (annotationInserted managedByAnnotation managedByValue
      (existing.annotations.getD []))
    data := insertKey "spec" (desiredWafSpec tunnelId) (removeKey "status" existing.data) }

def newTimeoutPolicy (tunnelId : String) : DynamicObject where
  apiVersion := "gateway.envoyproxy.io/v1alpha1"
  kind := "BackendTrafficPolicy"
  name := timeoutPolicyName tunnelId
  data := [("spec", desiredTimeoutSpec tunnelId)]

/-! ## What this code writes is managed -/

theorem lookup_annotationInserted (key value : String) (annotations : List (String × String)) :
    (annotationInserted key value annotations).lookup key = some value := by
  induction annotations with
  | nil => simp [annotationInserted]
  | cons entry rest ih =>
      obtain ⟨k, v⟩ := entry
      rw [annotationInserted]
      by_cases hk : key = k
      · simp [hk]
      · by_cases hlt : key < k
        · simp [hk, hlt]
        · have hne : (key == k) = false := beq_eq_false_iff_ne.mpr hk
          rw [if_neg hk, if_neg hlt, List.lookup_cons, hne]
          exact ih

theorem isSome_lookup_map {key : String} (annotations : List (String × String)) :
    ((annotations.map fun a => (a.1, Value.string a.2)).lookup key).isSome =
      (annotations.lookup key).isSome := by
  induction annotations with
  | nil => rfl
  | cons entry rest ih =>
      obtain ⟨k, v⟩ := entry
      rw [List.map_cons, List.lookup_cons, List.lookup_cons]
      cases key == k with
      | true => rfl
      | false => exact ih

theorem hasManagedBy_toJson (o : DynamicObject) :
    hasManagedBy o.toJson = ((o.annotations.getD []).lookup managedByAnnotation).isSome := by
  have hmetadata : o.toJson.get "metadata" = some o.metadata := by
    rw [DynamicObject.toJson, Value.get, lookup_insertKey, lookup_insertKey, lookup_insertKey]
    rfl
  have hpointer : o.toJson.pointer ["metadata", "annotations"] = o.metadata.get "annotations" := by
    show ((o.toJson.get "metadata").bind fun v => (v.get "annotations").bind some) = _
    rw [hmetadata, Option.bind_some, Option.bind_fun_some]
  rw [hasManagedBy, hpointer]
  cases hannotations : o.annotations with
  | none =>
      have hnone : o.metadata.get "annotations" = none := by
        rw [DynamicObject.metadata, hannotations]
        cases o.resourceVersion <;> rfl
      rw [hnone]
      rfl
  | some annotations =>
      have hsome : o.metadata.get "annotations" =
          some (.object (annotations.map fun a => (a.1, .string a.2))) := by
        rw [DynamicObject.metadata, hannotations]
        rfl
      rw [hsome]
      exact isSome_lookup_map annotations

theorem managed_newWafPolicy (tunnelId label : String) :
    hasManagedBy (newWafPolicy tunnelId label).toJson = true := by
  rw [hasManagedBy_toJson]
  exact congrArg Option.isSome (lookup_annotationInserted _ _ _)

theorem managed_upgradedWafPolicy (existing : DynamicObject) (tunnelId : String) :
    hasManagedBy (upgradedWafPolicy existing tunnelId).toJson = true := by
  rw [hasManagedBy_toJson]
  exact congrArg Option.isSome (lookup_annotationInserted _ _ _)

end DatumConnect.Policies
