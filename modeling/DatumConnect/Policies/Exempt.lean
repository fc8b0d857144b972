import Mathlib.Algebra.Order.BigOperators.Group.List
import Mathlib.Algebra.Order.Group.Nat
import DatumConnect.Policies.Waf
/-!
# Which requests the WAF covers

A proxy's rules as the gateway reads them, where the first rule that matches decides, and what the
rules that a service writes come to for every request.
-/

namespace DatumConnect.Policies

open DatumConnect.Cloud

/-! ## What a rule matches -/

/-- A request at the gateway; its headers go by their names in lower case. -/
structure Request where
  path : List Char
  method : String
  header : String → Option String
  rooted : path.head? = some '/'

inductive PathType where
  | pathPrefix
  | exact
  | regularExpression
  deriving DecidableEq, Repr

def PathType.ofString? : String → Option PathType
  | "PathPrefix" => some .pathPrefix
  | "Exact" => some .exact
  | "RegularExpression" => some .regularExpression
  | _ => none

/-- A path match that says nothing is a prefix, and its value is "/". -/
def pathKind (m : PathMatch) : Option PathType :=
  match m.type with
  | none => some .pathPrefix
  | some type => PathType.ofString? type

def pathText (m : PathMatch) : List Char := (m.value.getD "/").toList

/-- The value as a prefix: a slash at its end is not part of it. -/
def pathStem (m : PathMatch) : List Char :=
  if (pathText m).getLast? = some '/' then (pathText m).dropLast else pathText m

/-- The path goes on from the stem, element by element. -/
def extendsStem (stem path : List Char) : Bool :=
  stem = path || (stem ++ ['/']).isPrefixOf path

/-- The path match of a route, or of one that gives none. -/
def routePath (m : RouteMatch) : PathMatch := m.path.getD { type := none, value := none }

/-- Of the headers of one name only the first counts. -/
def consideredHeaders : List HeaderMatch → List HeaderMatch
  | [] => []
  | h :: hs => h :: (consideredHeaders hs).filter fun h' => h'.name.toLower ≠ h.name.toLower

/-- What the gateway goes by beside the rules: its regular expressions, and how it takes the
conditions of a match on queries and times. -/
structure Gateway where
  regex : String → String → Bool
  others : String → Request → Bool
  unconditional : ∀ request, others "" request = true

namespace Gateway

variable (g : Gateway)

def matchesPath (m : PathMatch) (path : List Char) : Bool :=
  match pathKind m with
  | some .pathPrefix => extendsStem (pathStem m) path
  | some .exact => pathText m = path
  | some .regularExpression => g.regex (String.ofList (pathText m)) (String.ofList path)
  | none => false

def matchesHeader (h : HeaderMatch) (request : Request) : Bool :=
  match request.header h.name.toLower with
  | none => false
  | some value =>
      if h.type = some "RegularExpression" then g.regex h.value value else h.value = value

def matchesRoute (m : RouteMatch) (request : Request) : Bool :=
  g.matchesPath (routePath m) request.path &&
    (consideredHeaders (m.headers.getD [])).all (g.matchesHeader · request) &&
    m.method.all (· = request.method) &&
    g.others m.others request

/-- A rule without matches takes every request. -/
def matchesRule (rule : ProxyRule) (request : Request) : Bool :=
  rule.routes.isEmpty || rule.routes.any (g.matchesRoute · request)

def evaluate (rules : List ProxyRule) (request : Request) : Option ProxyRule :=
  rules.find? (g.matchesRule · request)

end Gateway

/-! ## The exemptions -/

/-- `parse_waf_exempt_matches`; `fromStr` reads the JSON text. -/
def parseWafExemptMatches (fromStr : String → Except String (List RouteMatch)) (raw : String) :
    Except String (List RouteMatch) :=
  match fromStr raw with
  | .error e => .error ("not a JSON array of HTTPRoute matches: " ++ e)
  | .ok routes =>
      match routes.findIdx? fun m => m.path.isNone with
      | some i => .error ("match #" ++ toString i ++ " has no \"path\"")
      | none => .ok routes

def hasProtectedRule (rules : List ProxyRule) : Bool :=
  rules.any fun rule => rule.name = some wafProtectedRuleName

theorem parseWafExemptMatches_path {fromStr : String → Except String (List RouteMatch)}
    {raw : String} {routes : List RouteMatch}
    (h : parseWafExemptMatches fromStr raw = .ok routes) : ∀ m ∈ routes, m.path.isSome = true := by
  unfold parseWafExemptMatches at h
  split at h
  · cases h
  · split at h
    · cases h
    · rename_i hnone
      cases h
      intro m hm
      have hpath := List.findIdx?_eq_none_iff.mp hnone m hm
      cases hm' : m.path with
      | none => simp [hm'] at hpath
      | some path => rfl

/-! ## What the rules come to -/

/-- The request came over plain HTTP. -/
def PlainHttp (request : Request) : Prop := request.header "x-forwarded-proto" = some "http"

instance : DecidablePred PlainHttp := fun request =>
  inferInstanceAs (Decidable (request.header "x-forwarded-proto" = some "http"))

section Rules

variable {g : Gateway} {endpoint connectorName : String} {request : Request}

/-- The prefix "/" is one of every path. -/
theorem matchesPath_root {type : Option String} (htype : type = none ∨ type = some "PathPrefix") :
    g.matchesPath { type, value := some "/" } request.path = true := by
  have hkind : pathKind { type, value := some "/" } = some .pathPrefix := by
    rcases htype with rfl | rfl <;> rfl
  have hstem : pathStem { type, value := some "/" } = [] := by
    simp [pathStem, pathText]
  have hrooted := request.rooted
  rw [Gateway.matchesPath, hkind]
  simp only [hstem]
  cases hpath : request.path with
  | nil => simp [hpath] at hrooted
  | cons c rest =>
      rw [hpath, List.head?_cons, Option.some.injEq] at hrooted
      simp [extendsStem, hrooted]

theorem matchesRoute_default : g.matchesRoute defaultMatch request = true := by
  have hpath : g.matchesPath { type := some "PathPrefix", value := some "/" } request.path = true :=
    matchesPath_root (Or.inr rfl)
  simp [Gateway.matchesRoute, routePath, defaultMatch, hpath, consideredHeaders, g.unconditional]

theorem matchesRule_proxyRule {name : Option String} :
    g.matchesRule { proxyRule endpoint connectorName with name } request = true := by
  simp [Gateway.matchesRule, proxyRule, matchesRoute_default]

theorem matchesRule_redirect :
    g.matchesRule httpsRedirectRule request = decide (PlainHttp request) := by
  have hpath : g.matchesPath { type := some "PathPrefix", value := some "/" } request.path = true :=
    matchesPath_root (Or.inr rfl)
  have hlower : "x-forwarded-proto".toLower = "x-forwarded-proto" := by decide +kernel
  have hheader : g.matchesHeader
      { name := "x-forwarded-proto", type := some "Exact", value := "http" } request =
        decide (PlainHttp request) := by
    rw [Gateway.matchesHeader, hlower]
    cases hvalue : request.header "x-forwarded-proto" with
    | none => simp [PlainHttp, hvalue]
    | some value => simp [PlainHttp, hvalue, eq_comm]
  simp [Gateway.matchesRule, Gateway.matchesRoute, routePath, httpsRedirectRule, hpath,
    consideredHeaders, hheader, g.unconditional]

theorem evaluate_exempting {m : RouteMatch} {ms : List RouteMatch} :
    g.evaluate (desiredProxyRules endpoint connectorName (some (m :: ms))) request =
      some (if PlainHttp request then httpsRedirectRule
        else if (m :: ms).any (g.matchesRoute · request) then
          { proxyRule endpoint connectorName with name := some "streams", routes := m :: ms }
        else { proxyRule endpoint connectorName with name := some "protected" }) := by
  have hstreams : g.matchesRule
      { proxyRule endpoint connectorName with name := some "streams", routes := m :: ms } request =
        (m :: ms).any (g.matchesRoute · request) := by
    simp [Gateway.matchesRule]
  unfold Gateway.evaluate desiredProxyRules
  simp only [List.find?_cons, matchesRule_redirect, hstreams, matchesRule_proxyRule]
  by_cases hplain : PlainHttp request
  · simp [hplain]
  · rw [if_neg hplain, decide_eq_false hplain]
    cases hany : (m :: ms).any (g.matchesRoute · request) <;> simp

theorem evaluate_unexempting :
    g.evaluate (desiredProxyRules endpoint connectorName (some [])) request =
      some (if PlainHttp request then httpsRedirectRule
        else proxyRule endpoint connectorName) := by
  have hproxy : g.matchesRule (proxyRule endpoint connectorName) request = true :=
    @matchesRule_proxyRule g endpoint connectorName request none
  unfold Gateway.evaluate desiredProxyRules
  simp only [List.find?_cons, matchesRule_redirect, hproxy]
  by_cases hplain : PlainHttp request <;> simp [hplain]

end Rules

/-! ## What stays covered -/

/-- Paths of any length may match: an expression, or the prefix without elements. -/
def Unbounded (path : PathMatch) : Prop :=
  pathKind path = some .regularExpression ∨
    pathKind path = some .pathPrefix ∧ pathStem path = []

/-- One long element. -/
def longPath (n : Nat) : List Char := '/' :: List.replicate n 'a'

theorem length_pathStem_le (m : PathMatch) : (pathStem m).length ≤ (pathText m).length := by
  unfold pathStem
  split
  · rw [List.length_dropLast]
    omega
  · exact Nat.le_refl _

theorem extendsStem_longPath {stem : List Char} {n : Nat} (hstem : stem ≠ [])
    (hlength : stem.length ≤ n) : extendsStem stem (longPath n) = false := by
  have hne : stem ≠ longPath n := by
    intro heq
    rw [heq, longPath, List.length_cons, List.length_replicate] at hlength
    omega
  have hprefix : ¬ stem ++ ['/'] <+: longPath n := by
    rintro ⟨rest, hrest⟩
    cases stem with
    | nil => exact hstem rfl
    | cons c cs =>
        rw [longPath, List.append_assoc, List.cons_append, List.cons.injEq] at hrest
        have hmem : '/' ∈ List.replicate n 'a' := by
          rw [← hrest.2]
          simp
        exact absurd (List.eq_of_mem_replicate hmem) (by decide)
  unfold extendsStem
  rw [decide_eq_false hne, Bool.false_or, Bool.eq_false_iff]
  exact fun h => hprefix (List.isPrefixOf_iff_prefix.mp h)

theorem matchesPath_longPath {g : Gateway} {path : PathMatch} {n : Nat}
    (hbounded : ¬ Unbounded path) (hlength : (pathText path).length ≤ n) :
    g.matchesPath path (longPath n) = false := by
  unfold Gateway.matchesPath
  cases hkind : pathKind path with
  | none => rfl
  | some kind =>
      cases kind with
      | pathPrefix =>
          apply extendsStem_longPath
          · intro hstem
            exact hbounded (Or.inr ⟨hkind, hstem⟩)
          · exact (length_pathStem_le path).trans hlength
      | exact =>
          apply decide_eq_false
          intro heq
          rw [heq, longPath, List.length_cons, List.length_replicate] at hlength
          omega
      | regularExpression => exact absurd (Or.inl hkind) hbounded

/-- Some path is exempted by no match that is bounded, whatever else a request to it says. -/
theorem exists_covered_path (g : Gateway) (routes : List RouteMatch) :
    ∃ path : List Char, path.head? = some '/' ∧
      ∀ request : Request, request.path = path →
        ∀ m ∈ routes, g.matchesRoute m request = true → Unbounded (routePath m) := by
  let lengths := routes.map fun m => (pathText (routePath m)).length
  refine ⟨longPath lengths.sum, rfl, fun request hpath m hm hmatches => ?_⟩
  by_contra hbounded
  have hlength : (pathText (routePath m)).length ≤ lengths.sum :=
    List.single_le_sum (fun _ _ => Nat.zero_le _) _ (List.mem_map_of_mem hm)
  rw [Gateway.matchesRoute, hpath, matchesPath_longPath hbounded hlength] at hmatches
  simp at hmatches

/-! ## The whole -/

def redirectToHttps : RouteFilter where
  type := "RequestRedirect"
  requestRedirect := some { scheme := some "https", statusCode := some 301 }

/-- The rule that takes what is not exempt: it has a name only where there are exemptions. -/
def coveringName (routes : List RouteMatch) : Option String :=
  if routes = [] then none else some wafProtectedRuleName

/-- How these rules deal with requests, and what is read back of them. -/
structure Divides (g : Gateway) (endpoint connectorName : String) (routes : List RouteMatch)
    (rules : List ProxyRule) : Prop where
  redirected : ∀ request, PlainHttp request → ∃ rule, g.evaluate rules request = some rule ∧
    rule.filters = some [redirectToHttps] ∧ rule.backends = none
  exempt : ∀ request, ¬ PlainHttp request → (∃ m ∈ routes, g.matchesRoute m request = true) →
    ∃ rule, g.evaluate rules request = some rule ∧ rule.name = some "streams" ∧
      rule.backends = some [{ endpoint, connector := some connectorName }]
  covered : ∀ request, ¬ PlainHttp request → (∀ m ∈ routes, g.matchesRoute m request = false) →
    ∃ rule, g.evaluate rules request = some rule ∧ rule.name = coveringName routes ∧
      rule.backends = some [{ endpoint, connector := some connectorName }]
  endpoint_eq : ∀ spec : ProxySpec, spec.rules = rules →
    HTTPProxy.backendEndpoint spec = some endpoint
  connector_eq : ∀ spec : ProxySpec, spec.rules = rules →
    HTTPProxy.connectorName spec = some connectorName
  protects : hasProtectedRule rules = true ↔ routes ≠ []

theorem divides_desiredProxyRules (g : Gateway) (endpoint connectorName : String)
    (routes : List RouteMatch) :
    Divides g endpoint connectorName routes
      (desiredProxyRules endpoint connectorName (some routes)) := by
  have hredirect : httpsRedirectRule.filters = some [redirectToHttps] ∧
      httpsRedirectRule.backends = none := ⟨rfl, rfl⟩
  cases routes with
  | nil =>
      refine ⟨fun request hplain => ?_, fun request _ hexempt => ?_, fun request hplain _ => ?_,
        fun spec => backendEndpoint_desiredProxyRules, fun spec => connectorName_desiredProxyRules,
        ?_⟩
      · exact ⟨httpsRedirectRule, by rw [evaluate_unexempting, if_pos hplain], hredirect⟩
      · obtain ⟨m, hm, _⟩ := hexempt
        cases hm
      · exact ⟨_, by rw [evaluate_unexempting, if_neg hplain], rfl, rfl⟩
      · simp [hasProtectedRule, desiredProxyRules, httpsRedirectRule, proxyRule]
  | cons m ms =>
      refine ⟨fun request hplain => ?_, fun request hplain hexempt => ?_,
        fun request hplain hcovered => ?_, fun spec => backendEndpoint_desiredProxyRules,
        fun spec => connectorName_desiredProxyRules, ?_⟩
      · exact ⟨httpsRedirectRule, by rw [evaluate_exempting, if_pos hplain], hredirect⟩
      · have hany : (m :: ms).any (g.matchesRoute · request) = true := List.any_eq_true.mpr hexempt
        exact ⟨_, by rw [evaluate_exempting, if_neg hplain, if_pos hany], rfl, rfl⟩
      · have hany : ¬ (m :: ms).any (g.matchesRoute · request) = true := by
          rw [List.any_eq_true]
          rintro ⟨m', hm', hmatches⟩
          rw [hcovered m' hm'] at hmatches
          cases hmatches
        exact ⟨_, by rw [evaluate_exempting, if_neg hplain, if_neg hany], rfl, rfl⟩
      · simp [hasProtectedRule, desiredProxyRules, wafProtectedRuleName]

/-- The rules for an accepted list of exemptions. -/
theorem accepted_rules_divide (g : Gateway) (endpoint connectorName : String)
    {fromStr : String → Except String (List RouteMatch)} {raw : String} {routes : List RouteMatch}
    (haccepted : parseWafExemptMatches fromStr raw = .ok routes) :
    Divides g endpoint connectorName routes
        (desiredProxyRules endpoint connectorName (some routes)) ∧
      (∀ m ∈ routes, m.path.isSome = true) ∧
      ∃ path : List Char, path.head? = some '/' ∧ ∀ request : Request, request.path = path →
        ∀ m ∈ routes, g.matchesRoute m request = true → Unbounded (routePath m) :=
  ⟨divides_desiredProxyRules g endpoint connectorName routes, parseWafExemptMatches_path haccepted,
    exists_covered_path g routes⟩

/-- A gateway without regular expressions. -/
def plainGateway : Gateway where
  regex _ _ := false
  others _ _ := true
  unconditional _ := rfl

def streamRoute : RouteMatch where
  path := some { type := some "Exact", value := some "/api/stream" }

def streamText : String :=
  "[\x7b\"path\":\x7b\"type\":\"Exact\",\"value\":\"/api/stream\"\x7d\x7d]"

/-- A reading of two texts. -/
def readRoutes (raw : String) : Except String (List RouteMatch) :=
  if raw = "[]" then .ok []
  else if raw = streamText then .ok [streamRoute]
  else .error "expected value"

theorem accepted_rules_divide_stream :
    Divides plainGateway "http://h:1" "c" [streamRoute]
        (desiredProxyRules "http://h:1" "c" (some [streamRoute])) ∧
      (∀ m ∈ [streamRoute], m.path.isSome = true) ∧
      ∃ path : List Char, path.head? = some '/' ∧ ∀ request : Request, request.path = path →
        ∀ m ∈ [streamRoute], plainGateway.matchesRoute m request = true →
          Unbounded (routePath m) :=
  have haccepted : parseWafExemptMatches readRoutes streamText = .ok [streamRoute] := by
    decide +kernel
  accepted_rules_divide plainGateway "http://h:1" "c" haccepted

/-- The empty list is accepted, and its rules have none of that name. -/
theorem empty_list_unprotected :
    parseWafExemptMatches readRoutes "[]" = .ok [] ∧
      hasProtectedRule (desiredProxyRules "http://h:1" "c" (some [])) = false := by
  decide +kernel

end DatumConnect.Policies
