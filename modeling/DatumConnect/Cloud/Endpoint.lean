import DatumConnect.Cloud.Objects
import DatumConnect.Lib.Text
import DatumConnect.Proxies.State
/-!
# Endpoints

An endpoint is read three times: for the advertisement, for the local proxy list,
and by whoever shows it.  `Url::parse` is a parameter of the first two.
-/

namespace DatumConnect.Cloud

open DatumConnect.Lib.Text
open DatumConnect.Proxies

/-- What is read of a parsed URL: `host_str` and `port`. -/
structure Url where
  hostStr : Option String
  port : Option UInt16
  deriving DecidableEq, Repr

/-- `normalize_endpoint`. -/
def normalizeEndpoint (endpoint : String) : String :=
  let endpoint := trim endpoint.toList
  if endpoint = [] ∨ contains endpoint "://".toList then String.ofList endpoint
  else "http://" ++ String.ofList endpoint

/-- An endpoint that is normal already stays as it is. -/
theorem normalizeEndpoint_idem (endpoint : String) :
    normalizeEndpoint (normalizeEndpoint endpoint) = normalizeEndpoint endpoint := by
  have htrimmed := trimmed_trim endpoint.toList
  unfold normalizeEndpoint
  generalize trim endpoint.toList = text at htrimmed
  by_cases hwhole : text = [] ∨ contains text "://".toList
  · simp only [if_pos hwhole, String.toList_ofList, htrimmed.trim_eq]
  · have hne : text ≠ [] := fun h => hwhole (Or.inl h)
    have hprefixed : Trimmed ("http://".toList ++ text) := by
      constructor
      · intro c hc
        cases hc
        decide
      · intro c hc
        rw [List.getLast?_append_of_ne_nil _ hne] at hc
        exact htrimmed.last c hc
    have hcontains : contains ("http://".toList ++ text) "://".toList = true :=
      contains_append "http".toList "://".toList text
    have hlist : ("http://" ++ String.ofList text).toList = "http://".toList ++ text := by
      rw [String.toList_append, String.toList_ofList (l := text)]
    simp only [if_neg hwhole, hlist, hprefixed.trim_eq]
    rw [if_pos (Or.inr hcontains), ← hlist, String.ofList_toList]

/-- The part of a target that is no URL: `[host]:port` or `host:port`. -/
def parseHostPort (target : List Char) : Except String (List Char × List Char) :=
  match target with
  | '[' :: rest =>
      match splitOnce ']' rest with
      | none => .error "invalid IPv6 address"
      | some (host, ':' :: port) => .ok (host, port)
      | some _ => .error "missing port"
  | _ =>
      match rsplitOnce ':' target with
      | none => .error "missing port"
      | some halves => .ok halves

/-- `parse_target`. -/
def parseTarget (parseUrl : String → Option Url) (target : String) : Except String ParsedTarget :=
  let target := trim target.toList
  match parseUrl (String.ofList target) with
  | some { hostStr := none, .. } => .error "missing host"
  | some { port := none, .. } => .error "missing port"
  | some { hostStr := some address, port := some port } => .ok { address, port }
  | none => do
      let (host, port) ← parseHostPort target
      match parseU16 port with
      | none => .error "invalid port"
      | some port => .ok { address := String.ofList host, port }

/-- `strip_scheme`. -/
def stripScheme (parseUrl : String → Option Url) (endpoint : String) : String :=
  match parseUrl endpoint with
  | some { hostStr := some host, port := some port } => host ++ ":" ++ toString port.toNat
  | _ => endpoint

/-- `TcpProxyData::from_host_port_str`. -/
def fromHostPortStr (s : String) : Except String TcpProxyData :=
  match rsplitOnce ':' s.toList with
  | none => .error "missing port"
  | some (host, port) =>
      match parseU16 port with
      | none => .error "invalid port"
      | some port => .ok { host := String.ofList host, port }

/-- `proxy_state_from_summary`. -/
def proxyStateFromSummary (parseUrl : String → Option Url) (tunnelId endpoint label : String)
    (enabled : Bool) : Except String ProxyState := do
  let data ← fromHostPortStr (stripScheme parseUrl endpoint)
  return { info := { resourceId := tunnelId, label := some label, data }, enabled }

end DatumConnect.Cloud
