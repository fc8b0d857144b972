import DatumConnect.Cloud.Endpoint
import DatumConnect.Proxies.Authorize
/-!
# All readings of an endpoint agree

What the advertisement, the local proxy list and the node that lets requests through make of one
endpoint, however it is written.
-/

namespace DatumConnect.Proxies

/-- `TcpProxyData::address`. -/
def TcpProxyData.address (data : TcpProxyData) : String :=
  data.host ++ ":" ++ toString data.port.toNat

end DatumConnect.Proxies

namespace DatumConnect.Cloud

open DatumConnect.Lib.Text
open DatumConnect.Proxies

/-! ## What is written -/

/-- An endpoint with the scheme "http", with "https", or without. -/
inductive Form where
  | bare
  | http
  | https
  deriving DecidableEq, Repr

namespace Form

def scheme : Form → String
  | .https => "https"
  | _ => "http"

/-- The port that the scheme goes by. -/
def defaultPort : Form → Nat
  | .https => 443
  | _ => 80

def written (form : Form) (host : String) (port : UInt16) : String :=
  match form with
  | .bare => host ++ ":" ++ toString port.toNat
  | .http => "http://" ++ host ++ ":" ++ toString port.toNat
  | .https => "https://" ++ host ++ ":" ++ toString port.toNat

/-- The URL that it stands for. -/
def url (form : Form) (host : String) (port : UInt16) : String :=
  form.scheme ++ "://" ++ host ++ ":" ++ toString port.toNat

end Form

/-- The text can stand where a URL has its host: it ends nothing there, and a colon is within
brackets. -/
structure IsHost (host : List Char) : Prop where
  nonempty : host ≠ []
  plain : ∀ c ∈ host, isWhitespace c = false ∧ c ∉ ['/', '\\', '?', '#', '@']
  bracketed : ':' ∈ host → ∃ inner, host = '[' :: inner ++ [']']

/-- What the URL standard has to say of such texts: `hostSerialized` is its host parser with its
serializer, and a URL does not keep the port that its scheme goes by. -/
structure UrlStandard (parseUrl : String → Option Url) (hostSerialized : String → Option String) :
    Prop where
  parses : ∀ (form : Form) (host : String) (port : UInt16), IsHost host.toList →
    parseUrl (form.url host port) = (hostSerialized host).map fun c =>
      { hostStr := some c, port := if port.toNat = form.defaultPort then none else some port }
  serialized : ∀ host c, hostSerialized host = some c → '/' ∉ c.toList

/-! ## What is read -/

theorem toList_port (host : String) (port : UInt16) :
    (host ++ ":" ++ toString port.toNat).toList =
      host.toList ++ ':' :: Nat.toDigits 10 port.toNat := by
  rw [String.toList_append, String.toList_append, Nat.toString_eq_repr, Nat.toList_repr]
  simp

theorem fromHostPortStr_address (host : String) (port : UInt16) :
    fromHostPortStr (host ++ ":" ++ toString port.toNat) = .ok { host, port } := by
  have hcolon : ':' ∉ Nat.toDigits 10 port.toNat := not_mem_toDigits rfl _
  unfold fromHostPortStr
  rw [toList_port, rsplitOnce_append hcolon]
  simp only [parseU16_toDigits, String.ofList_toList]

/-- The two ends of what is written are no white space. -/
theorem trimmed_port {before : List Char} {c : Char} {port : UInt16}
    (hfirst : before.head? = some c) (hc : isWhitespace c = false) :
    Trimmed (before ++ ':' :: Nat.toDigits 10 port.toNat) := by
  constructor
  · intro first hhead
    rw [List.head?_append, hfirst, Option.some_or, Option.some.injEq] at hhead
    rw [← hhead]
    exact hc
  · intro last hlast
    have hmem : last ∈ Nat.toDigits 10 port.toNat := by
      rw [List.getLast?_append_of_ne_nil _ (List.cons_ne_nil _ _),
        List.getLast?_cons_of_ne_nil Nat.toDigits_ne_nil] at hlast
      exact List.mem_of_getLast? hlast
    exact digit_not_whitespace (Nat.isDigit_of_mem_toDigits (by decide) (by decide) hmem)

/-- A text that names its scheme stays as it is. -/
theorem normalizeEndpoint_schemed {scheme host : String} {port : UInt16} {c : Char}
    (hfirst : (scheme ++ "://" ++ host).toList.head? = some c) (hc : isWhitespace c = false) :
    normalizeEndpoint (scheme ++ "://" ++ host ++ ":" ++ toString port.toNat) =
      scheme ++ "://" ++ host ++ ":" ++ toString port.toNat := by
  have htext := toList_port (scheme ++ "://" ++ host) port
  have hcontains : contains (scheme ++ "://" ++ host ++ ":" ++ toString port.toNat).toList
      "://".toList = true := by
    rw [htext, String.toList_append, String.toList_append, List.append_assoc]
    exact contains_append _ _ _
  have htrim : trim (scheme ++ "://" ++ host ++ ":" ++ toString port.toNat).toList =
      (scheme ++ "://" ++ host ++ ":" ++ toString port.toNat).toList := by
    rw [htext]
    exact (trimmed_port hfirst hc).trim_eq
  unfold normalizeEndpoint
  simp only [htrim]
  rw [if_pos (Or.inr hcontains), String.ofList_toList]

theorem normalizeEndpoint_written {host : String} (hhost : IsHost host.toList) (form : Form)
    (port : UInt16) : normalizeEndpoint (form.written host port) = form.url host port := by
  have hslashes : "http" ++ "://" = "http://" := by decide
  have hscheme : Form.bare.scheme = "http" := rfl
  have hlower : isWhitespace 'h' = false := by decide
  cases form with
  | http => exact @normalizeEndpoint_schemed "http" host port 'h' (by simp) hlower
  | https => exact @normalizeEndpoint_schemed "https" host port 'h' (by simp) hlower
  | bare =>
      obtain ⟨first, rest, hfirst⟩ := List.exists_cons_of_ne_nil hhost.nonempty
      have hhead : host.toList.head? = some first := by rw [hfirst]; rfl
      have hwhite := (hhost.plain first (List.mem_of_mem_head? hhead)).1
      have htrim : trim (host ++ ":" ++ toString port.toNat).toList =
          (host ++ ":" ++ toString port.toNat).toList := by
        rw [toList_port]
        exact (trimmed_port hhead hwhite).trim_eq
      have hno : ¬ contains (host ++ ":" ++ toString port.toNat).toList "://".toList = true := by
        intro hcontains
        have hslash : '/' ∈ (host ++ ":" ++ toString port.toNat).toList :=
          subset_of_contains hcontains (by decide)
        rw [toList_port, List.mem_append, List.mem_cons] at hslash
        rcases hslash with hslash | hslash | hslash
        · exact (hhost.plain '/' hslash).2 (by decide)
        · cases hslash
        · exact not_mem_toDigits rfl _ hslash
      have hne : (host ++ ":" ++ toString port.toNat).toList ≠ [] := by
        rw [toList_port]
        simp
      unfold normalizeEndpoint Form.written
      simp only [htrim]
      rw [if_neg (not_or.mpr ⟨hne, hno⟩), String.ofList_toList, Form.url, hscheme, hslashes]
      simp only [String.append_assoc]

/-- What every reading comes to. -/
structure ReadAs (parseUrl : String → Option Url) (endpoint : String) (data : TcpProxyData) :
    Prop where
  target : parseTarget parseUrl endpoint = .ok { address := data.host, port := data.port }
  proxy : ∀ tunnelId label, proxyStateFromSummary parseUrl tunnelId endpoint label true =
    .ok { info := { resourceId := tunnelId, label := some label, data }, enabled := true }
  address : fromHostPortStr data.address = .ok data
  authorized : ∀ (s : State) (proxy : ProxyState) (request : Request)
      (fromAbsoluteUri : String → Option Authority), proxy ∈ s.proxies → proxy.enabled = true →
    proxy.info.data = data →
    request.authority? fromAbsoluteUri = some { host := data.host, port := data.port } →
    s.authorize fromAbsoluteUri request = true

theorem stripHostScheme_eq {host : String} (h : '/' ∉ host.toList) :
    stripHostScheme host = host := by
  have hschemes : ∀ scheme : String, '/' ∈ scheme.toList →
      ¬ scheme.toList.isPrefixOf host.toList = true := by
    intro scheme hslash hschemes
    exact h ((List.isPrefixOf_iff_prefix.mp hschemes).subset hslash)
  unfold stripHostScheme
  rw [if_neg (hschemes "http://" (by decide)), if_neg (hschemes "https://" (by decide))]

/-- A URL that keeps its host and port is read so everywhere. -/
theorem readAs_of_url {parseUrl : String → Option Url} {endpoint host : String} {port : UInt16}
    (htrimmed : Trimmed endpoint.toList)
    (hurl : parseUrl endpoint = some { hostStr := some host, port := some port })
    (hslash : '/' ∉ host.toList) : ReadAs parseUrl endpoint { host, port } := by
  refine ⟨?_, fun tunnelId label => ?_, fromHostPortStr_address host port, ?_⟩
  · unfold parseTarget
    simp only [htrimmed.trim_eq, String.ofList_toList, hurl]
  · unfold proxyStateFromSummary stripScheme
    rw [hurl]
    simp only [fromHostPortStr_address]
    rfl
  · intro s proxy request fromAbsoluteUri hmem henabled hdata hauthority
    rw [State.authorize_iff]
    refine ⟨_, hauthority, proxy, hmem, henabled, ?_, ?_⟩
    · rw [hdata, stripHostScheme_eq hslash]
    · rw [hdata]

theorem trimmed_url (form : Form) (host : String) (port : UInt16) :
    Trimmed (form.url host port).toList := by
  have hfirst : (form.scheme ++ "://" ++ host).toList.head? = some 'h' := by
    cases form <;> simp [Form.scheme]
  rw [Form.url, toList_port]
  exact trimmed_port hfirst (by decide)

/-- Every form of an endpoint is read as the host that the URL standard makes of it, and its
port, where that is not the one its scheme goes by. -/
theorem written_readAs {parseUrl : String → Option Url} {hostSerialized : String → Option String}
    (hstandard : UrlStandard parseUrl hostSerialized) {host c : String}
    (hhost : IsHost host.toList) (hserialized : hostSerialized host = some c) {form : Form}
    {port : UInt16} (hport : port.toNat ≠ form.defaultPort) :
    ReadAs parseUrl (normalizeEndpoint (form.written host port)) { host := c, port } := by
  rw [normalizeEndpoint_written hhost]
  apply readAs_of_url (trimmed_url form host port)
  · rw [hstandard.parses form host port hhost, hserialized, Option.map_some, if_neg hport]
  · exact hstandard.serialized host c hserialized

/-- A reading of the URLs of one host. -/
def exampleAuthority (defaultPort : Nat) (text : List Char) : Option Url :=
  match rsplitOnce ':' text with
  | some (host, port) =>
      if host = "example.com".toList then
        (parseU16 port).map fun port => {
          hostStr := some "example.com"
          port := if port.toNat = defaultPort then none else some port }
      else none
  | none => none

def exampleUrl (url : String) : Option Url :=
  match stripPrefix "http://".toList url.toList with
  | some text => exampleAuthority 80 text
  | none => (stripPrefix "https://".toList url.toList).bind (exampleAuthority 443)

def exampleHost (host : String) : Option String :=
  if host = "example.com" then some host else none

theorem exampleAuthority_port (defaultPort : Nat) (host : String) (port : UInt16) :
    exampleAuthority defaultPort (host.toList ++ ':' :: Nat.toDigits 10 port.toNat) =
      (exampleHost host).map fun c => {
        hostStr := some c
        port := if port.toNat = defaultPort then none else some port } := by
  have hcolon : ':' ∉ Nat.toDigits 10 port.toNat := not_mem_toDigits rfl _
  unfold exampleAuthority exampleHost
  rw [rsplitOnce_append hcolon]
  simp only [parseU16_toDigits, String.toList_inj]
  by_cases hhost : host = "example.com" <;> simp [hhost]

theorem exampleUrl_standard : UrlStandard exampleUrl exampleHost where
  parses form host port _ := by
    have htext : (form.url host port).toList = (form.scheme ++ "://").toList ++
        (host.toList ++ ':' :: Nat.toDigits 10 port.toNat) := by
      rw [Form.url, toList_port, String.toList_append, List.append_assoc]
    unfold exampleUrl
    rw [htext]
    cases form with
    | bare => exact exampleAuthority_port 80 host port
    | http => exact exampleAuthority_port 80 host port
    | https => exact exampleAuthority_port 443 host port
  serialized host c h := by
    unfold exampleHost at h
    split at h
    · rename_i heq
      cases h
      rw [heq]
      decide
    · cases h

theorem written_readAs_example :
    ReadAs exampleUrl (normalizeEndpoint (Form.bare.written "example.com" 8080))
      { host := "example.com", port := 8080 } :=
  have hall : ("example.com".toList.all fun c =>
      !isWhitespace c && !(['/', '\\', '?', '#', '@'].contains c)) = true := by decide
  have hplain : ∀ c ∈ "example.com".toList,
      isWhitespace c = false ∧ c ∉ ['/', '\\', '?', '#', '@'] := by
    intro c hc
    have hc' := List.all_eq_true.mp hall c hc
    simpa using hc'
  have hhost : IsHost "example.com".toList :=
    ⟨by decide, hplain, fun hcolon => absurd hcolon (by decide)⟩
  have hport : (8080 : UInt16).toNat ≠ Form.bare.defaultPort := by decide
  written_readAs exampleUrl_standard hhost rfl hport

/-- The URL standard writes a name in lower case, so a request for the name as it was given is
not let through. -/
theorem mixed_case_host :
    parseTarget (fun url => exampleUrl url.toLower)
        (normalizeEndpoint (Form.bare.written "Example.com" 8080)) =
      .ok { address := "example.com", port := 8080 } ∧
    ¬ SameTarget { host := "Example.com", port := 8080 }
      { host := "example.com", port := 8080 } := by
  decide +kernel

end DatumConnect.Cloud
