import DatumConnect.Lib.IpAddr
/-!
# Who reaches the page's handlers

The router of the add-on's page and the two checks in front of it: the peer's address, and
for a POST the page's token and the browser's account of where the request comes from.
-/

namespace DatumConnect.AddonPage

open DatumConnect.Lib

/-! ## Headers -/

/-- The names in lower case, as `HeaderMap` keeps them. -/
abbrev HeaderMap := List (List Char × List UInt8)

def HeaderMap.get (headers : HeaderMap) (name : List Char) : Option (List UInt8) :=
  (headers.find? (·.1 = name)).map Prod.snd

def isVisibleAscii (b : UInt8) : Bool := 32 ≤ b && b < 127 || b = 9

/-- `HeaderValue::to_str`. -/
def toStr (v : List UInt8) : Option (List Char) :=
  if v.all isVisibleAscii then some (v.map fun b => Char.ofNat b.toNat) else none

/-- `str::as_bytes`. -/
def asBytes (s : List Char) : List UInt8 := s.flatMap String.utf8EncodeChar

def toAsciiLowercase (s : List Char) : List Char := s.map Char.toLower

def csrfHeader : List Char := "x-datum-connect-csrf".toList

def ingressPathHeader : List Char := "x-ingress-path".toList

/-! ## The router -/

inductive Method where
  | options
  | get
  | post
  | put
  | delete
  | head
  | trace
  | connect
  | patch
  | extension (name : String)
  deriving DecidableEq, Repr

structure Request where
  /-- The connection's address; `none` without `ConnectInfo`. -/
  peer : Option IpAddr
  method : Method
  path : List Char
  headers : HeaderMap
  body : List UInt8 := []
  deriving DecidableEq, Repr

inductive Handler where
  | index
  | appJs
  | appCss
  | getState
  | connect
  | newCode
  | chooseProject
  | repair
  | unpair
  | removeTunnel
  | allowProxies
  | skipProxies
  deriving DecidableEq, Repr

inductive MethodRouter where
  | get (h : Handler)
  | post (h : Handler)
  deriving DecidableEq, Repr

inductive Mode where
  | setup
  | paired
  deriving DecidableEq, Repr

structure Ingress where
  mode : Mode
  csrf : List Char
  allowed : List IpAddr
  deriving DecidableEq, Repr

/-- `{b:02x}`. -/
def hexByte (b : UInt8) : List Char := [Nat.digitChar (b.toNat / 16), Nat.digitChar (b.toNat % 16)]

def newCsrfToken (random : Vector UInt8 32) : List Char := random.toList.flatMap hexByte

/-- Why the `Json` extractor refuses a request: 415, 400, 422, and a body that is not received. -/
inductive JsonRejection where
  | missingJsonContentType
  | jsonSyntaxError
  | jsonDataError
  | bytesRejection
  deriving DecidableEq, Repr

/-- What a request comes to: the handler that is called with it, or who refused it. -/
inductive Outcome where
  | handled (h : Handler)
  | rejected (why : JsonRejection)
  | notFound
  | methodNotAllowed
  | forbidden
  | csrf
  deriving DecidableEq, Repr

structure Response where
  outcome : Outcome
  headers : HeaderMap
  deriving DecidableEq, Repr

def routes : List (List Char × MethodRouter) :=
  [("/".toList, .get .index),
   ("/app.js".toList, .get .appJs),
   ("/app.css".toList, .get .appCss),
   ("/api/state".toList, .get .getState),
   ("/api/connect".toList, .post .connect),
   ("/api/new-code".toList, .post .newCode),
   ("/api/project".toList, .post .chooseProject),
   ("/api/repair".toList, .post .repair),
   ("/api/unpair".toList, .post .unpair),
   ("/api/remove-tunnel".toList, .post .removeTunnel),
   ("/api/allow-proxies".toList, .post .allowProxies),
   ("/api/skip-proxies".toList, .post .skipProxies)]

/-- Of axum's `Json` extractor what is not this program's: which content types it takes, and how
it reads a body as a struct with one field, a string. -/
structure JsonReader where
  isJson : (contentType : List Char) → Bool
  fromBytes : (field : List Char) → (body : List UInt8) → Except JsonRejection (List Char)

def JsonReader.fromRequest (json : JsonReader) (field : List Char) (request : Request) :
    Except JsonRejection (List Char) :=
  if ((request.headers.get "content-type".toList).bind toStr).any json.isJson then
    json.fromBytes field request.body
  else .error .missingJsonContentType

/-- The field of the `Json` body that the handler is called with: `ChooseBody` and `RemoveBody`. -/
def Handler.jsonField : Handler → Option (List Char)
  | .chooseProject => some "project".toList
  | .removeTunnel => some "id".toList
  | _ => none

/-- A handler is called with what its extractors make of the request. -/
def Handler.call (h : Handler) (json : JsonReader) (request : Request) : Outcome :=
  match h.jsonField with
  | none => .handled h
  | some field =>
      match json.fromRequest field request with
      | .ok _ => .handled h
      | .error why => .rejected why

/-- A `get` route is one for HEAD, too. -/
def MethodRouter.call (router : MethodRouter) (json : JsonReader) (request : Request) : Outcome :=
  match router with
  | .get h =>
      if request.method = .get ∨ request.method = .head then h.call json request
      else .methodNotAllowed
  | .post h => if request.method = .post then h.call json request else .methodNotAllowed

def route (json : JsonReader) (request : Request) : Outcome :=
  match routes.find? (·.1 = request.path) with
  | some (_, router) => router.call json request
  | none => .notFound

def constantTimeEq (a b : List UInt8) : Bool :=
  a.length = b.length && (a.zip b).foldl (fun acc pair => acc ||| (pair.1 ^^^ pair.2)) 0 = 0

/-- What an `Origin` says the host is. -/
def originHost (origin : List UInt8) : Option (List Char) :=
  ((toStr origin).bind (Text.splitOnceText "://".toList)).map fun parts =>
    toAsciiLowercase (Text.trimEndMatches '/' parts.2)

/-- The host Home Assistant was reached at. -/
def requestHost (headers : HeaderMap) : Option (List Char) :=
  let host := (headers.get "x-forwarded-host".toList).or (headers.get "host".toList)
  (host.bind toStr).map fun h => toAsciiLowercase (Text.trim ((h.splitOn ',').headD []))

def sameOrigin (headers : HeaderMap) : Bool :=
  if ((headers.get "sec-fetch-site".toList).bind toStr).any (· ≠ "same-origin".toList) then false
  else
    match headers.get "origin".toList with
    | none => true
    | some origin =>
        match originHost origin with
        | none => false
        | some originHost => (requestHost headers).any (· = originHost)

def csrfCheck (state : Ingress) (request : Request) (next : Request → Outcome) : Outcome :=
  if request.method ≠ .post then next request
  else
    let tokenOk := ((request.headers.get csrfHeader).bind toStr).any fun t =>
      constantTimeEq (asBytes t) (asBytes state.csrf)
    if !tokenOk || !sameOrigin request.headers then .csrf else next request

def peerCheck (state : Ingress) (request : Request) (next : Request → Outcome) : Outcome :=
  match request.peer.map IpAddr.toCanonical with
  | some ip => if state.allowed.contains ip then next request else .forbidden
  | none => .forbidden

def harden (outcome : Outcome) : Response where
  outcome
  headers :=
    [("cache-control".toList, asBytes "no-store".toList),
     ("x-content-type-options".toList, asBytes "nosniff".toList),
     ("referrer-policy".toList, asBytes "no-referrer".toList),
     ("content-security-policy".toList,
      asBytes ("default-src 'none'; script-src 'self'; style-src 'self'; connect-src 'self'; " ++
        "img-src 'self'; base-uri 'self'; form-action 'none'; frame-ancestors 'self'").toList)]

def Ingress.new (mode : Mode) (random : Vector UInt8 32) (allowed : List IpAddr) : Ingress where
  mode
  csrf := newCsrfToken random
  allowed := allowed.map IpAddr.toCanonical

def Ingress.router (state : Ingress) (json : JsonReader) (request : Request) : Response :=
  harden (peerCheck state request fun request => csrfCheck state request (route json))

/-! ## What the checks ask -/

/-- The handlers that change anything. -/
def Handler.changes : Handler → Bool
  | .connect | .newCode | .chooseProject | .repair | .unpair | .removeTunnel | .allowProxies
  | .skipProxies => true
  | .index | .appJs | .appCss | .getState => false

def Handler.path : Handler → List Char
  | .index => "/".toList
  | .appJs => "/app.js".toList
  | .appCss => "/app.css".toList
  | .getState => "/api/state".toList
  | .connect => "/api/connect".toList
  | .newCode => "/api/new-code".toList
  | .chooseProject => "/api/project".toList
  | .repair => "/api/repair".toList
  | .unpair => "/api/unpair".toList
  | .removeTunnel => "/api/remove-tunnel".toList
  | .allowProxies => "/api/allow-proxies".toList
  | .skipProxies => "/api/skip-proxies".toList

/-- The peer is an allowed address, both in canonical form. -/
def PeerAllowed (allowed : List IpAddr) (request : Request) : Prop :=
  ∃ peer ip, request.peer = some peer ∧ ip ∈ allowed ∧ peer.toCanonical = ip.toCanonical

/-- The origin is a scheme, the host but for ASCII case, and nothing but slashes after it. -/
def NamesHost (origin host : List Char) : Prop :=
  ∃ scheme name slashes, origin = scheme ++ "://".toList ++ (name ++ slashes) ∧
    (∀ before after, origin = before ++ "://".toList ++ after → scheme.length ≤ before.length) ∧
    (∀ c ∈ slashes, c = '/') ∧ name.getLast? ≠ some '/' ∧
    toAsciiLowercase name = toAsciiLowercase host

/-- The first host of `X-Forwarded-Host`, or, where that is not sent, of `Host`. -/
def FirstHost (headers : HeaderMap) (host : List Char) : Prop :=
  ∃ v text, ((headers.get "x-forwarded-host".toList) = some v ∨
      headers.get "x-forwarded-host".toList = none ∧ headers.get "host".toList = some v) ∧
    toStr v = some text ∧ host = Text.trim (text.takeWhile (· ≠ ','))

/-- A readable `Sec-Fetch-Site` is `same-origin`. -/
def SiteAgrees (headers : HeaderMap) : Prop :=
  ∀ v text, headers.get "sec-fetch-site".toList = some v → toStr v = some text →
    text = "same-origin".toList

/-- `Origin` is absent, or names the host Home Assistant was reached at. -/
def OriginAgrees (headers : HeaderMap) : Prop :=
  headers.get "origin".toList = none ∨ ∃ v text host, headers.get "origin".toList = some v ∧
    toStr v = some text ∧ FirstHost headers host ∧ NamesHost text host

structure FromThePage (csrf : List Char) (headers : HeaderMap) : Prop where
  token : headers.get csrfHeader = some (asBytes csrf)
  site : SiteAgrees headers
  origin : OriginAgrees headers

/-- Where the handler is called with a body, the request has one, and says that it is JSON. -/
def HasBody (json : JsonReader) (h : Handler) (request : Request) : Prop :=
  ∀ field, h.jsonField = some field → ∃ v text value,
    request.headers.get "content-type".toList = some v ∧ toStr v = some text ∧
      json.isJson text = true ∧ json.fromBytes field request.body = .ok value

/-! ## Texts and bytes -/

theorem utf8EncodeChar_ofNat {n : Nat} (h : n < 128) :
    String.utf8EncodeChar (Char.ofNat n) = [UInt8.ofNat n] := by
  revert n
  decide

theorem isVisibleAscii_lt {b : UInt8} (h : isVisibleAscii b = true) : b.toNat < 128 := by
  unfold isVisibleAscii at h
  rw [Bool.or_eq_true, Bool.and_eq_true] at h
  rcases h with ⟨-, hlt⟩ | hnine
  · have hb : b < 127 := of_decide_eq_true hlt
    have hb' : b.toNat < 127 := UInt8.lt_iff_toNat_lt.mp hb
    omega
  · rw [of_decide_eq_true hnine]
    decide

theorem asBytes_of_toStr {v : List UInt8} {text : List Char} (h : toStr v = some text) :
    asBytes text = v := by
  unfold toStr at h
  split at h
  · rename_i hall
    cases h
    induction v with
    | nil => rfl
    | cons b v ih =>
        rw [List.all_cons, Bool.and_eq_true] at hall
        have hb := isVisibleAscii_lt hall.1
        calc asBytes ((b :: v).map fun b => Char.ofNat b.toNat)
            = String.utf8EncodeChar (Char.ofNat b.toNat) ++
                asBytes (v.map fun b => Char.ofNat b.toNat) := rfl
          _ = [b] ++ v := by rw [utf8EncodeChar_ofNat hb, ih hall.2, UInt8.ofNat_toNat]
          _ = b :: v := rfl
  · cases h

theorem toStr_isSome {v : List UInt8} (h : ∀ b ∈ v, isVisibleAscii b = true) :
    ∃ text, toStr v = some text := by
  refine ⟨_, if_pos ?_⟩
  exact List.all_eq_true.mpr h

theorem utf8EncodeChar_digitChar : ∀ n < 16, ∀ b ∈ String.utf8EncodeChar (Nat.digitChar n),
    isVisibleAscii b = true := by
  decide +kernel

theorem mem_newCsrfToken {random : Vector UInt8 32} {c : Char} (h : c ∈ newCsrfToken random) :
    ∃ n < 16, c = Nat.digitChar n := by
  obtain ⟨b, -, hc⟩ := List.mem_flatMap.mp h
  have hb := b.toNat_lt
  rcases List.mem_cons.mp hc with rfl | hc
  · exact ⟨b.toNat / 16, by omega, rfl⟩
  · exact ⟨b.toNat % 16, by omega, List.mem_singleton.mp hc⟩

theorem newCsrfToken_visible {random : Vector UInt8 32} {b : UInt8}
    (h : b ∈ asBytes (newCsrfToken random)) : isVisibleAscii b = true := by
  obtain ⟨c, hc, hb⟩ := List.mem_flatMap.mp h
  obtain ⟨n, hn, rfl⟩ := mem_newCsrfToken hc
  exact utf8EncodeChar_digitChar n hn b hb

theorem foldl_or_xor_eq_zero {pairs : List (UInt8 × UInt8)} {acc : UInt8} :
    pairs.foldl (fun acc pair => acc ||| (pair.1 ^^^ pair.2)) acc = 0 ↔
      acc = 0 ∧ ∀ pair ∈ pairs, pair.1 = pair.2 := by
  induction pairs generalizing acc with
  | nil => simp
  | cons pair pairs ih =>
      rw [List.foldl_cons, ih, UInt8.or_eq_zero_iff, UInt8.xor_eq_zero_iff, and_assoc,
        List.forall_mem_cons]

theorem eq_of_zip {a b : List UInt8} (hlen : a.length = b.length)
    (h : ∀ pair ∈ a.zip b, pair.1 = pair.2) : a = b := by
  induction a generalizing b with
  | nil => exact (List.eq_nil_of_length_eq_zero hlen.symm).symm
  | cons x a ih =>
      cases b with
      | nil => cases hlen
      | cons y b =>
          have hxy : x = y := h (x, y) List.mem_cons_self
          have htail : a = b := by
            apply ih (Nat.succ.inj hlen)
            intro pair hpair
            exact h pair (List.mem_cons_of_mem _ hpair)
          rw [hxy, htail]

theorem constantTimeEq_iff {a b : List UInt8} : constantTimeEq a b = true ↔ a = b := by
  unfold constantTimeEq
  rw [Bool.and_eq_true, decide_eq_true_eq, decide_eq_true_eq, foldl_or_xor_eq_zero]
  constructor
  · rintro ⟨hlen, -, hall⟩
    exact eq_of_zip hlen hall
  · rintro rfl
    refine ⟨rfl, rfl, ?_⟩
    intro pair hpair
    rw [List.zip_eq_zipWith, List.zipWith_self] at hpair
    obtain ⟨x, -, rfl⟩ := List.mem_map.mp hpair
    rfl

theorem headD_splitOnPPrepend {sep : Char} (s acc : List Char) :
    (List.splitOnPPrepend (· == sep) s acc).headD [] =
      acc.reverse ++ s.takeWhile (· ≠ sep) := by
  induction s generalizing acc with
  | nil => simp
  | cons c s ih =>
      by_cases hc : c = sep
      · simp [List.splitOnPPrepend, hc]
      · have hstep : List.splitOnPPrepend (· == sep) (c :: s) acc =
            List.splitOnPPrepend (· == sep) s (c :: acc) := if_neg (by simpa using hc)
        rw [hstep, ih, List.takeWhile_cons_of_pos (by simpa using hc)]
        simp

theorem headD_splitOn {sep : Char} (s : List Char) :
    (s.splitOn sep).headD [] = s.takeWhile (· ≠ sep) :=
  headD_splitOnPPrepend s []

/-! ## The checks -/

theorem requestHost_eq_some {headers : HeaderMap} {lower : List Char} :
    requestHost headers = some lower ↔
      ∃ host, FirstHost headers host ∧ lower = toAsciiLowercase host := by
  unfold requestHost FirstHost
  simp only [headD_splitOn, Option.map_eq_some_iff, Option.bind_eq_some_iff, Option.or_eq_some_iff]
  constructor
  · rintro ⟨text, ⟨v, hv, htext⟩, rfl⟩
    exact ⟨_, ⟨v, text, hv, htext, rfl⟩, rfl⟩
  · rintro ⟨_, ⟨v, text, hv, htext, rfl⟩, rfl⟩
    exact ⟨text, ⟨v, hv, htext⟩, rfl⟩

/-- What is left of an origin after its scheme, without the slashes at its end. -/
theorem namesHost_iff {origin host : List Char} :
    NamesHost origin host ↔ ∃ scheme rest,
      Text.splitOnceText "://".toList origin = some (scheme, rest) ∧
      toAsciiLowercase (Text.trimEndMatches '/' rest) = toAsciiLowercase host := by
  constructor
  · rintro ⟨scheme, name, slashes, heq, hfirst, hslashes, hlast, hhost⟩
    refine ⟨scheme, name ++ slashes, Text.splitOnceText_eq_some.mpr ⟨heq, hfirst⟩, ?_⟩
    rw [Text.trimEndMatches_eq_iff.mpr ⟨slashes, rfl, hslashes, hlast⟩]
    exact hhost
  · rintro ⟨scheme, rest, hsplit, hhost⟩
    obtain ⟨heq, hfirst⟩ := Text.splitOnceText_eq_some.mp hsplit
    obtain ⟨slashes, hrest, hslashes, hlast⟩ := Text.trimEndMatches_eq_iff.mp (rfl :
      Text.trimEndMatches '/' rest = Text.trimEndMatches '/' rest)
    refine ⟨scheme, _, slashes, ?_, hfirst, hslashes, hlast, hhost⟩
    rw [← hrest]
    exact heq

theorem originHost_eq_some {v : List UInt8} {lower : List Char} :
    originHost v = some lower ↔ ∃ text scheme rest, toStr v = some text ∧
      Text.splitOnceText "://".toList text = some (scheme, rest) ∧
      lower = toAsciiLowercase (Text.trimEndMatches '/' rest) := by
  unfold originHost
  simp only [Option.map_eq_some_iff, Option.bind_eq_some_iff, Prod.exists]
  constructor
  · rintro ⟨scheme, rest, ⟨text, htext, hsplit⟩, rfl⟩
    exact ⟨text, scheme, rest, htext, hsplit, rfl⟩
  · rintro ⟨text, scheme, rest, htext, hsplit, rfl⟩
    exact ⟨scheme, rest, ⟨text, htext, hsplit⟩, rfl⟩

theorem hosts_agree_iff {headers : HeaderMap} {v : List UInt8} :
    (∃ lower, originHost v = some lower ∧ requestHost headers = some lower) ↔
      ∃ text host, toStr v = some text ∧ FirstHost headers host ∧ NamesHost text host := by
  simp only [originHost_eq_some, requestHost_eq_some, namesHost_iff]
  constructor
  · rintro ⟨_, ⟨text, scheme, rest, htext, hsplit, rfl⟩, host, hhost, heq⟩
    exact ⟨text, host, htext, hhost, scheme, rest, hsplit, heq⟩
  · rintro ⟨text, host, htext, hhost, scheme, rest, hsplit, heq⟩
    exact ⟨_, ⟨text, scheme, rest, htext, hsplit, rfl⟩, host, hhost, heq⟩

theorem siteAgrees_iff {headers : HeaderMap} :
    SiteAgrees headers ↔
      ((headers.get "sec-fetch-site".toList).bind toStr).any
        (· ≠ "same-origin".toList) = false := by
  rw [Option.any_eq_false]
  constructor
  · intro h text htext
    obtain ⟨v, hv, hread⟩ := Option.bind_eq_some_iff.mp htext
    exact decide_eq_false (not_not.mpr (h v text hv hread))
  · intro h v text hv hread
    have hsite := h text (Option.bind_eq_some_iff.mpr ⟨v, hv, hread⟩)
    exact not_not.mp (of_decide_eq_false hsite)

theorem sameOrigin_iff {headers : HeaderMap} :
    sameOrigin headers = true ↔ SiteAgrees headers ∧ OriginAgrees headers := by
  unfold sameOrigin
  split
  · rename_i hforeign
    constructor
    · intro h
      cases h
    · rintro ⟨h, -⟩
      rw [siteAgrees_iff.mp h] at hforeign
      cases hforeign
  · rename_i hsame
    have hsite := siteAgrees_iff.mpr (Bool.eq_false_iff.mpr hsame)
    unfold OriginAgrees
    cases horigin : headers.get "origin".toList with
    | none => exact ⟨fun _ => ⟨hsite, .inl rfl⟩, fun _ => rfl⟩
    | some v =>
        have hagree := @hosts_agree_iff headers v
        show (match originHost v with
          | none => false
          | some originHost => (requestHost headers).any (· = originHost)) = true ↔ _
        constructor
        · intro h
          refine ⟨hsite, .inr ?_⟩
          cases hhost : originHost v with
          | none => rw [hhost] at h; cases h
          | some lower =>
              rw [hhost] at h
              obtain ⟨named, hnamed, heq⟩ := (Option.any_eq_true _ _).mp h
              have hboth := hagree.mp ⟨lower, hhost, by rw [hnamed, of_decide_eq_true heq]⟩
              obtain ⟨text, host, htext, hfirst, hnames⟩ := hboth
              exact ⟨v, text, host, rfl, htext, hfirst, hnames⟩
        · rintro ⟨-, habsent | ⟨_, text, host, ⟨⟩, htext, hfirst, hnames⟩⟩
          · cases habsent
          · obtain ⟨lower, hlower, hreq⟩ := hagree.mpr ⟨text, host, htext, hfirst, hnames⟩
            rw [hlower, hreq]
            exact decide_eq_true rfl

theorem tokenOk_iff {headers : HeaderMap} {random : Vector UInt8 32} :
    ((headers.get csrfHeader).bind toStr).any
        (fun t => constantTimeEq (asBytes t) (asBytes (newCsrfToken random))) = true ↔
      headers.get csrfHeader = some (asBytes (newCsrfToken random)) := by
  constructor
  · intro h
    obtain ⟨t, ht, heq⟩ := Option.any_eq_true _ _ |>.mp h
    obtain ⟨v, hv, hread⟩ := Option.bind_eq_some_iff.mp ht
    rw [hv, ← constantTimeEq_iff.mp heq, asBytes_of_toStr hread]
  · intro h
    obtain ⟨t, ht⟩ := toStr_isSome fun b hb => @newCsrfToken_visible random b hb
    rw [h, Option.bind_some, ht]
    exact constantTimeEq_iff.mpr (asBytes_of_toStr ht)

/-! ## The router -/

def MethodRouter.handler : MethodRouter → Handler
  | .get h => h
  | .post h => h

theorem fromRequest_eq_ok {json : JsonReader} {field value : List Char} {request : Request} :
    json.fromRequest field request = .ok value ↔
      (∃ v text, request.headers.get "content-type".toList = some v ∧ toStr v = some text ∧
        json.isJson text = true) ∧ json.fromBytes field request.body = .ok value := by
  have htype : ((request.headers.get "content-type".toList).bind toStr).any json.isJson = true ↔
      ∃ v text, request.headers.get "content-type".toList = some v ∧ toStr v = some text ∧
        json.isJson text = true := by
    simp only [Option.any_eq_true, Option.bind_eq_some_iff]
    constructor
    · rintro ⟨text, ⟨v, hv, htext⟩, hjson⟩
      exact ⟨v, text, hv, htext, hjson⟩
    · rintro ⟨v, text, hv, htext, hjson⟩
      exact ⟨text, ⟨v, hv, htext⟩, hjson⟩
  unfold JsonReader.fromRequest
  rw [← htype]
  split
  · rename_i hjson
    exact (and_iff_right hjson).symm
  · rename_i hjson
    constructor
    · intro h
      cases h
    · exact fun h => absurd h.1 hjson

/-- A handler that is not called at once is called if its body can be read. -/
theorem handler_call_iff {json : JsonReader} {request : Request} {h h' : Handler} :
    h.call json request = .handled h' ↔ h = h' ∧ HasBody json h request := by
  unfold Handler.call HasBody
  cases hfield : h.jsonField with
  | none => simp
  | some field =>
      simp only [Option.some.injEq, forall_eq']
      have hok : (∃ value, json.fromRequest field request = .ok value) ↔ ∃ v text value,
          request.headers.get "content-type".toList = some v ∧ toStr v = some text ∧
            json.isJson text = true ∧ json.fromBytes field request.body = .ok value := by
        simp only [fromRequest_eq_ok]
        constructor
        · rintro ⟨value, ⟨v, text, hv, htext, hjson⟩, hvalue⟩
          exact ⟨v, text, value, hv, htext, hjson, hvalue⟩
        · rintro ⟨v, text, value, hv, htext, hjson, hvalue⟩
          exact ⟨value, ⟨v, text, hv, htext, hjson⟩, hvalue⟩
      rw [← hok]
      cases json.fromRequest field request with
      | ok value => simp
      | error why => simp

theorem call_eq_handled {router : MethodRouter} {json : JsonReader} {request : Request}
    {h : Handler} (hc : router.call json request = .handled h) :
    router.handler = h ∧ HasBody json h request ∧ (router = .post h → request.method = .post) := by
  cases router with
  | get h' =>
      change (if request.method = .get ∨ request.method = .head then h'.call json request
        else _) = _ at hc
      split at hc
      · obtain ⟨rfl, hbody⟩ := handler_call_iff.mp hc
        exact ⟨rfl, hbody, nofun⟩
      · cases hc
  | post h' =>
      change (if request.method = .post then h'.call json request else _) = _ at hc
      split at hc
      · rename_i hpost
        obtain ⟨rfl, hbody⟩ := handler_call_iff.mp hc
        exact ⟨rfl, hbody, fun _ => hpost⟩
      · cases hc

/-- Each route is under its handler's path, one that changes anything is a POST one, and it is
the route that is found there. -/
theorem routes_spec : (∀ r ∈ routes, r.1 = r.2.handler.path ∧
      (r.2.handler.changes = true → r.2 = .post r.2.handler)) ∧
    ∀ h : Handler, h.changes = true →
      routes.find? (·.1 = h.path) = some (h.path, .post h) := by
  refine ⟨by decide +kernel, fun h => ?_⟩
  cases h <;> decide +kernel

theorem route_eq_handled_iff {json : JsonReader} {request : Request} {h : Handler}
    (hchanges : h.changes = true) :
    route json request = .handled h ↔
      request.path = h.path ∧ request.method = .post ∧ HasBody json h request := by
  unfold route
  constructor
  · intro hroute
    split at hroute
    · rename_i path router hfind
      have hmem := List.mem_of_find?_eq_some hfind
      have hpath := List.find?_some hfind
      obtain ⟨rfl, hbody, hmethod⟩ := call_eq_handled hroute
      obtain ⟨hown, hposts⟩ := routes_spec.1 _ hmem
      exact ⟨(of_decide_eq_true hpath).symm.trans hown, hmethod (hposts hchanges), hbody⟩
    · cases hroute
  · rintro ⟨hpath, hmethod, hbody⟩
    rw [hpath, routes_spec.2 h hchanges]
    exact (if_pos hmethod).trans (handler_call_iff.mpr ⟨rfl, hbody⟩)

theorem peerCheck_eq_handled_iff {state : Ingress} {request : Request}
    {next : Request → Outcome} {h : Handler} :
    peerCheck state request next = .handled h ↔
      (∃ peer, request.peer = some peer ∧ peer.toCanonical ∈ state.allowed) ∧
        next request = .handled h := by
  unfold peerCheck
  cases request.peer with
  | none => simp
  | some peer =>
      simp only [Option.map_some, Option.some.injEq, exists_eq_left', List.contains_iff_mem]
      split
      · rename_i hmem
        simp [hmem]
      · rename_i hmem
        simp [hmem]

theorem peerAllowed_iff {mode : Mode} {random : Vector UInt8 32} {allowed : List IpAddr}
    {request : Request} :
    PeerAllowed allowed request ↔ ∃ peer, request.peer = some peer ∧
      peer.toCanonical ∈ (Ingress.new mode random allowed).allowed := by
  unfold PeerAllowed
  simp only [Ingress.new, List.mem_map]
  constructor
  · rintro ⟨peer, ip, hpeer, hip, heq⟩
    exact ⟨peer, hpeer, ip, hip, heq.symm⟩
  · rintro ⟨peer, hpeer, ip, hip, heq⟩
    exact ⟨peer, ip, hpeer, hip, heq.symm⟩

theorem unless_refused_iff {token same : Bool} {outcome : Outcome} {h : Handler} :
    (if !token || !same then Outcome.csrf else outcome) = .handled h ↔
      (token = true ∧ same = true) ∧ outcome = .handled h := by
  cases token <;> cases same <;> simp

theorem csrfCheck_post {mode : Mode} {random : Vector UInt8 32} {allowed : List IpAddr}
    {request : Request} {next : Request → Outcome} {h : Handler}
    (hpost : request.method = .post) :
    csrfCheck (Ingress.new mode random allowed) request next = .handled h ↔
      FromThePage (newCsrfToken random) request.headers ∧ next request = .handled h := by
  unfold csrfCheck
  rw [if_neg (not_not.mpr hpost)]
  have hfrom : FromThePage (newCsrfToken random) request.headers ↔
      request.headers.get csrfHeader = some (asBytes (newCsrfToken random)) ∧
        sameOrigin request.headers = true := by
    rw [sameOrigin_iff]
    constructor
    · rintro ⟨htoken, hsite, horigin⟩
      exact ⟨htoken, hsite, horigin⟩
    · rintro ⟨htoken, hsite, horigin⟩
      exact ⟨htoken, hsite, horigin⟩
  rw [hfrom, ← tokenOk_iff]
  exact unless_refused_iff

theorem router_outcome (state : Ingress) (json : JsonReader) (request : Request) :
    (state.router json request).outcome =
      peerCheck state request fun request => csrfCheck state request (route json) :=
  rfl

/-- No handler runs for a peer that is not allowed. -/
theorem peer_of_handled {mode : Mode} {random : Vector UInt8 32} {allowed : List IpAddr}
    {json : JsonReader} {request : Request} {h : Handler}
    (hh : ((Ingress.new mode random allowed).router json request).outcome = .handled h) :
    PeerAllowed allowed request := by
  rw [router_outcome] at hh
  exact peerAllowed_iff.mpr (peerCheck_eq_handled_iff.mp hh).1

theorem handled_iff {mode : Mode} {random : Vector UInt8 32} {allowed : List IpAddr}
    {json : JsonReader} {request : Request} {h : Handler} (hchanges : h.changes = true) :
    ((Ingress.new mode random allowed).router json request).outcome = .handled h ↔
      PeerAllowed allowed request ∧ request.path = h.path ∧ request.method = .post ∧
        FromThePage (newCsrfToken random) request.headers ∧ HasBody json h request := by
  rw [router_outcome, peerCheck_eq_handled_iff, ← peerAllowed_iff]
  constructor
  · rintro ⟨hpeer, hcsrf⟩
    by_cases hpost : request.method = .post
    · obtain ⟨hfrom, hroute⟩ := (csrfCheck_post hpost).mp hcsrf
      obtain ⟨hpath, -, hbody⟩ := (route_eq_handled_iff hchanges).mp hroute
      exact ⟨hpeer, hpath, hpost, hfrom, hbody⟩
    · unfold csrfCheck at hcsrf
      rw [if_pos hpost] at hcsrf
      exact absurd ((route_eq_handled_iff hchanges).mp hcsrf).2.1 hpost
  · rintro ⟨hpeer, hpath, hpost, hfrom, hbody⟩
    refine ⟨hpeer, ?_⟩
    rw [csrfCheck_post hpost]
    exact ⟨hfrom, (route_eq_handled_iff hchanges).mpr ⟨hpath, hpost, hbody⟩⟩

end DatumConnect.AddonPage
