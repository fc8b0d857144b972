import DatumConnect.Inspector.Capture
/-!
# Replays

A request that passes through the inspector is captured, and a captured request can be sent again
to the tunnel's real target.
-/

namespace DatumConnect.Inspector

open DatumConnect.Lib

-- Which texts are a path with a query, and which are a method.
variable (validPath validMethod : String → Bool)

/-- A request, and how its body has been polled when it is captured. -/
structure Request (E : Type) where
  method : String
  methodValid : validMethod method = true
  pathAndQuery : Option { path : String // validPath path = true }
  headers : HeaderMap
  body : Body E
  schedule : List Bool

/-- What comes of a request that has been forwarded, but for its own part of the exchange. -/
structure Forwarded (E : Type) where
  id : String
  timestampUnixMs : Nat
  response : Option (UInt16 × Message E)

/-- A request as it is sent. -/
structure Sent where
  authority : String
  method : String
  path : String
  headers : HeaderMap
  body : Bytes
  deriving DecidableEq, Repr

inductive ReplayError where
  | truncated
  | notReplayable (path : String)
  | badRequest
  deriving DecidableEq, Repr

def host : HeaderName := ⟨"host", by decide⟩

def connection : HeaderName := ⟨"connection", by decide⟩

/-! ## The code -/

/-- `HeaderValue::from_str` -/
def fromStr (text : String) : Option Bytes :=
  if text.toList.all fun c => visibleAscii c.toNat then
    some (text.toList.map fun c => UInt8.ofNat c.toNat)
  else none

/-- `HeaderMap::insert` -/
def insertHeader (name : HeaderName) (value : Bytes) : HeaderMap → HeaderMap
  | [] => [(name, value)]
  | (other, v) :: rest =>
      if other = name then (name, value) :: rest.filter fun (other, _) => other ≠ name
      else (other, v) :: insertHeader name value rest

def setHostHeader (headers : HeaderMap) (targetAuthority : String) : HeaderMap :=
  match fromStr targetAuthority with
  | some value => insertHeader host value headers
  | none => headers

def isUpgradeRequest (headers : HeaderMap) : Bool :=
  ((headers.find? fun h => h.1 = connection).bind fun h => toStr h.2).any fun v =>
    (v.toList.map Char.toLower).tails.any fun rest => "upgrade".toList.isPrefixOf rest

variable {validPath validMethod} {E : Type}

/-- The exchange that `proxy_handler` records; there is none of an upgrade, or where no address can
be made of the real target and the path. -/
def proxyHandler (request : Request validPath validMethod E) (forwarded : Forwarded E) :
    Option CapturedExchange :=
  match request.pathAndQuery with
  | none => none
  | some path =>
      if isUpgradeRequest request.headers then none
      else
        some (Transfer.exchange {
          id := forwarded.id
          timestampUnixMs := forwarded.timestampUnixMs
          method := request.method
          path := path.1
          request := { headers := request.headers, body := request.body, schedule := request.schedule }
          response := forwarded.response })

/-- Headers that describe the length of a body. -/
def HeaderName.isFraming (name : HeaderName) : Bool :=
  name.text = "content-length" || name.text = "transfer-encoding"

/-- The headers of a replay.  The values of one name come together, so that one more is the last. -/
def replayHeaders : List (HeaderName × String) → Option HeaderMap
  | [] => some []
  | (name, text) :: rest =>
      if name.isFraming then replayHeaders rest
      else (fromStr text).bind fun value => (replayHeaders rest).map fun more => (name, value) :: more

variable (validPath validMethod) in
/-- `replay_traffic_exchange`, up to the request it sends. -/
def replayTrafficExchange (targetAuthority : String) (exchange : CapturedExchange) :
    Except ReplayError Sent :=
  if exchange.request.bodyTruncated then .error .truncated
  else if !validPath exchange.path then .error (.notReplayable exchange.path)
  else if !validMethod exchange.method then .error .badRequest
  else
    match replayHeaders exchange.request.headers with
    | none => .error .badRequest
    | some headers =>
        .ok {
          authority := targetAuthority
          method := exchange.method
          path := exchange.path
          headers := setHostHeader headers targetAuthority
          body := Utf8.bytes exchange.request.body }

/-! ## What a replay repeats -/

/-- A header that a replay has to repeat. -/
def HeaderName.isKept (name : HeaderName) : Bool :=
  name ≠ host && !name.isFraming && !name.isSensitive

def kept (headers : HeaderMap) : HeaderMap := headers.filter fun h => h.1.isKept

structure Repeats (request : Request validPath validMethod E) (targetAuthority : String)
    (sent : Sent) : Prop where
  authority : sent.authority = targetAuthority
  method : sent.method = request.method
  path : some sent.path = request.pathAndQuery.map Subtype.val
  body : sent.body = dataOf request.body.frames
  headers : kept sent.headers = kept request.headers
  /-- No placeholder is sent for a credential. -/
  secrets : ∀ name value, (name, value) ∈ sent.headers → name.isSensitive = true →
    some value ≠ fromStr redacted

/-- The bytes of the body that had passed when the request was captured. -/
def Request.passed (request : Request validPath validMethod E) : Bytes :=
  dataOf (framesOf (polls Body.pollFrame request.body request.schedule).1)

/-- What had passed of the body, read as UTF-8 with U+FFFD where it is none, is the body. -/
def Request.ReadsBack (request : Request validPath validMethod E) : Prop :=
  Utf8.bytes (Utf8.lossy request.passed) = dataOf request.body.frames

instance (request : Request validPath validMethod E) : Decidable request.ReadsBack := by
  unfold Request.ReadsBack
  infer_instance

/-! ## Values of headers -/

theorem toNat_ofNat_byte (b : UInt8) : (Char.ofNat b.toNat).toNat = b.toNat := by
  have hlt : b.toNat < 256 := b.toNat_lt
  have hvalid : b.toNat.isValidChar := Or.inl (by omega)
  rw [Char.toNat, Char.ofNat, dif_pos hvalid]
  rfl

theorem fromStr_of_toStr {value : Bytes} {text : String} (h : toStr value = some text) :
    fromStr text = some value := by
  unfold toStr at h
  split at h
  · rename_i hall
    obtain rfl := Option.some.inj h
    rw [List.all_eq_true] at hall
    rw [fromStr, String.toList_ofList, if_pos]
    · congr 1
      rw [List.map_map]
      refine (List.map_congr_left fun b hb => ?_).trans (List.map_id value)
      rw [Function.comp, toNat_ofNat_byte b, UInt8.ofNat_toNat]
      rfl
    · rw [List.all_map, List.all_eq_true]
      intro b hb
      rw [Function.comp, toNat_ofNat_byte b]
      exact hall b hb
  · cases h

/-- What is read from a text is visible. -/
theorem toStr_of_fromStr {value : Bytes} {text : String} (h : fromStr text = some value) :
    (toStr value).isSome = true := by
  unfold fromStr at h
  split at h
  · rename_i hall
    obtain rfl := Option.some.inj h
    rw [toStr, if_pos]
    · rfl
    · rw [List.all_map, List.all_eq_true]
      intro c hc
      have hvisible := List.all_eq_true.mp hall c hc
      have hlt : c.toNat < 256 := by
        unfold visibleAscii at hvisible
        simp only [Bool.or_eq_true, Bool.and_eq_true, decide_eq_true_eq] at hvisible
        omega
      rw [Function.comp, UInt8.toNat_ofNat_of_lt' hlt]
      exact hvisible
  · cases h

/-! ## The headers of a replay -/

/-- What a replay sends as the value of a header. -/
def replayed (h : HeaderName × Bytes) : Bytes :=
  if h.1.isSensitive then (fromStr redacted).getD []
  else if (toStr h.2).isSome then h.2 else (fromStr "<binary>").getD []

theorem fromStr_redacted : fromStr redacted = some ((fromStr redacted).getD []) := by decide

theorem fromStr_binary : fromStr "<binary>" = some ((fromStr "<binary>").getD []) := by decide

theorem fromStr_captured (name : HeaderName) (value : Bytes) :
    fromStr (if name.isSensitive then redacted else (toStr value).getD "<binary>") =
      some (replayed (name, value)) := by
  unfold replayed
  change _ = some (if name.isSensitive = true then _ else _)
  split
  · exact fromStr_redacted
  · cases htext : toStr value with
    | none => exact fromStr_binary
    | some text => exact fromStr_of_toStr htext

/-- A replay can always be made of what has been captured. -/
theorem replayHeaders_headerPairs (headers : HeaderMap) :
    replayHeaders (headerPairs headers) =
      some ((headers.filter fun h => !h.1.isFraming).map fun h => (h.1, replayed h)) := by
  induction headers with
  | nil => rfl
  | cons h headers ih =>
      obtain ⟨name, value⟩ := h
      change (if name.isFraming then replayHeaders (headerPairs headers)
        else (fromStr (if name.isSensitive then redacted else (toStr value).getD "<binary>")).bind
          fun value => (replayHeaders (headerPairs headers)).map fun more => (name, value) :: more) =
        _
      rw [fromStr_captured, ih, List.filter_cons]
      cases name.isFraming with
      | true => rfl
      | false => rfl

theorem kept_insertHost (value : Bytes) (headers : HeaderMap) :
    kept (insertHeader host value headers) = kept headers := by
  have hhost : host.isKept = false := by decide
  induction headers with
  | nil => simp [kept, insertHeader, hhost]
  | cons h headers ih =>
      obtain ⟨name, v⟩ := h
      rw [insertHeader]
      split
      · rename_i hname
        subst hname
        have hdrop (value : Bytes) (rest : HeaderMap) : kept ((host, value) :: rest) = kept rest :=
          List.filter_cons_of_neg (ne_of_eq_of_ne hhost Bool.false_ne_true)
        rw [hdrop, hdrop, kept, kept, List.filter_filter]
        refine List.filter_congr fun h _ => ?_
        cases hkept : h.1.isKept with
        | false => rfl
        | true =>
            refine decide_eq_true fun heq => ?_
            rw [heq, hhost] at hkept
            cases hkept
      · rw [kept, kept, List.filter_cons, List.filter_cons]
        unfold kept at ih
        rw [ih]

theorem kept_setHostHeader (headers : HeaderMap) (targetAuthority : String) :
    kept (setHostHeader headers targetAuthority) = kept headers := by
  unfold setHostHeader
  split
  · exact kept_insertHost _ headers
  · rfl

/-- Only the value of the host is set. -/
theorem mem_insertHost {name : HeaderName} {value v : Bytes} {headers : HeaderMap}
    (hname : name ≠ host) :
    (name, v) ∈ insertHeader host value headers ↔ (name, v) ∈ headers := by
  induction headers with
  | nil =>
      rw [insertHeader, List.mem_singleton, Prod.mk.injEq]
      exact ⟨fun h => absurd h.1 hname, nofun⟩
  | cons h headers ih =>
      obtain ⟨other, w⟩ := h
      rw [insertHeader]
      split
      · rename_i hother
        subst hother
        rw [List.mem_cons, List.mem_cons, Prod.mk.injEq, Prod.mk.injEq, List.mem_filter]
        refine ⟨?_, ?_⟩
        · rintro (⟨hhost, _⟩ | ⟨hmem, _⟩)
          · exact absurd hhost hname
          · exact .inr hmem
        · rintro (⟨hhost, _⟩ | hmem)
          · exact absurd hhost hname
          · exact .inr ⟨hmem, decide_eq_true hname⟩
      · rw [List.mem_cons, List.mem_cons, ih]

theorem mem_setHostHeader {name : HeaderName} {v : Bytes} {headers : HeaderMap}
    {targetAuthority : String} (hname : name ≠ host) :
    (name, v) ∈ setHostHeader headers targetAuthority ↔ (name, v) ∈ headers := by
  unfold setHostHeader
  split
  · exact mem_insertHost hname
  · exact Iff.rfl

theorem sensitive_ne_host {name : HeaderName} (h : name.isSensitive = true) : name ≠ host := by
  rintro rfl
  exact absurd h (by decide)

theorem sensitive_not_framing {name : HeaderName} (h : name.isSensitive = true) :
    name.isFraming = false := by
  have hmem : name.text ∈ sensitiveHeaders := of_decide_eq_true h
  have hnone : ∀ text ∈ sensitiveHeaders,
      (text = "content-length" || text = "transfer-encoding" : Bool) = false := by
    decide
  exact hnone _ hmem

/-- The headers that are kept are sent as they were if each of their values can be read. -/
theorem kept_replayed (headers : HeaderMap) :
    kept ((headers.filter fun h => !h.1.isFraming).map fun h => (h.1, replayed h)) = kept headers ↔
      ∀ h ∈ headers, h.1.isKept = true → (toStr h.2).isSome = true := by
  have hfilter : kept ((headers.filter fun h => !h.1.isFraming).map fun h => (h.1, replayed h)) =
      (kept headers).map fun h => (h.1, replayed h) := by
    rw [kept, List.filter_map, kept, List.filter_filter]
    congr 1
    refine List.filter_congr fun h _ => ?_
    change (h.1.isKept && !h.1.isFraming) = h.1.isKept
    cases hkept : h.1.isKept with
    | false => rfl
    | true =>
        rw [HeaderName.isKept, Bool.and_eq_true, Bool.and_eq_true] at hkept
        exact hkept.1.2
  have hvalue {h : HeaderName × Bytes} (hkept : h.1.isKept = true) :
      (h.1, replayed h) = h ↔ (toStr h.2).isSome = true := by
    rw [HeaderName.isKept, Bool.and_eq_true, Bool.not_eq_true'] at hkept
    obtain ⟨name, value⟩ := h
    rw [Prod.mk.injEq, replayed, hkept.2, and_iff_right rfl]
    change (if (toStr value).isSome = true then value else _) = value ↔ (toStr value).isSome = true
    cases htext : toStr value with
    | some text => exact iff_of_true rfl rfl
    | none =>
        refine iff_of_false (fun heq => ?_) Bool.false_ne_true
        have hsome := toStr_of_fromStr (fromStr_binary.trans (congrArg some heq))
        rw [htext] at hsome
        cases hsome
  rw [hfilter]
  refine ⟨fun heq h hmem hkept => ?_, fun hall => ?_⟩
  · have hid : (kept headers).map (fun h => (h.1, replayed h)) = (kept headers).map id := by
      rw [heq, List.map_id]
    have hmem' : h ∈ kept headers := List.mem_filter.mpr ⟨hmem, hkept⟩
    exact (hvalue hkept).mp (List.map_inj_left.mp hid h hmem')
  · refine (List.map_congr_left fun h hmem => ?_).trans (List.map_id _)
    obtain ⟨hmem, hkept⟩ := List.mem_filter.mp hmem
    exact (hvalue hkept).mpr (hall h hmem hkept)

/-! ## Replays -/

/-- A captured request that was not marked as truncated is sent again as it was exactly if it
carries no credential, the values of its other headers are text, and its body reads back from what
was captured of it; which a body that was captured whole does exactly if it is UTF-8. -/
theorem replay_repeats_iff (request : Request validPath validMethod E) (forwarded : Forwarded E)
    (targetAuthority : String) {exchange : CapturedExchange}
    (hcaptured : proxyHandler request forwarded = some exchange)
    (hwhole : exchange.request.bodyTruncated = false) :
    ∃ sent, replayTrafficExchange validPath validMethod targetAuthority exchange = .ok sent ∧
      (Repeats request targetAuthority sent ↔
        (∀ h ∈ request.headers, h.1.isSensitive = false) ∧
          (∀ h ∈ request.headers, h.1.isKept = true → (toStr h.2).isSome = true) ∧
          request.ReadsBack) ∧
      (request.passed = dataOf request.body.frames →
        (request.ReadsBack ↔ Utf8.Valid (dataOf request.body.frames))) := by
  unfold proxyHandler at hcaptured
  split at hcaptured
  · cases hcaptured
  · rename_i path hpath
    split at hcaptured
    · cases hcaptured
    · obtain rfl := Option.some.inj hcaptured
      obtain ⟨hpolls, _, hsink⟩ := TeeBody.polls_eq
        { inner := request.body, onDone := true } request.schedule [] rfl
      -- The sink holds all that has passed.
      have hbuf : (Message.tee ⟨request.headers, request.body, request.schedule⟩).sink.buf =
          request.passed := by
        have hshort : ¬captureCapBytes < request.passed.length := by
          intro hlong
          have htruncated : (Message.tee ⟨request.headers, request.body, request.schedule⟩).sink.truncated =
              false := hwhole
          rw [Message.tee, hsink, hpolls] at htruncated
          exact absurd hlong (of_decide_eq_false htruncated)
        rw [Message.tee, hsink, hpolls]
        exact List.take_of_length_le (Nat.le_of_not_lt hshort)
      let headers : HeaderMap :=
        (request.headers.filter fun h => !h.1.isFraming).map fun h => (h.1, replayed h)
      have hheaders : replayHeaders (headerPairs request.headers) = some headers :=
        replayHeaders_headerPairs request.headers
      refine ⟨{
        authority := targetAuthority
        method := request.method
        path := path.1
        headers := setHostHeader headers targetAuthority
        body := Utf8.bytes (Utf8.lossy request.passed) }, ?_, ?_, ?_⟩
      · rw [replayTrafficExchange, hwhole]
        change (if false = true then _ else if (!validPath path.1) = true then _
          else if (!validMethod request.method) = true then _
          else match replayHeaders (headerPairs request.headers) with
            | none => _
            | some headers => _) = _
        rw [hheaders, path.2, request.methodValid]
        rw [← hbuf]
        rfl
      · refine ⟨fun h => ⟨fun header hmem => ?_, ?_, h.body⟩, ?_⟩
        · refine eq_false_of_ne_true fun hsensitive => ?_
          have hsent : (header.1, replayed header) ∈ setHostHeader headers targetAuthority := by
            rw [mem_setHostHeader (sensitive_ne_host hsensitive)]
            refine List.mem_map.mpr ⟨header, List.mem_filter.mpr ⟨hmem, ?_⟩, rfl⟩
            rw [sensitive_not_framing hsensitive]
            rfl
          refine h.secrets _ _ hsent hsensitive ?_
          rw [replayed, if_pos hsensitive]
          decide
        · have hkept := h.headers
          rw [kept_setHostHeader] at hkept
          exact (kept_replayed request.headers).mp hkept
        · rintro ⟨hsecrets, htext, hreads⟩
          refine ⟨rfl, rfl, ?_, hreads, ?_, ?_⟩
          · rw [hpath]
            rfl
          · rw [kept_setHostHeader]
            exact (kept_replayed request.headers).mpr htext
          · intro name value hmem hsensitive
            rw [mem_setHostHeader (sensitive_ne_host hsensitive)] at hmem
            obtain ⟨header, hmem, heq⟩ := List.mem_map.mp hmem
            have hname : header.1 = name := congrArg Prod.fst heq
            rw [← hname, hsecrets header (List.mem_of_mem_filter hmem)] at hsensitive
            cases hsensitive
      · intro hpassed
        rw [Request.ReadsBack, hpassed]
        exact Utf8.bytes_lossy_iff

/-- A request for `/api?x=1`, whose body is captured when so much of it has been polled. -/
def postRequest (headers : HeaderMap) (frames : List Frame) (schedule : List Bool) :
    Request (fun _ => true) (fun _ => true) Unit where
  method := "POST"
  methodValid := rfl
  pathAndQuery := some ⟨"/api?x=1", rfl⟩
  headers
  body := { frames }
  schedule

def unanswered : Forwarded Unit := { id := "ex-0", timestampUnixMs := 0, response := none }

def hostAndAccept : HeaderMap :=
  [(host, Utf8.bytes "web.example"), (⟨"accept", by decide⟩, Utf8.bytes "*/*")]

theorem replay_repeats_text :
    ∃ sent exchange,
      replayTrafficExchange (fun _ => true) (fun _ => true) "127.0.0.1:8123" exchange = .ok sent ∧
        Repeats (postRequest hostAndAccept [.data [0x68], .data [0x69]] [true, true, true])
          "127.0.0.1:8123" sent := by
  obtain ⟨exchange, hcaptured⟩ := Option.isSome_iff_exists.mp (show
    (proxyHandler (postRequest hostAndAccept [.data [0x68], .data [0x69]] [true, true, true])
      unanswered).isSome = true by decide +kernel)
  have hwhole : (proxyHandler (postRequest hostAndAccept [.data [0x68], .data [0x69]]
      [true, true, true]) unanswered).map (fun e => e.request.bodyTruncated) = some false := by
    decide +kernel
  rw [hcaptured] at hwhole
  obtain ⟨sent, hsent, hiff, _⟩ :=
    replay_repeats_iff _ unanswered "127.0.0.1:8123" hcaptured (Option.some.inj hwhole)
  exact ⟨sent, exchange, hsent, hiff.mpr ⟨by decide, by decide, by decide +kernel⟩⟩

/-- What a replay of the request sends, its host apart. -/
def replayOf (request : Request (fun _ => true) (fun _ => true) Unit) :
    Option (List (String × Bytes) × Bytes) :=
  (proxyHandler request unanswered).bind fun exchange =>
    match replayTrafficExchange (fun _ => true) (fun _ => true) "127.0.0.1:8123" exchange with
    | .ok sent => some ((sent.headers.filter fun h => h.1 ≠ host).map fun h => (h.1.text, h.2), sent.body)
    | .error _ => none

/-- A byte that is no UTF-8 becomes three others; a credential and a value that is no text are sent
as placeholders; and of a body that was not read to its end the rest is missing. -/
theorem replay_differs :
    replayOf (postRequest [] [.data [0xff]] [true, true]) = some ([], [0xef, 0xbf, 0xbd]) ∧
    replayOf (postRequest [(⟨"authorization", by decide⟩, Utf8.bytes "Bearer x")] [] [true]) =
      some ([("authorization", Utf8.bytes "[redacted]")], []) ∧
    replayOf (postRequest [(⟨"x-name", by decide⟩, [0xc3, 0xa9])] [] [true]) =
      some ([("x-name", Utf8.bytes "<binary>")], []) ∧
    replayOf (postRequest [] [.data [0x68], .data [0x69]] [true]) = some ([], [0x68]) := by
  refine ⟨?_, ?_, ?_, ?_⟩ <;> decide +kernel

end DatumConnect.Inspector
