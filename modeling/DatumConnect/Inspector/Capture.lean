import DatumConnect.Lib.Utf8
import Mathlib.Data.List.Forall2
import Mathlib.Data.List.Induction
/-!
# What the inspector captures

A body passes through `TeeBody`, which copies its first bytes into a sink.  When the bodies of a
request and of its response are through, what has been captured of them becomes an exchange, and
the newest exchanges are kept.
-/

namespace DatumConnect.Inspector

open DatumConnect.Lib

abbrev Bytes := List UInt8

/-- `CAPTURE_CAP_BYTES` -/
def captureCapBytes : Nat := 64 * 1024

/-- `MAX_EXCHANGES_PER_TUNNEL` -/
def maxExchangesPerTunnel : Nat := 50

/-! ## Headers -/

/-- A header's name is held in lower case. -/
structure HeaderName where
  text : String
  lower : text.toList.all (fun c => !c.isUpper) = true
  deriving DecidableEq, Repr

/-- Names and values in the order of iteration. -/
abbrev HeaderMap := List (HeaderName × Bytes)

def visibleAscii (n : Nat) : Bool := 32 ≤ n && n < 127 || n = 9

/-- `HeaderValue::to_str` -/
def toStr (value : Bytes) : Option String :=
  if value.all fun b => visibleAscii b.toNat then
    some (String.ofList (value.map fun b => Char.ofNat b.toNat))
  else none

/-- `SENSITIVE_HEADERS` -/
def sensitiveHeaders : List String :=
  ["authorization", "proxy-authorization", "cookie", "set-cookie", "x-api-key", "x-auth-token"]

def redacted : String := "[redacted]"

def HeaderName.isSensitive (name : HeaderName) : Bool := name.text ∈ sensitiveHeaders

def headerPairs (headers : HeaderMap) : List (HeaderName × String) :=
  headers.map fun (name, value) =>
    (name, if name.isSensitive then redacted else (toStr value).getD "<binary>")

/-! ## The sink -/

structure CaptureSink where
  buf : Bytes := []
  truncated : Bool := false
  deriving DecidableEq, Repr

structure CapturedMessage where
  headers : List (HeaderName × String)
  body : String
  bodyTruncated : Bool
  deriving DecidableEq, Repr

namespace CaptureSink

def push (sink : CaptureSink) (data : Bytes) : CaptureSink :=
  if sink.truncated then sink
  else
    let remaining := captureCapBytes - sink.buf.length
    let take := min remaining data.length
    { buf := sink.buf ++ data.take take, truncated := take < data.length }

def intoMessage (sink : CaptureSink) (headers : List (HeaderName × String)) : CapturedMessage where
  headers
  body := Utf8.lossy sink.buf
  bodyTruncated := sink.truncated

end CaptureSink

/-! ## Bodies -/

inductive Frame where
  | data (bytes : Bytes)
  | trailers (headers : HeaderMap)
  deriving DecidableEq, Repr

def Frame.dataRef : Frame → Option Bytes
  | .data bytes => some bytes
  | .trailers _ => none

/-- What `poll_frame` comes to. -/
inductive Poll (E : Type) where
  | pending
  | frame (frame : Frame)
  | error (e : E)
  | done
  deriving DecidableEq, Repr

/-- A body that yields its frames and then ends, with an error or without. -/
structure Body (E : Type) where
  frames : List Frame
  error : Option E := none
  deriving DecidableEq, Repr

variable {E : Type}

/-- The body is `ready` or not. -/
def Body.pollFrame (body : Body E) (ready : Bool) : Poll E × Body E :=
  match ready, body.frames, body.error with
  | false, _, _ => (.pending, body)
  | true, frame :: frames, _ => (.frame frame, { body with frames })
  | true, [], some e => (.error e, { body with error := none })
  | true, [], none => (.done, body)

structure TeeBody (E : Type) where
  inner : Body E
  sink : CaptureSink := {}
  /-- There is a sender, and it has not been used. -/
  onDone : Bool
  /-- How often it has been sent on. -/
  sent : Nat := 0
  deriving DecidableEq, Repr

namespace TeeBody

/-- `on_done.take()`, and what is taken sends. -/
def signal (tee : TeeBody E) : TeeBody E :=
  if tee.onDone then { tee with onDone := false, sent := tee.sent + 1 } else tee

def capture (tee : TeeBody E) (frame : Frame) : TeeBody E :=
  match frame.dataRef with
  | some data => { tee with sink := tee.sink.push data }
  | none => tee

def pollFrame (tee : TeeBody E) (ready : Bool) : Poll E × TeeBody E :=
  let (poll, inner) := tee.inner.pollFrame ready
  let tee := { tee with inner }
  match poll with
  | .frame frame => (poll, tee.capture frame)
  | .done | .error _ => (poll, tee.signal)
  | .pending => (poll, tee)

end TeeBody

/-- What one poll after the other comes to, and what is left. -/
def polls {σ : Type} (pollFrame : σ → Bool → Poll E × σ) : σ → List Bool → List (Poll E) × σ
  | s, [] => ([], s)
  | s, ready :: schedule =>
      let (poll, s) := pollFrame s ready
      let (more, s) := polls pollFrame s schedule
      (poll :: more, s)

/-! ## Exchanges -/

structure CapturedExchange where
  id : String
  timestampUnixMs : Nat
  method : String
  path : String
  request : CapturedMessage
  responseStatus : Option UInt16
  response : Option CapturedMessage
  deriving DecidableEq, Repr

/-- A request or a response, and how its body has been polled when it is captured. -/
structure Message (E : Type) where
  headers : HeaderMap
  body : Body E
  schedule : List Bool

/-- What passes through `proxy_handler`; there is no response where the real target has given
none. -/
structure Transfer (E : Type) where
  id : String
  timestampUnixMs : Nat
  method : String
  path : String
  request : Message E
  response : Option (UInt16 × Message E)

/-- The body with its sink, when the message is captured. -/
def Message.tee (message : Message E) : TeeBody E :=
  (polls TeeBody.pollFrame { inner := message.body, onDone := true } message.schedule).2

def Message.capture (message : Message E) : CapturedMessage :=
  message.tee.sink.intoMessage (headerPairs message.headers)

def Transfer.exchange (t : Transfer E) : CapturedExchange where
  id := t.id
  timestampUnixMs := t.timestampUnixMs
  method := t.method
  path := t.path
  request := t.request.capture
  responseStatus := t.response.map (·.1)
  response := t.response.map (·.2.capture)

/-- `push_front`, then `truncate`. -/
def recordExchange (exchanges : List CapturedExchange) (t : Transfer E) : List CapturedExchange :=
  (t.exchange :: exchanges).take maxExchangesPerTunnel

/-! ## The sink holds the first bytes -/

/-- The sink of a body of which so much has passed. -/
def CaptureSink.of (data : Bytes) : CaptureSink where
  buf := data.take captureCapBytes
  truncated := captureCapBytes < data.length

/-- However the bytes are split, the sink is that of all of them. -/
theorem push_of (before data : Bytes) :
    (CaptureSink.of before).push data = CaptureSink.of (before ++ data) := by
  rcases Nat.lt_or_ge captureCapBytes before.length with hlt | hle
  · -- Nothing is copied any more.
    have htruncated : (CaptureSink.of before).truncated = true := decide_eq_true hlt
    have hbuf : (before ++ data).take captureCapBytes = before.take captureCapBytes :=
      List.take_append_of_le_length (Nat.le_of_lt hlt)
    have hlength : captureCapBytes < (before ++ data).length := by
      rw [List.length_append]
      omega
    rw [CaptureSink.push, if_pos htruncated, CaptureSink.of, CaptureSink.of, hbuf]
    simp only [hlt, hlength]
  · have htruncated : ¬(CaptureSink.of before).truncated = true := by
      rw [CaptureSink.of, decide_eq_true_iff]
      omega
    have hbuf : before.take captureCapBytes = before := List.take_of_length_le hle
    rw [CaptureSink.push, if_neg htruncated]
    simp only [CaptureSink.of, hbuf, CaptureSink.mk.injEq, decide_eq_decide]
    refine ⟨?_, ?_⟩
    · rw [List.take_append, hbuf]
      congr 1
      rcases Nat.le_total (captureCapBytes - before.length) data.length with h | h
      · rw [Nat.min_eq_left h]
      · rw [Nat.min_eq_right h, List.take_length, List.take_of_length_le h]
    · rw [List.length_append]
      omega

/-! ## What a body yields -/

def Poll.frame? : Poll E → Option Frame
  | .frame f => some f
  | _ => none

def Poll.isEnd : Poll E → Bool
  | .done | .error _ => true
  | _ => false

/-- The bytes of the data frames. -/
def dataOf (frames : List Frame) : Bytes := (frames.filterMap Frame.dataRef).flatten

/-- The frames among what polling has come to. -/
def framesOf (results : List (Poll E)) : List Frame := results.filterMap Poll.frame?

theorem dataOf_cons (frame : Frame) (frames : List Frame) :
    dataOf (frame :: frames) = (frame.dataRef.getD []) ++ dataOf frames := by
  rw [dataOf, dataOf, List.filterMap_cons]
  cases frame.dataRef with
  | none => rfl
  | some data => rfl

/-- A body yields its frames in order, and ends only once it has yielded all of them. -/
theorem framesOf_polls (body : Body E) (schedule : List Bool) :
    body.frames = framesOf (polls Body.pollFrame body schedule).1 ++
        (polls Body.pollFrame body schedule).2.frames ∧
      ((polls Body.pollFrame body schedule).1.any Poll.isEnd = true →
        (polls Body.pollFrame body schedule).2.frames = []) := by
  induction schedule generalizing body with
  | nil => exact ⟨rfl, nofun⟩
  | cons ready schedule ih =>
      obtain ⟨frames, error⟩ := body
      cases ready with
      | false => exact ih ⟨frames, error⟩
      | true =>
          cases frames with
          | cons frame frames =>
              obtain ⟨hframes, hend⟩ := ih ⟨frames, error⟩
              exact ⟨congrArg (frame :: ·) hframes, hend⟩
          | nil =>
              have hnil : (polls Body.pollFrame (⟨[], none⟩ : Body E) schedule).2.frames = [] :=
                (List.append_eq_nil_iff.mp (ih ⟨[], none⟩).1.symm).2
              cases error with
              | some e => exact ⟨(ih ⟨[], none⟩).1, fun _ => hnil⟩
              | none => exact ⟨(ih ⟨[], none⟩).1, fun _ => hnil⟩

namespace TeeBody

/-- What a poll makes of the sink and the sender. -/
theorem pollFrame_eq (tee : TeeBody E) (ready : Bool) :
    (tee.pollFrame ready).1 = (tee.inner.pollFrame ready).1 ∧
      (tee.pollFrame ready).2.inner = (tee.inner.pollFrame ready).2 ∧
      (tee.pollFrame ready).2.sink =
        ((tee.inner.pollFrame ready).1.frame?.bind Frame.dataRef).elim tee.sink tee.sink.push := by
  unfold pollFrame
  rcases tee.inner.pollFrame ready with ⟨poll, inner⟩
  cases poll with
  | pending => exact ⟨rfl, rfl, rfl⟩
  | frame frame => cases frame <;> exact ⟨rfl, rfl, rfl⟩
  | error e =>
      refine ⟨rfl, ?_, ?_⟩ <;> (simp only [signal]; split <;> rfl)
  | done =>
      refine ⟨rfl, ?_, ?_⟩ <;> (simp only [signal]; split <;> rfl)

/-- Polling yields what polling the inner body yields, and the sink is that of the bytes so far. -/
theorem polls_eq (tee : TeeBody E) (schedule : List Bool) (before : Bytes)
    (hsink : tee.sink = CaptureSink.of before) :
    (polls pollFrame tee schedule).1 = (polls Body.pollFrame tee.inner schedule).1 ∧
      (polls pollFrame tee schedule).2.inner = (polls Body.pollFrame tee.inner schedule).2 ∧
      (polls pollFrame tee schedule).2.sink =
        CaptureSink.of (before ++ dataOf (framesOf (polls pollFrame tee schedule).1)) := by
  induction schedule generalizing tee before with
  | nil => exact ⟨rfl, rfl, hsink.trans (congrArg _ (List.append_nil before).symm)⟩
  | cons ready schedule ih =>
      obtain ⟨hpoll, hinner, hsink'⟩ := tee.pollFrame_eq ready
      have hnext : (tee.pollFrame ready).2.sink = CaptureSink.of
          (before ++ ((tee.inner.pollFrame ready).1.frame?.bind Frame.dataRef).getD []) := by
        rw [hsink', hsink]
        cases (tee.inner.pollFrame ready).1.frame?.bind Frame.dataRef with
        | none => exact congrArg CaptureSink.of (List.append_nil before).symm
        | some data => exact push_of before data
      obtain ⟨hmore, hleft, hfinal⟩ := ih (tee.pollFrame ready).2 _ hnext
      refine ⟨?_, ?_, ?_⟩
      · change (tee.pollFrame ready).1 :: (polls pollFrame (tee.pollFrame ready).2 schedule).1 = _
        rw [hpoll, hmore, hinner]
        rfl
      · change (polls pollFrame (tee.pollFrame ready).2 schedule).2.inner = _
        rw [hleft, hinner]
        rfl
      · change (polls pollFrame (tee.pollFrame ready).2 schedule).2.sink = _
        rw [hfinal]
        change _ = CaptureSink.of (before ++ dataOf (framesOf
          ((tee.pollFrame ready).1 :: (polls pollFrame (tee.pollFrame ready).2 schedule).1)))
        rw [hpoll, List.append_assoc]
        refine congrArg (fun data => CaptureSink.of (before ++ data)) ?_
        rw [framesOf, framesOf, List.filterMap_cons]
        cases (tee.inner.pollFrame ready).1.frame? with
        | none => rfl
        | some frame => exact (dataOf_cons frame _).symm

/-- The sender is used at most once, and not before the body ends. -/
theorem sent_polls (tee : TeeBody E) (schedule : List Bool) :
    (polls pollFrame tee schedule).2.sent ≤ tee.sent + tee.onDone.toNat ∧
      (tee.sent < (polls pollFrame tee schedule).2.sent →
        (polls pollFrame tee schedule).1.any Poll.isEnd = true) := by
  induction schedule generalizing tee with
  | nil => exact ⟨Nat.le_add_right _ _, fun h => absurd h (Nat.lt_irrefl _)⟩
  | cons ready schedule ih =>
      obtain ⟨hle, hend⟩ := ih (tee.pollFrame ready).2
      change (polls pollFrame (tee.pollFrame ready).2 schedule).2.sent ≤ _ ∧
        (_ < (polls pollFrame (tee.pollFrame ready).2 schedule).2.sent →
          ((tee.pollFrame ready).1.isEnd || _) = true)
      have hstep : (tee.pollFrame ready).1.isEnd = false ∧
            (tee.pollFrame ready).2.sent = tee.sent ∧
            (tee.pollFrame ready).2.onDone = tee.onDone ∨
          (tee.pollFrame ready).1.isEnd = true ∧
            (tee.pollFrame ready).2.sent = tee.sent + tee.onDone.toNat ∧
            (tee.pollFrame ready).2.onDone = false := by
        unfold pollFrame
        rcases tee.inner.pollFrame ready with ⟨poll, inner⟩
        have hsignal : ({ tee with inner } : TeeBody E).signal.sent = tee.sent + tee.onDone.toNat ∧
            ({ tee with inner } : TeeBody E).signal.onDone = false := by
          unfold signal
          cases tee.onDone with
          | true => exact ⟨rfl, rfl⟩
          | false => exact ⟨rfl, rfl⟩
        cases poll with
        | pending => exact .inl ⟨rfl, rfl, rfl⟩
        | frame frame => cases frame <;> exact .inl ⟨rfl, rfl, rfl⟩
        | error e => exact .inr ⟨rfl, hsignal⟩
        | done => exact .inr ⟨rfl, hsignal⟩
      rcases hstep with ⟨hmore, hsent, hdone⟩ | ⟨hover, hsent, hdone⟩
      · rw [hsent, hdone] at hle
        rw [hsent] at hend
        refine ⟨hle, fun h => ?_⟩
        rw [hmore, Bool.false_or]
        exact hend h
      · rw [hsent, hdone] at hle
        refine ⟨hle, fun _ => ?_⟩
        rw [hover, Bool.true_or]

end TeeBody

/-! ## The ring -/

/-- The newest exchanges, newest first. -/
theorem record_all (transfers : List (Transfer E)) :
    transfers.foldl recordExchange [] =
      (transfers.reverse.map Transfer.exchange).take maxExchangesPerTunnel := by
  induction transfers using List.reverseRec with
  | nil => rfl
  | append_singleton transfers t ih =>
      rw [List.foldl_append, ih, List.reverse_append, List.map_append]
      change (t.exchange :: ((transfers.reverse.map Transfer.exchange).take
        maxExchangesPerTunnel)).take maxExchangesPerTunnel = _
      rw [List.take_cons (by decide), List.take_take]
      exact (List.take_cons (by decide)).symm

/-- Two messages that differ in the values of sensitive headers only. -/
structure Message.SameButSecrets (m m' : Message E) : Prop where
  headers : List.Forall₂ (fun h h' => h.1 = h'.1 ∧ (h.1.isSensitive = true ∨ h.2 = h'.2))
    m.headers m'.headers
  body : m.body = m'.body
  schedule : m.schedule = m'.schedule

/-- Two transfers that differ in the values of sensitive headers only. -/
structure Transfer.SameButSecrets (t t' : Transfer E) : Prop where
  id : t.id = t'.id
  timestamp : t.timestampUnixMs = t'.timestampUnixMs
  method : t.method = t'.method
  path : t.path = t'.path
  request : t.request.SameButSecrets t'.request
  response : Option.Rel (fun r r' => r.1 = r'.1 ∧ r.2.SameButSecrets r'.2) t.response t'.response

theorem headerPairs_secret {headers headers' : HeaderMap}
    (h : List.Forall₂ (fun h h' => h.1 = h'.1 ∧ (h.1.isSensitive = true ∨ h.2 = h'.2))
      headers headers') : headerPairs headers = headerPairs headers' := by
  induction h with
  | nil => rfl
  | @cons header header' headers headers' hheader _ ih =>
      obtain ⟨name, value⟩ := header
      obtain ⟨name', value'⟩ := header'
      obtain ⟨rfl, hvalue⟩ := hheader
      rw [headerPairs, List.map_cons, headerPairs, List.map_cons]
      refine congrArg₂ List.cons ?_ ih
      rcases hvalue with hsensitive | hsame
      · simp only [if_pos hsensitive]
      · rw [show value = value' from hsame]

theorem Message.SameButSecrets.capture {m m' : Message E} (h : m.SameButSecrets m') :
    m.capture = m'.capture := by
  rw [Message.capture, Message.capture, Message.tee, Message.tee, h.body, h.schedule,
    headerPairs_secret h.headers]

theorem Transfer.SameButSecrets.exchange {t t' : Transfer E} (h : t.SameButSecrets t') :
    t.exchange = t'.exchange := by
  have hresponse : t.response.map (·.1) = t'.response.map (·.1) ∧
      t.response.map (·.2.capture) = t'.response.map (·.2.capture) := by
    have hrel := h.response
    generalize t.response = r at hrel
    generalize t'.response = r' at hrel
    cases hrel with
    | none => exact ⟨rfl, rfl⟩
    | some hsame => exact ⟨congrArg some hsame.1, congrArg some hsame.2.capture⟩
  rw [Transfer.exchange, Transfer.exchange, h.id, h.timestamp, h.method, h.path, h.request.capture,
    hresponse.1, hresponse.2]

theorem headerPairs_redacted {headers : HeaderMap} {pair : HeaderName × String}
    (h : pair ∈ headerPairs headers) (hsensitive : pair.1.isSensitive = true) :
    pair.2 = redacted := by
  obtain ⟨header, _, rfl⟩ := List.mem_map.mp h
  exact if_pos hsensitive

/-! ### What an exchange says of its transfer -/

/-- How a header is shown. -/
structure ShownAs (header : HeaderName × Bytes) (pair : HeaderName × String) : Prop where
  name : pair.1 = header.1
  secret : header.1.isSensitive = true → pair.2 = redacted
  text : header.1.isSensitive = false → ∀ text, toStr header.2 = some text → pair.2 = text
  binary : header.1.isSensitive = false → toStr header.2 = none → pair.2 = "<binary>"

theorem shownAs_headerPairs (headers : HeaderMap) :
    List.Forall₂ ShownAs headers (headerPairs headers) := by
  induction headers with
  | nil => exact .nil
  | cons header headers ih =>
      refine .cons ⟨rfl, fun h => if_pos h, fun h text htext => ?_, fun h hnone => ?_⟩ ih
      · simp [h, htext]
      · simp [h, hnone]

/-- The bytes of a body that have passed when the message is captured. -/
def Message.passed (message : Message E) : Bytes :=
  dataOf (framesOf (polls Body.pollFrame message.body message.schedule).1)

/-- The body has been polled to its end. -/
def Message.Over (message : Message E) : Prop :=
  (polls Body.pollFrame message.body message.schedule).1.any Poll.isEnd = true

/-- The headers and the first bytes of what has passed, which is the whole body once it is over. -/
structure Message.CapturedAs (message : Message E) (captured : CapturedMessage) : Prop where
  headers : List.Forall₂ ShownAs message.headers captured.headers
  body : captured.body = Utf8.lossy (message.passed.take captureCapBytes)
  truncated : captured.bodyTruncated = true ↔ captureCapBytes < message.passed.length
  whole : message.Over → message.passed = dataOf message.body.frames

structure Transfer.RecordedAs (t : Transfer E) (e : CapturedExchange) : Prop where
  id : e.id = t.id
  timestamp : e.timestampUnixMs = t.timestampUnixMs
  method : e.method = t.method
  path : e.path = t.path
  request : t.request.CapturedAs e.request
  status : e.responseStatus = t.response.map (·.1)
  response : Option.Rel (fun r captured => r.2.CapturedAs captured) t.response e.response

theorem Message.capturedAs (message : Message E) : message.CapturedAs message.capture := by
  obtain ⟨hpolls, _, hsink⟩ :=
    TeeBody.polls_eq { inner := message.body, onDone := true } message.schedule [] rfl
  have htee : message.tee.sink = CaptureSink.of message.passed := by
    rw [Message.tee, hsink, hpolls]
    rfl
  refine ⟨shownAs_headerPairs message.headers, ?_, ?_, fun hover => ?_⟩
  · rw [Message.capture, htee]
    rfl
  · rw [Message.capture, htee]
    exact decide_eq_true_iff
  · obtain ⟨hframes, hend⟩ := framesOf_polls message.body message.schedule
    rw [hend hover, List.append_nil] at hframes
    rw [Message.passed, ← hframes]

theorem Transfer.recordedAs (t : Transfer E) : t.RecordedAs t.exchange := by
  refine ⟨rfl, rfl, rfl, rfl, t.request.capturedAs, rfl, ?_⟩
  rw [Transfer.exchange]
  cases t.response with
  | none => exact .none
  | some r => exact .some r.2.capturedAs

/-- The tee yields the inner frames in order; at the end the sink holds the first bytes of all and
says whether there were more; the sender is used at most once, after the last frame; and the ring
holds the newest exchanges, each with all there is to say of its transfer, and none of which depends
on the value of a sensitive header. -/
theorem capture_exact (body : Body E) (onDone : Bool) (schedule : List Bool)
    (transfers : List (Transfer E)) :
    (polls TeeBody.pollFrame { inner := body, onDone } schedule).1 =
        (polls Body.pollFrame body schedule).1 ∧
      ((polls Body.pollFrame body schedule).1.any Poll.isEnd = true →
        framesOf (polls TeeBody.pollFrame { inner := body, onDone } schedule).1 = body.frames ∧
          (polls TeeBody.pollFrame { inner := body, onDone } schedule).2.sink.buf =
            (dataOf body.frames).take captureCapBytes ∧
          ((polls TeeBody.pollFrame { inner := body, onDone } schedule).2.sink.truncated = true ↔
            captureCapBytes < (dataOf body.frames).length)) ∧
      (polls TeeBody.pollFrame { inner := body, onDone } schedule).2.sent ≤ 1 ∧
      (0 < (polls TeeBody.pollFrame { inner := body, onDone } schedule).2.sent →
        framesOf (polls TeeBody.pollFrame { inner := body, onDone } schedule).1 = body.frames) ∧
      transfers.foldl recordExchange [] =
        (transfers.reverse.map Transfer.exchange).take maxExchangesPerTunnel ∧
      List.Forall₂ Transfer.RecordedAs (transfers.reverse.take maxExchangesPerTunnel)
        (transfers.foldl recordExchange []) ∧
      (∀ e ∈ transfers.foldl recordExchange [],
        ∀ message ∈ e.request :: e.response.toList, ∀ pair ∈ message.headers,
          pair.1.isSensitive = true → pair.2 = redacted) ∧
      ∀ transfers' : List (Transfer E),
        List.Forall₂ Transfer.SameButSecrets transfers transfers' →
          transfers'.foldl recordExchange [] = transfers.foldl recordExchange [] := by
  obtain ⟨hpolls, _, hsink⟩ :=
    TeeBody.polls_eq { inner := body, onDone } schedule [] rfl
  obtain ⟨hframes, hend⟩ := framesOf_polls body schedule
  obtain ⟨hsent, hover⟩ := TeeBody.sent_polls { inner := body, onDone } schedule
  have hall (h : (polls Body.pollFrame body schedule).1.any Poll.isEnd = true) :
      framesOf (polls TeeBody.pollFrame { inner := body, onDone } schedule).1 = body.frames := by
    rw [hend h, List.append_nil] at hframes
    rw [hpolls, hframes]
  refine ⟨hpolls, fun h => ?_, ?_, fun h => hall ?_, record_all transfers, ?_, ?_, ?_⟩
  · rw [hsink, hall h]
    exact ⟨rfl, rfl, decide_eq_true_iff⟩
  · refine Nat.le_trans hsent ?_
    cases onDone with
    | true => exact Nat.le_refl 1
    | false => exact Nat.zero_le 1
  · rw [← hpolls]
    exact hover h
  · rw [record_all, ← List.map_take, List.forall₂_map_right_iff, List.forall₂_same]
    exact fun t _ => t.recordedAs
  · intro e he message hmessage pair hpair hsensitive
    rw [record_all] at he
    obtain ⟨t, _, rfl⟩ := List.mem_map.mp (List.mem_of_mem_take he)
    rcases List.mem_cons.mp hmessage with rfl | hresponse
    · exact headerPairs_redacted hpair hsensitive
    · obtain ⟨r, _, rfl⟩ := Option.map_eq_some_iff.mp (Option.mem_toList.mp hresponse)
      exact headerPairs_redacted hpair hsensitive
  · intro transfers' hsame
    rw [record_all, record_all]
    have hmap : transfers.map Transfer.exchange = transfers'.map Transfer.exchange := by
      induction hsame with
      | nil => rfl
      | cons h _ ih => exact congrArg₂ List.cons h.exchange ih
    rw [List.map_reverse, List.map_reverse, hmap]

end DatumConnect.Inspector
