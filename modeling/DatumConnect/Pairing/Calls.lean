import DatumConnect.Lib.Prog
import DatumConnect.Pairing.Types
/-!
# What pairing calls

The login service, the API with the person's token, the files next to the key, the
caller it tells of its progress and asks for the project, the clocks and the random
names.
-/

namespace DatumConnect.Pairing

open DatumConnect.Lib
open DatumConnect.Lib.Json

inductive PairCall where
  | keyOutExists
  | readSession
  | writeSession (file : SessionFile)
  | removeSession
  | readPending
  | writePending (pending : Pending)
  | removePending
  | writeKey (key : String)
  | deviceAuthorization
  | pollToken (deviceCode : String)
  | userinfo (token : String)
  | api (token : String) (request : ApiRequest)
  | event (e : PairingEvent)
  | project
  | sleep (duration : Nat)
  | now
  | utcNow
  | keyExpiry
  | randomSuffix (len : Nat)
  deriving DecidableEq

/-- Failed writes have a text, which begins with the path, and so have failed removals; `project` may
fail with one, too. -/
abbrev PairCall.Reply : PairCall → Type
  | .keyOutExists => Bool
  | .readSession => SessionRead
  | .writeSession _ | .writePending _ | .writeKey _ | .removePending => Except String Unit
  | .removeSession | .event _ | .sleep _ => Unit
  | .readPending => Option Pending
  | .deviceAuthorization => DeviceReply
  | .pollToken _ => TokenReply
  | .userinfo _ => UserinfoReply
  | .api _ _ => Sent
  | .project => Except String (Option String)
  | .now => Nat
  | .utcNow => Int
  | .keyExpiry | .randomSuffix _ => String

/-- The calls that wait for something else than the machine itself: a task that is
aborted goes no further than to one of these. -/
def PairCall.awaits : PairCall → Bool
  | .deviceAuthorization | .pollToken _ | .userinfo _ | .api _ _ | .project | .sleep _ => true
  | _ => false

/-- The call makes a service account, a binding or a key. -/
def PairCall.creates : PairCall → Bool
  | .api _ request => request.creates
  | _ => false

abbrev PairProg := Prog PairCall PairCall.Reply

/-- A part of pairing, which ends it when it fails. -/
abbrev PairPart := ExceptT PairingError PairProg

namespace PairPart

def ask (c : PairCall) : PairPart c.Reply := ExceptT.lift (Prog.perform c)

def tell (e : PairingEvent) : PairPart Unit := ask (.event e)

def fail {α : Type} (message : String) : PairPart α := throw (.failed message)

end PairPart

open PairPart

/-! ## The API, with the person's token -/

structure Api where
  token : String
  /-- The token came from the session file. -/
  reused : Bool
  deriving DecidableEq, Repr

namespace Api

variable (api : Api) (what : String)

/-- A 401 means that a saved login is no good any more. -/
def rejects (status : Status) : Bool := api.reused && status.code = 401

def received : Sent → Except PairingError ApiReply
  | .failed e => .error (.failed (redact s!"{what} failed: {e}" api.token))
  | .unread status e =>
      if api.rejects status then .error .savedLoginRejected
      else .error (.failed (redact s!"{what} failed reading the reply: {e}" api.token))
  | .reply r => if api.rejects r.status then .error .savedLoginRejected else .ok r

def call (request : ApiRequest) : PairPart ApiReply :=
  ExceptT.mk do return api.received what (← Prog.perform (.api api.token request))

/-- An unexpected reply as an error. -/
def failed (reply : ApiReply) : PairingError :=
  let detail := ((reply.body.get "message").bind Value.asStr).getD (excerpt reply.text)
  .failed (redact s!"{what} failed (HTTP {reply.status.shown}): {detail}" api.token)

theorem received_eq_ok {sent : Sent} {r : ApiReply} (h : api.received what sent = .ok r) :
    sent = .reply r ∧ api.rejects r.status = false := by
  cases sent with
  | failed e => simp [received] at h
  | unread status e =>
      simp only [received] at h
      split at h <;> simp at h
  | reply r' =>
      simp only [received] at h
      split at h
      · simp at h
      · rename_i hr
        simp only [Except.ok.injEq] at h
        subst h
        exact ⟨rfl, by simpa using hr⟩

theorem received_ne_bindingForbidden {sent : Sent} {e : PairingError}
    (h : api.received what sent = .error e) (email project : String) :
    e ≠ .bindingForbidden email project := by
  rintro rfl
  cases sent with
  | failed e => cases h
  | unread status e =>
      simp only [received] at h
      split at h <;> cases h
  | reply r =>
      simp only [received] at h
      split at h <;> cases h

end Api

/-! ## Rules for a part -/

section

variable {S A α : Type} {handle : S → (c : PairCall) → A → S × c.Reply}
  {cond : S → PairCall → A → Prop} {I : S → Prop} {post : S → Except PairingError α → Prop} {s : S}

theorem ask_then {c : PairCall} {f : c.Reply → PairPart α} (hI : I s)
    (h : ∀ answer, cond s c answer →
      Prog.SafeWhen handle cond I post (f (handle s c answer).2).run (handle s c answer).1) :
    Prog.SafeWhen handle cond I post (ask c >>= f).run s :=
  ⟨hI, h⟩

theorem call_then (api : Api) (what : String) {request : ApiRequest} {f : ApiReply → PairPart α}
    (hI : I s)
    (h : ∀ answer, cond s (.api api.token request) answer →
      match api.received what (handle s (.api api.token request) answer).2 with
      | .ok r =>
          Prog.SafeWhen handle cond I post (f r).run (handle s (.api api.token request) answer).1
      | .error e =>
          I (handle s (.api api.token request) answer).1 ∧
            post (handle s (.api api.token request) answer).1 (.error e)) :
    Prog.SafeWhen handle cond I post (api.call what request >>= f).run s := by
  refine ⟨hI, fun answer hanswer => ?_⟩
  specialize h answer hanswer
  generalize hreceived :
    api.received what (handle s (.api api.token request) answer).2 = received at h
  cases received with
  | ok r =>
      change Prog.SafeWhen handle cond I post (ExceptT.bindCont f (api.received what _)) _
      rw [hreceived]
      exact h
  | error e =>
      change Prog.SafeWhen handle cond I post (ExceptT.bindCont f (api.received what _)) _
      rw [hreceived]
      exact h

end

/-- A field of a reply, empty if there is none. -/
def fieldOf (v : Value) (path : List String) : String := ((v.pointer path).bind Value.asStr).getD ""

def items (list : Value) : List Value := ((list.get "items").bind Value.asArray).getD []

end DatumConnect.Pairing
