import DatumConnect.HomeAssistant.Settings
import DatumConnect.Lib.Prog
/-!
# Allow

`allow_forwarded_requests` and `confirm_ours_on_trial`, as programs of the calls
they make: to Home Assistant's websocket, to the Supervisor, to the clocks, and to
the caller's `step` and `verify`.
-/

namespace DatumConnect.HomeAssistant

open DatumConnect.Lib
open DatumConnect.Lib.Json

/-- Why a websocket call did not give a result. -/
inductive WsError where
  | connect (e : String)
  | auth (e : String)
  | closed
  | timeout
  | command (code message : String)
  | protocol (e : String)
  deriving DecidableEq, Repr

/-- In milliseconds. -/
structure AllowTiming where
  restartBegins : Nat := 90000
  restartEnds : Nat := 900000
  confirmMargin : Nat := 45000
  revertAfter : Nat := 300000
  poll : Nat := 3000
  call : Nat := 20000
  deriving DecidableEq, Repr

inductive AllowStep where
  | saving
  | restarting
  | verifying
  | confirming
  deriving DecidableEq, Repr

/-- Why Allow ended without confirming, one for each message of the source. -/
inductive Failure where
  | unreachable (e : WsError)
  | unread (e : WsError)
  | unreadable (e : SettingsError)
  | notTaken
  | stillStarting
  | refused (e : WsError)
  | unreachableToConfirm (e : WsError)
  | notBack (minutes : Nat)
  | notPromoted
  | unusable (why : String)
  | noLongerWaiting
  | didNotRestart
  | revertsTooSoon (secs : Nat)
  | stillBadRequest
  | notChecked (e : String)
  | checkedTooLate
  | notConfirmed (e : WsError)
  | confirmedTooLate
  /-- No outcome of the source: its loop has gone on for longer than was looked at. -/
  | stillWaiting
  deriving DecidableEq

inductive AllowOutcome where
  | alreadyAllowed
  | pendingByOther
  | allowed
  | failed (why : Failure)
  deriving DecidableEq

/-- What Allow calls.  `verify` and `promote` are given up at an instant. -/
inductive AllowCall where
  | connect (timeout : Nat)
  | httpConfig
  | configure (config : Value)
  | waitClosed (within : Nat)
  | close
  | coreApiUp
  | sleep (duration : Nat)
  | now
  | utcNow
  | verify (deadline : Nat)
  | promote (deadline : Nat)
  | step (s : AllowStep)
  deriving DecidableEq

abbrev AllowCall.Reply : AllowCall → Type
  | .connect _ => Except WsError Unit
  | .httpConfig | .configure _ => Except WsError Value
  | .waitClosed _ | .coreApiUp => Bool
  | .close | .sleep _ | .step _ => Unit
  | .now => Nat
  | .utcNow => Int
  | .verify _ => Option (Except String UInt16)
  | .promote _ => Option (Except WsError Value)

abbrev AllowProg := Prog AllowCall AllowCall.Reply

/-- A part of Allow, which may return from the whole of it. -/
abbrev AllowPart := ExceptT AllowOutcome AllowProg

namespace AllowPart

def ask (c : AllowCall) : AllowPart c.Reply := ExceptT.lift (Prog.perform c)

def fail {α : Type} (why : Failure) : AllowPart α := throw (.failed why)

end AllowPart

open AllowPart (ask fail)

section

-- `chrono`'s `parse_from_rfc3339`, in milliseconds since the epoch.
variable (parseRfc3339 : String → Option Int)

/-- When Home Assistant reverts its trial, by its own clock. -/
def revertTime (httpConfig : Value) : Option Int :=
  ((httpConfig.get "revert_at").bind Value.asStr).bind parseRfc3339

/-- The same as an instant on ours. -/
def revertInstant (httpConfig : Value) : AllowPart (Option Nat) := do
  match revertTime parseRfc3339 httpConfig with
  | none => return none
  | some at_ =>
      let left := at_ - (← ask .utcNow)
      return some ((← ask .now) + left.toNat)

/-- `pending.error`, unless it is absent or null. -/
def pendingError (httpConfig : Value) : Option Value :=
  (httpConfig.pointer ["pending", "error"]).filter fun e => !e.isNull

/-- Wait for Home Assistant to be back on trial with `wanted`, for `rounds` rounds
of the loop, and return the `http/config` that says so. -/
def waitForTrial (timing : AllowTiming) (wanted : Value) (started : Nat) :
    (rounds : Nat) → (seenDown : Bool) → AllowPart Value
  | 0, _ => fail .stillWaiting
  | rounds + 1, seenDown => do
      let again (seenDown : Bool) : AllowPart Value := do
        ask (.sleep timing.poll)
        waitForTrial timing wanted started rounds seenDown
      let now ← ask .now
      if started + timing.restartEnds ≤ now then
        fail (.notBack ((timing.restartEnds / 1000 + 59) / 60))
      else
        let up ← ask .coreApiUp
        if up then
          match ← ask (.connect timing.call) with
          | .error _ => again true
          | .ok () =>
              match ← ask .httpConfig with
              | .error _ =>
                  ask .close
                  again true
              | .ok c =>
                  if onTrialWith c wanted then return c
                  else if pendingIs c wanted ∧ (pendingError c).isSome then
                    ask .close
                    if (pendingError c).bind Value.asStr = some "not_promoted" then
                      fail .notPromoted
                    else
                      fail (.unusable
                        (((c.pointer ["pending", "error_message"]).bind Value.asStr).getD ""))
                  else
                    ask .close
                    if pendingIs c wanted then
                      let now ← ask .now
                      if !seenDown ∧ started + timing.restartBegins * 2 ≤ now then
                        fail .didNotRestart
                      else again seenDown
                    else fail .noLongerWaiting
        else again true

/-- Save the setting; whether the restart was seen to begin. -/
def saveSetting (timing : AllowTiming) (config : Value) : AllowPart Bool := do
  ask (.step .saving)
  match ← ask (.configure config) with
  | .ok r =>
      if r.index "restart" = .bool true then
        ask (.step .restarting)
        let closed ← ask (.waitClosed timing.restartBegins)
        ask .close
        return closed
      else fail .notTaken
  | .error (.command code message) =>
      if code = "not_running" then fail .stillStarting
      else fail (.refused (.command code message))
  | .error e => fail (.refused e)

/-- Confirm the setting. -/
def confirm (revertAt : Nat) : AllowPart AllowOutcome := do
  ask (.step .confirming)
  let promoted ← ask (.promote revertAt)
  ask .close
  match promoted with
  | some (.ok _) => return .allowed
  | some (.error e) => fail (.notConfirmed e)
  | none => fail .confirmedTooLate

/-- Check, and confirm before Home Assistant's revert. -/
def checkAndConfirm (timing : AllowTiming) (trial : Value) : AllowPart AllowOutcome := do
  let seenBack ← ask .now
  let revertAt ← revertInstant parseRfc3339 trial
  let revertAt := revertAt.getD (seenBack + timing.revertAfter)
  let now ← ask .now
  if revertAt - now < timing.confirmMargin then
    ask .close
    fail (.revertsTooSoon ((revertAt - now) / 1000))
  else
    ask (.step .verifying)
    match ← ask (.verify (revertAt - timing.confirmMargin / 2)) with
    | some (.ok status) =>
        if status = 400 then
          ask .close
          fail .stillBadRequest
        else confirm revertAt
    | some (.error e) =>
        ask .close
        fail (.notChecked e)
    | none =>
        ask .close
        fail .checkedTooLate

/-- From the settings read to Home Assistant on trial with our change. -/
def reachTrial (timing : AllowTiming) (rounds : Nat) (current : Value) : AllowPart Value :=
  match assess current with
  | .error e => fail (.unreadable e)
  | .ok .ready => throw .alreadyAllowed
  | .ok setup =>
      match merged (current.index "stable") with
      | .error e => fail (.unreadable e)
      | .ok wanted => do
          let started ← ask .now
          match setup with
          | .ready => throw .alreadyAllowed
          | .ours true =>
              ask .close
              match ← ask (.connect timing.call) with
              | .ok () => return current
              | .error e => fail (.unreachableToConfirm e)
          | .ours false =>
              ask (.step .restarting)
              ask .close
              waitForTrial timing wanted started rounds false
          | .pending => throw .pendingByOther
          | .needed config =>
              let seenDown ← saveSetting timing config
              waitForTrial timing wanted started rounds seenDown

def allowBody (timing : AllowTiming) (rounds : Nat) : AllowPart AllowOutcome := do
  match ← ask (.connect timing.call) with
  | .error e => fail (.unreachable e)
  | .ok () =>
      match ← ask .httpConfig with
      | .error e => fail (.unread e)
      | .ok current =>
          let trial ← reachTrial timing rounds current
          checkAndConfirm parseRfc3339 timing trial

def AllowOutcome.returned : Except AllowOutcome AllowOutcome → AllowOutcome
  | .ok outcome | .error outcome => outcome

def allowForwardedRequests (timing : AllowTiming) (rounds : Nat) : AllowProg AllowOutcome := do
  let r ← (allowBody parseRfc3339 timing rounds).run
  return .returned r

/-- `http/config`, on a connection of its own. -/
def readHttpConfig (timeout : Nat) : AllowProg (Except WsError Value) := do
  match ← Prog.perform (AllowCall.connect timeout) with
  | .error e => return .error e
  | .ok () =>
      let result ← Prog.perform AllowCall.httpConfig
      Prog.perform AllowCall.close
      return result

def confirmOursOnTrial (timing : AllowTiming) (rounds : Nat) : AllowProg (Option AllowOutcome) := do
  match ← readHttpConfig timing.call with
  | .error _ => return none
  | .ok current =>
      if assess current = .ok (.ours true) then
        return some (← allowForwardedRequests parseRfc3339 timing rounds)
      else return none

end

end DatumConnect.HomeAssistant
