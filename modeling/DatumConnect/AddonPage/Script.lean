import DatumConnect.Lib.Json
import DatumConnect.Lib.Runs
/-!
# The page's script

Polls, clicks and timers of `app.js`, as far as they decide when the page asks for its state
again and whether it is busy, with which its buttons are drawn disabled.  What is drawn is left
out: whether a state can be drawn comes with each event.  Times are of the page's event loop,
which a dialog stops.
-/

namespace DatumConnect.AddonPage.Script

open DatumConnect.Lib
open DatumConnect.Lib.Json

/-- In milliseconds. -/
def pollTimeoutMs : Nat := 15000

def reopenAfterMs : Nat := 20000

/-! ## Values -/

/-- A value that counts as true. -/
def truthy : Value → Bool
  | .null => false
  | .bool b => b
  | .number n => n.asF64 ≠ 0
  | .string s => s ≠ ""
  | .array _ | .object _ => true

/-- A member that is there and not `null`. -/
def has (v : Value) (key : String) : Bool := (v.get key).any (· ≠ .null)

mutual

/-- The state without the seconds that are left, as `renderKey` writes it. -/
def unticked : Value → Value
  | .array items => .array (untickedItems items)
  | .object fields => .object (untickedFields fields)
  | v => v

def untickedItems : List Value → List Value
  | [] => []
  | v :: items => unticked v :: untickedItems items

def untickedFields : List (String × Value) → List (String × Value)
  | [] => []
  | (key, v) :: fields =>
      if key = "remaining_secs" then untickedFields fields
      else (key, unticked v) :: untickedFields fields

end

/-- When to poll again after a state. -/
def interval (state : Value) : Nat :=
  if state.get "mode" = some (.string "paired") then
    let proxies := (state.get "paired").bind fun paired => paired.get "trusted_proxies"
    if (proxies.bind fun p => p.get "state") = some (.string "working") then 3000 else 10000
  else 1000

/-! ## The page -/

/-- What a click posts to. -/
inductive Button where
  /-- Connect, a new code, or the project. -/
  | act
  | skipProxies
  | allowProxies
  | removeTunnel
  | forget
  deriving DecidableEq, Repr

structure Post where
  button : Button
  startedAt : Nat
  deriving DecidableEq, Repr

structure Timer where
  id : Nat
  due : Nat
  deriving DecidableEq, Repr

structure Page where
  now : Nat := 0
  /-- When the polls in flight were sent. -/
  polls : List Nat := []
  posts : List Post := []
  /-- The poll timers that are pending, and the one in `timer`. -/
  timers : List Timer := []
  timer : Option Nat := none
  nextId : Nat := 0
  last : Option Value := none
  busy : Bool := false
  /-- There is an `actionResult`. -/
  acted : Bool := false
  rendered : Option (Bool × Value) := none
  failingSince : Option Nat := none
  refused : Bool := false
  reopenAsked : Bool := false
  reloaded : Bool := false
  deriving DecidableEq

namespace Page

variable (p : Page)

def schedule (ms : Nat) : Page :=
  { p with
    timers := p.timers.filter (fun t => some t.id ≠ p.timer) ++ [⟨p.nextId, p.now + ms⟩]
    timer := some p.nextId
    nextId := p.nextId + 1 }

def reload : Page := { p with reloaded := true }

/-- What `renderKey` is of a state. -/
def renderKey (state : Value) : Bool × Value := (p.busy, unticked state)

/-- The state is drawn again, as far as it can be. -/
def redraw : Page :=
  match p.last with
  | some state => { p with rendered := some (p.renderKey state) }
  | none => p

/-! ### Polls -/

def pollWorked : Page := { p with failingSince := none, refused := false, reopenAsked := false }

/-- A poll that was sent then has failed with a status, or with none. -/
def pollFailed (status : Option Nat) (startedAt : Nat) : Page :=
  let since := p.failingSince.getD startedAt
  let refused := p.refused || status.any [401, 403, 404].contains
  { p with
    failingSince := some since
    refused
    reopenAsked := p.reopenAsked || reopenAfterMs ≤ p.now - since && refused }

/-- `renderAway` reads the phase of a setup that is not there. -/
def awayThrows : Bool :=
  !p.acted && p.last.any fun state =>
    state.get "mode" = some (.string "setup") && !has state "setup"

/-- The `catch` of `poll`. -/
def away (status : Option Nat) (startedAt : Nat) : Page :=
  let failed := { p.pollFailed status startedAt with rendered := none }
  if failed.awayThrows then failed else failed.schedule 2000

/-- The `then` of `poll`, with its `catch`. -/
def polled (loadedMode : String) (state : Value) (drawn : Bool) (startedAt : Nat) : Page :=
  let worked := p.pollWorked
  if state = .null then worked.away none startedAt
  else if state.get "mode" ≠ some (.string loadedMode) then worked.reload
  else
    let seen := { worked with last := some state }
    if seen.rendered = some (seen.renderKey state) then seen.schedule (interval state)
    else
      let begun := { seen with rendered := some (seen.renderKey state) }
      if drawn then begun.schedule (interval state) else begun.away none startedAt

/-! ### Clicks -/

/-- `post`: nothing is sent if the state cannot be drawn with its buttons disabled. -/
def click (button : Button) (drawn : Bool) : Page :=
  let begun := { p with busy := true }.redraw
  if p.last.isSome && !drawn then begun
  else { begun with posts := begun.posts ++ [⟨button, p.now⟩] }

/-- The state that is answered to a click is shown. -/
def shows (state : Value) (ms : Nat) (drawn : Bool) : Page :=
  if truthy state then
    let shown := { p with last := some state, rendered := some (p.renderKey state) }
    if drawn then shown.schedule ms else shown.redraw
  else p.schedule ms

/-- What a button does with the answer. -/
def resolved (state : Value) (drawn : Bool) : Button → Page
  | .act => p.shows state 300 drawn
  | .skipProxies => p.shows state 1000 drawn
  | .allowProxies => p.shows state 2000 drawn
  | .removeTunnel => if truthy state then { p with rendered := none }.schedule 300 else p
  | .forget =>
      if truthy state then
        let shown := { p with acted := true }.redraw
        if p.last.isSome && drawn then shown.schedule 3000 else shown
      else p

end Page

/-! ## Events -/

/-- How a request is answered; a text that is no JSON is `none`. -/
inductive Answer where
  | failed
  | reply (status : Nat) (body : Option Value)

def isOk (status : Nat) : Bool := 200 ≤ status && status < 300

inductive Event where
  | wait (ms : Nat)
  | fire (id : Nat)
  | poll (i : Nat) (answer : Answer) (drawn : Bool)
  | abort (i : Nat)
  | click (button : Button) (drawn : Bool)
  | post (i : Nat) (answer : Answer) (drawn : Bool)
  /-- Another project is picked. -/
  | pick

namespace Page

variable (p : Page) (loadedMode : String)

/-- `getState`'s answer. -/
def pollAnswered (answer : Answer) (drawn : Bool) (startedAt : Nat) : Page :=
  match answer with
  | .failed => p.away none startedAt
  | .reply status body =>
      if isOk status then
        match body with
        | some state => p.polled loadedMode state drawn startedAt
        | none => p.away none startedAt
      else p.away (some status) startedAt

/-- `post`'s answer, and what the button does with it. -/
def postAnswered (answer : Answer) (drawn : Bool) (button : Button) : Page :=
  let idle := { p with busy := false }
  match answer with
  | .failed => idle.redraw
  | .reply status body =>
      let j := body.getD (.object [])
      if status = 403 && j.get "error" = some (.string "csrf") then idle.reload
      else if isOk status then idle.resolved j drawn button
      else idle.redraw

/-- Nothing is due before then. -/
def idleUntil (abortable : Bool) (time : Nat) : Bool :=
  p.timers.all (fun t => time ≤ t.due) &&
    (!abortable || p.polls.all fun startedAt => time ≤ startedAt + pollTimeoutMs)

end Page

section

-- The mode the page was loaded in, and whether the browser has an `AbortController`.
variable (loadedMode : String) (abortable : Bool)

/-- One event of a page that has not been told to reload. -/
def step (p : Page) (e : Event) : Option Page :=
  if p.reloaded then none
  else
    match e with
    | .wait ms => if p.idleUntil abortable (p.now + ms) then some { p with now := p.now + ms } else none
    | .fire id =>
        if p.timers.any fun t => t.id = id && t.due ≤ p.now then
          some { p with
            timers := p.timers.filter fun t => t.id ≠ id
            polls := p.polls ++ [p.now] }
        else none
    | .poll i answer drawn =>
        p.polls[i]?.map fun startedAt =>
          { p with polls := p.polls.eraseIdx i }.pollAnswered loadedMode answer drawn startedAt
    | .abort i =>
        (p.polls[i]?.filter fun startedAt => abortable && startedAt + pollTimeoutMs ≤ p.now).map
          fun startedAt => { p with polls := p.polls.eraseIdx i }.away none startedAt
    | .click button drawn => some (p.click button drawn)
    | .post i answer drawn =>
        p.posts[i]?.map fun post =>
          { p with posts := p.posts.eraseIdx i }.postAnswered answer drawn post.button
    | .pick => some p.redraw

end

/-- The page as it is loaded: it polls at once. -/
def start : Page := { polls := [0] }

end DatumConnect.AddonPage.Script
