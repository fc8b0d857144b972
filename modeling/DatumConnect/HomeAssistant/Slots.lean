import DatumConnect.HomeAssistant.Confirmed
import DatumConnect.Lib.Runs
/-!
# Allow beside another client

Home Assistant as two slots: `configure` replaces the pending config, `promote`
makes whatever is pending stable.  One run of Allow and another client send their
requests to it, and it restarts and reverts, in any order.
-/

namespace DatumConnect.HomeAssistant

open DatumConnect.Lib
open DatumConnect.Lib.Json

inductive Author where
  | allow
  | other
  deriving DecidableEq

/-- A config waiting for confirmation: what was configured, and what the store
adds to it. -/
structure Change where
  fields : List (String × Value)
  createdAt : String
  error : Option (String × String) := none
  by_ : Author
  deriving DecidableEq

def Change.value (change : Change) : Value :=
  let (error, message) : Value × Value := match change.error with
    | some (code, text) => (.string code, .string text)
    | none => (.null, .null)
  .object (insertKey "error" error (insertKey "error_message" message
    (insertKey "created_at" (.string change.createdAt) change.fields)))

structure Core where
  stable : Value
  pending : Option Change := none
  activeConfigType : String := "stable"
  revertAt : Option String := none
  deriving DecidableEq

namespace Core

/-- The result of `http/config`. -/
def httpConfig (core : Core) : Value :=
  .object [
    ("active_config_type", .string core.activeConfigType),
    ("pending", (core.pending.map Change.value).getD .null),
    ("revert_at", (core.revertAt.map .string).getD .null),
    ("stable", core.stable)]

def configure (core : Core) (change : Change) : Core := { core with pending := some change }

def promote (core : Core) : Core :=
  match core.pending with
  | some change =>
      { stable := change.value, pending := none, activeConfigType := "stable", revertAt := none }
  | none => core

def discard (core : Core) : Core := { core with pending := none }

/-- A start: on the pending config, unless it has failed. -/
def restart (core : Core) (revertAt : String) : Core :=
  match core.pending with
  | some { error := none, .. } =>
      { core with activeConfigType := "pending", revertAt := some revertAt }
  | _ => { core with activeConfigType := "stable", revertAt := none }

/-- The pending config is given up: `not_promoted`, or what was wrong with it. -/
def revert (core : Core) (code message : String) : Core :=
  { core with
    pending := core.pending.map fun change => { change with error := some (code, message) }
    activeConfigType := "stable"
    revertAt := none }

end Core

/-- A request of Allow's that Home Assistant carried out on a pending config:
whether that config had been there when Allow read the settings last, and the
settings Allow had read first. -/
structure Deed where
  change : Change
  witnessed : Bool
  first : Option Value

structure World where
  core : Core
  allow : AllowProg AllowOutcome
  seen : Seen
  /-- The pending config was there when Allow read the settings last. -/
  witnessed : Bool := false
  /-- The pending configs Allow's `configure` replaced. -/
  overwritten : List Deed := []
  /-- The pending configs Allow's `promote` made stable. -/
  promoted : List Deed := []

inductive Action where
  /-- Allow's next call; a request that changes something is carried out (at the
  time given) or not, whatever the answer to it says. -/
  | allow (answer : Answer) (carriedOut : Option String)
  | configure (fields : List (String × Value)) (createdAt : String)
  | promote
  | discard
  | restart (revertAt : String)
  | revert (code message : String)

namespace World

/-- Home Assistant answers `http/config` with its settings, if it does. -/
def answered (core : Core) (answer : Answer) : Answer :=
  { answer with
    reply := fun
      | .httpConfig => (answer.reply .httpConfig).map fun _ => core.httpConfig
      | c => answer.reply c }

def firstRead (s : Seen) : Option Value :=
  match s.log.head? with
  | some (.read c) => some c
  | _ => none

/-- Allow's `configure`, if it is carried out. -/
def saved (w : World) (config : Value) (carriedOut : Option String) : World :=
  match config, carriedOut with
  | .object fields, some createdAt =>
      { w with
        core := w.core.configure { fields, createdAt, by_ := .allow }
        witnessed := false
        overwritten := w.overwritten ++ w.core.pending.toList.map fun change =>
          ⟨change, w.witnessed, firstRead w.seen⟩ }
  | _, _ => w

/-- Allow's `promote`, if it is carried out. -/
def confirmed (w : World) (carriedOut : Option String) : World :=
  match carriedOut with
  | some _ =>
      { w with
        core := w.core.promote
        witnessed := false
        promoted := w.promoted ++ w.core.pending.toList.map fun change =>
          ⟨change, w.witnessed, firstRead w.seen⟩ }
  | none => w

/-- What Allow's call does to Home Assistant. -/
def carryOut (w : World) (answer : Answer) (carriedOut : Option String) : AllowCall → World
  | .httpConfig =>
      match answer.reply .httpConfig with
      | .ok _ => { w with witnessed := w.core.pending.isSome }
      | .error _ => w
  | .configure config => w.saved config carriedOut
  | .promote _ => w.confirmed carriedOut
  | _ => w

def step (w : World) : Action → Option World
  | .allow answer carriedOut =>
      match w.allow with
      | .ret _ => none
      | .call c k =>
          let answer := answered w.core answer
          let (seen, r) := w.seen.handle c answer
          some { carryOut w answer carriedOut c with seen, allow := k r }
  | .configure fields createdAt =>
      some { w with
        core := w.core.configure { fields, createdAt, by_ := .other }, witnessed := false }
  | .promote => some { w with core := w.core.promote, witnessed := false }
  | .discard => some { w with core := w.core.discard, witnessed := false }
  | .restart revertAt => some { w with core := w.core.restart revertAt }
  | .revert code message => some { w with core := w.core.revert code message }

/-- Allow is about to begin. -/
def start (parseRfc3339 : String → Option Int) (timing : AllowTiming) (rounds : Nat)
    (core : Core) (clock : Nat) (wall : Int) : World where
  core
  allow := allowForwardedRequests parseRfc3339 timing rounds
  seen := { clock, wall }

end World

/-! ## What a reading shows -/

/-- The store's metadata aside, a slot shows what was configured. -/
theorem withoutMeta_value (change : Change) :
    withoutMeta change.value =
      .object (metaKeys.foldl (fun fields key => removeKey key fields) change.fields) := by
  unfold Change.value withoutMeta metaKeys
  simp only [List.foldl, removeKey, List.filter_filter]
  rw [filter_insertKey, filter_insertKey, filter_insertKey] <;> simp

/-- What `http/config` shows of a pending config: what was configured, and whether
it has failed. -/
def Shows (c : Value) (change : Change) : Prop :=
  ∃ shown : Change, c.get "pending" = some shown.value ∧ shown.fields = change.fields ∧
    (shown.error.isSome = true → change.error.isSome = true)

theorem shows_httpConfig {core : Core} {change : Change} (h : core.pending = some change) :
    Shows core.httpConfig change := by
  refine ⟨change, ?_, rfl, id⟩
  simp [Core.httpConfig, Value.get, List.lookup_cons, h]

namespace Shows

variable {c wanted : Value} {change : Change}

theorem reverted (h : Shows c change) (code message : String) :
    Shows c { change with error := some (code, message) } := by
  obtain ⟨shown, hget, hfields, _⟩ := h
  exact ⟨shown, hget, hfields, fun _ => rfl⟩

/-- A change shown with no live pending config has failed. -/
theorem failed (h : Shows c change) (hlive : livePending c = none) :
    change.error.isSome = true := by
  obtain ⟨shown, hget, _, herror⟩ := h
  refine herror ?_
  cases hshown : shown.error with
  | some e => rfl
  | none =>
      have hnull : shown.value.get "error" = some .null := by
        simp only [Change.value, hshown, Value.get]
        rw [lookup_insertKey, if_pos rfl]
      have hobject : shown.value.isObject = true := rfl
      simp [livePending, hget, hobject, hnull, Value.isNull] at hlive

/-- A change shown on trial is what is on trial. -/
theorem content (h : Shows c change) (htrial : OnTrial c wanted) :
    withoutMeta change.value = wanted := by
  obtain ⟨shown, hget, hfields, _⟩ := h
  obtain ⟨_, p, hp, rfl⟩ := htrial
  have hpending := (Option.filter_eq_some_iff.mp (Option.filter_eq_some_iff.mp hp).1).1
  obtain rfl : shown.value = p := Option.some.inj (hget.symm.trans hpending)
  rw [withoutMeta_value, withoutMeta_value, hfields]

end Shows

/-- The settings read last. -/
def lastRead (log : List Entry) : Option Value :=
  (log.filterMap fun e => match e with
    | .read c => some c
    | _ => none).getLast?

theorem lastRead_read (log : List Entry) (c : Value) : lastRead (log ++ [.read c]) = some c := by
  simp [lastRead]

theorem lastRead_append (log more : List Entry) (h : ∀ e ∈ more, ∀ c, e ≠ .read c) :
    lastRead (log ++ more) = lastRead log := by
  have hmore : more.filterMap (fun e => match e with
      | .read c => some c
      | _ => none) = [] := by
    rw [List.filterMap_eq_nil_iff]
    intro e he
    cases e with
    | read c => exact absurd rfl (h _ he c)
    | configure config => rfl
    | verify began result => rfl
    | promote answer => rfl
  rw [lastRead, lastRead, List.filterMap_append, hmore, List.append_nil]

/-! ## Every run -/

section

variable {parseRfc3339 : String → Option Int} {timing : AllowTiming}

/-- What every run preserves: Allow goes on lawfully, a pending config it has
witnessed is the one the settings read last show, and what it replaced or
confirmed of those was failed, or its own change to the settings read first. -/
structure SlotsInv (parseRfc3339 : String → Option Int) (timing : AllowTiming) (w : World) :
    Prop where
  safe : Prog.Safe Seen.handle (AsAllowed parseRfc3339 timing []) (fun _ _ => True) w.allow w.seen
  shown : w.witnessed = true → ∃ c change, lastRead w.seen.log = some c ∧
    w.core.pending = some change ∧ Shows c change
  overwritten : ∀ d ∈ w.overwritten, d.witnessed = true → d.change.error.isSome = true
  promoted : ∀ d ∈ w.promoted, d.witnessed = true → ∃ first ∈ d.first,
    merged (first.index "stable") = .ok (withoutMeta d.change.value)

namespace SlotsInv

variable {w : World}

theorem start (rounds : Nat) (core : Core) (clock : Nat) (wall : Int) :
    SlotsInv parseRfc3339 timing (World.start parseRfc3339 timing rounds core clock wall) where
  safe := (allowForwardedRequests_safe parseRfc3339 timing rounds { clock, wall }).mono
    fun _ _ _ _ => trivial
  shown := nofun
  overwritten := nofun
  promoted := nofun

/-- The other client has replaced or emptied the pending slot. -/
theorem other (h : SlotsInv parseRfc3339 timing w) (core : Core) :
    SlotsInv parseRfc3339 timing { w with core, witnessed := false } :=
  ⟨h.safe, nofun, h.overwritten, h.promoted⟩

/-- Whatever the answer is, Allow goes on lawfully. -/
theorem goOn (h : SlotsInv parseRfc3339 timing w) {c : AllowCall}
    {k : c.Reply → AllowProg AllowOutcome} (hprog : w.allow = .call c k) (answer : Answer) :
    Prog.Safe Seen.handle (AsAllowed parseRfc3339 timing []) (fun _ _ => True)
      (k (w.seen.handle c answer).2) (w.seen.handle c answer).1 := by
  have hsafe := h.safe
  rw [hprog] at hsafe
  exact hsafe.2 answer

/-- A request that has been sent was one that may follow. -/
theorem mayFollow (h : SlotsInv parseRfc3339 timing w) {c : AllowCall}
    {k : c.Reply → AllowProg AllowOutcome} (hprog : w.allow = .call c k) (answer : Answer)
    {e : Entry} (hlog : (w.seen.handle c answer).1.log = w.seen.log ++ [e]) :
    MayFollow parseRfc3339 timing w.seen.log e := by
  obtain ⟨log, htold⟩ := (h.goOn hprog answer).inv
  have hlawful := htold.lawful
  rw [← List.nil_append log, ← htold.log_eq, hlog] at hlawful
  exact hlawful.may_follow

/-- Nothing that is shown has changed. -/
theorem goesOn (h : SlotsInv parseRfc3339 timing w) {c : AllowCall}
    {k : c.Reply → AllowProg AllowOutcome} (hprog : w.allow = .call c k) (answer : Answer)
    (hlast : lastRead (w.seen.handle c answer).1.log = lastRead w.seen.log) :
    SlotsInv parseRfc3339 timing
      { w with seen := (w.seen.handle c answer).1, allow := k (w.seen.handle c answer).2 } :=
  ⟨h.goOn hprog answer, fun hw => hlast ▸ h.shown hw, h.overwritten, h.promoted⟩

theorem quiet (h : SlotsInv parseRfc3339 timing w) {c : AllowCall}
    {k : c.Reply → AllowProg AllowOutcome} (hprog : w.allow = .call c k) (answer : Answer)
    (hquiet : c.quiet = true) :
    SlotsInv parseRfc3339 timing
      { w with seen := (w.seen.handle c answer).1, allow := k (w.seen.handle c answer).2 } :=
  h.goesOn hprog answer (by rw [handle_quiet hquiet])

/-- Allow reads the settings. -/
theorem read (h : SlotsInv parseRfc3339 timing w)
    {k : AllowCall.httpConfig.Reply → AllowProg AllowOutcome}
    (hprog : w.allow = .call .httpConfig k) (answer : Answer) (carriedOut : Option String) :
    SlotsInv parseRfc3339 timing
      { w.carryOut (World.answered w.core answer) carriedOut .httpConfig with
        seen := (w.seen.handle .httpConfig (World.answered w.core answer)).1
        allow := k (w.seen.handle .httpConfig (World.answered w.core answer)).2 } := by
  cases hreply : answer.reply .httpConfig with
  | error e =>
      have hout : w.carryOut (World.answered w.core answer) carriedOut .httpConfig = w := by
        simp [World.carryOut, World.answered, hreply, Except.map]
      rw [hout]
      refine h.goesOn hprog _ ?_
      simp [Seen.handle, Seen.await, World.answered, Seen.entries, hreply, Except.map]
  | ok v =>
      have hout : w.carryOut (World.answered w.core answer) carriedOut .httpConfig =
          { w with witnessed := w.core.pending.isSome } := by
        simp [World.carryOut, World.answered, hreply, Except.map]
      have hlog : (w.seen.handle .httpConfig (World.answered w.core answer)).1.log =
          w.seen.log ++ [.read w.core.httpConfig] := by
        simp [Seen.handle, Seen.await, World.answered, Seen.entries, hreply, Except.map]
      rw [hout]
      refine ⟨h.goOn hprog _, fun hw => ?_, h.overwritten, h.promoted⟩
      obtain ⟨change, hchange⟩ := Option.isSome_iff_exists.mp hw
      exact ⟨_, change, by rw [hlog, lastRead_read], hchange, shows_httpConfig hchange⟩

/-- Allow saves its setting. -/
theorem configure (h : SlotsInv parseRfc3339 timing w) {config : Value}
    {k : (AllowCall.configure config).Reply → AllowProg AllowOutcome}
    (hprog : w.allow = .call (.configure config) k) (answer : Answer)
    (carriedOut : Option String) :
    SlotsInv parseRfc3339 timing
      { w.saved config carriedOut with
        seen := (w.seen.handle (.configure config) (World.answered w.core answer)).1
        allow := k (w.seen.handle (.configure config) (World.answered w.core answer)).2 } := by
  have hmay : MayFollow parseRfc3339 timing w.seen.log (.configure config) :=
    h.mayFollow hprog (World.answered w.core answer) rfl
  have hlast : lastRead (w.seen.handle (.configure config) (World.answered w.core answer)).1.log =
      lastRead w.seen.log := lastRead_append _ _ (by simp [Seen.entries])
  obtain ⟨_, before, c, hlog, hlive⟩ := hmay
  unfold World.saved
  split
  · refine ⟨h.goOn hprog _, fun h => (by cases h), ?_, h.promoted⟩
    intro d hd hw
    rcases List.mem_append.mp hd with hd | hd
    · exact h.overwritten d hd hw
    · obtain ⟨change, hchange, rfl⟩ := List.mem_map.mp hd
      obtain ⟨c', change', hread, hpending, hshows⟩ := h.shown hw
      rw [hlog, lastRead_read, Option.some.injEq] at hread
      subst hread
      rw [hpending, Option.toList_some, List.mem_singleton] at hchange
      subst hchange
      exact hshows.failed hlive
  · exact h.goesOn hprog _ hlast

/-- Allow confirms its setting. -/
theorem confirm (h : SlotsInv parseRfc3339 timing w) {deadline : Nat}
    {k : (AllowCall.promote deadline).Reply → AllowProg AllowOutcome}
    (hprog : w.allow = .call (.promote deadline) k) (answer : Answer)
    (carriedOut : Option String) :
    SlotsInv parseRfc3339 timing
      { w.confirmed carriedOut with
        seen := (w.seen.handle (.promote deadline) (World.answered w.core answer)).1
        allow := k (w.seen.handle (.promote deadline) (World.answered w.core answer)).2 } := by
  have hmay : MayFollow parseRfc3339 timing w.seen.log (.promote (answer.reply (.promote deadline))) :=
    h.mayFollow hprog (World.answered w.core answer) rfl
  have hlast : lastRead (w.seen.handle (.promote deadline) (World.answered w.core answer)).1.log =
      lastRead w.seen.log := lastRead_append _ _ (by simp [Seen.entries])
  obtain ⟨_, first, wanted, before, trial, began, status, hfirst, hwanted, hlog, htrial, _⟩ := hmay
  unfold World.confirmed
  split
  · refine ⟨h.goOn hprog _, fun h => (by cases h), h.overwritten, ?_⟩
    intro d hd hw
    rcases List.mem_append.mp hd with hd | hd
    · exact h.promoted d hd hw
    · obtain ⟨change, hchange, rfl⟩ := List.mem_map.mp hd
      obtain ⟨c', change', hread, hpending, hshows⟩ := h.shown hw
      have htrialRead : lastRead w.seen.log = some trial := by
        rw [hlog, List.append_cons, lastRead_append _ _ (by simp), lastRead_read]
      rw [htrialRead, Option.some.injEq] at hread
      subst hread
      rw [hpending, Option.toList_some, List.mem_singleton] at hchange
      subst hchange
      refine ⟨first, by simp [World.firstRead, hfirst], ?_⟩
      rw [hwanted, hshows.content htrial]
  · exact h.goesOn hprog _ hlast

theorem step (h : SlotsInv parseRfc3339 timing w) {a : Action} {w' : World}
    (hstep : World.step w a = some w') : SlotsInv parseRfc3339 timing w' := by
  cases a with
  | configure fields createdAt => cases hstep; exact h.other _
  | promote => cases hstep; exact h.other _
  | discard => cases hstep; exact h.other _
  | restart revertAt =>
      cases hstep
      have hpending : (w.core.restart revertAt).pending = w.core.pending := by
        unfold Core.restart
        split <;> rfl
      refine ⟨h.safe, fun hw => ?_, h.overwritten, h.promoted⟩
      obtain ⟨c, change, hlast, hchange, hshows⟩ := h.shown hw
      exact ⟨c, change, hlast, hpending.trans hchange, hshows⟩
  | revert code message =>
      cases hstep
      refine ⟨h.safe, fun hw => ?_, h.overwritten, h.promoted⟩
      obtain ⟨c, change, hlast, hchange, hshows⟩ := h.shown hw
      exact ⟨c, _, hlast, by simp [Core.revert, hchange], hshows.reverted code message⟩
  | allow answer carriedOut =>
      cases hprog : w.allow with
      | ret outcome => simp [World.step, hprog] at hstep
      | call c k =>
          simp only [World.step, hprog, Option.some.injEq] at hstep
          subst hstep
          cases c with
          | httpConfig => exact h.read hprog answer carriedOut
          | configure config => exact h.configure hprog answer carriedOut
          | promote deadline => exact h.confirm hprog answer carriedOut
          | verify deadline =>
              exact h.goesOn hprog _ (lastRead_append _ _ (by simp [Seen.entries]))
          | connect timeout => exact h.quiet hprog _ rfl
          | waitClosed within => exact h.quiet hprog _ rfl
          | close => exact h.quiet hprog _ rfl
          | coreApiUp => exact h.quiet hprog _ rfl
          | sleep duration => exact h.quiet hprog _ rfl
          | now => exact h.quiet hprog _ rfl
          | utcNow => exact h.quiet hprog _ rfl
          | step s => exact h.quiet hprog _ rfl

end SlotsInv

/-- A pending config that was there when Allow read the settings last is replaced
only if it has failed, and confirmed only if it is exactly the change that Allow
makes to the settings it read first. -/
structure LeftAlone (w : World) : Prop where
  overwritten : ∀ d ∈ w.overwritten, d.change.by_ = .other → d.witnessed = true →
    d.change.error.isSome = true
  promoted : ∀ d ∈ w.promoted, d.change.by_ = .other → d.witnessed = true →
    ∃ first ∈ d.first, merged (first.index "stable") = .ok (withoutMeta d.change.value)

end

/-- In every interleaving of a run of Allow with another client's requests and
Home Assistant's restarts. -/
theorem allow_leaves_alone (parseRfc3339 : String → Option Int) (timing : AllowTiming)
    (rounds : Nat) (core : Core) (clock : Nat) (wall : Int) (actions : List Action) (w : World)
    (hrun : Runs.run World.step (World.start parseRfc3339 timing rounds core clock wall) actions =
      some w) : LeftAlone w := by
  have hinv : SlotsInv parseRfc3339 timing w :=
    Runs.invariant_always (fun s a t hs => hs.step) (SlotsInv.start rounds core clock wall) hrun
  exact ⟨fun d hd _ => hinv.overwritten d hd, fun d hd _ => hinv.promoted d hd⟩

/-- Everything goes as Allow asks. -/
def obliging : Answer where
  elapsed := 1000
  wall := 0
  reply
    | .connect _ => .ok ()
    | .httpConfig => .ok .null
    | .configure _ => .ok (.object [("restart", .bool true)])
    | .waitClosed _ | .coreApiUp => true
    | .close | .sleep _ | .step _ => ()
    | .now => 0
    | .utcNow => 0
    | .verify _ => some (.ok 200)
    | .promote _ => some (.ok .null)

/-- The next `n` calls of Allow. -/
def goOn (n : Nat) : List Action := List.replicate n (.allow obliging (some "12:00"))

def port (n : UInt64) : String × Value := ("server_port", .number (.posInt n))

/-- The other client's settings: another port, or the ones Allow makes itself. -/
def otherPort : List (String × Value) := [port 8124]

def allowed : List (String × Value) :=
  [port 8123, ("trusted_proxies", .array [.string "127.0.0.1/32", .string "::1/128"]),
    ("use_x_forwarded_for", .bool true)]

def plainCore : Core := { stable := .object [port 8123] }

def otherChange (fields : List (String × Value)) (error : Option (String × String)) : Change :=
  { fields, createdAt := "11:00", error, by_ := .other }

def failedCore : Core :=
  { plainCore with pending := some (otherChange otherPort (some ("not_promoted", ""))) }

def trialCore : Core :=
  { plainCore with pending := some (otherChange allowed none), activeConfigType := "pending" }

def startsOn (core : Core) : World := World.start (fun _ => none) {} 1 core 0 0

/-- Allow has replaced or confirmed a change of the other client's. -/
def World.touchesOthers (w : World) : Bool :=
  (w.overwritten ++ w.promoted).any fun d => d.change.by_ = .other

def TouchesOthers (s : World) (actions : List Action) : Prop :=
  ∃ w, Runs.run World.step s actions = some w ∧ w.touchesOthers = true

theorem allow_leaves_alone_failed :
    ∃ w, Runs.run World.step (startsOn failedCore) (goOn 5 ++ [.restart "12:06"] ++ goOn 13) = some w ∧
      (w.overwritten.length = 1 ∧ w.promoted.length = 1) ∧ LeftAlone w := by
  have hruns : (Runs.run World.step (startsOn failedCore)
      (goOn 5 ++ [.restart "12:06"] ++ goOn 13)).any
        (fun w => w.overwritten.length = 1 ∧ w.promoted.length = 1) = true := by decide +kernel
  obtain ⟨w, hw, hlengths⟩ := Option.any_eq_true _ _ |>.mp hruns
  exact ⟨w, hw, of_decide_eq_true hlengths, allow_leaves_alone (fun _ => none) {} 1 failedCore 0 0 _ w hw⟩

/-- The other client saves a change after Allow has read the settings, or after
Allow has seen its own on trial; its change is the same as Allow's; it has failed. -/
theorem allow_touches_others :
    TouchesOthers (startsOn plainCore)
        (goOn 4 ++ [.configure otherPort "12:01"] ++ goOn 1) ∧
      TouchesOthers (startsOn plainCore)
        (goOn 5 ++ [.restart "12:06"] ++ goOn 11 ++ [.configure otherPort "12:01"] ++ goOn 2) ∧
      TouchesOthers (startsOn trialCore) (goOn 12) ∧
      TouchesOthers (startsOn failedCore) (goOn 5) := by
  refine ⟨?_, ?_, ?_, ?_⟩ <;> exact (Option.any_eq_true _ _).mp (by decide +kernel)

end DatumConnect.HomeAssistant
