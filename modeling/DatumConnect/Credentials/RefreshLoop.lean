import DatumConnect.Lib.Base64
import DatumConnect.Lib.Json
import DatumConnect.Lib.Runs
import DatumConnect.Lib.Text
import Mathlib.Data.List.Chain
/-!
# The refresh loop

`ExternalTokenSource` holds a token that a helper, or the exchange of a service account
key, gave it.  The loop fetches another one a minute before the token expires, after a
failure with backoff, and at once when a request has been refused.
-/

namespace DatumConnect.Credentials

open DatumConnect.Lib
open DatumConnect.Lib.Json

/-- Times are in nanoseconds, those of the clock from the epoch on. -/
def seconds (n : Nat) : Nat := n * 1000000000

inductive JwtParseError where
  | invalidToken
  | invalidBase64
  | invalidUtf8
  | json
  deriving DecidableEq, Repr

/-- `INEFFECTIVE_FORCED_LIMIT` -/
def ineffectiveForcedLimit : Nat := 3

/-- `MAX_BACKOFF` -/
def maxBackoff : Nat := seconds 60

structure RefreshLoop where
  token : String
  nextRefresh : Nat
  backoff : Nat := seconds 5
  ineffectiveForced : Nat := 0
  deriving DecidableEq, Repr

section Library

variable (parseJson : String → Option Value)

/-- The `exp` claim, from the middle segment. -/
def parseJwtExpiry (token : String) : Except JwtParseError (Option UInt64) :=
  match Text.splitOnce '.' token.toList with
  | none => .error .invalidToken
  | some (_, rest) =>
      let payload := ((Text.splitOnce '.' rest).map (·.1)).getD rest
      let standard := payload.map fun c => if c = '-' then '+' else if c = '_' then '/' else c
      let pad := 4 - (String.ofList standard).utf8ByteSize % 4
      let padded := if pad ≠ 4 then standard ++ List.replicate pad '=' else standard
      match Base64.decodeStandard padded with
      | none => .error .invalidBase64
      | some decoded =>
          match String.fromUTF8? ⟨decoded.toArray⟩ with
          | none => .error .invalidUtf8
          | some text =>
              match parseJson text with
              | none => .error .json
              | some value => .ok ((value.get "exp").bind Value.asU64)

def expiry (token : String) : Option Nat :=
  match parseJwtExpiry parseJson token with
  | .ok exp => exp.map UInt64.toNat
  | .error _ => none

-- The last moment that a `SystemTime` holds.
variable (maxTime : Nat)

/-- `SystemTime::checked_add`; the operator `+` panics instead. -/
def checkedAdd (time duration : Nat) : Option Nat :=
  if time + duration ≤ maxTime then some (time + duration) else none

namespace RefreshLoop

/-- `spawn_refresh`, and `run_refresh_loop` up to the loop. -/
def spawn (token : String) (now : Nat) : Option RefreshLoop :=
  match (expiry parseJson token).bind fun exp => checkedAdd maxTime 0 (seconds (exp - 60)) with
  | some nextRefresh => some { token, nextRefresh }
  | none => (checkedAdd maxTime now (seconds 3600)).map fun nextRefresh => { token, nextRefresh }

/-- How long the loop sleeps when no refresh is forced. -/
def wait (loop : RefreshLoop) (now : Nat) : Nat := loop.nextRefresh - now

/-- A forced refresh is not worth another fetch. -/
def ignores (loop : RefreshLoop) (forced : Bool) : Bool :=
  forced && ineffectiveForcedLimit ≤ loop.ineffectiveForced

/-- What a fetch gives, and the end of the turn; `none` is a panic. -/
def fetched (loop : RefreshLoop) (forced : Bool) (result : Option String) (now : Nat) :
    Option RefreshLoop :=
  match result with
  | some newToken =>
      let ineffectiveForced := if newToken = loop.token then
          if forced then loop.ineffectiveForced + 1 else loop.ineffectiveForced
        else 0
      let nextRefresh := match expiry parseJson newToken with
        | some exp => checkedAdd maxTime 0 (seconds (exp - 60))
        | none => checkedAdd maxTime now (seconds 3600)
      nextRefresh.map fun nextRefresh => { token := newToken, nextRefresh, ineffectiveForced }
  | none =>
      (checkedAdd maxTime now loop.backoff).map fun nextRefresh =>
        { loop with nextRefresh, backoff := min (loop.backoff * 2) maxBackoff }

end RefreshLoop

/-! ## Turns of the loop -/

structure Fetch where
  began : Nat
  forced : Bool
  /-- The token before it. -/
  previous : String
  result : Option String
  finished : Nat
  deriving DecidableEq, Repr

/-- The fetch gave another token than the current one. -/
def Fetch.changed (f : Fetch) : Bool :=
  match f.result with
  | some token => token ≠ f.previous
  | none => false

def Fetch.ineffective (f : Fetch) : Bool := f.forced && f.result = some f.previous

/-- When the next fetch is due at the latest, where this one says so. -/
def Fetch.due (f : Fetch) : Option Nat :=
  match f.result with
  | some token => (expiry parseJson token).map fun exp => seconds exp - seconds 60
  | none => some (f.finished + seconds 60)

/-- A turn of the loop: it looks at the clock, sleeps until it is woken, and fetches. -/
structure Turn where
  looked : Nat
  woken : Nat
  forced : Bool
  result : Option String
  finished : Nat
  deriving DecidableEq, Repr

def Turn.fetch (turn : Turn) (previous : String) : Fetch where
  began := turn.woken
  forced := turn.forced
  previous
  result := turn.result
  finished := turn.finished

structure Sys where
  /-- `none` once it has panicked. -/
  loop : Option RefreshLoop
  clock : Nat
  fetches : List Fetch := []
  deriving DecidableEq, Repr

namespace Sys

def step (s : Sys) (turn : Turn) : Option Sys :=
  match s.loop with
  | none => none
  | some loop =>
      if s.clock ≤ turn.looked ∧ turn.looked ≤ turn.woken ∧
          (turn.forced ∨ turn.looked + loop.wait turn.looked ≤ turn.woken) then
        if loop.ignores turn.forced then some { s with clock := turn.woken }
        else if turn.woken ≤ turn.finished then
          some {
            loop := loop.fetched parseJson maxTime turn.forced turn.result turn.finished
            clock := turn.finished
            fetches := s.fetches ++ [turn.fetch loop.token] }
        else none
      else none

/-- The loop does not spin and does not give up. -/
structure Paced (s : Sys) : Prop where
  spaced : s.fetches.IsChain fun f g => f.forced ∨ g.forced ∨ f.began + seconds 5 ≤ g.began
  goesOn : ∀ now ≥ s.clock, ∀ result, ∃ loop, s.loop = some loop ∧
    (s.step parseJson maxTime ⟨now, now + loop.wait now, false, result, now + loop.wait now⟩).isSome
  due : ∀ f ∈ s.fetches.getLast?, ∀ time ∈ f.due parseJson, ∀ loop ∈ s.loop, ∀ now,
    now + loop.wait now ≤ max now time
  few : ∀ part, part <:+: s.fetches → (∀ f ∈ part, ¬ f.changed) → part.countP Fetch.ineffective ≤ 3

end Sys

/-- A fetched token that an unforced refresh brings does not expire within 65 seconds of
the beginning of the fetch, and times are times that the clock can hold. -/
def LeavesTime (s : Sys) (turn : Turn) : Prop :=
  ∀ loop ∈ s.loop, ¬ loop.ignores turn.forced →
    match turn.result with
    | some token =>
        match expiry parseJson token with
        | some exp =>
            seconds (exp - 60) ≤ maxTime ∧
              (turn.forced ∨ turn.woken + seconds 65 ≤ seconds exp)
        | none => turn.finished + seconds 3600 ≤ maxTime
    | none => turn.finished + loop.backoff ≤ maxTime

/-! ## What is kept -/

variable {parseJson maxTime} {s t : Sys} {loop loop' : RefreshLoop}

theorem checkedAdd_of_le {time duration : Nat} (h : time + duration ≤ maxTime) :
    checkedAdd maxTime time duration = some (time + duration) := if_pos h

/-- The loop wakes when the refresh is due, or at once. -/
theorem RefreshLoop.now_add_wait (loop : RefreshLoop) (now : Nat) :
    now + loop.wait now = max now loop.nextRefresh := by
  unfold RefreshLoop.wait
  omega

theorem seconds_mono {m n : Nat} (h : m ≤ n) : seconds m ≤ seconds n :=
  Nat.mul_le_mul_right _ h

/-- What the loop itself keeps: the backoff within its bounds, the count at most at its
limit. -/
structure RefreshLoop.Bounded (loop : RefreshLoop) : Prop where
  least : seconds 5 ≤ loop.backoff
  most : loop.backoff ≤ seconds 60
  count : loop.ineffectiveForced ≤ 3

theorem RefreshLoop.Bounded.spawn {token : String} {now : Nat}
    (h : RefreshLoop.spawn parseJson maxTime token now = some loop) : loop.Bounded := by
  unfold RefreshLoop.spawn at h
  split at h
  · cases h
    exact ⟨Nat.le_refl _, seconds_mono (by omega), Nat.zero_le _⟩
  · rw [Option.map_eq_some_iff] at h
    obtain ⟨nextRefresh, -, rfl⟩ := h
    exact ⟨Nat.le_refl _, seconds_mono (by omega), Nat.zero_le _⟩

/-- The count goes up only by a fetch that was not ignored. -/
theorem RefreshLoop.Bounded.fetched (h : loop.Bounded) {forced : Bool} {result : Option String}
    {now : Nat} (hfetches : ¬ loop.ignores forced)
    (hfetched : loop.fetched parseJson maxTime forced result now = some loop') : loop'.Bounded := by
  have hcount : forced → loop.ineffectiveForced + 1 ≤ 3 := by
    intro hforced
    have hlt : loop.ineffectiveForced < 3 := by
      by_contra hge
      apply hfetches
      rw [RefreshLoop.ignores, hforced, Bool.true_and, decide_eq_true_eq]
      exact Nat.not_lt.mp hge
    omega
  unfold RefreshLoop.fetched at hfetched
  split at hfetched
  · rw [Option.map_eq_some_iff] at hfetched
    obtain ⟨nextRefresh, -, rfl⟩ := hfetched
    refine ⟨Nat.le_refl _, seconds_mono (by omega), ?_⟩
    dsimp only
    split
    · split
      · exact hcount ‹_›
      · exact h.count
    · exact Nat.zero_le 3
  · rw [Option.map_eq_some_iff] at hfetched
    obtain ⟨nextRefresh, -, rfl⟩ := hfetched
    have hleast := h.least
    have hmost := h.most
    refine ⟨?_, Nat.min_le_right _ _, h.count⟩
    simp only [seconds, maxBackoff] at hleast hmost ⊢
    omega

/-- A fetch of whose token there is time enough schedules the next one, no sooner than
five seconds from its beginning and no later than it says. -/
theorem fetched_due {turn : Turn} (hloop : s.loop = some loop)
    (hfetches : ¬ loop.ignores turn.forced) (hleast : seconds 5 ≤ loop.backoff)
    (hmost : loop.backoff ≤ seconds 60) (hwoken : turn.woken ≤ turn.finished)
    (htime : LeavesTime parseJson maxTime s turn) :
    ∃ loop', loop.fetched parseJson maxTime turn.forced turn.result turn.finished = some loop' ∧
      (turn.forced ∨ turn.woken + seconds 5 ≤ loop'.nextRefresh) ∧
      ∀ time ∈ (turn.fetch loop.token).due parseJson, loop'.nextRefresh ≤ time := by
  have htime := htime loop hloop hfetches
  unfold RefreshLoop.fetched Fetch.due Turn.fetch
  cases hresult : turn.result with
  | none =>
      rw [hresult] at htime
      dsimp only at htime ⊢
      refine ⟨_, by rw [checkedAdd_of_le htime, Option.map_some], Or.inr ?_, ?_⟩
      · exact Nat.add_le_add hwoken hleast
      · rintro _ ⟨⟩
        exact Nat.add_le_add_left hmost _
  | some token =>
      rw [hresult] at htime
      dsimp only at htime ⊢
      cases hexp : expiry parseJson token with
      | none =>
          rw [hexp] at htime
          dsimp only at htime ⊢
          refine ⟨_, by rw [checkedAdd_of_le htime, Option.map_some], Or.inr ?_, ?_⟩
          · exact Nat.add_le_add hwoken (seconds_mono (by omega))
          · rintro _ ⟨⟩
      | some exp =>
          rw [hexp] at htime
          dsimp only at htime ⊢
          obtain ⟨hholds, hleft⟩ := htime
          have hholds' : 0 + seconds (exp - 60) ≤ maxTime := by rwa [Nat.zero_add]
          refine ⟨_, by rw [checkedAdd_of_le hholds', Option.map_some], ?_, ?_⟩
          · refine hleft.imp_right fun hleft => ?_
            simp only [seconds] at hleft ⊢
            omega
          · intro time htime
            rw [Option.map_some, Option.mem_def, Option.some.injEq] at htime
            rw [← htime]
            have hsame : seconds (exp - 60) = seconds exp - seconds 60 := Nat.sub_mul exp 60 _
            exact Nat.le_of_eq ((Nat.zero_add _).trans hsame)

/-- What is kept of the fetches so far. -/
structure Inv (parseJson : String → Option Value) (s : Sys) : Prop where
  loop : ∃ loop, s.loop = some loop ∧ loop.Bounded ∧
    (∀ f ∈ s.fetches.getLast?, f.forced ∨ f.began + seconds 5 ≤ loop.nextRefresh) ∧
    (∀ f ∈ s.fetches.getLast?, ∀ time ∈ f.due parseJson, loop.nextRefresh ≤ time) ∧
    ∀ part, part <:+ s.fetches → (∀ f ∈ part, ¬ f.changed) →
      part.countP Fetch.ineffective ≤ loop.ineffectiveForced
  spaced : s.fetches.IsChain fun f g => f.forced ∨ g.forced ∨ f.began + seconds 5 ≤ g.began
  few : ∀ part, part <:+: s.fetches → (∀ f ∈ part, ¬ f.changed) → part.countP Fetch.ineffective ≤ 3

/-- The count the loop keeps covers the fetches since the token last changed. -/
theorem countP_fetched {fetches part : List Fetch} {f : Fetch}
    (hfetched : loop.fetched parseJson maxTime f.forced f.result f.finished = some loop')
    (hprevious : f.previous = loop.token)
    (hcount : ∀ part, part <:+ fetches → (∀ f ∈ part, ¬ f.changed) →
      part.countP Fetch.ineffective ≤ loop.ineffectiveForced)
    (hpart : part <:+ fetches ++ [f]) (hsame : ∀ f ∈ part, ¬ f.changed) :
    part.countP Fetch.ineffective ≤ loop'.ineffectiveForced := by
  rcases List.suffix_concat_iff.mp hpart with rfl | ⟨before, rfl, hbefore⟩
  · exact Nat.zero_le _
  · have hbefore' := hcount before hbefore fun g hg => hsame g (List.mem_append_left _ hg)
    have hf := hsame f (by simp)
    rw [List.countP_append, List.countP_singleton]
    unfold RefreshLoop.fetched at hfetched
    cases hresult : f.result with
    | none =>
        rw [hresult, Option.map_eq_some_iff] at hfetched
        obtain ⟨nextRefresh, -, rfl⟩ := hfetched
        simpa [Fetch.ineffective, hresult] using hbefore'
    | some token =>
        have htoken : token = loop.token := by
          simpa [Fetch.changed, hresult, hprevious] using hf
        rw [hresult, Option.map_eq_some_iff] at hfetched
        obtain ⟨nextRefresh, -, rfl⟩ := hfetched
        cases hforced : f.forced with
        | true => simpa [Fetch.ineffective, hresult, hforced, hprevious, htoken] using hbefore'
        | false => simpa [Fetch.ineffective, hresult, hforced, htoken] using hbefore'

theorem Inv.step {turn : Turn} (h : Inv parseJson s) (htime : LeavesTime parseJson maxTime s turn)
    (hstep : s.step parseJson maxTime turn = some t) : Inv parseJson t := by
  obtain ⟨loop, hloop, hbounded, hafter, hdue, hcount⟩ := h.loop
  unfold Sys.step at hstep
  rw [hloop] at hstep
  dsimp only at hstep
  split at hstep
  · rename_i htimes
    obtain ⟨hclock, hlooked, hwoken⟩ := htimes
    split at hstep
    · cases hstep
      exact ⟨⟨loop, rfl, hbounded, hafter, hdue, hcount⟩, h.spaced, h.few⟩
    · rename_i hfetches
      split at hstep
      · rename_i hfinished
        cases hstep
        obtain ⟨loop', hfetched, hafter', hdue'⟩ :=
          fetched_due hloop hfetches hbounded.least hbounded.most hfinished htime
        have hbounded' := hbounded.fetched hfetches hfetched
        have hcount' : ∀ part, part <:+ s.fetches ++ [turn.fetch loop.token] →
            (∀ f ∈ part, ¬ f.changed) →
            part.countP Fetch.ineffective ≤ loop'.ineffectiveForced := fun part =>
          countP_fetched hfetched rfl hcount
        refine ⟨⟨loop', hfetched, hbounded', ?_, ?_, hcount'⟩, ?_, ?_⟩
        · intro f hf
          rw [List.getLast?_concat, Option.mem_def, Option.some.injEq] at hf
          rw [← hf]
          exact hafter'
        · intro f hf
          rw [List.getLast?_concat, Option.mem_def, Option.some.injEq] at hf
          rw [← hf]
          exact hdue'
        · apply List.isChain_append.mpr
          refine ⟨h.spaced, List.isChain_singleton _, fun f hf g hg => ?_⟩
          rw [List.head?_cons, Option.mem_def, Option.some.injEq] at hg
          rw [← hg]
          rcases hafter f hf with hforced | hspaced
          · exact Or.inl hforced
          · refine Or.inr (hwoken.imp_right fun hwoken => ?_)
            rw [loop.now_add_wait] at hwoken
            exact hspaced.trans ((Nat.le_max_right _ _).trans hwoken)
        · intro part hpart hsame
          rcases List.infix_concat_iff.mp hpart with hpart | hpart
          · exact (hcount' part hpart hsame).trans hbounded'.count
          · exact h.few part hpart hsame
      · cases hstep
  · cases hstep

theorem Inv.paced (h : Inv parseJson s) : s.Paced parseJson maxTime := by
  obtain ⟨loop, hloop, -, -, hdue, -⟩ := h.loop
  refine ⟨h.spaced, fun now hnow result => ⟨loop, hloop, ?_⟩, ?_, h.few⟩
  · simp [Sys.step, hloop, hnow, RefreshLoop.ignores]
  · intro f hf time htime loop' hloop' now
    obtain rfl : loop = loop' := Option.some.inj (hloop.symm.trans hloop')
    rw [loop.now_add_wait]
    exact max_le_max (Nat.le_refl now) (hdue f hf time htime)

variable (parseJson maxTime)

/-- Refreshes nobody forces are five seconds apart, the loop goes on, the next refresh
is in time, and those that change nothing are few. -/
theorem refresh_paced (token : String) (now : Nat) (turns : List Turn) (loop : RefreshLoop)
    (s : Sys) (hspawn : RefreshLoop.spawn parseJson maxTime token now = some loop)
    (hmeets : Runs.Meets (Sys.step parseJson maxTime) (LeavesTime parseJson maxTime)
      { loop := some loop, clock := now } turns)
    (hrun : Runs.run (Sys.step parseJson maxTime) { loop := some loop, clock := now } turns =
      some s) : s.Paced parseJson maxTime := by
  have hstart : Inv parseJson { loop := some loop, clock := now } := by
    refine ⟨⟨loop, rfl, RefreshLoop.Bounded.spawn hspawn, nofun, nofun, ?_⟩, List.isChain_nil, ?_⟩
    · intro part hpart _
      rw [List.suffix_nil.mp hpart]
      exact Nat.zero_le _
    · intro part hpart _
      rw [List.infix_nil.mp hpart]
      exact Nat.zero_le _
  have hinv : Inv parseJson s :=
    Runs.invariant (fun _ _ _ hs htime hstep => hs.step htime hstep) hstart hmeets hrun
  exact hinv.paced

end Library

instance (parseJson : String → Option Value) (maxTime : Nat) :
    ∀ s turn, Decidable (LeavesTime parseJson maxTime s turn)
  | ⟨none, _, _⟩, _ => .isTrue nofun
  | ⟨some loop, _, _⟩, turn => by
      unfold LeavesTime
      have : Decidable (¬ loop.ignores turn.forced →
          match turn.result with
          | some token =>
              match expiry parseJson token with
              | some exp =>
                  seconds (exp - 60) ≤ maxTime ∧
                    (turn.forced ∨ turn.woken + seconds 65 ≤ seconds exp)
              | none => turn.finished + seconds 3600 ≤ maxTime
          | none => turn.finished + loop.backoff ≤ maxTime) := by
        split
        · split
          · infer_instance
          · infer_instance
        · infer_instance
      exact decidable_of_iff _ ⟨fun h _ hloop => Option.some.inj hloop ▸ h, fun h => h loop rfl⟩

/-- Reads the texts below. -/
def readExp (text : String) : Option Value :=
  let exp := fun n => Value.object [("exp", .number (.posInt n))]
  if text = "\x7b\"exp\":0\x7d" then some (exp 0)
  else if text = "\x7b\"exp\":18446744073709551615\x7d" then some (exp 18446744073709551615)
  else if text = "\x7b\"exp\":9999\x7d" then some (exp 9999)
  else none

/-- 64 bits of seconds, with a sign. -/
def unixMaxTime : Nat := seconds (2 ^ 63 - 1) + 999999999

/-- A failure, a refresh in time, and four forced ones that change nothing. -/
def renewed : List Turn :=
  let token := some "e30.eyJleHAiOjk5OTl9.sig"
  [⟨seconds 10, seconds 10, false, none, seconds 11⟩,
    ⟨seconds 11, seconds 16, false, token, seconds 17⟩,
    ⟨seconds 17, seconds 20, true, token, seconds 21⟩,
    ⟨seconds 21, seconds 22, true, token, seconds 23⟩,
    ⟨seconds 23, seconds 24, true, token, seconds 24⟩,
    ⟨seconds 24, seconds 25, true, token, seconds 26⟩]

/-- The loop that starts with a token that has expired. -/
def expiredLoop : RefreshLoop := { token := "e30.eyJleHAiOjB9.sig", nextRefresh := 0 }

theorem refresh_paced_renewed :
    RefreshLoop.spawn readExp unixMaxTime "e30.eyJleHAiOjB9.sig" (seconds 10) = some expiredLoop ∧
      ∃ s, Runs.run (Sys.step readExp unixMaxTime)
          { loop := some expiredLoop, clock := seconds 10 } renewed = some s ∧
        s.fetches.length = 5 ∧ s.Paced readExp unixMaxTime := by
  have hspawn : RefreshLoop.spawn readExp unixMaxTime "e30.eyJleHAiOjB9.sig" (seconds 10) =
      some expiredLoop := by decide
  have hrun : (Runs.run (Sys.step readExp unixMaxTime)
      { loop := some expiredLoop, clock := seconds 10 } renewed).map (·.fetches.length) =
        some 5 := by decide
  obtain ⟨s, hrun, hlength⟩ := Option.map_eq_some_iff.mp hrun
  exact ⟨hspawn, s, hrun, hlength,
    refresh_paced readExp unixMaxTime _ _ renewed _ s hspawn (by decide +kernel) hrun⟩

/-- A token that has expired is fetched again at once, and one that expires beyond what
the clock can hold ends the loop. -/
theorem refresh_spins_or_panics :
    RefreshLoop.spawn readExp unixMaxTime "e30.eyJleHAiOjB9.sig" (seconds 100) =
        some expiredLoop ∧
      (∃ s, Runs.run (Sys.step readExp unixMaxTime)
          { loop := some expiredLoop, clock := seconds 100 }
          [⟨seconds 100, seconds 100, false, some "e30.eyJleHAiOjB9.sig", seconds 100⟩,
            ⟨seconds 100, seconds 100, false, some "e30.eyJleHAiOjB9.sig", seconds 100⟩] = some s ∧
        s.loop = some expiredLoop ∧ ¬ s.Paced readExp unixMaxTime) ∧
      ∃ s, Runs.run (Sys.step readExp unixMaxTime)
          { loop := some expiredLoop, clock := seconds 100 }
          [⟨seconds 100, seconds 100, false,
            some "e30.eyJleHAiOjE4NDQ2NzQ0MDczNzA5NTUxNjE1fQ.sig", seconds 100⟩] = some s ∧
        s.loop = none ∧ ¬ s.Paced readExp unixMaxTime := by
  refine ⟨by decide, ?_, ?_⟩
  · have hrun : (Runs.run (Sys.step readExp unixMaxTime)
        { loop := some expiredLoop, clock := seconds 100 }
        [⟨seconds 100, seconds 100, false, some "e30.eyJleHAiOjB9.sig", seconds 100⟩,
          ⟨seconds 100, seconds 100, false, some "e30.eyJleHAiOjB9.sig", seconds 100⟩]).map
        (fun s => (s.loop, s.fetches.map fun f => (f.began, f.forced))) =
          some (some expiredLoop, [(seconds 100, false), (seconds 100, false)]) := by decide
    obtain ⟨s, hrun, hsame⟩ := Option.map_eq_some_iff.mp hrun
    rw [Prod.mk.injEq] at hsame
    refine ⟨s, hrun, hsame.1, fun h => ?_⟩
    have hspaced : (s.fetches.map fun f => (f.began, f.forced)).IsChain
        fun f g => f.2 ∨ g.2 ∨ f.1 + seconds 5 ≤ g.1 := (List.isChain_map _).mpr h.spaced
    rw [hsame.2] at hspaced
    revert hspaced
    decide
  · have hrun : (Runs.run (Sys.step readExp unixMaxTime)
        { loop := some expiredLoop, clock := seconds 100 }
        [⟨seconds 100, seconds 100, false,
          some "e30.eyJleHAiOjE4NDQ2NzQ0MDczNzA5NTUxNjE1fQ.sig", seconds 100⟩]).map (·.loop) =
          some none := by decide
    obtain ⟨s, hrun, hnone⟩ := Option.map_eq_some_iff.mp hrun
    refine ⟨s, hrun, hnone, fun h => ?_⟩
    obtain ⟨loop, hloop, -⟩ := h.goesOn _ (Nat.le_refl _) none
    rw [hnone] at hloop
    cases hloop

end DatumConnect.Credentials
