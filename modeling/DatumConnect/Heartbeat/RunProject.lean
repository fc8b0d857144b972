import DatumConnect.Cloud.Calls
import DatumConnect.Credentials.RefreshLoop
import Mathlib.Data.List.Chain
/-!
# The heartbeat of a project

`run_project` finds the connector of the node, publishes its connection details, and
renews the connector's Lease at about half the duration that the Lease has.  The duration
is read once and kept until an error resets what is known.
-/

namespace DatumConnect.Heartbeat

open DatumConnect.Cloud (KubeError)
open DatumConnect.Credentials (seconds seconds_mono)
open DatumConnect.Lib
open DatumConnect.Lib.Json

/-- `DEFAULT_LEASE_DURATION_SECS` -/
def defaultLeaseDurationSecs : Int32 := 30

/-- `BACKOFF_INITIAL`, in seconds. -/
def backoffInitial : Nat := 2

def backoffMax : Nat := 30

structure ConnectorCache where
  name : String
  leaseName : Option String
  leaseDurationSeconds : Option Int32 := none
  lastDetails : Option Value := none
  lastHomeRelay : Option String
  deriving DecidableEq, Repr

/-! ## The interval -/

def renewalBase (leaseDurationSeconds : Int32) : UInt64 :=
  max (UInt64.ofNat (max leaseDurationSeconds.toInt 1).toNat / 2) 1

def jitterMax (leaseDurationSeconds : Int32) : UInt64 := max (renewalBase leaseDurationSeconds / 5) 1

/-- `renewal_interval`, in seconds; `none` where the sum of the durations overflows.  The
jitter is drawn between zero and its maximum. -/
def renewalInterval (leaseDurationSeconds : Int32) (draw : UInt64) : Option UInt64 :=
  let base := renewalBase leaseDurationSeconds
  let jitter := draw % (jitterMax leaseDurationSeconds + 1)
  if base.toNat + jitter.toNat < 2 ^ 64 then some (base + jitter) else none

/-! ## A turn of the loop -/

/-- What is read of a Connector. -/
structure Found where
  name : String
  leaseRef : Option String
  homeRelay : Option String
  deriving DecidableEq, Repr

/-- What a turn is answered, to the calls that it makes. -/
structure Answers where
  /-- Whether there is a client for the project. -/
  client : Bool
  found : Except KubeError (Option Found)
  connector : Except KubeError Found
  /-- From the relay that was last seen; nothing inside where it cannot be serialised. -/
  details : Option String → Option (Option Value)
  detailsPatched : Except KubeError Unit
  lease : Except KubeError (Option Int32)
  renewed : Except KubeError Unit
  draw : UInt64

structure Loop where
  cache : Option ConnectorCache := none
  /-- `Backoff::current` -/
  backoff : Nat := backoffInitial
  deriving DecidableEq, Repr

/-- A turn that ends early: the loop goes on after a while. -/
structure Paused where
  loop : Loop
  sleep : Nat
  deriving DecidableEq, Repr

/-- `backoff.next()` -/
def pause (cache : Option ConnectorCache) (backoff : Nat) : Paused where
  loop := { cache, backoff := min (backoff * 2) backoffMax }
  sleep := backoff

/-- `is_unauthorized` forces a refresh of the token, which is not part of the loop. -/
inductive LeaseErrorAction where
  | retain
  | reset
  | refreshAuth
  deriving DecidableEq, Repr

def classifyLeaseError (err : KubeError) : LeaseErrorAction :=
  match err with
  | .api 404 _ => .reset
  | .api 401 _ => .refreshAuth
  | _ => .retain

def pauseOnLeaseError (cached : ConnectorCache) (backoff : Nat) (err : KubeError) : Paused :=
  match classifyLeaseError err with
  | .reset => pause none backoff
  | .refreshAuth | .retain => pause (some cached) backoff

namespace Answers

variable (a : Answers)

def lookUp (loop : Loop) : Except Paused (ConnectorCache × Nat) :=
  match loop.cache with
  | some cached => .ok (cached, loop.backoff)
  | none =>
      match a.found with
      | .ok (some connector) =>
          .ok ({
            name := connector.name
            leaseName := connector.leaseRef
            lastHomeRelay := connector.homeRelay }, backoffInitial)
      | .ok none | .error _ => .error (pause none loop.backoff)

def nameLease (cached : ConnectorCache) (backoff : Nat) : Except Paused ConnectorCache :=
  match cached.leaseName with
  | some _ => .ok cached
  | none =>
      match a.connector with
      | .ok connector =>
          match connector.leaseRef with
          | none => .error (pause (some cached) backoff)
          | some lease =>
              .ok { cached with leaseName := some lease, lastHomeRelay := connector.homeRelay }
      | .error _ => .error (pause none backoff)

def publish (cached : ConnectorCache) (backoff : Nat) : Except Paused ConnectorCache :=
  match a.details cached.lastHomeRelay with
  | none | some none => .error (pause (some cached) backoff)
  | some (some details) =>
      if cached.lastDetails = some details then .ok cached
      else
        match a.detailsPatched with
        | .ok () => .ok { cached with lastDetails := some details }
        | .error (.api 401 _) => .error (pause (some cached) backoff)
        | .error _ => .ok cached

def readLease (cached : ConnectorCache) (backoff : Nat) : Except Paused ConnectorCache :=
  match cached.leaseDurationSeconds with
  | some _ => .ok cached
  | none =>
      match cached.leaseName with
      | none => .error (pause (some cached) backoff)
      | some _ =>
          match a.lease with
          | .ok leaseDurationSeconds => .ok { cached with leaseDurationSeconds }
          | .error err => .error (pauseOnLeaseError cached backoff err)

/-- Sets `renewTime`, and how long the loop sleeps then. -/
def renew (cached : ConnectorCache) (backoff : Nat) : Except Paused (Loop × Option UInt64) :=
  match cached.leaseName with
  | none => .error (pause (some cached) backoff)
  | some _ =>
      match a.renewed with
      | .ok () =>
          .ok ({ cache := some cached },
            renewalInterval (cached.leaseDurationSeconds.getD defaultLeaseDurationSecs) a.draw)
      | .error err => .error (pauseOnLeaseError cached backoff err)

/-- One turn of the loop of `run_project`. -/
def turn (loop : Loop) : Except Paused (Loop × Option UInt64) :=
  if a.client then do
    let (cached, backoff) ← a.lookUp loop
    let cached ← a.nameLease cached backoff
    let cached ← a.publish cached backoff
    let cached ← a.readLease cached backoff
    a.renew cached backoff
  else .error (pause loop.cache loop.backoff)

end Answers

/-! ## Runs -/

/-- A `renewTime` that was set, and the duration the Lease had then. -/
structure Renewal where
  /-- In nanoseconds. -/
  renewTime : Nat
  leaseDurationSeconds : Option Int32
  deriving DecidableEq, Repr

structure Sys where
  /-- `none` once the loop has been cancelled, or has panicked. -/
  loop : Option Loop := some {}
  /-- When it wakes. -/
  wakes : Nat
  /-- The `leaseDurationSeconds` of the Lease. -/
  lease : Option Int32
  /-- From here on calls succeed. -/
  settled : Bool := false
  /-- Those since then. -/
  renewals : List Renewal := []
  deriving DecidableEq, Repr

inductive Act where
  /-- A turn, and the time until it sets `renewTime` or ends. -/
  | turn (answers : Answers) (took : Nat)
  | setDuration (leaseDurationSeconds : Option Int32)
  | settle
  | cancel

/-- Every call the turn can make succeeds. -/
def Answers.succeed (a : Answers) : Bool :=
  a.client && a.found.isOk && a.connector.isOk && a.detailsPatched.isOk && a.lease.isOk &&
    a.renewed.isOk

/-- The answer about the Lease is the Lease as it is. -/
def Answers.readsLease (a : Answers) (lease : Option Int32) : Bool :=
  match a.lease with
  | .ok leaseDurationSeconds => leaseDurationSeconds = lease
  | .error _ => true

namespace Sys

/-- After the first renewal of the settled part every call succeeds at once. -/
def turn (s : Sys) (a : Answers) (took : Nat) : Option Sys :=
  match s.loop with
  | none => none
  | some loop =>
      if a.readsLease s.lease ∧ (s.renewals = [] ∨ a.succeed ∧ took = 0) then
        match a.turn loop with
        | .error paused =>
            some { s with loop := some paused.loop, wakes := s.wakes + took + seconds paused.sleep }
        | .ok (loop, some interval) =>
            some { s with
              loop := some loop
              wakes := s.wakes + took + seconds interval.toNat
              renewals :=
                if s.settled then s.renewals ++ [⟨s.wakes + took, s.lease⟩] else s.renewals }
        | .ok (_, none) => some { s with loop := none }
      else none

def step (s : Sys) : Act → Option Sys
  | .turn a took => s.turn a took
  | .setDuration leaseDurationSeconds => some { s with lease := leaseDurationSeconds }
  | .settle => some { s with settled := true }
  | .cancel => some { s with loop := none }

/-- Two renewals are less than the Lease's duration apart, and the next one is due within
the duration it has now. -/
structure InTime (s : Sys) : Prop where
  apart : s.renewals.IsChain fun p q => ∀ duration ∈ q.leaseDurationSeconds,
    q.renewTime < p.renewTime + seconds duration.toInt.toNat
  due : s.loop ≠ none → ∀ p ∈ s.renewals.getLast?, ∀ duration ∈ s.lease,
    s.wakes < p.renewTime + seconds duration.toInt.toNat

end Sys

/-- The longest that the loop sleeps after a renewal, in seconds. -/
def longest (leaseDurationSeconds : Int32) : Nat :=
  (renewalBase leaseDurationSeconds).toNat + (jitterMax leaseDurationSeconds).toNat

/-- The duration that the loop goes by after its next renewal. -/
def Sys.goesBy (s : Sys) : Int32 :=
  (((s.loop.bind Loop.cache).bind ConnectorCache.leaseDurationSeconds).orElse fun _ =>
    s.lease).getD defaultLeaseDurationSecs

def Covers (leaseDurationSeconds : Option Int32) (goesBy : Int32) : Prop :=
  ∀ duration ∈ leaseDurationSeconds, (longest goesBy : Int) < duration.toInt

/-- The node has connection details, given the relay that the loop knows, and the Lease's duration
stays above the longest sleep for the duration that the loop goes by. -/
def Healthy (s : Sys) : Act → Prop
  | .turn a _ =>
      s.settled →
        (∀ cached ∈ s.loop.bind Loop.cache,
          ∃ details, a.details cached.lastHomeRelay = some (some details)) ∧
        Covers s.lease s.goesBy
  | .setDuration leaseDurationSeconds =>
      s.renewals ≠ [] → Covers leaseDurationSeconds
        (((s.loop.bind Loop.cache).bind ConnectorCache.leaseDurationSeconds).getD
          defaultLeaseDurationSecs)
  | _ => True

/-! ## The arithmetic of the interval -/

theorem toNat_max (a b : UInt64) : (max a b).toNat = max a.toNat b.toNat := by
  rw [UInt64.max_def]
  split
  · rename_i h
    exact (Nat.max_eq_right h).symm
  · rename_i h
    exact (Nat.max_eq_left (Nat.le_of_lt (Nat.not_le.mp h))).symm

theorem toNat_renewalBase (d : Int32) :
    (renewalBase d).toNat = max ((max d.toInt 1).toNat / 2) 1 := by
  have hlt : d.toInt < 2 ^ 31 := Int32.toInt_lt d
  have hsmall : (max d.toInt 1).toNat % 2 ^ 64 = (max d.toInt 1).toNat :=
    Nat.mod_eq_of_lt (by omega)
  rw [renewalBase, toNat_max, UInt64.toNat_div, UInt64.toNat_ofNat', hsmall]
  rfl

theorem toNat_jitterMax (d : Int32) :
    (jitterMax d).toNat = max ((renewalBase d).toNat / 5) 1 := by
  rw [jitterMax, toNat_max, UInt64.toNat_div]
  rfl

/-- No duration and no jitter overflows. -/
theorem renewalInterval_eq (d : Int32) (draw : UInt64) :
    ∃ interval, renewalInterval d draw = some interval ∧
      (renewalBase d).toNat ≤ interval.toNat ∧ interval.toNat ≤ longest d := by
  have hlt : d.toInt < 2 ^ 31 := Int32.toInt_lt d
  have hbase := toNat_renewalBase d
  have hjitter := toNat_jitterMax d
  have hsucc : (jitterMax d + 1).toNat = (jitterMax d).toNat + 1 := by
    rw [UInt64.toNat_add]
    apply Nat.mod_eq_of_lt
    rw [UInt64.toNat_one]
    omega
  have hmod : (draw % (jitterMax d + 1)).toNat ≤ (jitterMax d).toNat := by
    rw [UInt64.toNat_mod, hsucc]
    exact Nat.lt_succ_iff.mp (Nat.mod_lt _ (Nat.succ_pos _))
  have hsum : (renewalBase d).toNat + (draw % (jitterMax d + 1)).toNat < 2 ^ 64 := by omega
  refine ⟨_, if_pos hsum, ?_⟩
  rw [UInt64.toNat_add, Nat.mod_eq_of_lt hsum]
  unfold longest
  omega

/-- A duration of three seconds or more is never slept through. -/
theorem longest_lt {d : Int32} (h : 3 ≤ d.toInt) : (longest d : Int) < d.toInt := by
  have hbase := toNat_renewalBase d
  have hjitter := toNat_jitterMax d
  unfold longest
  omega

/-! ## A turn whose calls succeed -/

section Turns

variable {a : Answers} {loop loop' : Loop} {cached : ConnectorCache}

theorem bind_eq_ok {ε α β : Type} {x : Except ε α} {f : α → Except ε β} {b : β}
    (h : x >>= f = .ok b) : ∃ v, x = .ok v ∧ f v = .ok b := by
  cases x with
  | error e => cases h
  | ok v => exact ⟨v, rfl, h⟩

theorem lookUp_duration {backoff : Nat} (h : a.lookUp loop = .ok (cached, backoff)) :
    cached.leaseDurationSeconds = loop.cache.bind ConnectorCache.leaseDurationSeconds := by
  unfold Answers.lookUp at h
  cases hcache : loop.cache with
  | some known =>
      rw [hcache] at h
      cases h
      rfl
  | none =>
      rw [hcache] at h
      dsimp only at h
      split at h
      · cases h
        rfl
      · cases h
      · cases h

theorem nameLease_ok {cached' : ConnectorCache} {backoff : Nat}
    (h : a.nameLease cached backoff = .ok cached') :
    cached'.leaseDurationSeconds = cached.leaseDurationSeconds := by
  unfold Answers.nameLease at h
  split at h
  · cases h
    rfl
  · split at h
    · split at h
      · cases h
      · cases h
        rfl
    · cases h

theorem publish_ok {cached' : ConnectorCache} {backoff : Nat}
    (h : a.publish cached backoff = .ok cached') :
    cached'.leaseDurationSeconds = cached.leaseDurationSeconds := by
  unfold Answers.publish at h
  split at h
  · cases h
  · cases h
  · split at h
    · cases h
      rfl
    · split at h
      · cases h
        rfl
      · cases h
      · cases h
        rfl

/-- The duration is the one that was kept, or is read now. -/
theorem readLease_ok {cached' : ConnectorCache} {backoff : Nat} {lease : Option Int32}
    (h : a.readLease cached backoff = .ok cached') (hreads : a.readsLease lease) :
    cached'.leaseDurationSeconds = cached.leaseDurationSeconds.orElse fun _ => lease := by
  unfold Answers.readLease at h
  split at h
  · rename_i d hd
    cases h
    rw [hd]
    rfl
  · rename_i hd
    split at h
    · cases h
    · split at h
      · rename_i d hlease
        cases h
        have hsame : d = lease := by simpa [Answers.readsLease, hlease] using hreads
        rw [hd, ← hsame]
        rfl
      · cases h

theorem renew_ok {backoff : Nat} {interval : Option UInt64}
    (h : a.renew cached backoff = .ok (loop', interval)) :
    loop'.cache = some cached ∧ cached.leaseName ≠ none ∧
      interval =
        renewalInterval (cached.leaseDurationSeconds.getD defaultLeaseDurationSecs) a.draw := by
  unfold Answers.renew at h
  split at h
  · cases h
  · rename_i name hname
    split at h
    · cases h
      exact ⟨rfl, by rw [hname]; nofun, rfl⟩
    · cases h

/-- What a turn that renews keeps, and how long it sleeps. -/
theorem turn_ok {interval : Option UInt64} {lease : Option Int32}
    (h : a.turn loop = .ok (loop', interval)) (hreads : a.readsLease lease) :
    ∃ cached, loop'.cache = some cached ∧ cached.leaseName ≠ none ∧
      cached.leaseDurationSeconds =
        ((loop.cache.bind ConnectorCache.leaseDurationSeconds).orElse fun _ => lease) ∧
      interval =
        renewalInterval (cached.leaseDurationSeconds.getD defaultLeaseDurationSecs) a.draw := by
  unfold Answers.turn at h
  split at h
  · obtain ⟨⟨cached, backoff⟩, hfound, h⟩ := bind_eq_ok h
    obtain ⟨named, hnamed, h⟩ := bind_eq_ok h
    obtain ⟨published, hpublished, h⟩ := bind_eq_ok h
    obtain ⟨read, hread, h⟩ := bind_eq_ok h
    obtain ⟨hcache, hname, hinterval⟩ := renew_ok h
    refine ⟨read, hcache, hname, ?_, hinterval⟩
    rw [readLease_ok hread hreads, publish_ok hpublished, nameLease_ok hnamed, lookUp_duration hfound]
  · cases h

/-- A turn whose calls succeed renews a Lease that is known, where there are details. -/
theorem turn_succeeds (hsucceed : a.succeed) (hcache : loop.cache = some cached)
    (hname : cached.leaseName ≠ none)
    (hdetails : ∃ details, a.details cached.lastHomeRelay = some (some details)) :
    ∃ loop' interval, a.turn loop = .ok (loop', interval) := by
  simp only [Answers.succeed, Bool.and_eq_true] at hsucceed
  obtain ⟨⟨⟨⟨⟨hclient, -⟩, -⟩, hpatched⟩, hlease⟩, hrenewed⟩ := hsucceed
  obtain ⟨name, hname⟩ := Option.ne_none_iff_exists'.mp hname
  have hpublish : ∃ published, a.publish cached loop.backoff = .ok published ∧
      published.leaseName = some name := by
    obtain ⟨details, hdetails⟩ := hdetails
    unfold Answers.publish
    rw [hdetails]
    dsimp only
    split
    · exact ⟨cached, rfl, hname⟩
    · cases hpatch : a.detailsPatched with
      | ok => exact ⟨_, rfl, hname⟩
      | error err =>
          rw [hpatch] at hpatched
          cases hpatched
  obtain ⟨published, hpublished, hname'⟩ := hpublish
  have hread : ∃ read, a.readLease published loop.backoff = .ok read ∧ read.leaseName = some name := by
    unfold Answers.readLease
    split
    · exact ⟨published, rfl, hname'⟩
    · rw [hname']
      cases hread : a.lease with
      | ok d => exact ⟨_, rfl, rfl⟩
      | error err =>
          rw [hread] at hlease
          cases hlease
  obtain ⟨read, hread, hname''⟩ := hread
  have hrenew : ∃ result, a.renew read loop.backoff = .ok result := by
    unfold Answers.renew
    rw [hname'']
    cases hrenew : a.renewed with
    | ok => exact ⟨_, rfl⟩
    | error err =>
        rw [hrenew] at hrenewed
        cases hrenewed
  obtain ⟨⟨loop', interval⟩, hrenew⟩ := hrenew
  refine ⟨loop', interval, ?_⟩
  have hlookUp : a.lookUp loop = .ok (cached, loop.backoff) := by
    rw [Answers.lookUp, hcache]
  have hnameLease : a.nameLease cached loop.backoff = .ok cached := by
    rw [Answers.nameLease, hname]
  rw [Answers.turn, if_pos hclient, hlookUp]
  show a.nameLease cached loop.backoff >>= _ = _
  rw [hnameLease]
  show a.publish cached loop.backoff >>= _ = _
  rw [hpublished]
  show a.readLease published loop.backoff >>= _ = _
  rw [hread]
  exact hrenew

end Turns

/-! ## What is kept -/

variable {s t : Sys}

theorem Covers.wakes_lt {lease : Option Int32} {goesBy : Int32} (h : Covers lease goesBy)
    {renewTime wakes : Nat} (hwakes : wakes ≤ renewTime + seconds (longest goesBy)) :
    ∀ duration ∈ lease, wakes < renewTime + seconds duration.toInt.toNat := by
  intro duration hduration
  have hlt := h duration hduration
  simp only [seconds] at hwakes ⊢
  omega

/-- After a renewal the loop goes by a duration that the Lease's covers. -/
structure Inv (s : Sys) : Prop where
  apart : s.renewals.IsChain fun p q => ∀ duration ∈ q.leaseDurationSeconds,
    q.renewTime < p.renewTime + seconds duration.toInt.toNat
  settled : s.renewals ≠ [] → s.settled
  last : ∀ p ∈ s.renewals.getLast?, ∀ loop ∈ s.loop, ∃ cached, loop.cache = some cached ∧
    cached.leaseName ≠ none ∧
    s.wakes ≤ p.renewTime +
      seconds (longest (cached.leaseDurationSeconds.getD defaultLeaseDurationSecs)) ∧
    Covers s.lease (cached.leaseDurationSeconds.getD defaultLeaseDurationSecs)

theorem Inv.inTime (h : Inv s) : s.InTime := by
  refine ⟨h.apart, fun hloop p hp => ?_⟩
  obtain ⟨loop, hloop⟩ := Option.ne_none_iff_exists'.mp hloop
  obtain ⟨cached, -, -, hwakes, hcovers⟩ := h.last p hp loop hloop
  exact hcovers.wakes_lt hwakes

/-- The turn sets `renewTime` in time for the renewal before it. -/
theorem Inv.renewed (h : Inv s) {a : Answers} {took : Nat} {loop loop' : Loop} {interval : UInt64}
    (hloop : s.loop = some loop) (hhealthy : Healthy s (.turn a took))
    (hreads : a.readsLease s.lease) (hprompt : s.renewals ≠ [] → took = 0)
    (hturn : a.turn loop = .ok (loop', some interval)) :
    Inv { s with
      loop := some loop'
      wakes := s.wakes + took + seconds interval.toNat
      renewals := if s.settled then s.renewals ++ [⟨s.wakes + took, s.lease⟩] else s.renewals } := by
  obtain ⟨cached, hcache, hname, hduration, hinterval⟩ := turn_ok hturn hreads
  have hgoesBy : s.goesBy = cached.leaseDurationSeconds.getD defaultLeaseDurationSecs := by
    rw [hduration, Sys.goesBy, hloop]
    rfl
  by_cases hsettled : s.settled
  · have hcovers : Covers s.lease s.goesBy := (hhealthy hsettled).2
    simp only [hsettled, if_true]
    refine ⟨?_, fun _ => rfl, ?_⟩
    · apply List.isChain_append.mpr
      refine ⟨h.apart, List.isChain_singleton _, fun p hp q hq => ?_⟩
      rw [List.head?_cons, Option.mem_def, Option.some.injEq] at hq
      obtain ⟨known, -, -, hwakes, hcovers'⟩ := h.last p hp loop hloop
      have htook : took = 0 := hprompt fun hnone => by
        rw [hnone] at hp
        cases hp
      rw [← hq, htook]
      exact hcovers'.wakes_lt hwakes
    · intro p hp loop'' hloop''
      rw [List.getLast?_concat, Option.mem_def, Option.some.injEq] at hp
      obtain rfl : loop' = loop'' := Option.some.inj hloop''
      rw [← hp]
      refine ⟨cached, hcache, hname, ?_, hgoesBy ▸ hcovers⟩
      obtain ⟨interval', hinterval', -, hlongest⟩ :=
        renewalInterval_eq (cached.leaseDurationSeconds.getD defaultLeaseDurationSecs) a.draw
      obtain rfl : interval = interval' := Option.some.inj (hinterval.trans hinterval')
      exact Nat.add_le_add_left (seconds_mono hlongest) _
  · have hnone : s.renewals = [] := by
      by_contra hsome
      exact hsettled (h.settled hsome)
    simp only [hsettled, hnone]
    exact ⟨List.isChain_nil, nofun, nofun⟩

theorem Inv.turn (h : Inv s) {a : Answers} {took : Nat} (hhealthy : Healthy s (.turn a took))
    (hstep : s.turn a took = some t) : Inv t := by
  unfold Sys.turn at hstep
  split at hstep
  · cases hstep
  · rename_i loop hloop
    split at hstep
    · rename_i hallows
      obtain ⟨hreads, hprompt⟩ := hallows
      split at hstep
      · rename_i paused hturn
        cases hstep
        -- after a renewal the calls of the turn succeed, and it does not pause
        have hnone : s.renewals = [] := by
          by_contra hsome
          obtain ⟨hsucceed, -⟩ := hprompt.resolve_left hsome
          obtain ⟨p, hp⟩ := Option.isSome_iff_exists.mp (List.getLast?_isSome.mpr hsome)
          obtain ⟨cached, hcache, hname, -⟩ := h.last p hp loop hloop
          have hknown : cached ∈ s.loop.bind Loop.cache := by
            rw [hloop, Option.bind_some, hcache]
            rfl
          obtain ⟨loop', interval, hok⟩ :=
            turn_succeeds hsucceed hcache hname ((hhealthy (h.settled hsome)).1 cached hknown)
          rw [hturn] at hok
          cases hok
        refine ⟨h.apart, h.settled, fun p hp => ?_⟩
        rw [show s.renewals = [] from hnone] at hp
        cases hp
      · rename_i loop' interval hturn
        cases hstep
        exact h.renewed hloop hhealthy hreads (fun hsome => (hprompt.resolve_left hsome).2) hturn
      · rename_i loop' hturn
        obtain ⟨cached, -, -, -, hinterval⟩ := turn_ok hturn hreads
        obtain ⟨interval, hsome, -⟩ :=
          renewalInterval_eq (cached.leaseDurationSeconds.getD defaultLeaseDurationSecs) a.draw
        cases hinterval.trans hsome
    · cases hstep

theorem Inv.step {act : Act} (h : Inv s) (hhealthy : Healthy s act) (hstep : s.step act = some t) :
    Inv t := by
  cases act with
  | turn a took => exact h.turn hhealthy hstep
  | setDuration d =>
      cases hstep
      refine ⟨h.apart, h.settled, fun p hp loop hloop => ?_⟩
      obtain ⟨cached, hcache, hname, hwakes, -⟩ := h.last p hp loop hloop
      refine ⟨cached, hcache, hname, hwakes, ?_⟩
      have hsome : s.renewals ≠ [] := fun hnone => by
        rw [show s.renewals = [] from hnone] at hp
        cases hp
      have hcovers := hhealthy hsome
      rw [show s.loop = some loop from hloop, Option.bind_some, hcache, Option.bind_some] at hcovers
      exact hcovers
  | settle =>
      cases hstep
      exact ⟨h.apart, fun _ => rfl, h.last⟩
  | cancel =>
      cases hstep
      exact ⟨h.apart, h.settled, fun _ _ _ hloop => nomatch hloop⟩

/-- Renewals are less than the Lease's duration apart where that stays above the longest
sleep for the duration that the loop goes by, which it is itself from three seconds on;
and no interval overflows. -/
theorem renewals_in_time (wakes : Nat) (lease : Option Int32) (acts : List Act) (s : Sys)
    (hmeets : Runs.Meets Sys.step Healthy { wakes, lease } acts)
    (hrun : Runs.run Sys.step { wakes, lease } acts = some s) :
    s.InTime ∧ (∀ d : Int32, 3 ≤ d.toInt → Covers (some d) d) ∧
      ∀ (d : Int32) draw, ∃ interval, renewalInterval d draw = some interval ∧
        interval.toNat ≤ longest d := by
  have hstart : Inv { wakes, lease } := ⟨List.isChain_nil, fun h => absurd rfl h, nofun⟩
  have hinv : Inv s := Runs.invariant (fun _ _ _ hs hhealthy hstep => hs.step hhealthy hstep) hstart
    hmeets hrun
  refine ⟨hinv.inTime, fun d hd duration hduration => ?_, fun d draw => ?_⟩
  · obtain rfl : d = duration := Option.some.inj hduration
    exact longest_lt hd
  · obtain ⟨interval, hsome, -, hle⟩ := renewalInterval_eq d draw
    exact ⟨interval, hsome, hle⟩

/-- Every call succeeds. -/
def succeeds (lease : Option Int32) (draw : UInt64) : Answers where
  client := true
  found := .ok (some ⟨"connector", some "lease", some "relay"⟩)
  connector := .ok ⟨"connector", some "lease", some "relay"⟩
  details := fun _ => some (some .null)
  detailsPatched := .ok ()
  lease := .ok lease
  renewed := .ok ()
  draw

/-- A renewal that fails, then one after another while the duration is lowered to a little
more than the longest sleep. -/
def lowered : List Act :=
  [.turn { succeeds (some 30) 0 with renewed := .error (.api 404 "gone") } 5, .settle,
    .turn (succeeds (some 30) 3) 7, .setDuration (some 19), .turn (succeeds (some 19) 2) 0]

theorem renewals_in_time_lowered :
    ∃ s : Sys, Runs.run Sys.step { wakes := 0, lease := some 30 } lowered = some s ∧
      s.renewals.length = 2 ∧ s.InTime := by
  have hrun : (Runs.run Sys.step { wakes := 0, lease := some 30 } lowered).map (·.renewals.length) =
      some 2 := by decide
  obtain ⟨s, hrun, hlength⟩ := Option.map_eq_some_iff.mp hrun
  have hcovers : ∀ d : Int32, (longest 30 : Int) < d.toInt → Covers (some d) 30 := by
    rintro d hd _ ⟨⟩
    exact hd
  have hmeets : Runs.Meets Sys.step Healthy { wakes := 0, lease := some 30 } lowered :=
    ⟨nofun, trivial, fun _ => ⟨fun _ _ => ⟨_, rfl⟩, hcovers 30 (by decide)⟩,
      fun _ => hcovers 19 (by decide), fun _ => ⟨fun _ _ => ⟨_, rfl⟩, hcovers 19 (by decide)⟩,
      trivial⟩
  exact ⟨s, hrun, hlength, (renewals_in_time 0 (some 30) lowered s hmeets hrun).1⟩

/-- Turns in which the node knows no relay. -/
def offline (turns : Nat) : List Act :=
  List.replicate turns (.turn { succeeds (some 30) 0 with details := fun _ => none } 0)

theorem lapses {start : Sys} {acts : List Act} {renewals : List Renewal}
    (hrun : (Runs.run Sys.step start acts).map (·.renewals) = some renewals)
    (hlate : ∀ t : Sys, t.renewals = renewals → ¬ t.InTime) :
    ∃ s, Runs.run Sys.step start acts = some s ∧ s.renewals = renewals ∧ ¬ s.InTime := by
  obtain ⟨s, hs, hrenewals⟩ := Option.map_eq_some_iff.mp hrun
  exact ⟨s, hs, hrenewals, hlate s hrenewals⟩

/-- A Lease of one second is renewed every second, one that is cut from thirty seconds to ten is
renewed after fifteen, and one of thirty after forty-five where the node knows no relay for four
turns. -/
theorem lease_lapses :
    (∃ s : Sys, Runs.run Sys.step { wakes := 0, lease := some 1 }
        [.settle, .turn (succeeds (some 1) 0) 0, .turn (succeeds (some 1) 0) 0] = some s ∧
      s.renewals = [⟨0, some 1⟩, ⟨seconds 1, some 1⟩] ∧ ¬ s.InTime) ∧
    (∃ s : Sys, Runs.run Sys.step { wakes := 0, lease := some 30 }
        [.settle, .turn (succeeds (some 30) 0) 0, .setDuration (some 10),
          .turn (succeeds (some 10) 0) 0] = some s ∧
      s.renewals = [⟨0, some 30⟩, ⟨seconds 15, some 10⟩] ∧ ¬ s.InTime) ∧
    ∃ s : Sys, Runs.run Sys.step { wakes := 0, lease := some 30 }
        ([.settle, .turn (succeeds (some 30) 0) 0] ++ offline 4 ++
          [.turn (succeeds (some 30) 0) 0]) = some s ∧
      s.renewals = [⟨0, some 30⟩, ⟨seconds 45, some 30⟩] ∧ ¬ s.InTime := by
  have hlate {p q : Renewal} {duration : Int32} (hq : q.leaseDurationSeconds = some duration)
      (hlong : p.renewTime + seconds duration.toInt.toNat ≤ q.renewTime) (t : Sys)
      (ht : t.renewals = [p, q]) : ¬ t.InTime := by
    intro h
    have hapart := h.apart
    rw [ht, List.isChain_pair] at hapart
    exact absurd (hapart duration hq) (Nat.not_lt.mpr hlong)
  exact ⟨lapses (by decide) (hlate rfl (by decide)), lapses (by decide) (hlate rfl (by decide)),
    lapses (by decide) (hlate rfl (by decide))⟩

end DatumConnect.Heartbeat
