import DatumConnect.Pairing.Approval
import DatumConnect.Pairing.Timeline
/-!
# The device flow is polite and ends

What RFC 8628 asks of a client that polls, told by the calls alone: when the code was got, what was
answered to its polls, and when the last one was made.
-/

namespace DatumConnect.Pairing

open DatumConnect.Lib
open PairPart

/-- What the calls so far have come to. -/
structure Flow where
  auth : Option DeviceAuthorization := none
  /-- The user code that was shown last. -/
  announced : Option String := none
  interval : Nat := 0
  expiresAt : Nat := 0
  lastPoll : Option Nat := none
  /-- The success answer to a poll of this code. -/
  success : Option TokenSuccess := none

def TokenReply.slowsDown : TokenReply → Bool
  | .error e _ => e = "slow_down"
  | _ => false

def TokenReply.succeeded : TokenReply → Option TokenSuccess
  | .token t => some t
  | _ => none

namespace Flow

variable (cfg : PairingConfig)

/-- A code is polled five ticks apart, and for 300, where the service does not say. -/
def begin (announced : Option String) (auth : DeviceAuthorization) (at_ : Nat) : Flow where
  auth := some auth
  announced
  interval := cfg.ticks (if auth.interval = 0 then 5 else auth.interval)
  expiresAt := at_ + cfg.ticks (if auth.expiresIn = 0 then 300 else auth.expiresIn)

def polled (g : Flow) (at_ : Nat) (reply : TokenReply) : Flow :=
  { g with
    lastPoll := some at_
    interval := if reply.slowsDown then g.interval + cfg.ticks 5 else g.interval
    success := reply.succeeded.or g.success }

def after (g : Flow) (began ended : Nat) : (c : PairCall) → c.Reply → Flow
  | .deviceAuthorization, .authorization auth => begin cfg g.announced auth ended
  | .event (.code userCode _), _ => { g with announced := some userCode }
  | .pollToken _, reply => g.polled cfg began reply
  | _, _ => g

end Flow

/-- Where the calls of a log have led to. -/
def flow (cfg : PairingConfig) (log : List Dated) : Flow :=
  log.foldl (fun g m => g.after cfg m.began m.ended m.call m.reply) {}

/-- No code is asked for at or after the deadline.  The code that is shown is polled before it
expires and before the deadline, at least the current interval after it was polled last; and that
interval is what is slept. -/
def MayCall (cfg : PairingConfig) (deadline : Nat) (log : List Dated) (m : Dated) : Prop :=
  match m.call with
  | .deviceAuthorization => m.began < deadline
  | .sleep duration => duration = (flow cfg log).interval
  | .pollToken code =>
      (∃ auth, (flow cfg log).auth = some auth ∧ (flow cfg log).announced = some auth.userCode ∧
        code = auth.deviceCode) ∧
      m.began < (flow cfg log).expiresAt ∧ m.began < deadline ∧
      ∀ last ∈ (flow cfg log).lastPoll, last + (flow cfg log).interval ≤ m.began
  | _ => True

theorem flow_append (cfg : PairingConfig) (log : List Dated) (m : Dated) :
    flow cfg (log ++ [m]) = (flow cfg log).after cfg m.began m.ended m.call m.reply := by
  rw [flow, List.foldl_append]
  rfl

/-- The answer that a login comes from is one to the code shown last. -/
def Earned (cfg : PairingConfig) (s : Timeline) (login : Login) : Prop :=
  ∃ auth token, (flow cfg s.log).auth = some auth ∧
    (flow cfg s.log).announced = some auth.userCode ∧ (flow cfg s.log).success = some token ∧
    login.token = token.accessToken

/-! ## One code -/

/-- The code is shown, and polled no later than now. -/
structure Polling (cfg : PairingConfig) (auth : DeviceAuthorization) (expiresAt interval : Nat)
    (s : Timeline) : Prop where
  current : (flow cfg s.log).auth = some auth
  announced : (flow cfg s.log).announced = some auth.userCode
  expires : (flow cfg s.log).expiresAt = expiresAt
  interval : (flow cfg s.log).interval = interval
  last : ∀ last ∈ (flow cfg s.log).lastPoll, last ≤ s.clock

variable {cfg : PairingConfig} {deadline : Nat} {auth : DeviceAuthorization}
  {expiresAt interval : Nat} {s : Timeline}

/-- Where nothing is asked of the login service but who it was, the flow goes on as it was. -/
theorem flow_handle {c : PairCall} (answer : Timed)
    (hsame : ∀ g began ended r, Flow.after cfg g began ended c r = g) :
    flow cfg (s.handle c answer).1.log = flow cfg s.log := by
  change flow cfg (s.log ++ [_]) = _
  rw [flow_append]
  exact hsame _ _ _ _

theorem Polling.of_same {t : Timeline} (h : Polling cfg auth expiresAt interval s)
    (hflow : flow cfg t.log = flow cfg s.log) (hclock : s.clock ≤ t.clock) :
    Polling cfg auth expiresAt interval t := by
  refine ⟨?_, ?_, ?_, ?_, fun last hlast => ?_⟩
  · rw [hflow]
    exact h.current
  · rw [hflow]
    exact h.announced
  · rw [hflow]
    exact h.expires
  · rw [hflow]
    exact h.interval
  · rw [hflow] at hlast
    exact Nat.le_trans (h.last last hlast) hclock

/-- A sleep of the interval, after which the code may be polled. -/
theorem Polling.slept (h : Polling cfg auth expiresAt interval s) (answer : Timed) :
    Polling cfg auth expiresAt interval (s.handle (.sleep interval) answer).1 ∧
      ∀ last ∈ (flow cfg s.log).lastPoll, last + interval ≤
        (s.handle (.sleep interval) answer).1.clock := by
  refine ⟨h.of_same (flow_handle answer fun _ _ _ _ => rfl) (s.clock_le_handle _ answer), ?_⟩
  intro last hlast
  have hbefore := h.last last hlast
  change last + interval ≤ s.clock + interval + answer.took
  omega

/-- A poll: it is the last one, and the interval is longer if the answer says so. -/
theorem Polling.polled (h : Polling cfg auth expiresAt interval s) (answer : Timed) :
    Polling cfg auth expiresAt
      (if (answer.reply (.pollToken auth.deviceCode)).slowsDown then interval + cfg.ticks 5
        else interval)
      (s.handle (.pollToken auth.deviceCode) answer).1 := by
  have hflow : flow cfg (s.handle (.pollToken auth.deviceCode) answer).1.log =
      (flow cfg s.log).polled cfg s.clock (answer.reply (.pollToken auth.deviceCode)) :=
    flow_append cfg s.log _
  refine ⟨?_, ?_, ?_, ?_, fun last hlast => ?_⟩
  · rw [hflow]
    exact h.current
  · rw [hflow]
    exact h.announced
  · rw [hflow]
    exact h.expires
  · rw [hflow, ← h.interval]
    rfl
  · rw [hflow] at hlast
    obtain rfl := Option.mem_some_iff.mp hlast
    exact s.clock_le_handle _ answer

/-- Of a part that nobody waits for any longer, or that has failed. -/
def Settled (cfg : PairingConfig) (enough : Nat) (s : Timeline) : Except PairingError CodeOutcome → Prop
  | .ok (.approved login) => Earned cfg s login
  | .ok .expired => enough ≤ s.clock
  | .error e => e ≠ .stillWaiting

/-- Asking who approved does not change the flow. -/
theorem identity_timely (token : TokenSuccess) (hlog : Lawful (MayCall cfg deadline) s.log) :
    Timely (MayCall cfg deadline)
      (fun t r => match r with
        | .ok _ => flow cfg t.log = flow cfg s.log
        | .error e => e ≠ .stillWaiting) (identity token) s := by
  unfold identity
  split
  · exact Timely.ret hlog rfl
  · refine Timely.ask hlog (fun _ => trivial) fun answer hlog' => ?_
    cases s.reply answer (.userinfo token.accessToken) with
    | unreachable e => exact Timely.throw hlog' PairingError.noConfusion
    | refused status body => exact Timely.throw hlog' PairingError.noConfusion
    | unexpected => exact Timely.throw hlog' PairingError.noConfusion
    | claims claims => exact Timely.ret hlog' (flow_handle answer fun _ _ _ _ => rfl)

theorem approvedLogin_timely {token : TokenSuccess} (hlog : Lawful (MayCall cfg deadline) s.log)
    (h : Polling cfg auth expiresAt interval s)
    (hsuccess : (flow cfg s.log).success = some token) :
    Timely (MayCall cfg deadline)
      (fun s r => match r with
        | .ok login => Earned cfg s login
        | .error e => e ≠ .stillWaiting) (approvedLogin cfg token) s := by
  refine Timely.ask hlog (fun _ => trivial) fun answer hlog' => ?_
  have hflow : flow cfg (s.handle .now answer).1.log = flow cfg s.log :=
    flow_handle answer fun _ _ _ _ => rfl
  refine Timely.bind (Timely.mono (identity_timely token hlog') fun t r hlog'' hr => ?_)
  cases r with
  | error e => exact hr
  | ok claims =>
      change flow cfg t.log = _ at hr
      dsimp only [Prog.bind, Function.comp, ExceptT.bindCont]
      cases hname : checkName "user id" claims.sub with
      | error e =>
          refine Timely.throw hlog'' fun he => ?_
          rw [he, checkName] at hname
          split at hname <;> cases hname
      | ok _ =>
          refine Timely.ret hlog'' ⟨auth, token, ?_, ?_, ?_, rfl⟩
          · rw [hr, hflow]
            exact h.current
          · rw [hr, hflow]
            exact h.announced
          · rw [hr, hflow]
            exact hsuccess

theorem Settled.mono {enough enough' : Nat} {t : Timeline} {r : Except PairingError CodeOutcome}
    (h : Settled cfg enough t r) (hle : enough' ≤ enough) : Settled cfg enough' t r := by
  cases r with
  | error e => exact h
  | ok outcome =>
      cases outcome with
      | approved login => exact h
      | expired => exact Nat.le_trans hle h

/-- A round is as long as a tick, so the rounds last until the code expires or the time is up. -/
theorem poll_timely (rounds : Nat) (hlog : Lawful (MayCall cfg deadline) s.log)
    (h : Polling cfg auth expiresAt interval s) (htick : cfg.tick ≤ interval)
    (hrounds : 0 < rounds) (henough : min expiresAt deadline < s.clock + rounds * cfg.tick) :
    Timely (MayCall cfg deadline) (Settled cfg (s.clock + cfg.tick))
      (pollForApproval cfg auth expiresAt deadline rounds interval) s := by
  induction rounds generalizing interval s with
  | zero => exact absurd hrounds (Nat.lt_irrefl 0)
  | succ rounds ih =>
      rw [pollForApproval]
      refine Timely.ask hlog (fun _ => h.interval.symm) fun slept hlog₁ => ?_
      obtain ⟨h₁, hlast⟩ := h.slept slept
      have hclock : s.clock + interval ≤ (s.handle (.sleep interval) slept).1.clock :=
        Nat.le_add_right _ _
      have hflow : flow cfg (s.handle (.sleep interval) slept).1.log = flow cfg s.log :=
        flow_handle slept fun _ _ _ _ => rfl
      rw [← hflow] at hlast
      generalize (s.handle (.sleep interval) slept).1 = s₁ at hlog₁ h₁ hlast hclock
      refine Timely.ask hlog₁ (fun _ => trivial) fun read hlog₂ => ?_
      have h₂ := h₁.of_same (flow_handle read fun _ _ _ _ => rfl) (s₁.clock_le_handle .now read)
      have hflow₂ : flow cfg (s₁.handle .now read).1.log = flow cfg s₁.log :=
        flow_handle read fun _ _ _ _ => rfl
      rw [← hflow₂] at hlast
      have hnow : (s₁.handle .now read).1.clock = s₁.clock := rfl
      change Timely _ _ (if expiresAt ≤ s₁.clock ∨ deadline ≤ s₁.clock then _ else _) _
      generalize (s₁.handle .now read).1 = s₂ at hlog₂ h₂ hlast hnow
      split
      · refine Timely.ret hlog₂ ?_
        change s.clock + cfg.tick ≤ s₂.clock
        omega
      rename_i hearly
      rw [not_or, not_le, not_le, ← hnow] at hearly
      have hexpires : s₂.clock < (flow cfg s₂.log).expiresAt := h₂.expires ▸ hearly.1
      have hlast' : ∀ last ∈ (flow cfg s₂.log).lastPoll,
          last + (flow cfg s₂.log).interval ≤ s₂.clock := by
        intro last hmem
        rw [h₂.interval, hnow]
        exact hlast last hmem
      refine Timely.ask hlog₂ (fun _ => ⟨⟨auth, h₂.current, h₂.announced, rfl⟩, hexpires, hearly.2,
        hlast'⟩) fun polled hlog₃ => ?_
      have h₃ := h₂.polled polled
      have hclock₃ := s₂.clock_le_handle (.pollToken auth.deviceCode) polled
      have hsuccess : (flow cfg (s₂.handle (.pollToken auth.deviceCode) polled).1.log).success =
          (polled.reply (.pollToken auth.deviceCode)).succeeded.or (flow cfg s₂.log).success :=
        congrArg Flow.success (flow_append cfg s₂.log _)
      have hreply : s₂.reply polled (.pollToken auth.deviceCode) =
          polled.reply (.pollToken auth.deviceCode) := rfl
      rw [hreply]
      generalize (s₂.handle (.pollToken auth.deviceCode) polled).1 = s₃ at *
      generalize polled.reply (.pollToken auth.deviceCode) = reply at *
      rw [Nat.succ_mul] at henough
      -- The check has just found the code good, so there is a round left.
      have hleft : 0 < rounds := by
        refine Nat.pos_of_ne_zero fun hzero => ?_
        rw [hzero, Nat.zero_mul] at henough
        omega
      have hon : ∀ interval', cfg.tick ≤ interval' → Polling cfg auth expiresAt interval' s₃ →
          Timely (MayCall cfg deadline) (Settled cfg (s.clock + cfg.tick))
            (pollForApproval cfg auth expiresAt deadline rounds interval') s₃ := by
        intro interval' htick' h'
        refine Timely.mono (ih hlog₃ h' htick' hleft (by omega)) fun t r _ hr => hr.mono ?_
        omega
      cases reply with
      | unreachable => exact hon interval htick h₃
      | unread => exact hon interval htick h₃
      | serverError => exact hon interval htick h₃
      | unexpected => exact Timely.throw hlog₃ PairingError.noConfusion
      | refused status body => exact Timely.throw hlog₃ PairingError.noConfusion
      | token token =>
          refine Timely.bind (Timely.mono (approvedLogin_timely hlog₃ h₃ hsuccess) fun t r hlog₄ hr => ?_)
          cases r with
          | ok login => exact Timely.ret hlog₄ hr
          | error e => exact hr
      | error e description =>
          change Timely _ _ (if e = "authorization_pending" then _ else _) _
          split
          · rename_i hpending
            subst hpending
            exact hon interval htick h₃
          split
          · rename_i hslow
            subst hslow
            exact hon (interval + cfg.ticks 5) (Nat.le_add_right_of_le htick) h₃
          split
          · refine Timely.ret hlog₃ ?_
            change s.clock + cfg.tick ≤ s₃.clock
            omega
          split
          · exact Timely.throw hlog₃ PairingError.noConfusion
          · exact Timely.throw hlog₃ PairingError.noConfusion

theorem tick_le_ticks {n : Nat} (hn : n ≠ 0) : cfg.tick ≤ cfg.ticks n :=
  Nat.le_mul_of_pos_right _ (by omega)

/-- A code is asked for before the deadline. -/
theorem startDeviceAuthorization_timely (hlog : Lawful (MayCall cfg deadline) s.log)
    (hearly : s.clock < deadline) :
    Timely (MayCall cfg deadline)
      (fun t r => match r with
        | .ok auth => s.clock ≤ t.clock ∧
            flow cfg t.log = Flow.begin cfg (flow cfg s.log).announced auth t.clock
        | .error e => e ≠ .stillWaiting) startDeviceAuthorization s := by
  refine Timely.ask hlog (fun _ => hearly) fun answer hlog' => ?_
  have hclock := s.clock_le_handle .deviceAuthorization answer
  have hflow : flow cfg (s.handle .deviceAuthorization answer).1.log =
      (flow cfg s.log).after cfg s.clock (s.handle .deviceAuthorization answer).1.clock
        .deviceAuthorization (s.reply answer .deviceAuthorization) :=
    flow_append cfg s.log _
  cases hreply : s.reply answer .deviceAuthorization with
  | unreachable e => exact Timely.throw hlog' PairingError.noConfusion
  | refused status body => exact Timely.throw hlog' PairingError.noConfusion
  | unexpected => exact Timely.throw hlog' PairingError.noConfusion
  | authorization auth =>
      rw [hreply] at hflow
      exact Timely.ret hlog' ⟨hclock, hflow⟩

/-- One code, from the request for it. -/
theorem tryCode_timely {rounds : Nat} (hlog : Lawful (MayCall cfg deadline) s.log)
    (hearly : s.clock < deadline)
    (henough : deadline < s.clock + rounds * cfg.tick) :
    Timely (MayCall cfg deadline) (Settled cfg (s.clock + cfg.tick))
      (tryCode cfg deadline rounds) s := by
  refine Timely.bind
    (Timely.mono (startDeviceAuthorization_timely hlog hearly) fun t r hlog₁ hr => ?_)
  cases r with
  | error e => exact hr
  | ok auth =>
      obtain ⟨hclock, hflow⟩ := hr
      refine Timely.ask hlog₁ (fun _ => trivial) fun shown hlog₂ => ?_
      refine Timely.ask hlog₂ (fun _ => trivial) fun read hlog₃ => ?_
      have hflow₃ : flow cfg (((t.handle (.event (.code auth.userCode
          (if auth.expiresIn = 0 then 300 else auth.expiresIn))) shown).1.handle .now read).1.log) =
          { Flow.begin cfg (flow cfg s.log).announced auth t.clock with
            announced := some auth.userCode } := by
        rw [← hflow]
        exact (flow_handle read fun _ _ _ _ => rfl).trans (flow_append cfg t.log _)
      have hclock₃ : ((t.handle (.event (.code auth.userCode
          (if auth.expiresIn = 0 then 300 else auth.expiresIn))) shown).1.handle .now read).1.clock =
          t.clock := rfl
      change Timely _ _ (pollForApproval cfg auth (t.clock + _) deadline rounds _) _
      generalize ((t.handle (.event (.code auth.userCode
        (if auth.expiresIn = 0 then 300 else auth.expiresIn))) shown).1.handle .now read).1 = u at *
      have hpolling : Polling cfg auth
          (t.clock + cfg.ticks (if auth.expiresIn = 0 then 300 else auth.expiresIn))
          (cfg.ticks (if auth.interval = 0 then 5 else auth.interval)) u := by
        refine ⟨?_, ?_, ?_, ?_, fun last hlast => ?_⟩
        · rw [hflow₃]
          rfl
        · rw [hflow₃]
        · rw [hflow₃]
          rfl
        · rw [hflow₃]
          rfl
        · rw [hflow₃] at hlast
          cases hlast
      have hinterval : (if auth.interval = 0 then 5 else auth.interval) ≠ 0 := by
        split
        · decide
        · assumption
      have hrounds : 0 < rounds := by
        refine Nat.pos_of_ne_zero fun hzero => ?_
        rw [hzero, Nat.zero_mul] at henough
        omega
      refine Timely.mono (poll_timely rounds hlog₃ hpolling (tick_le_ticks hinterval) hrounds ?_)
        fun v r _ hr => hr.mono ?_
      · have hmin := Nat.min_le_right
          (t.clock + cfg.ticks (if auth.expiresIn = 0 then 300 else auth.expiresIn)) deadline
        omega
      · omega

/-- A code takes a tick at least, so there is one left until the time is up. -/
theorem codes_timely {rounds : Nat} (htick : 0 < cfg.tick) (codesLeft : Nat)
    (hlog : Lawful (MayCall cfg deadline) s.log) (hleft : 0 < codesLeft)
    (henough : deadline < s.clock + codesLeft * cfg.tick)
    (hrounds : deadline < s.clock + rounds * cfg.tick) :
    Timely (MayCall cfg deadline)
      (fun t r => match r with
        | .ok login => Earned cfg t login
        | .error e => e ≠ .stillWaiting) (codes cfg deadline rounds codesLeft) s := by
  induction codesLeft generalizing s with
  | zero => exact absurd hleft (Nat.lt_irrefl 0)
  | succ codesLeft ih =>
      rw [codes]
      refine Timely.ask hlog (fun _ => trivial) fun read hlog₁ => ?_
      have hclock₁ : (s.handle .now read).1.clock = s.clock := rfl
      change Timely _ _ (if deadline ≤ s.clock then _ else _) _
      generalize (s.handle .now read).1 = s₁ at *
      split
      · exact Timely.throw hlog₁ PairingError.noConfusion
      rename_i hearly
      rw [not_le, ← hclock₁] at hearly
      rw [← hclock₁] at henough hrounds
      refine Timely.bind (Timely.mono (tryCode_timely hlog₁ hearly hrounds) fun t r hlog₂ hr => ?_)
      cases r with
      | error e => exact hr
      | ok outcome =>
          cases outcome with
          | approved login => exact Timely.ret hlog₂ hr
          | expired =>
              change s₁.clock + cfg.tick ≤ t.clock at hr
              refine Timely.ask hlog₂ (fun _ => trivial) fun read' hlog₃ => ?_
              have hclock₃ : (t.handle .now read').1.clock = t.clock := rfl
              change Timely _ _ (if deadline ≤ t.clock then _ else _) _
              generalize (t.handle .now read').1 = u at *
              split
              · exact Timely.throw hlog₃ PairingError.noConfusion
              rename_i hearly'
              refine Timely.ask hlog₃ (fun _ => trivial) fun told hlog₄ => ?_
              have hclock₄ : (u.handle (.event .codeExpired) told).1.clock = u.clock := rfl
              rw [Nat.succ_mul] at henough
              refine ih hlog₄ (Nat.pos_of_ne_zero fun hzero => ?_) ?_ ?_
              · rw [hzero, Nat.zero_mul] at henough
                omega
              · rw [hclock₄]
                omega
              · rw [hclock₄]
                omega

/-- Whatever the login service answers: the calls are polite, whenever the run is stopped; a login is
earned; and if every request is answered, the flow comes to an end. -/
theorem deviceLogin_polite (cfg : PairingConfig) (htick : 0 < cfg.tick) (rounds : Nat)
    (hrounds : cfg.maxWait < rounds) (start : Nat) (answers : Nat → Timed) :
    (∀ n, Lawful (MayCall cfg (start + cfg.maxWait))
        ((Timeline.mk start []).run (deviceLogin cfg rounds) answers n).1.log ∧
      ∀ login, ((Timeline.mk start []).run (deviceLogin cfg rounds) answers n).2 =
          some (.ok login) →
        Earned cfg ((Timeline.mk start []).run (deviceLogin cfg rounds) answers n).1 login) ∧
    ∃ n r, ((Timeline.mk start []).run (deviceLogin cfg rounds) answers n).2 = some r ∧
      r ≠ .error .stillWaiting := by
  have htimely : Timely (MayCall cfg (start + cfg.maxWait))
      (fun t r => match r with
        | .ok login => Earned cfg t login
        | .error e => e ≠ .stillWaiting) (deviceLogin cfg rounds) (Timeline.mk start []) := by
    refine Timely.ask .nil (fun _ => trivial) fun read hlog => ?_
    have henough : start + cfg.maxWait < start + rounds * cfg.tick :=
      Nat.add_lt_add_left (Nat.lt_of_lt_of_le hrounds (Nat.le_mul_of_pos_right _ htick)) _
    exact codes_timely htick rounds hlog (Nat.zero_lt_of_lt hrounds) henough henough
  refine ⟨fun n => ⟨(htimely.run answers n).1, fun login hlogin => ?_⟩, ?_⟩
  · exact (htimely.run answers n).2 _ hlogin
  · obtain ⟨n, r, hr⟩ := Prog.exec_returns Timeline.handle answers (deviceLogin cfg rounds).run
      (Timeline.mk start [])
    refine ⟨n, r, hr, ?_⟩
    rintro rfl
    exact (htimely.run answers n).2 _ hr rfl

/-- The service that finds every poll too early. -/
def slowService : Timed where
  took := 0
  reply
    | .deviceAuthorization => .authorization { deviceCode := "device", userCode := "user" }
    | .pollToken _ => .error "slow_down" none
    | c => quietReply c

theorem deviceLogin_polite_slow :
    ∃ n r, ((Timeline.mk 0 []).run (deviceLogin {} 3600001) (fun _ => slowService) n).2 = some r ∧
      r ≠ .error .stillWaiting :=
  (deviceLogin_polite {} (by decide) 3600001 (by decide) 0 fun _ => slowService).2

end DatumConnect.Pairing
