import DatumConnect.Pairing.Provision
import DatumConnect.Pairing.Timeline
/-!
# Waiting for a project

What `wait_for_project` does, told by the values it has read: which one was judged last, whether the
list is to be shown for it, and when the waiting is over.
-/

namespace DatumConnect.Pairing

open DatumConnect.Lib
open PairPart

/-- What the values read so far have come to. -/
structure Judged where
  value : Option String
  /-- The list is to be shown, with this value as the one that was rejected. -/
  due : Option (Option String)
  chosen : Option ProjectRef := none

namespace Judged

variable (projects : List ProjectRef)

def judge (g : Judged) (current : Option String) : Judged :=
  if current = g.value then g
  else
    match current.bind (findProject projects) with
    | some p => { value := current, due := none, chosen := some p }
    | none => { value := current, due := some current, chosen := none }

def after (g : Judged) : (c : PairCall) → c.Reply → Judged
  | .project, .ok value => g.judge projects (value.bind normalizeProject)
  | .event _, _ => { g with due := none }
  | _, _ => g

end Judged

/-- Where the calls of a log have led to; the list is shown first for what was configured. -/
def judged (projects : List ProjectRef) (configured : Option String) (log : List Dated) : Judged :=
  log.foldl (fun g m => g.after projects m.call m.reply)
    { value := configured.bind normalizeProject, due := some (configured.bind normalizeProject) }

/-- The list is shown when it is to be, and before anything else is done; the source is read, and
slept, until the deadline; and nothing is done once a project is chosen. -/
def MayWait (projects : List ProjectRef) (configured : Option String) (deadline : Nat)
    (log : List Dated) (m : Dated) : Prop :=
  (judged projects configured log).chosen = none ∧
    match m.call with
    | .event (.chooseProject choices rejected wait) =>
        (judged projects configured log).due = some rejected ∧
          choices = projects.map (·.choice) ∧ wait = deadline - m.began
    | .project => (judged projects configured log).due = none ∧ m.began < deadline
    | .sleep duration =>
        (judged projects configured log).due = none ∧ m.began + duration ≤ deadline
    | .now => True
    | _ => False

/-- The source has just been read, and has a listed project set that was not set before. -/
def Sets (projects : List ProjectRef) (configured : Option String) (log : List Dated)
    (p : ProjectRef) (at_ : Nat) : Prop :=
  ∃ before value began id, log = before ++ [⟨.project, .ok value, began, at_⟩] ∧
    value.bind normalizeProject = some id ∧
    some id ≠ (judged projects configured before).value ∧ findProject projects id = some p

/-- The waiting is over when it was long enough, or two minutes before the token expires. -/
def latest (cfg : PairingConfig) (wait : ProjectWait) (tokenExpiresAt : Option Nat) (start : Nat) :
    Nat :=
  match tokenExpiresAt with
  | some expires => min (start + wait.max) (expires - cfg.ticks 120)
  | none => start + wait.max

variable {projects : List ProjectRef} {configured : Option String} {s : Timeline}

theorem judged_append (projects : List ProjectRef) (configured : Option String)
    (log : List Dated) (m : Dated) :
    judged projects configured (log ++ [m]) =
      (judged projects configured log).after projects m.call m.reply := by
  rw [judged, List.foldl_append]
  rfl

/-- Calls that read no value and show nothing. -/
theorem judged_handle {c : PairCall} (answer : Timed)
    (hsame : ∀ g r, Judged.after projects g c r = g) :
    judged projects configured (s.handle c answer).1.log = judged projects configured s.log := by
  change judged projects configured (s.log ++ [_]) = _
  rw [judged_append]
  exact hsame _ _

/-- The list is shown. -/
theorem judged_event (e : PairingEvent) (answer : Timed) :
    judged projects configured (s.handle (.event e) answer).1.log =
      { judged projects configured s.log with due := none } :=
  judged_append projects configured s.log
    ⟨.event e, s.reply answer (.event e), s.clock, s.ended answer (.event e)⟩

/-- What comes out of the waiting. -/
def Waited (projects : List ProjectRef) (configured : Option String) (deadline total : Nat)
    (s : Timeline) : Except PairingError ProjectRef → Prop
  | .ok p => Sets projects configured s.log p s.clock
  | .error e => e = .projectNotChosen total ∧ deadline ≤ s.clock ∧
      (judged projects configured s.log).chosen = none ∧
      (judged projects configured s.log).due = none

/-- The value judged last is the one that is compared with, and the list is not owed. -/
structure Awaiting (projects : List ProjectRef) (configured seen : Option String) (s : Timeline) :
    Prop where
  value : (judged projects configured s.log).value = seen
  due : (judged projects configured s.log).due = none
  chosen : (judged projects configured s.log).chosen = none

variable {seen : Option String}

theorem Awaiting.of_same {t : Timeline} (h : Awaiting projects configured seen s)
    (hsame : judged projects configured t.log = judged projects configured s.log) :
    Awaiting projects configured seen t := by
  refine ⟨?_, ?_, ?_⟩
  · rw [hsame]
    exact h.value
  · rw [hsame]
    exact h.due
  · rw [hsame]
    exact h.chosen

/-- A round is as long as something, so the rounds last until the deadline. -/
theorem waitRounds_timely {wait : ProjectWait} (hpoll : 0 < wait.poll) {deadline total : Nat}
    (rounds : Nat) (hlog : Lawful (MayWait projects configured deadline) s.log)
    (h : Awaiting projects configured seen s) (hrounds : 0 < rounds)
    (henough : deadline < s.clock + rounds) :
    Timely (MayWait projects configured deadline) (Waited projects configured deadline total)
      (waitRounds wait projects deadline total rounds seen) s := by
  induction rounds generalizing seen s with
  | zero => exact absurd hrounds (Nat.lt_irrefl 0)
  | succ rounds ih =>
      rw [waitRounds]
      refine Timely.ask hlog (fun _ => ⟨h.chosen, trivial⟩) fun read hlog₁ => ?_
      have h₁ : Awaiting projects configured seen (s.handle .now read).1 :=
        h.of_same (judged_handle read fun _ _ => rfl)
      have hclock₁ : (s.handle .now read).1.clock = s.clock := rfl
      have hread : s.reply read .now = s.clock := rfl
      rw [hread, ← hclock₁]
      rw [← hclock₁] at henough
      generalize (s.handle .now read).1 = s₁ at *
      split
      · rename_i hlate
        exact Timely.throw hlog₁ ⟨rfl, hlate, h₁.chosen, h₁.due⟩
      rename_i hearly
      have hduration : s₁.clock + min wait.poll (deadline - s₁.clock) ≤ deadline := by omega
      refine Timely.ask hlog₁ (fun _ => ⟨h₁.chosen, h₁.due, hduration⟩) fun slept hlog₂ => ?_
      have h₂ : Awaiting projects configured seen
          (s₁.handle (.sleep (min wait.poll (deadline - s₁.clock))) slept).1 :=
        h₁.of_same (judged_handle slept fun _ _ => rfl)
      have hclock₂ : s₁.clock + min wait.poll (deadline - s₁.clock) ≤
          (s₁.handle (.sleep (min wait.poll (deadline - s₁.clock))) slept).1.clock :=
        Nat.le_add_right _ _
      generalize (s₁.handle (.sleep (min wait.poll (deadline - s₁.clock))) slept).1 = s₂ at *
      refine Timely.ask hlog₂ (fun _ => ⟨h₂.chosen, trivial⟩) fun read' hlog₃ => ?_
      have h₃ : Awaiting projects configured seen (s₂.handle .now read').1 :=
        h₂.of_same (judged_handle read' fun _ _ => rfl)
      have hclock₃ : (s₂.handle .now read').1.clock = s₂.clock := rfl
      have hread' : s₂.reply read' .now = s₂.clock := rfl
      rw [hread', ← hclock₃]
      rw [← hclock₃] at hclock₂
      generalize (s₂.handle .now read').1 = s₃ at *
      have hleft : 0 < rounds := by omega
      have hon : ∀ {t : Timeline} {seen' : Option String}, s₃.clock ≤ t.clock →
          Lawful (MayWait projects configured deadline) t.log →
          Awaiting projects configured seen' t →
          Timely (MayWait projects configured deadline) (Waited projects configured deadline total)
            (waitRounds wait projects deadline total rounds seen') t :=
        fun hle hlog' h' => ih hlog' h' hleft (by omega)
      split
      · exact hon (Nat.le_refl _) hlog₃ h₃
      rename_i hearly₃
      rw [not_le] at hearly₃
      refine Timely.ask hlog₃ (fun _ => ⟨h₃.chosen, h₃.due, hearly₃⟩) fun asked hlog₄ => ?_
      have hclock₄ := s₃.clock_le_handle .project asked
      have hjudged := judged_append projects configured s₃.log
        ⟨.project, s₃.reply asked .project, s₃.clock, s₃.ended asked .project⟩
      have hlog_eq : (s₃.handle .project asked).1.log =
          s₃.log ++ [⟨.project, s₃.reply asked .project, s₃.clock, s₃.ended asked .project⟩] := rfl
      have hended : (s₃.handle .project asked).1.clock = s₃.ended asked .project := rfl
      rw [← hlog_eq] at hjudged
      rw [← hended] at hlog_eq
      generalize (s₃.handle .project asked).1 = s₄ at *
      cases hreply : s₃.reply asked .project with
      | error e =>
          rw [hreply] at hjudged
          exact hon hclock₄ hlog₄ (h₃.of_same hjudged)
      | ok value =>
          rw [hreply] at hjudged hlog_eq
          change Timely _ _ (if value.bind normalizeProject = seen then _ else _) _
          change _ = (judged projects configured s₃.log).judge projects _ at hjudged
          rw [Judged.judge, h₃.value] at hjudged
          split
          · rename_i hsame
            rw [if_pos hsame] at hjudged
            exact hon hclock₄ hlog₄ (h₃.of_same hjudged)
          · rename_i hchanged
            rw [if_neg hchanged] at hjudged
            change Timely _ _
              (match (value.bind normalizeProject).bind (findProject projects) with
                | some p => pure p
                | none => _) _
            cases hfound : (value.bind normalizeProject).bind (findProject projects) with
            | some p =>
                obtain ⟨id, hid, hp⟩ := Option.bind_eq_some_iff.mp hfound
                refine Timely.ret hlog₄ ⟨s₃.log, value, s₃.clock, id, hlog_eq, hid, ?_, hp⟩
                rw [h₃.value, ← hid]
                exact hchanged
            | none =>
                rw [hfound] at hjudged
                refine Timely.ask hlog₄ (fun _ => ⟨?_, trivial⟩) fun read'' hlog₅ => ?_
                · rw [hjudged]
                have hjudged₅ : judged projects configured (s₄.handle .now read'').1.log =
                    judged projects configured s₄.log := judged_handle read'' fun _ _ => rfl
                have hclock₅ : (s₄.handle .now read'').1.clock = s₄.clock := rfl
                have hread'' : s₄.reply read'' .now = s₄.clock := rfl
                rw [hread'', ← hclock₅]
                generalize (s₄.handle .now read'').1 = s₅ at *
                rw [hjudged] at hjudged₅
                refine Timely.ask hlog₅ (fun _ => ⟨?_, ?_, rfl, rfl⟩) fun told hlog₆ => ?_
                · rw [hjudged₅]
                · rw [hjudged₅]
                refine hon (Nat.le_trans hclock₄ (Nat.le_of_eq hclock₅.symm)) hlog₆ ⟨?_, ?_, ?_⟩
                · rw [judged_event, hjudged₅]
                · rw [judged_event]
                · rw [judged_event, hjudged₅]

variable {cfg : PairingConfig} {wait : ProjectWait} {tokenExpiresAt : Option Nat}

/-- The list is shown for the first time, and then the rounds begin. -/
theorem firstShown_timely (deadline : Nat) {rounds : Nat} (hpoll : 0 < wait.poll) (hrounds : 0 < rounds)
    (henough : deadline < s.clock + rounds)
    (hlog : Lawful (MayWait projects configured deadline) s.log)
    (hjudged : judged projects configured s.log = judged projects configured []) :
    Timely (MayWait projects configured deadline)
      (Waited projects configured deadline (deadline - s.clock))
      (do
        tell (.chooseProject (projects.map (·.choice)) (configured.bind normalizeProject)
          (deadline - s.clock))
        waitRounds wait projects deadline (deadline - s.clock) rounds
          (configured.bind normalizeProject)) s := by
  refine Timely.ask hlog (fun _ => ⟨?_, ?_, rfl, rfl⟩) fun told hlog' => ?_
  · rw [hjudged]
    rfl
  · rw [hjudged]
    rfl
  · refine waitRounds_timely hpoll rounds hlog' ⟨?_, ?_, ?_⟩ hrounds henough
    · rw [judged_event, hjudged]
      rfl
    · rw [judged_event]
    · rw [judged_event, hjudged]
      rfl

theorem waitForProject_timely (hpoll : 0 < wait.poll) {rounds : Nat} (hrounds : wait.max < rounds)
    (start : Nat) :
    Timely (MayWait projects configured (max start (latest cfg wait tokenExpiresAt start)))
      (Waited projects configured (max start (latest cfg wait tokenExpiresAt start))
        (max start (latest cfg wait tokenExpiresAt start) - start))
      (waitForProject cfg wait projects configured tokenExpiresAt rounds)
      (Timeline.mk start []) := by
  have hlatest : latest cfg wait tokenExpiresAt start ≤ start + wait.max := by
    unfold latest
    split <;> omega
  refine Timely.ask .nil (fun _ => ⟨rfl, trivial⟩) fun read hlog => ?_
  have henough : max start (latest cfg wait tokenExpiresAt start) <
      ((Timeline.mk start []).handle .now read).1.clock + rounds := by
    change _ < start + rounds
    omega
  have hfirst := firstShown_timely _ hpoll (Nat.zero_lt_of_lt hrounds) henough hlog rfl
  cases tokenExpiresAt with
  | none =>
      have hdeadline : start + wait.max = max start (latest cfg wait none start) := by
        rw [latest]
        omega
      change Timely _ _ (do
        tell (.chooseProject _ _ (start + wait.max - start))
        waitRounds wait projects (start + wait.max) (start + wait.max - start) rounds _) _
      rw [hdeadline]
      exact hfirst
  | some expires =>
      have hdeadline : min (start + wait.max) (max (if cfg.ticks tokenMarginTicks ≤ expires then
          expires - cfg.ticks tokenMarginTicks else start) start) =
          max start (latest cfg wait (some expires) start) := by
        rw [latest, tokenMarginTicks]
        split <;> omega
      let deadline := min (start + wait.max) (max (if cfg.ticks tokenMarginTicks ≤ expires then
        expires - cfg.ticks tokenMarginTicks else start) start)
      change Timely _ _ (do
        tell (.chooseProject _ _ (deadline - start))
        waitRounds wait projects deadline (deadline - start) rounds _) _
      rw [show deadline = _ from hdeadline]
      exact hfirst

/-- The source answers too late: what it has set is a listed project. -/
def TooLate (projects : List ProjectRef) (configured : Option String) (until_ : Nat)
    (log : List Dated) : Prop :=
  ∃ p at_, Sets projects configured log p at_ ∧ until_ ≤ at_

theorem Sets.chosen {log : List Dated} {p : ProjectRef} {at_ : Nat}
    (h : Sets projects configured log p at_) :
    (judged projects configured log).chosen = some p := by
  obtain ⟨before, value, began, id, rfl, hid, hchanged, hp⟩ := h
  rw [judged_append]
  change ((judged projects configured before).judge projects _).chosen = _
  rw [hid, Judged.judge, if_neg hchanged, Option.bind_some, hp]

theorem Sets.at_unique {log : List Dated} {p p' : ProjectRef} {at_ at_' : Nat}
    (h : Sets projects configured log p at_) (h' : Sets projects configured log p' at_') :
    at_ = at_' := by
  obtain ⟨before, value, began, id, rfl, _⟩ := h
  obtain ⟨before', value', began', id', heq, _⟩ := h'
  have hlast := (List.append_inj' heq rfl).2
  injection hlast with hlast
  injection hlast

/-- What is said of a run that waits until a time, in all its stages. -/
structure Chooses (projects : List ProjectRef) (configured : Option String) (start until_ : Nat)
    (run : Nat → Timeline × Option (Except PairingError ProjectRef)) : Prop where
  calls : ∀ n, Lawful (MayWait projects configured (max start until_)) (run n).1.log
  chosen : ∀ n p, (run n).2 = some (.ok p) →
    Sets projects configured (run n).1.log p (run n).1.clock ∧ (run n).1.clock < until_
  notChosen : ∀ n e, (run n).2 = some (.error e) →
    e = .projectNotChosen (until_ - start) ∧ until_ ≤ (run n).1.clock ∧
      (judged projects configured (run n).1.log).due = none
  ends : ∃ n r, (run n).2 = some r

/-- Every project is chosen in time exactly where none is set by an answer that comes too late. -/
theorem waitForProject_chooses_iff (cfg : PairingConfig) (wait : ProjectWait)
    (projects : List ProjectRef) (configured : Option String) (tokenExpiresAt : Option Nat)
    (hpoll : 0 < wait.poll) (rounds : Nat) (hrounds : wait.max < rounds) (start : Nat)
    (answers : Nat → Timed) :
    Chooses projects configured start (latest cfg wait tokenExpiresAt start)
        ((Timeline.mk start []).run
          (waitForProject cfg wait projects configured tokenExpiresAt rounds) answers) ↔
      ∀ n, ¬TooLate projects configured (latest cfg wait tokenExpiresAt start)
        ((Timeline.mk start []).run
          (waitForProject cfg wait projects configured tokenExpiresAt rounds) answers n).1.log := by
  have htimely : Timely
      (MayWait projects configured (max start (latest cfg wait tokenExpiresAt start)))
      (Waited projects configured (max start (latest cfg wait tokenExpiresAt start))
        (max start (latest cfg wait tokenExpiresAt start) - start))
      (waitForProject cfg wait projects configured tokenExpiresAt rounds)
      (Timeline.mk start []) := waitForProject_timely hpoll hrounds start
  have hends := Prog.exec_returns Timeline.handle answers
    (waitForProject cfg wait projects configured tokenExpiresAt rounds).run (Timeline.mk start [])
  have hrun := htimely.run answers
  have hmore : ∀ n, ((Timeline.mk start []).run
      (waitForProject cfg wait projects configured tokenExpiresAt rounds) answers n).2 = none → _ :=
    fun n => (Timeline.mk start []).run_more
  change ∃ n r, ((Timeline.mk start []).run _ answers n).2 = some r at hends
  generalize (Timeline.mk start []).run
    (waitForProject cfg wait projects configured tokenExpiresAt rounds) answers = run at *
  refine ⟨fun h n => ?_, fun h => ⟨fun n => (hrun n).1, fun n p hp => ?_, fun n e he => ?_, hends⟩⟩
  · rintro ⟨p, at_, hsets, hlate⟩
    cases hresult : (run n).2 with
    | none =>
        -- A call after the choice is not made.
        obtain ⟨m, hm⟩ := hmore n hresult
        have hlawful := (hrun (n + 1)).1
        rw [hm] at hlawful
        have hnone := hlawful.may_follow.1
        rw [hsets.chosen] at hnone
        cases hnone
    | some r =>
        cases r with
        | ok p' =>
            obtain ⟨hsets', hearly⟩ := h.chosen n p' hresult
            rw [hsets.at_unique hsets'] at hlate
            omega
        | error e =>
            have hnone := ((hrun n).2 _ hresult).2.2.1
            rw [hsets.chosen] at hnone
            cases hnone
  · have hsets : Sets projects configured (run n).1.log p (run n).1.clock := (hrun n).2 _ hp
    exact ⟨hsets, Nat.lt_of_not_le fun hlate => h n ⟨p, _, hsets, hlate⟩⟩
  · obtain ⟨rfl, hlate, _, hdue⟩ := (hrun n).2 _ he
    refine ⟨congrArg PairingError.projectNotChosen ?_, ?_, hdue⟩ <;> omega

/-- A project that can be chosen. -/
def garage : ProjectRef where
  name := "garage-1"
  uid := "uid"
  org := "org"
  displayName := "Garage"

/-- The source says at its first reading what is set, and takes some time for it. -/
def sourceSays (took : Nat) (i : Nat) : Timed where
  took := if i = 5 then took else 0
  reply
    | .project => .ok (some "garage-1")
    | c => quietReply c

theorem waitForProject_chooses_garage :
    Chooses [garage] none 0 10
        ((Timeline.mk 0 []).run
          (waitForProject {} { poll := 5, max := 10 } [garage] none none 11) (sourceSays 0)) ↔
      ∀ n, ¬TooLate [garage] none 10
        ((Timeline.mk 0 []).run
          (waitForProject {} { poll := 5, max := 10 } [garage] none none 11) (sourceSays 0)
          n).1.log :=
  waitForProject_chooses_iff {} { poll := 5, max := 10 } [garage] none none (by decide) 11
    (by decide) 0 (sourceSays 0)

theorem chosen_after_the_deadline :
    ((Timeline.mk 0 []).run
        (waitForProject {} { poll := 5, max := 10 } [garage] none none 11) (sourceSays 20) 6).2 =
      some (.ok garage) ∧
    ((Timeline.mk 0 []).run
        (waitForProject {} { poll := 5, max := 10 } [garage] none none 11) (sourceSays 20)
        6).1.clock = 25 := by
  refine ⟨?_, ?_⟩ <;> decide +kernel

end DatumConnect.Pairing
