import DatumConnect.HomeAssistant.Allow
import DatumConnect.Lib.Lawful
/-!
# What Allow confirms

Allow's calls are answered in any way, and take any time.  The log holds the
settings that were read, the results of verifying, and the requests that change
something; a request may follow only what entitles Allow to it.
-/

namespace DatumConnect.HomeAssistant

open DatumConnect.Lib
open DatumConnect.Lib.Json

inductive Entry where
  | read (httpConfig : Value)
  | configure (config : Value)
  /-- What the wall clock said when verification began, and how it went. -/
  | verify (began : Int) (result : Option (Except String UInt16))
  | promote (answer : Option (Except WsError Value))

namespace Entry

def isConfigure : Entry → Bool
  | .configure _ => true
  | _ => false

def isPromote : Entry → Bool
  | .promote _ => true
  | _ => false

end Entry

/-- The clocks, and what has happened. -/
structure Seen where
  clock : Nat := 0
  wall : Int := 0
  log : List Entry := []

/-- How a call goes: how long it takes, what the wall clock says then, and the
reply. -/
structure Answer where
  elapsed : Nat
  wall : Int
  reply : (c : AllowCall) → c.Reply

/-- What goes into the log. -/
def Seen.entries (s : Seen) : (c : AllowCall) → c.Reply → List Entry
  | .httpConfig, .ok c => [.read c]
  | .configure config, _ => [.configure config]
  | .verify _, result => [.verify s.wall result]
  | .promote _, answer => [.promote answer]
  | _, _ => []

/-- Time passes while a call is awaited. -/
def Seen.await (s : Seen) (c : AllowCall) (answer : Answer) : Seen × c.Reply :=
  ({ clock := s.clock + answer.elapsed
     wall := answer.wall
     log := s.log ++ s.entries c (answer.reply c) },
    answer.reply c)

def Seen.handle (s : Seen) : (c : AllowCall) → Answer → Seen × c.Reply
  | .now, _ => (s, s.clock)
  | .utcNow, _ => (s, s.wall)
  | .step _, _ => (s, ())
  | c, answer => s.await c answer

section

variable (parseRfc3339 : String → Option Int) (timing : AllowTiming)

/-- Home Assistant runs `wanted` on trial: it has started on the pending slot, and
that slot is `wanted` and has no error. -/
def OnTrial (httpConfig wanted : Value) : Prop :=
  httpConfig.index "active_config_type" = .string "pending" ∧
    ∃ p, livePending httpConfig = some p ∧ withoutMeta p = wanted

/-- The time left before `revert_at` when the wall clock says `now`; with no
`revert_at`, Home Assistant's own delay counts from then. -/
def left (httpConfig : Value) (now : Int) : Nat :=
  match revertTime parseRfc3339 httpConfig with
  | some at_ => (at_ - now).toNat
  | none => timing.revertAfter

/-- A change is saved where none was waiting in the settings just read.  One is
confirmed that was found on trial, checked since with a good result, begun in good
time, and is the change Allow makes to the settings it read first. -/
def MayFollow (log : List Entry) : Entry → Prop
  | .configure _ =>
      (∀ e ∈ log, e.isConfigure = false) ∧
        ∃ before c, log = before ++ [.read c] ∧ livePending c = none
  | .promote _ =>
      (∀ e ∈ log, e.isPromote = false) ∧
        ∃ first wanted before trial began status,
          log.head? = some (.read first) ∧ merged (first.index "stable") = .ok wanted ∧
            log = before ++ [.read trial, .verify began (some (.ok status))] ∧
            OnTrial trial wanted ∧ status ≠ 400 ∧
            timing.confirmMargin ≤ left parseRfc3339 timing trial began
  | _ => True

/-- Promote was answered with success. -/
def Confirmed (log : List Entry) : Prop := ∃ v, .promote (some (.ok v)) ∈ log

end

theorem onTrial_of_onTrialWith {c wanted : Value} (h : onTrialWith c wanted = true) :
    OnTrial c wanted := by
  simp only [onTrialWith, Bool.and_eq_true, decide_eq_true_eq] at h
  obtain ⟨⟨hactive, hlive⟩, hpending⟩ := h
  refine ⟨hactive, ?_⟩
  obtain ⟨p, hp⟩ := Option.isSome_iff_exists.mp hlive
  refine ⟨p, hp, ?_⟩
  unfold livePending at hp
  rw [pendingIs, (Option.filter_eq_some_iff.mp hp).1] at hpending
  simpa using hpending

/-! ## The calls -/

/-- Calls that leave nothing in the log. -/
def AllowCall.quiet : AllowCall → Bool
  | .httpConfig | .configure _ | .verify _ | .promote _ => false
  | _ => true

theorem handle_quiet {c : AllowCall} (h : c.quiet = true) (s : Seen) (answer : Answer) :
    (s.handle c answer).1.log = s.log := by
  cases c with
  | httpConfig => cases h
  | configure config => cases h
  | verify deadline => cases h
  | promote deadline => cases h
  | now => rfl
  | utcNow => rfl
  | step a => rfl
  | connect timeout => exact List.append_nil _
  | waitClosed within => exact List.append_nil _
  | close => exact List.append_nil _
  | coreApiUp => exact List.append_nil _
  | sleep duration => exact List.append_nil _

section

variable {parseRfc3339 : String → Option Int} {timing : AllowTiming} {base log : List Entry}
  {s : Seen} {α : Type}

/-- After what was logged before Allow began, Allow has logged `log`. -/
structure Told (parseRfc3339 : String → Option Int) (timing : AllowTiming)
    (base log : List Entry) (s : Seen) : Prop where
  log_eq : s.log = base ++ log
  lawful : Lawful (MayFollow parseRfc3339 timing) log

/-- What Allow has logged is lawful. -/
def AsAllowed (parseRfc3339 : String → Option Int) (timing : AllowTiming) (base : List Entry)
    (s : Seen) : Prop :=
  ∃ log, Told parseRfc3339 timing base log s

namespace Told

theorem quiet (h : Told parseRfc3339 timing base log s) {c : AllowCall}
    (hc : c.quiet = true) (answer : Answer) :
    Told parseRfc3339 timing base log (s.handle c answer).1 :=
  ⟨(handle_quiet hc s answer).trans h.log_eq, h.lawful⟩

/-- An entry that may follow has been added. -/
theorem add (h : Told parseRfc3339 timing base log s) {t : Seen} {e : Entry}
    (hlog : t.log = s.log ++ [e]) (hmay : MayFollow parseRfc3339 timing log e) :
    Told parseRfc3339 timing base (log ++ [e]) t :=
  ⟨by rw [hlog, h.log_eq, List.append_assoc], h.lawful.snoc hmay⟩

theorem asAllowed (h : Told parseRfc3339 timing base log s) :
    AsAllowed parseRfc3339 timing base s :=
  ⟨log, h⟩

end Told

/-- Allow keeps to what it is entitled to, and where it gets to, `post` holds. -/
abbrev Keeps (parseRfc3339 : String → Option Int) (timing : AllowTiming) (base : List Entry)
    (post : Seen → Except AllowOutcome α → Prop) (p : AllowPart α) (s : Seen) : Prop :=
  Prog.Safe Seen.handle (AsAllowed parseRfc3339 timing base) post p.run s

variable {post : Seen → Except AllowOutcome α → Prop}

theorem keeps_return (h : Told parseRfc3339 timing base log s) {a : α} (hpost : post s (.ok a)) :
    Keeps parseRfc3339 timing base post (pure a) s :=
  ⟨h.asAllowed, hpost⟩

theorem keeps_throw (h : Told parseRfc3339 timing base log s) {e : AllowOutcome}
    (hpost : post s (.error e)) : Keeps parseRfc3339 timing base post (throw e) s :=
  ⟨h.asAllowed, hpost⟩

theorem keeps_ask (h : Told parseRfc3339 timing base log s) {c : AllowCall}
    {f : c.Reply → AllowPart α}
    (hf : ∀ answer,
      Keeps parseRfc3339 timing base post (f (s.handle c answer).2) (s.handle c answer).1) :
    Keeps parseRfc3339 timing base post (AllowPart.ask c >>= f) s :=
  ⟨h.asAllowed, hf⟩

/-- A call that leaves nothing in the log. -/
theorem keeps_quiet (h : Told parseRfc3339 timing base log s) {c : AllowCall}
    (hc : c.quiet = true) {f : c.Reply → AllowPart α}
    (hf : ∀ t r, Told parseRfc3339 timing base log t →
      Keeps parseRfc3339 timing base post (f r) t) :
    Keeps parseRfc3339 timing base post (AllowPart.ask c >>= f) s :=
  keeps_ask h fun answer => hf _ _ (h.quiet hc answer)

/-- The settings are read. -/
theorem keeps_read (h : Told parseRfc3339 timing base log s)
    {f : Except WsError Value → AllowPart α}
    (herror : ∀ t e, Told parseRfc3339 timing base log t →
      Keeps parseRfc3339 timing base post (f (.error e)) t)
    (hok : ∀ t c, Told parseRfc3339 timing base (log ++ [.read c]) t →
      Keeps parseRfc3339 timing base post (f (.ok c)) t) :
    Keeps parseRfc3339 timing base post (AllowPart.ask .httpConfig >>= f) s := by
  refine keeps_ask h fun answer => ?_
  cases hreply : answer.reply .httpConfig with
  | error e =>
      have hread : s.handle .httpConfig answer = ({ s with
          clock := s.clock + answer.elapsed, wall := answer.wall, log := s.log ++ [] }, .error e) := by
        simp [Seen.handle, Seen.await, hreply, Seen.entries]
      rw [hread]
      exact herror _ e ⟨by simpa using h.log_eq, h.lawful⟩
  | ok c =>
      have hread : s.handle .httpConfig answer = ({ s with
          clock := s.clock + answer.elapsed, wall := answer.wall, log := s.log ++ [.read c] },
          .ok c) := by
        simp [Seen.handle, Seen.await, hreply, Seen.entries]
      rw [hread]
      exact hok _ c (h.add rfl trivial)

/-! ## The parts of Allow -/

/-- A part of Allow that goes no further has confirmed nothing. -/
def NotAllowed (r : Except AllowOutcome α) : Prop := r ≠ .error .allowed

/-- Only readings have been added, and the settings that are returned are the last
of them, with `wanted` on trial. -/
def Back (parseRfc3339 : String → Option Int) (timing : AllowTiming) (base log : List Entry)
    (wanted : Value) (t : Seen) (r : Except AllowOutcome Value) : Prop :=
  NotAllowed r ∧ ∃ cs : List Value, Told parseRfc3339 timing base (log ++ cs.map .read) t ∧
    ∀ c, r = .ok c → OnTrial c wanted ∧ cs.getLast? = some c

namespace Back

variable {wanted : Value} {t : Seen}

theorem of_failed (h : Told parseRfc3339 timing base log t) (why : Failure) :
    Back parseRfc3339 timing base log wanted t (.error (.failed why)) :=
  ⟨nofun, [], by simpa using h, nofun⟩

theorem after_read {c : Value} {r : Except AllowOutcome Value}
    (h : Back parseRfc3339 timing base (log ++ [.read c]) wanted t r) :
    Back parseRfc3339 timing base log wanted t r := by
  obtain ⟨hnot, cs, htold, hback⟩ := h
  refine ⟨hnot, c :: cs, by simpa using htold, fun c' hc' => ?_⟩
  obtain ⟨htrial, hlast⟩ := hback c' hc'
  refine ⟨htrial, ?_⟩
  rw [List.getLast?_cons, hlast]
  rfl

end Back

theorem waitForTrial_keeps (wanted : Value) (started rounds : Nat) (seenDown : Bool)
    (h : Told parseRfc3339 timing base log s) :
    Keeps parseRfc3339 timing base (Back parseRfc3339 timing base log wanted)
      (waitForTrial timing wanted started rounds seenDown) s := by
  induction rounds generalizing log s seenDown with
  | zero => exact keeps_throw h (Back.of_failed h _)
  | succ rounds ih =>
      have again : ∀ {t : Seen} (seenDown : Bool), Told parseRfc3339 timing base log t →
          Keeps parseRfc3339 timing base (Back parseRfc3339 timing base log wanted)
            (do AllowPart.ask (.sleep timing.poll)
                waitForTrial timing wanted started rounds seenDown) t :=
        fun seenDown ht => keeps_quiet ht rfl fun _ _ ht => ih seenDown ht
      refine keeps_quiet h rfl fun t now ht => ?_
      split
      · exact keeps_throw ht (Back.of_failed ht _)
      refine keeps_quiet ht rfl fun t up ht => ?_
      cases up with
      | false => exact again true ht
      | true =>
          refine keeps_quiet ht rfl fun t connected ht => ?_
          cases connected with
          | error e => exact again true ht
          | ok u =>
              refine keeps_read ht ?_ ?_
              · exact fun t e ht => keeps_quiet ht rfl fun _ _ ht => again true ht
              · intro t c ht
                dsimp only
                split
                · rename_i htrial
                  exact keeps_return ht
                    ⟨nofun, [c], by simpa using ht, fun c' hc' => by
                      cases hc'
                      exact ⟨onTrial_of_onTrialWith htrial, rfl⟩⟩
                suffices hread : Keeps parseRfc3339 timing base
                    (Back parseRfc3339 timing base (log ++ [.read c]) wanted) _ t from
                  Prog.Safe.mono hread fun _ _ _ => Back.after_read
                split
                · refine keeps_quiet ht rfl fun t _ ht => ?_
                  split
                  · exact keeps_throw ht (Back.of_failed ht _)
                  · exact keeps_throw ht (Back.of_failed ht _)
                · refine keeps_quiet ht rfl fun t _ ht => ?_
                  split
                  · refine keeps_quiet ht rfl fun t now ht => ?_
                    split
                    · exact keeps_throw ht (Back.of_failed ht _)
                    · exact keeps_quiet ht rfl fun _ _ ht => ih seenDown ht
                  · exact keeps_throw ht (Back.of_failed ht _)

theorem saveSetting_keeps {config : Value} (h : Told parseRfc3339 timing base log s)
    (hmay : MayFollow parseRfc3339 timing log (.configure config)) :
    Keeps parseRfc3339 timing base
      (fun t r => NotAllowed r ∧ Told parseRfc3339 timing base (log ++ [.configure config]) t)
      (saveSetting timing config) s := by
  refine keeps_quiet h rfl fun t _ ht => ?_
  refine keeps_ask ht fun answer => ?_
  have hsaved : Told parseRfc3339 timing base (log ++ [.configure config])
      (t.handle (.configure config) answer).1 := ht.add rfl hmay
  split
  · split
    · refine keeps_quiet hsaved rfl fun t _ ht => ?_
      refine keeps_quiet ht rfl fun t closed ht => ?_
      exact keeps_quiet ht rfl fun t _ ht => keeps_return ht ⟨nofun, ht⟩
    · exact keeps_throw hsaved ⟨nofun, hsaved⟩
  · split
    · exact keeps_throw hsaved ⟨nofun, hsaved⟩
    · exact keeps_throw hsaved ⟨nofun, hsaved⟩
  · exact keeps_throw hsaved ⟨nofun, hsaved⟩

/-- The settings on trial were the last thing read, nothing has been confirmed,
and what is on trial is the change to the settings read first. -/
structure Reached (current : Value) (log : List Entry) (trial : Value) : Prop where
  first : log.head? = some (.read current)
  last : ∃ before, log = before ++ [.read trial]
  unconfirmed : ∀ e ∈ log, e.isPromote = false
  onTrial : ∃ wanted, merged (current.index "stable") = .ok wanted ∧ OnTrial trial wanted

theorem Reached.of_last {current trial wanted : Value} {before : List Entry} {cs : List Value}
    (hfirst : before.head? = some (.read current)) (hbefore : ∀ e ∈ before, e.isPromote = false)
    (hlast : cs.getLast? = some trial) (hwanted : merged (current.index "stable") = .ok wanted)
    (htrial : OnTrial trial wanted) : Reached current (before ++ cs.map .read) trial where
  first := by rw [List.head?_append, hfirst]; rfl
  last := by
    obtain ⟨front, rfl⟩ := List.getLast?_eq_some_iff.mp hlast
    exact ⟨before ++ front.map .read, by simp⟩
  unconfirmed := by
    intro e he
    rcases List.mem_append.mp he with he | he
    · exact hbefore e he
    · obtain ⟨c, _, rfl⟩ := List.mem_map.mp he
      rfl
  onTrial := ⟨wanted, hwanted, htrial⟩

theorem reachTrial_keeps (rounds : Nat) (current : Value)
    (h : Told parseRfc3339 timing base [.read current] s) :
    Keeps parseRfc3339 timing base
      (fun t r => NotAllowed r ∧ ∃ log, Told parseRfc3339 timing base log t ∧
        ∀ trial, r = .ok trial → Reached current log trial)
      (reachTrial timing rounds current) s := by
  have hthrow : ∀ {t : Seen} {log : List Entry} {e : AllowOutcome}, e ≠ .allowed →
      Told parseRfc3339 timing base log t →
      Keeps parseRfc3339 timing base
        (fun t r => NotAllowed r ∧ ∃ log, Told parseRfc3339 timing base log t ∧
          ∀ trial, r = .ok trial → Reached current log trial) (throw e) t :=
    fun he ht => keeps_throw ht ⟨fun h => he (Except.error.inj h), _, ht, nofun⟩
  unfold reachTrial
  split
  · exact hthrow nofun h
  · exact hthrow nofun h
  rename_i setup hnotReady hsetup
  split
  · exact hthrow nofun h
  rename_i wanted hwanted
  refine keeps_quiet h rfl fun t started ht => ?_
  split
  · exact hthrow nofun ht
  · -- already on trial with our change
    refine keeps_quiet ht rfl fun t _ ht => ?_
    refine keeps_quiet ht rfl fun t connected ht => ?_
    cases connected with
    | error e => exact hthrow nofun ht
    | ok u =>
        refine keeps_return ht ⟨nofun, _, ht, fun trial htrial => ?_⟩
        cases htrial
        obtain h' | h' | ⟨wanted', hours, hwanted'⟩ | ⟨config, hneeded, _⟩ := assess_eq_ok hsetup
        · cases h'
        · cases h'
        · simp only [ProxySetup.ours.injEq] at hours
          exact ⟨rfl, ⟨[], rfl⟩, by simp [Entry.isPromote],
            wanted', hwanted', onTrial_of_onTrialWith hours.symm⟩
        · cases hneeded
  · -- saved, but not running yet
    refine keeps_quiet ht rfl fun t _ ht => ?_
    refine keeps_quiet ht rfl fun t _ ht => ?_
    refine (waitForTrial_keeps wanted started rounds false ht).mono fun t r _ hr => ?_
    obtain ⟨hnot, cs, htold, hback⟩ := hr
    refine ⟨hnot, _, htold, fun trial htrial => ?_⟩
    obtain ⟨honTrial, hlast⟩ := hback trial htrial
    exact Reached.of_last rfl (by simp [Entry.isPromote]) hlast hwanted honTrial
  · exact hthrow nofun ht
  · rename_i config
    have hmay : MayFollow parseRfc3339 timing [.read current] (.configure config) := by
      refine ⟨by simp [Entry.isConfigure], [], current, rfl, ?_⟩
      obtain h' | h' | ⟨wanted', hours, _⟩ | ⟨config', hneeded, hlive, _⟩ := assess_eq_ok hsetup
      · cases h'
      · cases h'
      · cases hours
      · exact hlive
    refine Prog.Safe.bindE ((saveSetting_keeps ht hmay).mono fun t r _ hr => ?_)
    obtain ⟨hnot, ht⟩ := hr
    cases r with
    | error e => exact ⟨fun h => hnot (congrArg _ (Except.error.inj h)), _, ht, nofun⟩
    | ok seenDown =>
        refine (waitForTrial_keeps wanted started rounds seenDown ht).mono fun t r _ hr => ?_
        obtain ⟨hnot, cs, htold, hback⟩ := hr
        refine ⟨hnot, _, htold, fun trial htrial => ?_⟩
        obtain ⟨honTrial, hlast⟩ := hback trial htrial
        exact Reached.of_last rfl (by simp [Entry.isPromote]) hlast hwanted honTrial

/-- What `revertInstant` computes, and what the clocks say after it. -/
theorem revertInstant_left {α : Type} {post : Seen → Except AllowOutcome α → Prop}
    (h : Told parseRfc3339 timing base log s) (trial : Value) {f : Option Nat → AllowPart α}
    (hf : ∀ instant : Option Nat,
      instant.getD (s.clock + timing.revertAfter) - s.clock = left parseRfc3339 timing trial s.wall →
        Keeps parseRfc3339 timing base post (f instant) s) :
    Keeps parseRfc3339 timing base post (revertInstant parseRfc3339 trial >>= f) s := by
  unfold revertInstant
  cases htime : revertTime parseRfc3339 trial with
  | none => exact hf none (by simp [left, htime])
  | some at_ =>
      refine keeps_ask h fun _ => ?_
      refine keeps_ask h fun _ => ?_
      exact hf _ (by simp [left, htime, Seen.handle])

theorem confirm_keeps (revertAt : Nat) (h : Told parseRfc3339 timing base log s)
    (hmay : ∀ answer, MayFollow parseRfc3339 timing log (.promote answer)) :
    Keeps parseRfc3339 timing base
      (fun t r => AllowOutcome.returned r = .allowed → ∃ log, Told parseRfc3339 timing base log t ∧ Confirmed log)
      (confirm revertAt) s := by
  refine keeps_quiet h rfl fun u _ hu => ?_
  refine keeps_ask hu fun answer => ?_
  have hsent : Told parseRfc3339 timing base (log ++ [.promote (answer.reply (.promote revertAt))])
      (u.handle (.promote revertAt) answer).1 := hu.add rfl (hmay _)
  refine keeps_quiet hsent rfl fun t _ ht => ?_
  generalize hreply : (u.handle (.promote revertAt) answer).2 = promoted
  cases promoted with
  | none => exact keeps_throw ht (by rintro ⟨⟩)
  | some result =>
      cases result with
      | error e => exact keeps_throw ht (by rintro ⟨⟩)
      | ok v =>
          have hpromoted : answer.reply (.promote revertAt) = some (.ok v) := hreply
          rw [hpromoted] at ht
          exact keeps_return ht fun _ => ⟨_, ht, v, by simp⟩

theorem checkAndConfirm_keeps {current trial : Value} (h : Told parseRfc3339 timing base log s)
    (hreached : Reached current log trial) :
    Keeps parseRfc3339 timing base
      (fun t r => AllowOutcome.returned r = .allowed → ∃ log, Told parseRfc3339 timing base log t ∧ Confirmed log)
      (checkAndConfirm parseRfc3339 timing trial) s := by
  refine keeps_ask h fun _ => ?_
  refine revertInstant_left h trial fun instant hleft => ?_
  refine keeps_ask h fun _ => ?_
  split
  · exact keeps_quiet h rfl fun t _ ht => keeps_throw ht (by rintro ⟨⟩)
  rename_i hlate
  have hmargin : timing.confirmMargin ≤ left parseRfc3339 timing trial s.wall := by
    rw [← hleft]
    exact Nat.le_of_not_lt hlate
  refine keeps_ask h fun _ => ?_
  refine keeps_ask h fun answer => ?_
  have hverified : ∀ deadline, Told parseRfc3339 timing base
      (log ++ [.verify s.wall (answer.reply (.verify deadline))])
      (s.handle (.verify deadline) answer).1 := fun _ => h.add rfl trivial
  split
  · rename_i status hstatus
    split
    · exact keeps_quiet (hverified _) rfl fun t _ ht => keeps_throw ht (by rintro ⟨⟩)
    rename_i hgood
    refine confirm_keeps _ (hverified _) fun _ => ?_
    change answer.reply _ = _ at hstatus
    rw [hstatus]
    obtain ⟨before, rfl⟩ := hreached.last
    obtain ⟨wanted, hwanted, htrial⟩ := hreached.onTrial
    refine ⟨?_, current, wanted, before, trial, s.wall, status, ?_, hwanted, by simp, htrial,
      hgood, hmargin⟩
    · intro e he
      rcases List.mem_append.mp he with he | he
      · exact hreached.unconfirmed e he
      · rw [List.mem_singleton.mp he]
        rfl
    · rw [List.head?_append, hreached.first]
      rfl
  · exact keeps_quiet (hverified _) rfl fun t _ ht => keeps_throw ht (by rintro ⟨⟩)
  · exact keeps_quiet (hverified _) rfl fun t _ ht => keeps_throw ht (by rintro ⟨⟩)

/-! ## The whole of Allow -/

theorem allowBody_keeps (rounds : Nat) (h : Told parseRfc3339 timing base [] s) :
    Keeps parseRfc3339 timing base
      (fun t r => AllowOutcome.returned r = .allowed → ∃ log, Told parseRfc3339 timing base log t ∧ Confirmed log)
      (allowBody parseRfc3339 timing rounds) s := by
  refine keeps_quiet h rfl fun t connected ht => ?_
  cases connected with
  | error e => exact keeps_throw ht (by rintro ⟨⟩)
  | ok u =>
      refine keeps_read ht (fun t e ht => keeps_throw ht (by rintro ⟨⟩)) fun t current ht => ?_
      refine Prog.Safe.bindE ((reachTrial_keeps rounds current ht).mono fun t r hI hr => ?_)
      obtain ⟨hnot, log, htold, hreached⟩ := hr
      cases r with
      | error e => exact fun he => absurd (congrArg Except.error he) hnot
      | ok trial => exact checkAndConfirm_keeps htold (hreached trial rfl)

end

section

variable (parseRfc3339 : String → Option Int) (timing : AllowTiming)

/-- Every request was one Allow was entitled to, and if it says the setting is
allowed, Home Assistant has confirmed it. -/
def Earned (log : List Entry) (outcome : Option AllowOutcome) : Prop :=
  Lawful (MayFollow parseRfc3339 timing) log ∧ (outcome = some .allowed → Confirmed log)

/-- `confirm_ours_on_trial` changes nothing before Allow, which it may run after
one reading of the settings of its own. -/
def EarnedAfterReading (log : List Entry) (outcome : Option (Option AllowOutcome)) : Prop :=
  log = [] ∧ outcome.join = none ∨
    ∃ c rest, log = .read c :: rest ∧ Earned parseRfc3339 timing rest outcome.join

theorem allowForwardedRequests_safe (rounds : Nat) (s : Seen) :
    Prog.Safe Seen.handle (AsAllowed parseRfc3339 timing s.log)
      (fun t outcome => ∃ log, t.log = s.log ++ log ∧
        Earned parseRfc3339 timing log (some outcome))
      (allowForwardedRequests parseRfc3339 timing rounds) s := by
  have hstart : Told parseRfc3339 timing s.log [] s := ⟨by rw [List.append_nil], .nil⟩
  refine Prog.Safe.bind ((allowBody_keeps rounds hstart).mono fun t r hI hr => ⟨hI, ?_⟩)
  obtain ⟨log, htold⟩ := hI
  refine ⟨log, htold.log_eq, htold.lawful, fun hallowed => ?_⟩
  obtain ⟨log', htold', hconfirmed⟩ := hr (Option.some.inj hallowed)
  rwa [List.append_cancel_left (htold.log_eq.symm.trans htold'.log_eq)]

theorem readHttpConfig_safe {I : Seen → Prop} (timeout : Nat) {s : Seen} (hs : s.log = [])
    (hnothing : ∀ t : Seen, t.log = [] → I t) (hread : ∀ t c, t.log = [.read c] → I t) :
    Prog.Safe Seen.handle I
      (fun t r => match r with
        | .error _ => t.log = []
        | .ok c => t.log = [.read c])
      (readHttpConfig timeout) s := by
  refine ⟨hnothing s hs, fun answer => ?_⟩
  have hconnected : (s.handle (.connect timeout) answer).1.log = [] :=
    (handle_quiet rfl s answer).trans hs
  revert hconnected
  generalize (s.handle (.connect timeout) answer).1 = t
  generalize (s.handle (.connect timeout) answer).2 = connected
  intro ht
  cases connected with
  | error e => exact ⟨hnothing t ht, ht⟩
  | ok u =>
      refine ⟨hnothing t ht, fun answer => ?_⟩
      cases hreply : answer.reply .httpConfig with
      | error e =>
          have hlog : (t.handle .httpConfig answer).1.log = [] := by
            simp [Seen.handle, Seen.await, Seen.entries, hreply, ht]
          have hreply' : (t.handle .httpConfig answer).2 = .error e := hreply
          refine ⟨hnothing _ hlog, fun answer' => ⟨hnothing _ ?_, ?_⟩⟩
          · exact (handle_quiet rfl _ answer').trans hlog
          · simp only [hreply']
            exact (handle_quiet (c := .close) rfl _ answer').trans hlog
      | ok c =>
          have hlog : (t.handle .httpConfig answer).1.log = [.read c] := by
            simp [Seen.handle, Seen.await, Seen.entries, hreply, ht]
          have hreply' : (t.handle .httpConfig answer).2 = .ok c := hreply
          refine ⟨hread _ c hlog, fun answer' => ⟨hread _ c ?_, ?_⟩⟩
          · exact (handle_quiet rfl _ answer').trans hlog
          · simp only [hreply']
            exact (handle_quiet (c := .close) rfl _ answer').trans hlog

theorem confirmOursOnTrial_safe (rounds : Nat) (s : Seen) (hs : s.log = []) :
    Prog.Safe Seen.handle
      (fun t => EarnedAfterReading parseRfc3339 timing t.log none)
      (fun t outcome => EarnedAfterReading parseRfc3339 timing t.log (some outcome))
      (confirmOursOnTrial parseRfc3339 timing rounds) s := by
  have hread : ∀ (t : Seen) (c : Value), t.log = [.read c] →
      ∀ outcome, outcome.join = none → EarnedAfterReading parseRfc3339 timing t.log outcome :=
    fun t c ht outcome hnone => .inr ⟨c, [], ht, .nil, by rw [hnone]; nofun⟩
  refine Prog.Safe.bind ((readHttpConfig_safe timing.call hs (fun t ht => .inl ⟨ht, rfl⟩)
    fun t c ht => hread t c ht none rfl).mono fun t r hI hr => ?_)
  cases r with
  | error e => exact ⟨hI, .inl ⟨hr, rfl⟩⟩
  | ok current =>
      dsimp only at hr ⊢
      split
      · have hallow := allowForwardedRequests_safe parseRfc3339 timing rounds t
        rw [hr] at hallow
        refine Prog.Safe.bind ((hallow.weaken ?_).mono ?_)
        · rintro u ⟨log, htold⟩
          exact .inr ⟨current, log, htold.log_eq, htold.lawful, nofun⟩
        · rintro u outcome hI ⟨log, hlog, hearned⟩
          exact ⟨hI, .inr ⟨current, log, hlog, hearned⟩⟩
      · exact ⟨hI, hread t current hr _ rfl⟩

/-- However its calls are answered, and wherever it is stopped, Allow makes only
the requests it is entitled to. -/
theorem allow_confirms_own (rounds clock : Nat) (wall : Int) (answers : List Answer) :
    let s : Seen := { clock, wall }
    let allowed := Prog.exec Seen.handle s answers
      (allowForwardedRequests parseRfc3339 timing rounds)
    let confirmed := Prog.exec Seen.handle s answers
      (confirmOursOnTrial parseRfc3339 timing rounds)
    Earned parseRfc3339 timing allowed.1.log allowed.2 ∧
      EarnedAfterReading parseRfc3339 timing confirmed.1.log confirmed.2 := by
  intro s allowed confirmed
  constructor
  · obtain ⟨⟨log, htold⟩, hreturned⟩ :=
      (allowForwardedRequests_safe parseRfc3339 timing rounds s).exec answers
    cases houtcome : allowed.2 with
    | none => exact ⟨htold.log_eq ▸ htold.lawful, nofun⟩
    | some outcome =>
        obtain ⟨log', hlog, hearned⟩ := hreturned outcome houtcome
        exact hlog ▸ hearned
  · obtain ⟨hstopped, hreturned⟩ :=
      (confirmOursOnTrial_safe parseRfc3339 timing rounds s rfl).exec answers
    cases houtcome : confirmed.2 with
    | none => exact hstopped
    | some outcome => exact hreturned outcome houtcome

end

end DatumConnect.HomeAssistant
