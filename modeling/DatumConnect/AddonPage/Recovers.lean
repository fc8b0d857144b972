import DatumConnect.AddonPage.Script
/-!
# The page recovers

There is always a poll in flight or one timer for the next, and a poll gives up in time.  A request
of a button has no such limit: the page stays busy for as long as it is not answered.
-/

namespace DatumConnect.AddonPage.Script

open DatumConnect.Lib
open DatumConnect.Lib.Json

/-! ## What is kept -/

/-- A state of the setup says how the setup is. -/
def WellFormed (state : Value) : Prop :=
  state.get "mode" = some (.string "setup") → has state "setup" = true

instance (state : Value) : Decidable (WellFormed state) :=
  inferInstanceAs (Decidable (_ → _))

/-- What is answered, as far as it is JSON. -/
def Answer.body : Answer → Option Value
  | .failed => none
  | .reply _ body => body

/-- The pending timers: none, or the one that was set last, for a time soon to come. -/
def Timed (p : Page) : Prop :=
  p.timers = [] ∨ ∃ t, p.timers = [t] ∧ p.timer = some t.id ∧ p.now ≤ t.due ∧ t.due ≤ p.now + 10000

/-- What every event keeps, where requests of buttons are answered within a limit. -/
structure Alive (limit : Nat) (p : Page) : Prop where
  timed : Timed p
  polling : p.polls ≠ [] ∨ p.timers ≠ []
  inTime : ∀ startedAt ∈ p.polls, p.now ≤ startedAt + pollTimeoutMs
  posting : p.busy = true → p.posts ≠ []
  answered : ∀ post ∈ p.posts, p.now ≤ post.startedAt + limit
  last : ∀ state ∈ p.last, WellFormed state

/-- What stays while a poll or a click is handled: all but that a poll or a timer is left. -/
structure Handling (limit : Nat) (p : Page) : Prop where
  timed : Timed p
  inTime : ∀ startedAt ∈ p.polls, p.now ≤ startedAt + pollTimeoutMs
  posting : p.busy = true → p.posts ≠ []
  answered : ∀ post ∈ p.posts, p.now ≤ post.startedAt + limit
  last : ∀ state ∈ p.last, WellFormed state

variable {limit : Nat} {p : Page} {state : Value} {loadedMode : String}

theorem Alive.handling (h : Alive limit p) : Handling limit p :=
  ⟨h.timed, h.inTime, h.posting, h.answered, h.last⟩

theorem interval_le (state : Value) : interval state ≤ 10000 := by
  unfold interval
  dsimp only
  split
  · split <;> omega
  · omega

namespace Handling

/-- Whenever a timer is set there is one, and no other. -/
theorem schedule (h : Handling limit p) {ms : Nat} (hms : ms ≤ 10000) :
    Alive limit (p.schedule ms) := by
  have hcleared : p.timers.filter (fun t => some t.id ≠ p.timer) = [] := by
    rcases h.timed with hnil | ⟨t, ht, htimer, -, -⟩
    · rw [hnil]
      rfl
    · rw [ht, htimer]
      simp
  have htimers : (p.schedule ms).timers = [⟨p.nextId, p.now + ms⟩] := by
    change p.timers.filter (fun t => some t.id ≠ p.timer) ++ _ = _
    rw [hcleared]
    rfl
  refine ⟨Or.inr ⟨_, htimers, rfl, ?_, ?_⟩, Or.inr ?_, h.inTime, h.posting, h.answered, h.last⟩
  · exact Nat.le_add_right _ _
  · exact Nat.add_le_add_left hms _
  · rw [htimers]
    exact List.cons_ne_nil _ _

theorem see (h : Handling limit p) (hstate : WellFormed state) :
    Handling limit { p with last := some state } :=
  ⟨h.timed, h.inTime, h.posting, h.answered, fun s hs => by
    cases hs
    exact hstate⟩

theorem pollWorked (h : Handling limit p) : Handling limit p.pollWorked :=
  ⟨h.timed, h.inTime, h.posting, h.answered, h.last⟩

theorem drawn (h : Handling limit p) (key : Option (Bool × Value)) :
    Handling limit { p with rendered := key } :=
  ⟨h.timed, h.inTime, h.posting, h.answered, h.last⟩

theorem redraw (h : Handling limit p) : Handling limit p.redraw := by
  unfold Page.redraw
  split
  · exact h.drawn _
  · exact h

theorem not_awayThrows (h : Handling limit p) : p.awayThrows = false := by
  unfold Page.awayThrows
  cases hlast : p.last with
  | none => exact Bool.and_false _
  | some state =>
      have hwell := h.last state hlast
      by_cases hmode : state.get "mode" = some (.string "setup")
      · simp [hmode, hwell hmode]
      · simp [hmode]

/-- A poll that failed is followed by a timer. -/
theorem away (h : Handling limit p) (status : Option Nat) (startedAt : Nat) :
    Alive limit (p.away status startedAt) := by
  have hfailed : Handling limit { p.pollFailed status startedAt with rendered := none } :=
    ⟨h.timed, h.inTime, h.posting, h.answered, h.last⟩
  unfold Page.away
  dsimp only
  rw [if_neg (by rw [hfailed.not_awayThrows]; exact Bool.false_ne_true)]
  exact hfailed.schedule (by omega)

theorem polled (h : Handling limit p) (hstate : WellFormed state) (drawn : Bool) (startedAt : Nat)
    (hstays : (p.polled loadedMode state drawn startedAt).reloaded = false) :
    Alive limit (p.polled loadedMode state drawn startedAt) := by
  have hworked := h.pollWorked
  unfold Page.polled at hstays ⊢
  dsimp only at hstays ⊢
  split
  · exact hworked.away _ _
  · rename_i hnull
    rw [if_neg hnull] at hstays
    split
    · rename_i hmode
      rw [if_pos hmode] at hstays
      cases hstays
    · have hseen := hworked.see hstate
      split
      · exact hseen.schedule (interval_le state)
      · split
        · exact (hseen.drawn _).schedule (interval_le state)
        · exact (hseen.drawn _).away _ _

theorem pollAnswered (h : Handling limit p) {answer : Answer}
    (hanswer : ∀ state ∈ answer.body, WellFormed state)
    (drawn : Bool) (startedAt : Nat)
    (hstays : (p.pollAnswered loadedMode answer drawn startedAt).reloaded = false) :
    Alive limit (p.pollAnswered loadedMode answer drawn startedAt) := by
  cases answer with
  | failed => exact h.away _ _
  | reply status body =>
      unfold Page.pollAnswered at hstays ⊢
      dsimp only at hstays ⊢
      split
      · rename_i hok
        rw [if_pos hok] at hstays
        cases body with
        | none => exact h.away _ _
        | some state => exact h.polled (hanswer state rfl) drawn startedAt hstays
      · exact h.away _ _

end Handling

namespace Alive

theorem drawn (h : Alive limit p) (key : Option (Bool × Value)) :
    Alive limit { p with rendered := key } :=
  ⟨h.timed, h.polling, h.inTime, h.posting, h.answered, h.last⟩

theorem redraw (h : Alive limit p) : Alive limit p.redraw := by
  unfold Page.redraw
  split
  · exact h.drawn _
  · exact h

theorem shows (h : Alive limit p) (hstate : WellFormed state) {ms : Nat} (hms : ms ≤ 10000)
    (drawn : Bool) : Alive limit (p.shows state ms drawn) := by
  unfold Page.shows
  split
  · have hshown := (h.handling.see hstate).drawn (some (p.renderKey state))
    have halive : Alive limit { p with last := some state, rendered := some (p.renderKey state) } :=
      ⟨h.timed, h.polling, h.inTime, h.posting, h.answered, hshown.last⟩
    dsimp only
    split
    · exact hshown.schedule hms
    · exact halive.redraw
  · exact h.handling.schedule hms

theorem resolved (h : Alive limit p) (hstate : WellFormed state) (drawn : Bool) (button : Button) :
    Alive limit (p.resolved state drawn button) := by
  cases button with
  | act => exact h.shows hstate (by omega) drawn
  | skipProxies => exact h.shows hstate (by omega) drawn
  | allowProxies => exact h.shows hstate (by omega) drawn
  | removeTunnel =>
      unfold Page.resolved
      dsimp only
      split
      · exact (h.handling.drawn none).schedule (by omega)
      · exact h
  | forget =>
      have hacted : Alive limit { p with acted := true } :=
        ⟨h.timed, h.polling, h.inTime, h.posting, h.answered, h.last⟩
      unfold Page.resolved
      dsimp only
      split
      · split
        · exact hacted.redraw.handling.schedule (by omega)
        · exact hacted.redraw
      · exact h

theorem postAnswered (h : Alive limit { p with busy := false }) {answer : Answer}
    (hanswer : ∀ state ∈ answer.body, WellFormed state)
    (drawn : Bool) (button : Button)
    (hstays : (p.postAnswered answer drawn button).reloaded = false) :
    Alive limit (p.postAnswered answer drawn button) := by
  cases answer with
  | failed => exact h.redraw
  | reply status body =>
      have hbody : WellFormed (body.getD (.object [])) := by
        cases body with
        | none => exact nofun
        | some state => exact hanswer state rfl
      unfold Page.postAnswered at hstays ⊢
      dsimp only at hstays ⊢
      split
      · rename_i hcsrf
        rw [if_pos hcsrf] at hstays
        cases hstays
      · split
        · exact h.resolved hbody drawn button
        · exact h.redraw

/-- A request of a button is sent. -/
theorem click (h : Alive limit p) (button : Button) : Alive limit (p.click button true) := by
  have hsent (q : Page) (hq : Alive limit { q with busy := false }) :
      Alive limit { q with posts := q.posts ++ [⟨button, q.now⟩] } := by
    refine ⟨hq.timed, hq.polling, hq.inTime, fun _ => ?_, fun post hpost => ?_, hq.last⟩
    · exact List.append_ne_nil_of_right_ne_nil _ (List.cons_ne_nil _ _)
    · rcases List.mem_append.mp hpost with hold | hnew
      · exact hq.answered post hold
      · rw [List.mem_singleton.mp hnew]
        exact Nat.le_add_right _ _
  have hidle : Alive limit { p with busy := false } :=
    ⟨h.timed, h.polling, h.inTime, nofun, h.answered, h.last⟩
  unfold Page.click
  dsimp only
  rw [Bool.not_true, Bool.and_false, if_neg Bool.false_ne_true]
  unfold Page.redraw
  dsimp only
  split
  · exact hsent _ (hidle.drawn _)
  · exact hsent _ hidle

end Alive

/-! ## Runs -/

/-- An event of a page that recovers: the browser can abort a poll, every request of a button is
answered within the limit or fails, what is sent for the setup says how it is, and a click finds a
state that can be drawn. -/
def Sound (limit : Nat) (abortable : Bool) (p : Page) : Event → Prop
  | .wait ms => abortable = true ∧ ∀ post ∈ p.posts, p.now + ms ≤ post.startedAt + limit
  | .poll _ answer _ | .post _ answer _ => ∀ state ∈ answer.body, WellFormed state
  | .click _ drawn => drawn = true
  | _ => True

instance (limit : Nat) (abortable : Bool) (p : Page) (e : Event) :
    Decidable (Sound limit abortable p e) := by
  cases e <;> dsimp only [Sound] <;> infer_instance

theorem Alive.step {abortable : Bool} (h : Alive limit p) {e : Event} (he : Sound limit abortable p e)
    {p' : Page} (hstep : step loadedMode abortable p e = some p') (hstays : p'.reloaded = false) :
    Alive limit p' := by
  unfold Script.step at hstep
  split at hstep
  · cases hstep
  cases e with
  | wait ms =>
      obtain ⟨rfl, hposts⟩ := he
      dsimp only at hstep
      split at hstep
      · rename_i hidle
        cases hstep
        unfold Page.idleUntil at hidle
        simp only [Bool.and_eq_true, Bool.not_true, Bool.false_or, List.all_eq_true,
          decide_eq_true_eq] at hidle
        refine ⟨?_, h.polling, hidle.2, h.posting, hposts, h.last⟩
        rcases h.timed with hnil | ⟨t, ht, htimer, -, hdue⟩
        · exact Or.inl hnil
        · have hlater := hidle.1 t (by rw [ht]; exact List.mem_singleton_self t)
          exact Or.inr ⟨t, ht, htimer, hlater, by dsimp only; omega⟩
      · cases hstep
  | fire id =>
      dsimp only at hstep
      split at hstep
      · cases hstep
        refine ⟨Or.inl ?_, Or.inl ?_, fun startedAt hmem => ?_, h.posting, h.answered, h.last⟩
        · rename_i hany
          rcases h.timed with hnil | ⟨t, ht, -, -, -⟩
          · dsimp only
            rw [hnil]
            rfl
          · rw [ht] at hany
            simp only [List.any_cons, List.any_nil, Bool.or_false, Bool.and_eq_true,
              decide_eq_true_eq] at hany
            dsimp only
            rw [ht]
            simp [hany.1]
        · exact List.append_ne_nil_of_right_ne_nil _ (List.cons_ne_nil _ _)
        · rcases List.mem_append.mp hmem with hold | hnew
          · exact h.inTime startedAt hold
          · rw [List.mem_singleton.mp hnew]
            exact Nat.le_add_right _ _
      · cases hstep
  | poll i answer drawn =>
      obtain ⟨startedAt, hstarted, rfl⟩ := Option.map_eq_some_iff.mp hstep
      have hrest : Handling limit { p with polls := p.polls.eraseIdx i } :=
        ⟨h.timed, fun t ht => h.inTime t (List.mem_of_mem_eraseIdx ht), h.posting, h.answered,
          h.last⟩
      exact hrest.pollAnswered he drawn startedAt hstays
  | abort i =>
      obtain ⟨startedAt, hstarted, rfl⟩ := Option.map_eq_some_iff.mp hstep
      have hrest : Handling limit { p with polls := p.polls.eraseIdx i } :=
        ⟨h.timed, fun t ht => h.inTime t (List.mem_of_mem_eraseIdx ht), h.posting, h.answered,
          h.last⟩
      exact hrest.away none startedAt
  | click button drawn =>
      cases hstep
      subst he
      exact h.click button
  | post i answer drawn =>
      obtain ⟨post, hpost, rfl⟩ := Option.map_eq_some_iff.mp hstep
      have hrest : Alive limit { p with posts := p.posts.eraseIdx i, busy := false } :=
        ⟨h.timed, h.polling, h.inTime, nofun,
          fun t ht => h.answered t (List.mem_of_mem_eraseIdx ht), h.last⟩
      exact hrest.postAnswered he drawn post.button hstays
  | pick =>
      cases hstep
      exact h.redraw

theorem alive_start (limit : Nat) : Alive limit start where
  timed := Or.inl rfl
  polling := Or.inl (List.cons_ne_nil _ _)
  inTime _ h := by
    rw [List.mem_singleton.mp h]
    exact Nat.zero_le _
  posting h := by cases h
  answered _ h := absurd h List.not_mem_nil
  last _ h := absurd h (Option.not_mem_none _)

/-- A page that has been told to reload does nothing more. -/
theorem reloaded_of_step {abortable : Bool} {e : Event} {p' : Page}
    (h : step loadedMode abortable p e = some p') : p.reloaded = false := by
  unfold step at h
  split at h
  · cases h
  · rename_i hnot
    exact Bool.not_eq_true _ ▸ hnot

/-- The page in every state before it is told to reload: a poll is in flight, or just one timer is
pending, for at most ten seconds; no poll takes longer than fifteen; and while it is busy a request
of one of its buttons has not been answered, for no longer than the limit. -/
structure Recovers (limit : Nat) (p : Page) : Prop where
  polling : p.polls ≠ [] ∨ ∃ t, p.timers = [t] ∧ t.due ≤ p.now + 10000
  inTime : ∀ startedAt ∈ p.polls, p.now ≤ startedAt + 15000
  busy : p.busy = true → ∃ post ∈ p.posts, p.now ≤ post.startedAt + limit

theorem Alive.recovers (h : Alive limit p) : Recovers limit p where
  polling := by
    rcases h.polling with hpolls | htimers
    · exact Or.inl hpolls
    · rcases h.timed with hnil | ⟨t, ht, -, -, hdue⟩
      · exact absurd hnil htimers
      · exact Or.inr ⟨t, ht, hdue⟩
  inTime := h.inTime
  busy hbusy := by
    obtain ⟨post, hpost⟩ := List.exists_mem_of_ne_nil _ (h.posting hbusy)
    exact ⟨post, hpost, h.answered post hpost⟩

/-- Every state a page reaches where its requests are answered is one it recovers from. -/
theorem page_recovers (loadedMode : String) (abortable : Bool) (limit : Nat) (events : List Event)
    {p : Page} (hrun : Runs.run (step loadedMode abortable) start events = some p)
    (hsound : Runs.Meets (step loadedMode abortable) (Sound limit abortable) start events)
    (hstays : p.reloaded = false) : Recovers limit p := by
  have hstep (q : Page) (e : Event) (q' : Page) (hq : q.reloaded = false → Alive limit q)
      (he : Sound limit abortable q e) (h : step loadedMode abortable q e = some q') :
      q'.reloaded = false → Alive limit q' :=
    (hq (reloaded_of_step h)).step he h
  have hinv := Runs.invariant hstep (fun _ => alive_start limit) hsound hrun
  exact (hinv hstays).recovers

/-- Allow is clicked, its request fails while Home Assistant restarts, and so does the next poll. -/
def restarting : List Event :=
  let paired : Value := .object [("mode", .string "paired")]
  [.poll 0 (.reply 200 (some paired)) true, .wait 4000, .click .allowProxies true, .wait 6000,
    .fire 0, .post 0 .failed true, .wait 15000, .abort 0, .wait 2000, .fire 1]

theorem page_recovers_restarting :
    ∃ p, Runs.run (step "paired" true) start restarting = some p ∧ p.now = 27000 ∧
      p.busy = false ∧ Recovers 6000 p := by
  have hsound : Runs.Meets (step "paired" true) (Sound 6000 true) start restarting := by
    decide +kernel
  have hrun : ((Runs.run (step "paired" true) start restarting).map fun p =>
      (p.now, p.busy, p.reloaded)) = some (27000, false, false) := by
    decide +kernel
  obtain ⟨p, hp, hkept⟩ := Option.map_eq_some_iff.mp hrun
  simp only [Prod.mk.injEq] at hkept
  exact ⟨p, hp, hkept.1, hkept.2.1,
    page_recovers "paired" true 6000 restarting hp hsound hkept.2.2⟩

end DatumConnect.AddonPage.Script
