import DatumConnect.Lib.Runs
import DatumConnect.Pairing.Keys
import DatumConnect.Pairing.Setup
import DatumConnect.Pairing.SetupPlaces
/-!
# What the page shows is its run

However the requests of the page and the steps of all tasks interleave, only the current run is
past its approval.  So what is made in Datum is made by the run the page shows, in the project the
page shows; and a choice made while the run does not read another one is the one it works in.
-/

namespace DatumConnect.Pairing.Setup

open DatumConnect.Lib
open DatumConnect.Lib.Prog (Follows)

/-- The project a call makes something in. -/
def makesIn : PairCall → Option String
  | .api _ (.createServiceAccount project _ _) | .api _ (.createServiceAccountKey project _ _ _) =>
      some project
  | .api _ (.createPolicyBinding project _) => some project.name
  | _ => none

/-- The id, as it is written somewhere, is the one of this name. -/
def Names (id name : String) : Prop :=
  ∃ wanted, normalizeProject id = some wanted ∧ eqIgnoreAsciiCase name wanted = true

/-- The call a task is about to make. -/
def Stage.next : Stage → Option PairCall
  | .going (.call call _) _ => some call
  | _ => none

/-- The run is reading its source, or has read which project it is to be. -/
def Stage.picks : Stage → Bool
  | .going (.call (.event (.projectSelected _ _)) _) _ => true
  | .going _ reading => reading ≠ .no
  | _ => false

/-- A choice is made while the run waits for one. -/
def InPeace (s : Inner) : Inner.Act → Prop
  | .choose _ => (s.tasks s.run).stage.picks = false
  | _ => True

instance (s : Inner) (act : Inner.Act) : Decidable (InPeace s act) := by
  cases act <;> (dsimp only [InPeace]; infer_instance)

def Stage.panics (latest now : Nat) : Stage → Bool
  | .going (.call (.event e) _) _ => Setup.panics latest now e
  | _ => false

/-- No code is shown that expires later than the clock can say. -/
def InRange (c : Config) (s : Inner) : Inner.Act → Prop
  | .advance n _ => (s.tasks n).stage.panics c.latest s.clock = false
  | _ => True

instance (c : Config) (s : Inner) (act : Inner.Act) : Decidable (InRange c s act) := by
  cases act <;> (dsimp only [InRange]; infer_instance)

/-! ## What is kept -/

variable (c : Config)

/-- The project is the one chosen on the page, or else one the fallback has had set since. -/
def Chosen (s : Inner) (name : String) : Prop :=
  match s.page with
  | some id => Names id name
  | none => ∃ at_ id, s.lastFallback = some (at_, some id) ∧ some id ≠ c.initial ∧ Names id name

/-- What the page shows of a run that has got there, and how far a reading of the source is. -/
def Agrees (peaceful : Prop) (s : Inner) (reading : Reading) : Place → Prop
  | .asking => reading = .no ∧ s.status.running = true
  | .approved => reading = .no ∧ s.status.phase = .approved
  | .listed _ => reading = .no ∧ (s.status.phase = .choose ∨ s.status.phase = .working)
  | .slept _ =>
      (s.status.phase = .choose ∨ s.status.phase = .working) ∧
        (peaceful → reading ≠ .no → s.page = none)
  | .selected p =>
      reading = .no ∧ (s.status.phase = .choose ∨ s.status.phase = .working) ∧
        (peaceful → Chosen c s p.id)
  | .working p =>
      reading = .no ∧ s.status.phase = .working ∧ s.status.project = some p.id ∧
        (peaceful → Chosen c s p.id)

/-- The page shows that this key is saved. -/
structure Shows (peaceful : Prop) (s : Inner) (key : PairedKey) : Prop where
  phase : s.status.phase = .done
  project : s.status.project = some key.project
  organization : s.status.organization = some key.organization
  serviceAccount : s.status.serviceAccount = some key.serviceAccountEmail
  chosen : peaceful → Chosen c s key.project

/-- The task of the current run. -/
def Current (peaceful : Prop) (s : Inner) (task : Task) : Prop :=
  match task.stage with
  | .waiting _ => s.status.phase = .starting
  | .going p reading =>
      ∃ g, Follows protocol Ended p g ∧ Agrees c peaceful s reading g
  | .sending key => Shows c peaceful s key
  | .gone =>
      s.status.running = true → task.aborted = true ∨ task.panicked = true ∧ s.status.phase = .code

/-- Places before the source is read. -/
def Place.early : Place → Bool
  | .asking | .approved | .listed _ => true
  | _ => false

/-- The task of a run that is not the current one. -/
def Replaced (task : Task) : Prop :=
  match task.stage with
  | .waiting _ => task.aborted = true
  | .going p reading =>
      task.aborted = true ∧ reading = .no ∧
        ∃ g : Place, Follows protocol Ended p g ∧ g.early = true
  | .sending _ => False
  | .gone => True

structure Kept (peaceful : Prop) (s : Inner) : Prop where
  slot : s.slot = some s.run ∨ s.slot = none ∧
    ((s.tasks s.run).aborted = true ∨ (s.tasks s.run).stage.isGone = true)
  current : Current c peaceful s (s.tasks s.run)
  replaced : ∀ n, n ≠ s.run → Replaced (s.tasks n)
  done : ∀ key, s.done = some key → Shows c peaceful s key

/-! ## Small rules -/

namespace Inner

variable (s : Inner)

@[simp] theorem setTask_tasks_self (n : Nat) (task : Task) : (s.setTask n task).tasks n = task := by
  unfold setTask
  exact Function.update_self n task s.tasks

theorem setTask_tasks_ne {n m : Nat} (h : m ≠ n) (task : Task) :
    (s.setTask n task).tasks m = s.tasks m := by
  unfold setTask
  exact Function.update_of_ne h task s.tasks

@[simp] theorem abortSlot_status : s.abortSlot.status = s.status := by
  unfold abortSlot
  split <;> rfl

@[simp] theorem abortSlot_run : s.abortSlot.run = s.run := by
  unfold abortSlot
  split <;> rfl

@[simp] theorem abortSlot_page : s.abortSlot.page = s.page := by
  unfold abortSlot
  split <;> rfl

@[simp] theorem abortSlot_lastFallback : s.abortSlot.lastFallback = s.lastFallback := by
  unfold abortSlot
  split <;> rfl

@[simp] theorem abortSlot_done : s.abortSlot.done = s.done := by
  unfold abortSlot
  split <;> rfl

theorem abortSlot_tasks (n : Nat) :
    s.abortSlot.tasks n =
      { s.tasks n with aborted := (s.tasks n).aborted || decide (s.slot = some n) } := by
  unfold abortSlot
  cases hslot : s.slot with
  | none => simp
  | some m =>
      by_cases hn : n = m
      · subst hn
        simp [abort]
      · dsimp only [abort]
        rw [setTask_tasks_ne s hn]
        have hne : ¬some m = some n := fun h => hn (Option.some.inj h).symm
        simp [hne]

end Inner

variable {c} {peaceful : Prop} {s : Inner}

/-- What is shown of a run depends on the page, the fallback and the status only. -/
theorem Chosen.congr {t : Inner} {name : String} (hpage : t.page = s.page)
    (hfallback : t.lastFallback = s.lastFallback) (h : Chosen c s name) : Chosen c t name := by
  unfold Chosen
  rw [hpage, hfallback]
  exact h

theorem Shows.congr {t : Inner} {key : PairedKey} (hstatus : t.status = s.status)
    (hpage : t.page = s.page) (hfallback : t.lastFallback = s.lastFallback)
    (h : Shows c peaceful s key) : Shows c peaceful t key where
  phase := hstatus ▸ h.phase
  project := hstatus ▸ h.project
  organization := hstatus ▸ h.organization
  serviceAccount := hstatus ▸ h.serviceAccount
  chosen hpeace := (h.chosen hpeace).congr hpage hfallback

theorem Agrees.congr {t : Inner} {reading : Reading} {g : Place} (hstatus : t.status = s.status)
    (hpage : t.page = s.page) (hfallback : t.lastFallback = s.lastFallback)
    (h : Agrees c peaceful s reading g) : Agrees c peaceful t reading g := by
  have hchosen : ∀ name, Chosen c t name ↔ Chosen c s name := fun name =>
    ⟨Chosen.congr hpage.symm hfallback.symm, Chosen.congr hpage hfallback⟩
  cases g <;> simp only [Agrees, hstatus, hpage, hchosen] at h ⊢ <;> exact h

theorem Current.congr {t : Inner} {task : Task} (hstatus : t.status = s.status)
    (hpage : t.page = s.page) (hfallback : t.lastFallback = s.lastFallback)
    (h : Current c peaceful s task) : Current c peaceful t task := by
  obtain ⟨stage, aborted, panicked⟩ := task
  cases stage with
  | waiting previous =>
      change t.status.phase = _
      rw [hstatus]
      exact h
  | going p reading =>
      obtain ⟨g, hfollows, hagrees⟩ := h
      exact ⟨g, hfollows, hagrees.congr hstatus hpage hfallback⟩
  | sending key => exact Shows.congr hstatus hpage hfallback h
  | gone =>
      change t.status.running = true → _ ∨ _ ∧ t.status.phase = _
      rw [hstatus]
      exact h

theorem Agrees.running {reading : Reading} {g : Place} (h : Agrees c peaceful s reading g) :
    s.status.running = true := by
  unfold SetupStatus.running
  cases g with
  | asking => exact h.2
  | approved => rw [h.2]
  | listed projects => rcases h.2 with hphase | hphase <;> rw [hphase]
  | slept projects => rcases h.1 with hphase | hphase <;> rw [hphase]
  | selected p => rcases h.2.1 with hphase | hphase <;> rw [hphase]
  | working p => rw [h.2.1]

/-! ## Requests of the page -/

theorem Replaced.abort {task : Task} (h : Replaced task) (b : Bool) :
    Replaced { task with aborted := task.aborted || b } := by
  obtain ⟨stage, aborted, panicked⟩ := task
  cases stage with
  | waiting previous =>
      change (aborted || b) = true
      rw [show aborted = true from h, Bool.true_or]
  | going p reading =>
      obtain ⟨haborted, hrest⟩ := h
      refine ⟨?_, hrest⟩
      change (aborted || b) = true
      rw [show aborted = true from haborted, Bool.true_or]
  | sending key => exact h
  | gone => exact trivial

theorem Current.abort {task : Task} (h : Current c peaceful s task) (b : Bool) :
    Current c peaceful s { task with aborted := task.aborted || b } := by
  obtain ⟨stage, aborted, panicked⟩ := task
  cases stage with
  | gone =>
      intro hrunning
      refine (h hrunning).imp_left fun haborted => ?_
      change (aborted || b) = true
      rw [show aborted = true from haborted, Bool.true_or]
  | _ => exact h

/-- A run that is replaced has not been approved. -/
theorem Current.replaced {task : Task} (h : Current c peaceful s task)
    (hphase : s.status.phase = .starting ∨ s.status.phase = .code ∨ s.status.running = false)
    (hdone : s.status.phase ≠ .done)
    (hgone : task.aborted = true ∨ task.stage.isGone = true) : Replaced task := by
  obtain ⟨stage, aborted, panicked⟩ := task
  have haborted (hnot : stage.isGone = false) : aborted = true :=
    hgone.resolve_right fun hthere => by
      rw [show stage.isGone = true from hthere] at hnot
      cases hnot
  cases stage with
  | waiting previous => exact haborted rfl
  | going p reading =>
      obtain ⟨g, hfollows, hagrees⟩ := h
      have hearly : s.status.phase = .starting ∨ s.status.phase = .code := by
        rcases hphase with hphase | hphase | hphase
        · exact Or.inl hphase
        · exact Or.inr hphase
        · rw [hagrees.running] at hphase
          cases hphase
      have hne (phase : Phase) (hne₁ : phase ≠ .starting) (hne₂ : phase ≠ .code) :
          s.status.phase ≠ phase := by
        rintro rfl
        exact hearly.elim hne₁ hne₂
      cases g with
      | asking => exact ⟨haborted rfl, hagrees.1, .asking, hfollows, rfl⟩
      | approved => exact absurd hagrees.2 (hne _ (by decide) (by decide))
      | listed projects =>
          exact (hagrees.2.elim (hne _ (by decide) (by decide)) (hne _ (by decide) (by decide))).elim
      | slept projects =>
          exact (hagrees.1.elim (hne _ (by decide) (by decide)) (hne _ (by decide) (by decide))).elim
      | selected p =>
          exact (hagrees.2.1.elim (hne _ (by decide) (by decide))
            (hne _ (by decide) (by decide))).elim
      | working p => exact absurd hagrees.2.1 (hne _ (by decide) (by decide))
  | sending key => exact absurd (Shows.phase h) hdone
  | gone => exact trivial

theorem Kept.spawnRun (h : Kept c peaceful s)
    (hphase : s.status.phase = .starting ∨ s.status.phase = .code ∨ s.status.running = false)
    (hdone : s.status.phase ≠ .done) : Kept c peaceful s.spawnRun where
  slot := Or.inl rfl
  current := by
    have htask : s.spawnRun.tasks s.spawnRun.run = { stage := .waiting s.slot } :=
      Function.update_self _ _ _
    rw [htask]
    exact rfl
  replaced n hn := by
    have htask : s.spawnRun.tasks n = s.abortSlot.tasks n := Function.update_of_ne hn _ _
    rw [htask, s.abortSlot_tasks n]
    by_cases hcurrent : n = s.run
    · subst hcurrent
      refine Current.replaced (h.current.abort _) hphase hdone ?_
      rcases h.slot with hslot | ⟨-, haborted | hgone⟩
      · rw [hslot]
        exact Or.inl (by simp)
      · rw [haborted]
        exact Or.inl rfl
      · exact Or.inr hgone
    · exact (h.replaced n hcurrent).abort _
  done key hkey := by
    have hkey' : s.done = some key := by
      rw [← hkey]
      exact s.abortSlot_done.symm
    exact absurd (h.done key hkey').phase hdone

theorem Kept.start (h : Kept c peaceful s) : Kept c peaceful s.start := by
  unfold Inner.start
  split
  · exact h
  · rename_i hnot
    rw [not_or, Bool.not_eq_true] at hnot
    exact h.spawnRun (Or.inr (Or.inr hnot.1)) hnot.2

theorem Kept.restart (h : Kept c peaceful s) : Kept c peaceful s.restart.1 := by
  have hrunning (phase : Phase) (hphase : s.status.phase = phase) :
      s.status.running = ({ phase } : SetupStatus).running := by
    unfold SetupStatus.running
    rw [hphase]
  unfold Inner.restart
  cases hphase : s.status.phase with
  | idle =>
      exact h.spawnRun (Or.inr (Or.inr (hrunning _ hphase))) (by rw [hphase]; decide)
  | starting => exact h.spawnRun (Or.inl hphase) (by rw [hphase]; decide)
  | code => exact h.spawnRun (Or.inr (Or.inl hphase)) (by rw [hphase]; decide)
  | failed =>
      exact h.spawnRun (Or.inr (Or.inr (hrunning _ hphase))) (by rw [hphase]; decide)
  | _ => exact h

theorem Kept.stop (h : Kept c peaceful s) : Kept c peaceful s.stop where
  slot := by
    right
    refine ⟨rfl, ?_⟩
    have htask : s.stop.tasks s.stop.run = s.abortSlot.tasks s.run := by
      unfold Inner.stop
      rw [s.abortSlot_run]
    rw [htask, s.abortSlot_tasks]
    rcases h.slot with hslot | ⟨-, haborted | hgone⟩
    · rw [hslot]
      exact Or.inl (by simp)
    · rw [haborted]
      exact Or.inl rfl
    · exact Or.inr hgone
  current := by
    have htask : s.stop.tasks s.stop.run = s.abortSlot.tasks s.run := by
      unfold Inner.stop
      rw [s.abortSlot_run]
    rw [htask, s.abortSlot_tasks]
    exact (h.current.abort _).congr s.abortSlot_status s.abortSlot_page
      s.abortSlot_lastFallback
  replaced n hn := by
    have hne : n ≠ s.run := by
      rw [← s.abortSlot_run]
      exact hn
    have htask : s.stop.tasks n = s.abortSlot.tasks n := rfl
    rw [htask, s.abortSlot_tasks]
    exact (h.replaced n hne).abort _
  done key hkey := by
    have hkey' : s.done = some key := by
      rw [← hkey]
      exact s.abortSlot_done.symm
    exact (h.done key hkey').congr s.abortSlot_status s.abortSlot_page
      s.abortSlot_lastFallback

/-- What an accepted choice does. -/
theorem choose_cases (s : Inner) (project : String) :
    (s.choose project).1 = s ∨
      s.status.phase = .choose ∧ ∃ id organization, (s.choose project).1 = { s with
        page := some id
        status := { s.status with
          phase := .working, project := some id, organization := some organization } } := by
  unfold Inner.choose
  split
  · exact Or.inl rfl
  rename_i hphase
  split
  · exact Or.inl rfl
  split
  · exact Or.inl rfl
  · exact Or.inr ⟨not_not.mp hphase, _, _, rfl⟩

theorem Kept.choose (h : Kept c peaceful s) (project : String)
    (hpeace : peaceful → (s.tasks s.run).stage.picks = false) :
    Kept c peaceful (s.choose project).1 := by
  rcases choose_cases s project with hsame | ⟨hphase, id, organization, hchosen⟩
  · rw [hsame]
    exact h
  rw [hchosen]
  have hne (phase : Phase) (hphase' : s.status.phase = phase) : phase = .choose :=
    hphase'.symm.trans hphase
  have hrunning : s.status.running = true := by
    unfold SetupStatus.running
    rw [hphase]
  refine ⟨h.slot, ?_, h.replaced, fun key hkey => ?_⟩
  · have hcurrent := h.current
    generalize s.tasks s.run = task at hcurrent hpeace
    change Current c peaceful _ task
    obtain ⟨stage, aborted, panicked⟩ := task
    cases stage with
    | waiting previous => exact absurd (hne _ hcurrent) (by decide)
    | going p reading =>
        obtain ⟨g, hfollows, hagrees⟩ := hcurrent
        refine ⟨g, hfollows, ?_⟩
        cases g with
        | asking => exact ⟨hagrees.1, rfl⟩
        | approved => exact absurd (hne _ hagrees.2) (by decide)
        | listed projects => exact ⟨hagrees.1, Or.inr rfl⟩
        | slept projects =>
            refine ⟨Or.inr rfl, fun hpeaceful hreading => absurd (hpeace hpeaceful) ?_⟩
            unfold Stage.picks
            split
            · decide
            · rename_i heq
              cases heq
              simpa using hreading
            · rename_i hnot
              exact absurd rfl (hnot p reading)
        | selected q =>
            refine ⟨hagrees.1, Or.inr rfl, fun hpeaceful => absurd (hpeace hpeaceful) ?_⟩
            cases p with
            | ret result =>
                cases result with
                | ok key =>
                    obtain ⟨_, hworking, _⟩ := hfollows
                    cases hworking
                | error e => exact absurd rfl (hfollows q)
            | call call k =>
                cases call with
                | event e => cases e <;> first | exact hfollows.1.elim | exact Bool.noConfusion
                | _ => exact hfollows.1.elim
        | working q => exact absurd (hne _ hagrees.2.1) (by decide)
    | sending key => exact absurd (hne _ (Shows.phase hcurrent)) (by decide)
    | gone =>
      exact fun _ => (hcurrent hrunning).imp_right fun hpanicked =>
        absurd (hne _ hpanicked.2) (by decide)
  · exact absurd (hne _ (h.done key hkey).phase) (by decide)

/-! ## Steps of the tasks -/

/-- Where an event leads the run and the page it is shown on. -/
theorem Agrees.event {reading : Reading} {g : Place} {e : PairingEvent}
    (h : Agrees c peaceful s reading g) (hallowed : g.Allowed (.event e)) :
    Agrees c peaceful { s with status := s.status.apply c.latest s.clock e } .no
      (g.advance (.event e) ()) := by
  have hrunning := h.running
  cases e with
  | sessionDropped reason =>
      cases g with
      | selected p => exact hallowed.elim
      | _ => exact ⟨rfl, hrunning⟩
  | code userCode expiresIn =>
      cases g with
      | asking => exact ⟨rfl, rfl⟩
      | approved => cases hallowed
      | working p => cases hallowed
      | _ => exact hallowed.elim
  | codeExpired =>
      cases g with
      | asking => exact ⟨rfl, hrunning⟩
      | approved => cases hallowed
      | working p => cases hallowed
      | _ => exact hallowed.elim
  | approved email | resumed email =>
      cases g with
      | asking => exact ⟨rfl, rfl⟩
      | approved => cases hallowed
      | working p => cases hallowed
      | _ => exact hallowed.elim
  | chooseProject projects rejected wait =>
      let applied := s.status.apply c.latest s.clock (.chooseProject projects rejected wait)
      have hphase (hnot : s.status.phase ≠ .working → s.status.phase ≠ .choose →
            s.status.phase = .approved) : applied.phase = .choose ∨ applied.phase = .working := by
        change (if s.status.phase ≠ .working then Phase.choose else s.status.phase) = _ ∨
          (if s.status.phase ≠ .working then Phase.choose else s.status.phase) = _
        split
        · exact Or.inl rfl
        · rename_i hworking
          exact Or.inr (not_not.mp hworking)
      cases g with
      | approved => exact ⟨rfl, hphase fun _ _ => h.2⟩
      | listed projects => exact ⟨rfl, hphase fun hw hc => (h.2.elim hc hw).elim⟩
      | asking => cases hallowed
      | working p => cases hallowed
      | _ => exact hallowed.elim
  | projectSelected project organization =>
      cases g with
      | selected p =>
          obtain ⟨rfl, rfl⟩ := hallowed
          exact ⟨rfl, rfl, rfl, h.2.2⟩
      | asking => cases hallowed
      | approved => cases hallowed
      | working p => cases hallowed
      | _ => exact hallowed.elim
  | serviceAccountCreated email project | serviceAccountReused email project =>
      cases g with
      | working p => exact ⟨rfl, rfl, h.2.2⟩
      | asking => cases hallowed
      | approved => cases hallowed
      | _ => exact hallowed.elim
  | accessGranted | accessNotConfirmed email project | keySaved =>
      cases g with
      | working p => exact ⟨rfl, h.2⟩
      | asking => cases hallowed
      | approved => cases hallowed
      | _ => exact hallowed.elim

/-- Only a sleep leads anywhere, of the calls that are neither events nor readings. -/
theorem Agrees.call {reading : Reading} {g : Place} {call : PairCall} (r : call.Reply)
    (h : Agrees c peaceful s reading g) (hevent : ∀ e, call ≠ .event e) (hread : call ≠ .project) :
    Agrees c peaceful s .no (g.advance call r) := by
  have hstays : Agrees c peaceful s .no g := by
    cases g with
    | asking => exact ⟨rfl, h.2⟩
    | approved => exact ⟨rfl, h.2⟩
    | listed projects => exact ⟨rfl, h.2⟩
    | slept projects => exact ⟨h.1, fun _ hno => absurd rfl hno⟩
    | selected p => exact ⟨rfl, h.2⟩
    | working p => exact ⟨rfl, h.2⟩
  cases call with
  | event e => exact absurd rfl (hevent e)
  | project => exact absurd rfl hread
  | sleep duration =>
      cases g with
      | listed projects => exact ⟨hstays.2, fun _ hno => absurd rfl hno⟩
      | _ => exact hstays
  | _ => exact hstays

/-- What is read is one of the projects, or the list stays. -/
theorem Agrees.read {reading : Reading} {projects : List ProjectChoice} {value : Option String}
    (h : Agrees c peaceful s reading (.slept projects))
    (hvalue : peaceful → ∀ id, value = some id → ∀ name, Names id name → Chosen c s name) :
    Agrees c peaceful s .no ((Place.slept projects).advance .project (.ok value)) := by
  change Agrees c peaceful s .no
    (((value.bind normalizeProject).bind (findChoice projects)).elim (.listed projects) .selected)
  cases hfound : (value.bind normalizeProject).bind (findChoice projects) with
  | none => exact ⟨rfl, h.1⟩
  | some p =>
      obtain ⟨wanted, hwanted, hp⟩ := Option.bind_eq_some_iff.mp hfound
      obtain ⟨id, hid, hnormal⟩ := Option.bind_eq_some_iff.mp hwanted
      refine ⟨rfl, h.1, fun hpeaceful => hvalue hpeaceful id hid _ ⟨wanted, hnormal, ?_⟩⟩
      exact List.find?_some (p := fun q : ProjectChoice => eqIgnoreAsciiCase q.id wanted) hp

/-- The source is read only after a sleep. -/
theorem Place.Allowed.slept {g : Place} (h : g.Allowed .project) :
    ∃ projects, g = .slept projects := by
  cases g with
  | slept projects => exact ⟨projects, rfl⟩
  | asking => cases h
  | approved => cases h
  | working p => cases h
  | _ => exact h.elim

theorem Place.early_advance {g : Place} {call : PairCall} (r : call.Reply)
    (h : g.early = true) (hallowed : g.Allowed call) (hawaits : call.awaits = false) :
    (g.advance call r).early = true := by
  cases call with
  | event e =>
      cases e with
      | approved email => rfl
      | resumed email => rfl
      | sessionDropped reason => rfl
      | chooseProject projects rejected wait =>
          cases g with
          | approved => rfl
          | _ => exact h
      | projectSelected project organization =>
          cases g with
          | selected p => cases h
          | _ => exact h
      | _ => exact h
  | sleep duration => cases hawaits
  | project => cases hawaits
  | _ => exact h

namespace Inner

/-- What a step of a task does to what the page shows is nothing where the run is not the current
one. -/
theorem apply_of_ne (latest : Nat) {n : Nat} (e : PairingEvent) (hn : n ≠ s.run) :
    s.apply latest n e = s :=
  if_neg fun h => hn h.symm

theorem finish_of_ne {n : Nat} (display : PairingError → String)
    (result : Except PairingError PairedKey) (hn : n ≠ s.run) : s.finish display n result = s :=
  if_neg fun h => hn h.symm

end Inner

theorem Kept.setReplaced (h : Kept c peaceful s) {n : Nat} (hn : n ≠ s.run) (stage : Stage)
    (htask : Replaced { s.tasks n with stage }) : Kept c peaceful (s.setStage n stage) where
  slot := by
    have hsame : (s.setStage n stage).tasks s.run = s.tasks s.run :=
      s.setTask_tasks_ne (fun heq => hn heq.symm) _
    rcases h.slot with hslot | ⟨hslot, hgone⟩
    · exact Or.inl hslot
    · refine Or.inr ⟨hslot, ?_⟩
      change ((s.setStage n stage).tasks s.run).aborted = true ∨
        ((s.setStage n stage).tasks s.run).stage.isGone = true
      rw [hsame]
      exact hgone
  current := by
    have hsame : (s.setStage n stage).tasks s.run = s.tasks s.run :=
      s.setTask_tasks_ne (fun heq => hn heq.symm) _
    change Current c peaceful _ ((s.setStage n stage).tasks s.run)
    rw [hsame]
    exact Current.congr (s := s) rfl rfl rfl h.current
  replaced m hm := by
    by_cases hmn : m = n
    · subst hmn
      have hself : (s.setStage m stage).tasks m = { s.tasks m with stage } :=
        s.setTask_tasks_self m _
      rw [hself]
      exact htask
    · have hsame : (s.setStage n stage).tasks m = s.tasks m := s.setTask_tasks_ne hmn _
      rw [hsame]
      exact h.replaced m hm
  done key hkey := Shows.congr (s := s) rfl rfl rfl (h.done key hkey)

/-- A step of the task of a run that has been replaced: it goes no further than to where it
waits, and nothing is shown of it. -/
theorem Kept.advance_replaced (h : Kept c peaceful s) {n : Nat} (hn : n ≠ s.run) (lib : Libraries)
    (answer : Answer) : Kept c peaceful (s.advance lib c n answer) := by
  have htask := h.replaced n hn
  have hgone : Kept c peaceful (s.setStage n .gone) := h.setReplaced hn .gone trivial
  cases hstage : (s.tasks n).stage with
  | waiting previous =>
      have haborted : (s.tasks n).aborted = true := by
        unfold Replaced at htask
        rw [hstage] at htask
        exact htask
      unfold Inner.advance
      rw [hstage]
      dsimp only
      rw [if_pos haborted]
      exact hgone
  | sending key =>
      unfold Replaced at htask
      rw [hstage] at htask
      exact htask.elim
  | gone =>
      unfold Inner.advance
      rw [hstage]
      exact h
  | going p reading =>
      unfold Replaced at htask
      rw [hstage] at htask
      obtain ⟨haborted, rfl, g, hfollows, hearly⟩ := htask
      have hgoes (p : PairProg (Except PairingError PairedKey)) (g : Place)
          (hfollows : Follows protocol Ended p g) (hearly : g.early = true) :
          Kept c peaceful (s.setStage n (.going p .no)) :=
        h.setReplaced hn _ ⟨haborted, rfl, g, hfollows, hearly⟩
      unfold Inner.advance
      rw [hstage]
      cases p with
      | ret result =>
          cases result with
          | ok key =>
              obtain ⟨p, rfl, -⟩ := hfollows
              cases hearly
          | error e =>
              dsimp only
              rw [Inner.finish_of_ne _ _ hn]
              exact hgone
      | call call k =>
          obtain ⟨hallowed, hmore⟩ := hfollows
          cases call with
          | event e =>
              dsimp only
              rw [if_neg fun hpanics => hn hpanics.1.symm, Inner.apply_of_ne c.latest e hn]
              have hplace : (g.advance (.event e) ()).early = true :=
                Place.early_advance _ hearly hallowed rfl
              exact hgoes _ _ (hmore ()) hplace
          | project =>
              obtain ⟨projects, rfl⟩ := Place.Allowed.slept hallowed
              cases hearly
          | _ =>
              dsimp only
              split
              · exact hgone
              · rename_i hnot
                have hawaits := Bool.eq_false_iff.mpr fun hawaits => hnot ⟨haborted, hawaits⟩
                exact hgoes _ _ (hmore _)
                  (Place.early_advance (answer.reply _) hearly hallowed hawaits)

/-- A step of the task of the current run, and what it does to all else. -/
structure Moves (c : Config) (peaceful : Prop) (s t : Inner) : Prop where
  run : t.run = s.run
  slot : t.slot = s.slot
  others : ∀ n, n ≠ s.run → t.tasks n = s.tasks n
  aborted : (t.tasks s.run).aborted = (s.tasks s.run).aborted
  current : Current c peaceful t (t.tasks s.run)
  done : ∀ key, t.done = some key → Shows c peaceful t key

theorem Kept.moves (h : Kept c peaceful s) {t : Inner} (hmoves : Moves c peaceful s t)
    (hgoing : (s.tasks s.run).stage.isGone = false) : Kept c peaceful t where
  slot := by
    rw [hmoves.run, hmoves.slot]
    rcases h.slot with hslot | ⟨hslot, haborted | hgone⟩
    · exact Or.inl hslot
    · exact Or.inr ⟨hslot, Or.inl (hmoves.aborted.trans haborted)⟩
    · rw [hgoing] at hgone
      cases hgone
  current := by
    rw [hmoves.run]
    exact hmoves.current
  replaced n hn := by
    rw [hmoves.run] at hn
    rw [hmoves.others n hn]
    exact h.replaced n hn
  done := hmoves.done

/-- The current task is set, and the page has been changed to what `t` has. -/
theorem Moves.setTask (s t : Inner) (hrun : t.run = s.run) (hslot : t.slot = s.slot)
    (htasks : t.tasks = s.tasks) {task : Task} (haborted : task.aborted = (s.tasks s.run).aborted)
    (hcurrent : Current c peaceful t task)
    (hdone : ∀ key, t.done = some key → Shows c peaceful t key) :
    Moves c peaceful s (t.setTask s.run task) := by
  have hself : (t.setTask s.run task).tasks s.run = task := t.setTask_tasks_self s.run _
  refine ⟨hrun, hslot, fun n hn => ?_, ?_, ?_, fun key hkey => ?_⟩
  · rw [← htasks]
    exact t.setTask_tasks_ne hn _
  · rw [hself, haborted]
  · rw [hself]
    exact Current.congr (s := t) rfl rfl rfl hcurrent
  · exact Shows.congr (s := t) rfl rfl rfl (hdone key hkey)

theorem Moves.setStage (s t : Inner) (hrun : t.run = s.run) (hslot : t.slot = s.slot)
    (htasks : t.tasks = s.tasks) {stage : Stage}
    (hcurrent : Current c peaceful t { s.tasks s.run with stage })
    (hdone : ∀ key, t.done = some key → Shows c peaceful t key) :
    Moves c peaceful s (t.setStage s.run stage) := by
  unfold Inner.setStage
  rw [htasks]
  exact Moves.setTask s t hrun hslot htasks rfl hcurrent hdone

/-- Where only the place of the task changes. -/
theorem Moves.stays (h : Kept c peaceful s) {stage : Stage}
    (hcurrent : Current c peaceful s { s.tasks s.run with stage }) :
    Moves c peaceful s (s.setStage s.run stage) :=
  Moves.setStage s s rfl rfl rfl hcurrent h.done

/-- Where the status changes with it, before a key is sent. -/
theorem Moves.setStatus (hnone : s.done = none) {status : SetupStatus} {stage : Stage}
    (hcurrent : Current c peaceful { s with status := status } { s.tasks s.run with stage }) :
    Moves c peaceful s ({ s with status := status }.setStage s.run stage) := by
  let t : Inner := { s with status := status }
  refine Moves.setStage s t rfl rfl rfl hcurrent fun key hkey => ?_
  rw [show s.done = some key from hkey] at hnone
  cases hnone

/-- Where the task panics over what it was to show. -/
theorem Moves.panics (hnone : s.done = none) {e : PairingEvent}
    (he : panics c.latest s.clock e = true) :
    Moves c peaceful s ({ s with status := s.status.apply c.latest s.clock e }.setTask s.run
      { s.tasks s.run with stage := .gone, panicked := true }) := by
  let t : Inner := { s with status := s.status.apply c.latest s.clock e }
  have hcode : t.status.phase = .code := by
    cases e with
    | code userCode expiresIn => rfl
    | _ => cases he
  have hgone : Current c peaceful t { s.tasks s.run with stage := .gone, panicked := true } :=
    fun _ => Or.inr ⟨rfl, hcode⟩
  refine Moves.setTask s t rfl rfl rfl rfl hgone fun key hkey => ?_
  rw [show s.done = some key from hkey] at hnone
  cases hnone

/-- While a run goes on, no key has been sent. -/
theorem Kept.done_none (h : Kept c peaceful s) (hrunning : s.status.running = true) :
    s.done = none := by
  cases hdone : s.done with
  | none => rfl
  | some key =>
      unfold SetupStatus.running at hrunning
      rw [(h.done key hdone).phase] at hrunning
      cases hrunning

theorem recent_eq_some {every : Nat} {v : Option String} (h : s.recent every = some v) :
    ∃ at_, s.lastFallback = some (at_, v) := by
  unfold Inner.recent at h
  split at h
  · rename_i at_ w hlast
    split at h
    · cases h
      exact ⟨at_, hlast⟩
    · cases h
  · cases h

theorem changed_eq_some {value : Option String} {id : String} (h : c.changed value = some id) :
    value = some id ∧ some id ≠ c.initial := by
  obtain ⟨hvalue, hne⟩ := Option.filter_eq_some_iff.mp h
  exact ⟨hvalue, of_decide_eq_true hne⟩

/-- A reading of the source, which the run began after a sleep. -/
theorem Moves.read (h : Kept c peaceful s) {projects : List ProjectChoice}
    {k : Except String (Option String) → PairProg (Except PairingError PairedKey)}
    {reading : Reading}
    (hmore : ∀ r, Follows protocol Ended (k r) ((Place.slept projects).advance .project r))
    (hagrees : Agrees c peaceful s reading (.slept projects)) (answer : Answer) :
    Moves c peaceful s (s.read c s.run answer (.call .project k) k reading) := by
  have hrunning := hagrees.running
  have hstill (reading' : Reading) (hnone : s.page = none) :
      Moves c peaceful s (s.setStage s.run (.going (.call .project k) reading')) :=
    Moves.stays h ⟨.slept projects, ⟨trivial, hmore⟩, hagrees.1, fun _ _ => hnone⟩
  have hgoes (value : Option String)
      (hvalue : peaceful → ∀ id, value = some id → ∀ name, Names id name → Chosen c s name) :
      Moves c peaceful s (s.setStage s.run (.going (k (.ok value)) .no)) :=
    Moves.stays h ⟨_, hmore _, hagrees.read hvalue⟩
  cases reading with
  | no =>
      unfold Inner.read
      cases hpage : s.page with
      | some id =>
          refine hgoes (some id) fun _ id' hid name hname => ?_
          cases hid
          unfold Chosen
          rw [hpage]
          exact hname
      | none =>
          dsimp only
          split
          · exact hstill .looked hpage
          · exact hgoes none fun _ id hid => nomatch hid
  | looked =>
      unfold Inner.read
      cases hrecent : s.recent c.fallbackEvery with
      | some v =>
          obtain ⟨at_, hlast⟩ := recent_eq_some hrecent
          refine hgoes (c.changed v) fun hpeaceful id hid name hname => ?_
          obtain ⟨rfl, hne⟩ := changed_eq_some hid
          unfold Chosen
          rw [hagrees.2 hpeaceful (by decide)]
          exact ⟨at_, id, hlast, hne, hname⟩
      | none =>
          refine Moves.stays h ⟨.slept projects, ⟨trivial, hmore⟩, hagrees.1, fun hpeaceful _ => ?_⟩
          exact hagrees.2 hpeaceful (by decide)
  | asked =>
      unfold Inner.read
      dsimp only
      split
      · rename_i haborted
        exact Moves.stays h fun _ => Or.inl haborted
      · generalize answer.fallback.toOption.join.bind normalizeProject = v
        let t : Inner := { s with lastFallback := some (s.clock, v) }
        have hagrees' : Agrees c peaceful t .asked (.slept projects) := hagrees
        have hread : Agrees c peaceful t .no
            ((Place.slept projects).advance .project (.ok (c.changed v))) := by
          apply hagrees'.read
          intro hpeaceful id hid name hname
          obtain ⟨rfl, hne⟩ := changed_eq_some hid
          have hpage : t.page = none := hagrees.2 hpeaceful (by decide)
          unfold Chosen
          rw [hpage]
          exact ⟨s.clock, id, rfl, hne, hname⟩
        have hcurrent : Current c peaceful t
            { s.tasks s.run with stage := .going (k (.ok (c.changed v))) .no } :=
          ⟨_, hmore _, hread⟩
        refine Moves.setStage s t rfl rfl rfl hcurrent fun key hkey => ?_
        have hnone : t.done = none := h.done_none hrunning
        rw [hnone] at hkey
        cases hkey

/-- A step of the task of the current run. -/
theorem Moves.advance (h : Kept c peaceful s) (lib : Libraries) (answer : Answer)
    (hgoing : (s.tasks s.run).stage.isGone = false) :
    s.advance lib c s.run answer = s ∨ Moves c peaceful s (s.advance lib c s.run answer) := by
  have hcurrent := h.current
  unfold Current at hcurrent
  unfold Inner.advance
  cases hstage : (s.tasks s.run).stage with
  | gone =>
      rw [hstage] at hgoing
      cases hgoing
  | waiting previous =>
      rw [hstage] at hcurrent
      dsimp only
      split
      · rename_i haborted
        exact Or.inr (Moves.stays h fun _ => Or.inl haborted)
      split
      · refine Or.inr (Moves.stays h ⟨.asking, pair_follows lib rfl rfl c.rounds, rfl, ?_⟩)
        unfold SetupStatus.running
        rw [show s.status.phase = .starting from hcurrent]
      · exact Or.inl rfl
  | sending key =>
      rw [hstage] at hcurrent
      let t : Inner := { s with done := some key }
      have hgone : Current c peaceful t { s.tasks s.run with stage := .gone } := by
        intro hrunning
        change s.status.running = true at hrunning
        unfold SetupStatus.running at hrunning
        rw [Shows.phase hcurrent] at hrunning
        cases hrunning
      have hsent (key' : PairedKey) (hkey : t.done = some key') : Shows c peaceful t key' := by
        cases hkey
        exact Shows.congr (s := s) rfl rfl rfl hcurrent
      exact Or.inr (Moves.setStage s t rfl rfl rfl hgone hsent)
  | going p reading =>
      rw [hstage] at hcurrent
      obtain ⟨g, hfollows, hagrees⟩ := hcurrent
      have hnone := h.done_none hagrees.running
      right
      cases p with
      | ret result =>
          have hfinish : s.finish c.display s.run result =
              { s with status := s.status.finish c.display result } := if_pos rfl
          cases result with
          | ok key =>
              obtain ⟨p, rfl, hproject, horganization⟩ := hfollows
              have hshows : Shows c peaceful
                  { s with status := s.status.finish c.display (.ok key) } key := by
                refine ⟨rfl, rfl, rfl, rfl, fun hpeaceful => ?_⟩
                rw [hproject]
                exact hagrees.2.2.2 hpeaceful
              dsimp only
              rw [hfinish]
              exact Moves.setStatus hnone hshows
          | error e =>
              have hgone : Current c peaceful
                  { s with status := s.status.finish c.display (.error e) }
                  { s.tasks s.run with stage := .gone } := by
                intro hrunning
                cases hrunning
              dsimp only
              rw [hfinish]
              exact Moves.setStatus hnone hgone
      | call call k =>
          obtain ⟨hallowed, hmore⟩ := hfollows
          have hmoved := hagrees.call (answer.reply call)
          cases call with
          | event e =>
              have happly : s.apply c.latest s.run e =
                  { s with status := s.status.apply c.latest s.clock e } := if_pos rfl
              have hgoing : Current c peaceful { s with status := s.status.apply c.latest s.clock e }
                  { s.tasks s.run with stage := .going (k ()) .no } :=
                ⟨_, hmore (), hagrees.event hallowed⟩
              dsimp only
              rw [happly]
              split
              · rename_i hpanics
                exact Moves.panics hnone hpanics.2
              · exact Moves.setStatus hnone hgoing
          | project =>
              obtain ⟨projects, rfl⟩ := Place.Allowed.slept hallowed
              exact Moves.read h hmore hagrees answer
          | _ =>
              dsimp only
              split
              · rename_i haborted
                exact Moves.stays h fun _ => Or.inl haborted.1
              · exact Moves.stays h ⟨_, hmore _, hmoved (fun _ he => nomatch he)
                  fun he => nomatch he⟩

theorem Kept.advance (h : Kept c peaceful s) (lib : Libraries) (n : Nat) (answer : Answer) :
    Kept c peaceful (s.advance lib c n answer) := by
  by_cases hn : n = s.run
  · subst hn
    cases hgoing : (s.tasks s.run).stage.isGone with
    | true =>
        have hgone : (s.tasks s.run).stage = .gone := by
          unfold Stage.isGone at hgoing
          split at hgoing
          · assumption
          · cases hgoing
        unfold Inner.advance
        rw [hgone]
        exact h
    | false =>
        rcases Moves.advance h lib answer hgoing with hsame | hmoves
        · rw [hsame]
          exact h
        · exact h.moves hmoves hgoing
  · exact h.advance_replaced hn lib answer

/-- What every step keeps, where choices are made in peace if that is asked for. -/
theorem Kept.step (h : Kept c peaceful s) {lib : Libraries} {act : Inner.Act} {t : Inner}
    (hpeace : peaceful → InPeace s act) (hstep : s.step lib c act = some t) :
    Kept c peaceful t := by
  cases act with
  | start =>
      cases hstep
      exact h.start
  | restart =>
      cases hstep
      exact h.restart
  | choose project =>
      cases hstep
      exact h.choose project hpeace
  | stop =>
      cases hstep
      exact h.stop
  | elapse time =>
      cases hstep
      exact ⟨h.slot, Current.congr (s := s) rfl rfl rfl h.current, h.replaced, fun key hkey =>
        Shows.congr (s := s) rfl rfl rfl (h.done key hkey)⟩
  | advance n answer =>
      cases hstep
      exact h.advance lib n answer

theorem kept_new (c : Config) (peaceful : Prop) : Kept c peaceful (Inner.new c) where
  slot := Or.inr ⟨rfl, Or.inr rfl⟩
  current h := nomatch h
  replaced _ _ := trivial
  done _ h := nomatch h

/-! ## The runs -/

theorem Place.Allowed.makes {g : Place} {call : PairCall} {name : String} (h : g.Allowed call)
    (hmakes : makesIn call = some name) : ∃ p, g = .working p ∧ name = p.id := by
  have hworking : ∃ p, g = .working p := by
    cases g with
    | working p => exact ⟨p, rfl⟩
    | selected p =>
        cases call with
        | event e => cases hmakes
        | _ => exact h.elim
    | asking | approved | listed projects | slept projects =>
        cases call with
        | api token request =>
            cases request <;> first | (cases h; done) | cases hmakes
        | _ => cases hmakes
  obtain ⟨p, rfl⟩ := hworking
  refine ⟨p, rfl, ?_⟩
  cases call with
  | api token request =>
      cases request with
      | createServiceAccount project saName device =>
          cases hmakes
          exact of_decide_eq_true h
      | createServiceAccountKey project keyName sa expires =>
          cases hmakes
          exact of_decide_eq_true h
      | createPolicyBinding project sa =>
          cases hmakes
          have hchoice : project.choice = p := of_decide_eq_true h
          rw [← hchoice]
          rfl
      | _ => cases hmakes
  | _ => cases hmakes

/-- A task that is about to make something is that of the current run, which has selected the
project. -/
theorem Kept.makes (h : Kept c peaceful s) {n : Nat} {call : PairCall} {name : String}
    (hnext : (s.tasks n).stage.next = some call) (hmakes : makesIn call = some name) :
    n = s.run ∧ s.status.phase = .working ∧ s.status.project = some name ∧
      (peaceful → Chosen c s name) := by
  cases hstage : (s.tasks n).stage with
  | waiting previous =>
      rw [hstage] at hnext
      cases hnext
  | sending key =>
      rw [hstage] at hnext
      cases hnext
  | gone =>
      rw [hstage] at hnext
      cases hnext
  | going p reading =>
      rw [hstage] at hnext
      cases p with
      | ret result => cases hnext
      | call call' k =>
          cases hnext
          by_cases hn : n = s.run
          · subst hn
            have hcurrent := h.current
            unfold Current at hcurrent
            rw [hstage] at hcurrent
            obtain ⟨g, ⟨hallowed, -⟩, hagrees⟩ := hcurrent
            obtain ⟨p, rfl, rfl⟩ := Place.Allowed.makes hallowed hmakes
            exact ⟨rfl, hagrees.2⟩
          · have hreplaced := h.replaced n hn
            unfold Replaced at hreplaced
            rw [hstage] at hreplaced
            obtain ⟨-, -, g, ⟨hallowed, -⟩, hearly⟩ := hreplaced
            obtain ⟨p, rfl, -⟩ := Place.Allowed.makes hallowed hmakes
            cases hearly

namespace Inner

theorem read_status {n : Nat} {answer : Answer} {p : PairProg (Except PairingError PairedKey)}
    {k : Except String (Option String) → PairProg (Except PairingError PairedKey)}
    (reading : Reading) : (s.read c n answer p k reading).status = s.status := by
  unfold read
  cases reading with
  | no =>
      dsimp only
      split
      · rfl
      · split <;> rfl
  | looked =>
      dsimp only
      split <;> rfl
  | asked =>
      dsimp only
      split <;> rfl

/-- Nothing is shown of a run that is not the current one. -/
theorem advance_status_of_ne {n : Nat} (hn : n ≠ s.run) (lib : Libraries) (answer : Answer) :
    (s.advance lib c n answer).status = s.status := by
  unfold advance
  split
  · split
    · rfl
    · split <;> rfl
  · rw [finish_of_ne _ _ hn]
    split <;> rfl
  · rw [apply_of_ne _ _ hn]
    split <;> rfl
  · exact read_status _
  · split <;> rfl
  · rfl
  · rfl

end Inner

/-- Once the key is saved, the page shows nothing else. -/
theorem Kept.done_stays (h : Kept c peaceful s) (hdone : s.status.phase = .done) {lib : Libraries}
    {act : Inner.Act} {t : Inner} (hstep : s.step lib c act = some t) : t.status = s.status := by
  cases act with
  | start =>
      cases hstep
      unfold Inner.start
      rw [if_pos (Or.inr hdone)]
  | restart =>
      cases hstep
      unfold Inner.restart
      rw [hdone]
  | choose project =>
      cases hstep
      rcases choose_cases s project with hsame | ⟨hphase, -⟩
      · rw [hsame]
      · rw [hdone] at hphase
        cases hphase
  | stop =>
      cases hstep
      exact s.abortSlot_status
  | elapse time =>
      cases hstep
      rfl
  | advance n answer =>
      cases hstep
      by_cases hn : n = s.run
      · subst hn
        have hcurrent := h.current
        have hnotRunning : s.status.running = false := by
          unfold SetupStatus.running
          rw [hdone]
        unfold Current at hcurrent
        unfold Inner.advance
        cases hstage : (s.tasks s.run).stage with
        | waiting previous =>
            rw [hstage] at hcurrent
            rw [show s.status.phase = .starting from hcurrent] at hdone
            cases hdone
        | going p reading =>
            rw [hstage] at hcurrent
            obtain ⟨g, -, hagrees⟩ := hcurrent
            rw [hagrees.running] at hnotRunning
            cases hnotRunning
        | sending key => rfl
        | gone => rfl
      · exact Inner.advance_status_of_ne hn lib answer

/-- What the page and the runs have in common. -/
structure ShowsRun (s : Inner) : Prop where
  /-- Only the current run makes anything, in the project that is shown. -/
  makes : ∀ n call name, (s.tasks n).stage.next = some call → makesIn call = some name →
    n = s.run ∧ s.status.phase = .working ∧ s.status.project = some name
  /-- All other tasks are gone, or go no further than to where they wait. -/
  replaced : ∀ n, n ≠ s.run → (s.tasks n).stage.isGone = true ∨ (s.tasks n).aborted = true
  /-- A run that is shown as going on is, unless it was stopped, or has panicked over a code, with
  phase `code` still shown. -/
  goesOn : s.status.running = true →
    (s.tasks s.run).stage.isGone = false ∨ (s.tasks s.run).aborted = true ∨
      (s.tasks s.run).panicked = true ∧ s.status.phase = .code
  /-- A key that is sent is the one that is shown. -/
  sent : ∀ key, s.done = some key → s.status.phase = .done ∧
    s.status.project = some key.project ∧ s.status.organization = some key.organization ∧
    s.status.serviceAccount = some key.serviceAccountEmail

theorem Kept.showsRun (h : Kept c peaceful s) : ShowsRun s where
  makes n call name hnext hmakes := by
    obtain ⟨hn, hphase, hproject, -⟩ := h.makes hnext hmakes
    exact ⟨hn, hphase, hproject⟩
  replaced n hn := by
    have hreplaced := h.replaced n hn
    unfold Replaced at hreplaced
    cases hstage : (s.tasks n).stage with
    | waiting previous =>
        rw [hstage] at hreplaced
        exact Or.inr hreplaced
    | going p reading =>
        rw [hstage] at hreplaced
        exact Or.inr hreplaced.1
    | sending key =>
        rw [hstage] at hreplaced
        exact hreplaced.elim
    | gone => exact Or.inl rfl
  goesOn hrunning := by
    have hcurrent := h.current
    unfold Current at hcurrent
    cases hstage : (s.tasks s.run).stage with
    | gone =>
        rw [hstage] at hcurrent
        exact Or.inr (hcurrent hrunning)
    | _ => exact Or.inl rfl
  sent key hkey :=
    have hshows := h.done key hkey
    ⟨hshows.phase, hshows.project, hshows.organization, hshows.serviceAccount⟩

/-! ### Panics -/

namespace Inner

theorem setStage_panicked (n m : Nat) (stage : Stage) :
    ((s.setStage n stage).tasks m).panicked = (s.tasks m).panicked := by
  unfold setStage
  by_cases hm : m = n
  · subst hm
    rw [setTask_tasks_self]
  · rw [setTask_tasks_ne s hm]

theorem spawnRun_panicked {m : Nat} (h : (s.spawnRun.tasks m).panicked = true) :
    (s.tasks m).panicked = true := by
  unfold spawnRun at h
  dsimp only at h
  by_cases hm : m = s.run + 1
  · subst hm
    rw [Function.update_self] at h
    cases h
  · rwa [Function.update_of_ne hm, abortSlot_tasks] at h

theorem read_panicked {n m : Nat} {answer : Answer}
    {p : PairProg (Except PairingError PairedKey)}
    {k : Except String (Option String) → PairProg (Except PairingError PairedKey)}
    (reading : Reading) :
    ((s.read c n answer p k reading).tasks m).panicked = (s.tasks m).panicked := by
  unfold read
  cases reading with
  | no =>
      dsimp only
      split
      · exact s.setStage_panicked n m _
      · split <;> exact s.setStage_panicked n m _
  | looked =>
      dsimp only
      split <;> exact s.setStage_panicked n m _
  | asked =>
      dsimp only
      split
      · exact s.setStage_panicked n m _
      · exact setStage_panicked n m _

theorem advance_panicked {n m : Nat} (lib : Libraries) (answer : Answer)
    (hrange : (s.tasks n).stage.panics c.latest s.clock = false) :
    ((s.advance lib c n answer).tasks m).panicked = (s.tasks m).panicked := by
  unfold advance
  split
  · split
    · exact s.setStage_panicked n m _
    · split
      · exact s.setStage_panicked n m _
      · rfl
  · have hfinish (result : Except PairingError PairedKey) :
        (s.finish c.display n result).tasks = s.tasks := by
      unfold finish
      split <;> rfl
    split <;> rw [setStage_panicked, hfinish]
  · rename_i e k reading hstage
    rw [hstage] at hrange
    have hnot : ¬(s.run = n ∧ Setup.panics c.latest s.clock e = true) := fun h => by
      rw [show Setup.panics c.latest s.clock e = false from hrange] at h
      exact Bool.noConfusion h.2
    have happly : (s.apply c.latest n e).tasks = s.tasks := by
      unfold apply
      split <;> rfl
    rw [if_neg hnot, setStage_panicked, happly]
  · exact read_panicked _
  · split <;> exact s.setStage_panicked n m _
  · exact setStage_panicked n m _
  · rfl

/-- A task panics only over a code that is not in range. -/
theorem step_panicked {lib : Libraries} {act : Act} {t : Inner} {m : Nat}
    (hrange : InRange c s act) (hstep : s.step lib c act = some t)
    (h : (t.tasks m).panicked = true) : (s.tasks m).panicked = true := by
  cases act with
  | start =>
      cases hstep
      unfold start at h
      split at h
      · exact h
      · exact s.spawnRun_panicked h
  | restart =>
      cases hstep
      unfold restart at h
      split at h <;> first | exact h | exact s.spawnRun_panicked h
  | choose project =>
      cases hstep
      rcases choose_cases s project with hsame | ⟨-, id, organization, hchosen⟩
      · rwa [hsame] at h
      · rwa [hchosen] at h
  | stop =>
      cases hstep
      change (s.abortSlot.tasks m).panicked = true at h
      rwa [abortSlot_tasks] at h
  | elapse time =>
      cases hstep
      exact h
  | advance n answer =>
      cases hstep
      rwa [advance_panicked lib answer hrange] at h

end Inner

theorem not_panicked {lib : Libraries} {acts : List Inner.Act} {t : Inner}
    (hrun : Runs.run (Inner.step lib c) (Inner.new c) acts = some t)
    (hrange : Runs.Meets (Inner.step lib c) (InRange c) (Inner.new c) acts) (n : Nat) :
    (t.tasks n).panicked = false := by
  have hstep (u : Inner) (act : Inner.Act) (v : Inner) (hu : ∀ n, (u.tasks n).panicked = false)
      (hact : InRange c u act) (hv : u.step lib c act = some v) (n : Nat) :
      (v.tasks n).panicked = false :=
    Bool.eq_false_iff.mpr fun h => Bool.eq_false_iff.mp (hu n) (Inner.step_panicked hact hv h)
  exact Runs.invariant hstep (fun _ => rfl) hrange hrun n

/-- In every state that requests of the page and steps of the tasks lead to, the page and its run
agree; once the key is saved, the page shows so for good; and no task panics where every code
expires within the clock's range. -/
theorem page_shows_run (lib : Libraries) (c : Config) (acts : List Inner.Act) {s : Inner}
    (hrun : Runs.run (Inner.step lib c) (Inner.new c) acts = some s) :
    ShowsRun s ∧
      (∀ later t, s.status.phase = .done →
        Runs.run (Inner.step lib c) s later = some t → t.status = s.status) ∧
      (Runs.Meets (Inner.step lib c) (InRange c) (Inner.new c) acts →
        ∀ n, (s.tasks n).panicked = false) := by
  have hkept : Kept c False s :=
    Runs.invariant_always (fun _ _ _ h hstep => h.step False.elim hstep) (kept_new c False) hrun
  refine ⟨hkept.showsRun, fun later t hdone hlater => ?_,
    fun hrange => not_panicked hrun hrange⟩
  have hstep (u : Inner) (act : Inner.Act) (v : Inner)
      (hu : Kept c False u ∧ u.status = s.status) (hact : u.step lib c act = some v) :
      Kept c False v ∧ v.status = s.status := by
    refine ⟨hu.1.step False.elim hact, ?_⟩
    rw [← hu.2]
    exact hu.1.done_stays (hu.2 ▸ hdone) hact
  exact (Runs.invariant_always hstep ⟨hkept, rfl⟩ hlater).2

/-- The panel of an add-on that is configured for one of two projects. -/
def panel : Config where
  cfg := { project := some "Garage" }
  printable _ := true
  keyOut := "key"
  latest := 1000 * 2 ^ 63
  rounds := 3

/-- Steps of a task to which all goes well; the options of the add-on stay as they were. -/
def goesOn (n steps : Nat) : List Inner.Act :=
  List.replicate steps
    (.advance n { reply := goesWell "aaaaa" "uid-1", fallback := .ok (some "Garage") })

/-- The code is replaced by a new one, which is approved, and a project is chosen after the options
were read. -/
def renewing : List Inner.Act :=
  [.start] ++ goesOn 1 6 ++ [.restart] ++ goesOn 1 4 ++ goesOn 2 24 ++ [.choose " HOME "]

theorem page_shows_run_renewing :
    ∃ s, Runs.run (Inner.step oneKey panel) (Inner.new panel) (renewing ++ goesOn 2 19) = some s ∧
      s.run = 2 ∧ s.done = some ⟨"sa@datum", "home", "org"⟩ ∧ ShowsRun s ∧
      (∀ later t, Runs.run (Inner.step oneKey panel) s later = some t → t.status = s.status) ∧
      ∀ n, (s.tasks n).panicked = false := by
  have hrun : (Runs.run (Inner.step oneKey panel) (Inner.new panel)
      (renewing ++ goesOn 2 19)).map (fun s => (s.run, s.status.phase, s.done)) =
        some (2, .done, some ⟨"sa@datum", "home", "org"⟩) := by
    decide +kernel
  obtain ⟨s, hs, hkept⟩ := Option.map_eq_some_iff.mp hrun
  simp only [Prod.mk.injEq] at hkept
  obtain ⟨hcurrent, hphase, hdone⟩ := hkept
  have hrange : Runs.Meets (Inner.step oneKey panel) (InRange panel) (Inner.new panel)
      (renewing ++ goesOn 2 19) := by
    decide +kernel
  obtain ⟨hshows, hstays, hcalm⟩ := page_shows_run oneKey panel (renewing ++ goesOn 2 19) hs
  exact ⟨s, hs, hcurrent, hdone, hshows, fun later t => hstays later t hphase, hcalm hrange⟩

/-- Where choices are made while the run waits for one, the run makes things, and has its key, in
the project that was chosen on the page; where none was chosen there, in one that the fallback has
had set since. -/
theorem choice_kept (lib : Libraries) (c : Config) (acts : List Inner.Act) {s : Inner}
    (hrun : Runs.run (Inner.step lib c) (Inner.new c) acts = some s)
    (hpeace : Runs.Meets (Inner.step lib c) InPeace (Inner.new c) acts) :
    (∀ n call name, (s.tasks n).stage.next = some call → makesIn call = some name →
        Chosen c s name) ∧
      ∀ key, s.done = some key → Chosen c s key.project := by
  have hkept : Kept c True s :=
    Runs.invariant (fun _ _ _ h hcond hstep => h.step (fun _ => hcond) hstep) (kept_new c True)
      hpeace hrun
  refine ⟨fun n call name hnext hmakes => ?_, fun key hkey => (hkept.done key hkey).chosen trivial⟩
  exact (hkept.makes hnext hmakes).2.2.2 trivial

/-- The service account is about to be made. -/
theorem choice_kept_renewing :
    ∃ s, Runs.run (Inner.step oneKey panel) (Inner.new panel) (renewing ++ goesOn 2 5) = some s ∧
      s.page = some "home" ∧ Chosen panel s "home" := by
  have hrun : (Runs.run (Inner.step oneKey panel) (Inner.new panel)
      (renewing ++ goesOn 2 5)).map (fun s => (s.page, (s.tasks 2).stage.next.bind makesIn)) =
        some (some "home", some "home") := by
    decide +kernel
  have hpeace : Runs.Meets (Inner.step oneKey panel) InPeace (Inner.new panel)
      (renewing ++ goesOn 2 5) := by
    decide +kernel
  obtain ⟨s, hs, hkept⟩ := Option.map_eq_some_iff.mp hrun
  simp only [Prod.mk.injEq] at hkept
  obtain ⟨hpage, hmakes⟩ := hkept
  obtain ⟨call, hnext, hname⟩ := Option.bind_eq_some_iff.mp hmakes
  exact ⟨s, hs, hpage,
    (choice_kept oneKey panel (renewing ++ goesOn 2 5) hs hpeace).1 2 call "home" hnext hname⟩

end DatumConnect.Pairing.Setup
