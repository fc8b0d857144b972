import DatumConnect.Heartbeat.Projects
/-!
# No heartbeat after a logout

Refreshes, registrations, deregistrations and clears run at the same time, a call of one
between any two calls of another.  A refresh registers a project some calls after it has
read the cache: a clear can come to its end in between.
-/

namespace DatumConnect.Heartbeat.Projects

open DatumConnect.Lib
open DatumConnect.Lib.Prog (Only Follows Protocol Stays)
open DatumConnect.Lib.Pool

/-- Whether an operation registers projects, and whether it is a clear that has drained
them. -/
structure Place where
  registers : Bool
  drained : Bool := false
  deriving DecidableEq, Repr

def Op.start : Op → Place
  | .refresh | .register _ => { registers := true }
  | _ => { registers := false }

def Place.Allowed (g : Place) : Call → Prop
  | .registerProject _ => g.registers = true
  | .clearKnownProjects => g.drained = true
  | _ => True

def Place.advance (g : Place) : (c : Call) → c.Reply → Place
  | .clearProjects, _ => { g with drained := true }
  | _, _ => g

def protocol : Protocol Call Call.Reply Place where
  allowed := Place.Allowed
  advance := Place.advance

/-- The two calls of a clear. -/
def isClear : Call → Bool
  | .clearProjects | .clearKnownProjects => true
  | _ => false

/-- Each operation notes whether a call of a clear has been made since it began. -/
def system : System Op Call Call.Reply Unit Agent Answer Place Bool where
  code := Op.code
  handle := handle
  protocol := protocol
  start := Op.start
  fresh := false
  notice _ n _ c _ := n || isClear c
  abandon s _ := s

abbrev Agents := World Op Call Call.Reply Unit Agent Place Bool

/-! ## The operations keep to the protocol -/

/-- A call that is no part of a clear. -/
theorem stays_other {g : Place} {c : Call} (hregisters : g.registers = true)
    (hclear : isClear c = false) : Stays protocol g (Prog.perform c) := by
  refine Stays.perform ?_ fun r => ?_
  · cases c with
    | registerProject projectId => exact hregisters
    | clearProjects | clearKnownProjects => cases hclear
    | _ => trivial
  · cases c with
    | clearProjects => cases hclear
    | _ => rfl

theorem stays_refresh {g : Place} (hregisters : g.registers = true) :
    Stays protocol g refreshProjects := by
  refine (stays_other (c := .orgsProjectsCache) hregisters rfl).bind fun next => ?_
  refine (stays_other (c := .updateKnown next) hregisters rfl).bind fun same => ?_
  split
  · exact Stays.ret _
  · refine (stays_other (c := .runningProjects) hregisters rfl).bind fun running => ?_
    refine (Stays.forM fun p _ => ?_).bind fun _ => Stays.forM fun p _ => ?_
    · unfold dismiss
      split
      · exact Stays.ret _
      · exact stays_other (c := .deregisterProject p) hregisters rfl
    · refine (stays_other (c := .containsProject p) hregisters rfl).bind fun there => ?_
      split
      · exact Stays.ret _
      · refine (stays_other (c := .probeConnector p) hregisters rfl).bind fun found => ?_
        split
        · exact stays_other (c := .registerProject p) hregisters rfl
        · exact Stays.ret _

theorem follows_code (op : Op) : Follows protocol (fun _ _ => True) op.code op.start := by
  cases op with
  | refresh => exact (stays_refresh rfl).mono fun _ _ _ => trivial
  | register projectId => exact ⟨rfl, fun _ => trivial⟩
  | deregister projectId => exact ⟨trivial, fun _ => trivial⟩
  | clear => exact ⟨trivial, fun _ => ⟨rfl, fun _ => trivial⟩⟩

/-! ## Until a clear is through -/

/-- A clear has drained the projects and goes on. -/
def partWay (client : Client Op Call Call.Reply Unit Place Bool) : Bool :=
  client.running && client.place.drained

/-- The next call registers a project. -/
def registering (client : Client Op Call Call.Reply Unit Place Bool) : Bool :=
  match client.next with
  | some (.registerProject _) => true
  | _ => false

/-- A project is registered by an operation that has seen nothing of a clear since it began,
while no clear is part way. -/
def Unobserved (w : Agents) : Act Op Answer → Prop
  | .step i _ => ∀ client ∈ w.clients[i]?, registering client = true →
      client.notes = false ∧ ∀ other ∈ w.clients, partWay other = false
  | _ => True

instance (w : Agents) (act : Act Op Answer) : Decidable (Unobserved w act) := by
  unfold Unobserved
  split <;> infer_instance

/-- There are no projects while a clear is part way. -/
structure Clearing (w : Agents) : Prop where
  faithful : System.Faithful system (fun _ _ _ => True) w
  empty : ∀ client ∈ w.clients, partWay client = true → w.state.projects = []

theorem projects_nil {s : Agent} {c : Call} {answer : Answer} (h : s.projects = [])
    (hregister : ∀ projectId, c ≠ .registerProject projectId) :
    (handle s c answer).1.projects = [] := by
  cases c with
  | registerProject projectId => exact absurd rfl (hregister projectId)
  | deregisterProject projectId =>
      show s.projects.filter _ = []
      rw [h]
      rfl
  | clearProjects => rfl
  | updateKnown next =>
      simp only [handle]
      split
      · exact h
      · exact h
  | _ => exact h

theorem next_of_prog {client : Client Op Call Call.Reply Unit Place Bool} {c : Call}
    {k : c.Reply → Hb Unit} (h : client.prog = some (.call c k)) : client.next = some c := by
  rw [Client.next, h]

theorem registering_of_prog {client : Client Op Call Call.Reply Unit Place Bool}
    {projectId : String} {k : Unit → Hb Unit}
    (h : client.prog = some (.call (.registerProject projectId) k)) :
    registering client = true := by
  rw [registering, next_of_prog h]

theorem Clearing.step {w w' : Agents} {act : Act Op Answer} (h : Clearing w)
    (hcond : Unobserved w act) (hstep : system.step w act = some w') : Clearing w' := by
  refine ⟨h.faithful.step follows_code hstep, fun client' hclient' hpart => ?_⟩
  obtain ⟨j, hj⟩ := List.mem_iff_getElem?.mp hclient'
  cases act with
  | spawn op =>
      rw [System.step_spawn hstep] at hj ⊢
      rcases System.client_of_spawn hj with hold | ⟨_, rfl⟩
      · exact h.empty client' (List.mem_of_getElem? hold) hpart
      · cases op <;> simp [partWay, Client.new, system, Op.start] at hpart
  | drop i =>
      obtain ⟨client, c, k, hclient, hprog, rfl⟩ := System.step_drop hstep
      rcases System.client_of_drop hj with ⟨_, rfl⟩ | ⟨_, hold⟩
      · cases hpart
      · exact h.empty client' (List.mem_of_getElem? hold) hpart
  | step i answer =>
      obtain ⟨client, c, k, hclient, hprog, rfl⟩ := System.step_call hstep
      have hnext := next_of_prog hprog
      have hrunning : client.running = true := by
        rw [Client.running, hnext]
        rfl
      -- whoever is part way after the call was so before it, unless it is the drain itself
      have hbefore : (∃ other ∈ w.clients, partWay other = true) ∨ c = .clearProjects := by
        rcases System.client_of_call hj with ⟨_, rfl⟩ | ⟨_, other, hother, rfl⟩
        · by_cases hc : c = .clearProjects
          · exact Or.inr hc
          · refine Or.inl ⟨client, List.mem_of_getElem? hclient, ?_⟩
            have hplace : (system.protocol.advance client.place c
                (system.handle w.state c answer).2) = client.place := by
              cases c with
              | clearProjects => exact absurd rfl hc
              | _ => rfl
            have hdrained := (Bool.and_eq_true_iff.mp hpart).2
            rw [Client.moved, hplace] at hdrained
            rw [partWay, hrunning, hdrained]
            rfl
        · exact Or.inl ⟨other, List.mem_of_getElem? hother, hpart⟩
      show (handle w.state c answer).1.projects = []
      rcases hbefore with ⟨other, hother, hpart'⟩ | rfl
      · refine projects_nil (h.empty other hother hpart') fun projectId hc => ?_
        subst hc
        have hnone := (hcond client hclient (registering_of_prog hprog)).2 other hother
        rw [hpart'] at hnone
        cases hnone
      · rfl

/-- There are no projects, and nobody is left that will register one. -/
structure Cleared (w : Agents) : Prop where
  faithful : System.Faithful system (fun _ _ _ => True) w
  empty : w.state.projects = []
  late : ∀ client ∈ w.clients, client.notes = true ∨ client.place.registers = false

/-- What an operation is about stays what it is. -/
theorem registers_advance {g : Place} {c : Call} (r : c.Reply) :
    (g.advance c r).registers = g.registers := by
  cases c <;> rfl

theorem Cleared.step {w w' : Agents} {act : Act Op Answer} (h : Cleared w)
    (hcond : Unobserved w act) (hspawn : ∀ op, act = .spawn op → op.start.registers = false)
    (hstep : system.step w act = some w') : Cleared w' := by
  refine ⟨h.faithful.step follows_code hstep, ?_, fun client' hclient' => ?_⟩
  · cases act with
    | spawn op =>
        rw [System.step_spawn hstep]
        exact h.empty
    | drop i =>
        obtain ⟨client, c, k, hclient, hprog, rfl⟩ := System.step_drop hstep
        exact h.empty
    | step i answer =>
        obtain ⟨client, c, k, hclient, hprog, rfl⟩ := System.step_call hstep
        apply projects_nil h.empty
        rintro projectId rfl
        have hallowed : client.place.registers = true := h.faithful.allowed hclient hprog
        have hnotes := (hcond client hclient (registering_of_prog hprog)).1
        rcases h.late client (List.mem_of_getElem? hclient) with hlate | hlate
        · rw [hnotes] at hlate
          cases hlate
        · rw [hallowed] at hlate
          cases hlate
  · obtain ⟨j, hj⟩ := List.mem_iff_getElem?.mp hclient'
    cases act with
    | spawn op =>
        rw [System.step_spawn hstep] at hj
        rcases System.client_of_spawn hj with hold | ⟨_, rfl⟩
        · exact h.late client' (List.mem_of_getElem? hold)
        · exact Or.inr (hspawn op rfl)
    | drop i =>
        obtain ⟨client, c, k, hclient, hprog, rfl⟩ := System.step_drop hstep
        rcases System.client_of_drop hj with ⟨_, rfl⟩ | ⟨_, hold⟩
        · exact h.late client (List.mem_of_getElem? hclient)
        · exact h.late client' (List.mem_of_getElem? hold)
    | step i answer =>
        obtain ⟨client, c, k, hclient, hprog, rfl⟩ := System.step_call hstep
        rcases System.client_of_call hj with ⟨_, rfl⟩ | ⟨_, other, hother, rfl⟩
        · rcases h.late client (List.mem_of_getElem? hclient) with hlate | hlate
          · exact Or.inl (Bool.or_eq_true_iff.mpr (Or.inl hlate))
          · exact Or.inr ((registers_advance _).trans hlate)
        · rcases h.late other (List.mem_of_getElem? hother) with hlate | hlate
          · exact Or.inl (Bool.or_eq_true_iff.mpr (Or.inl hlate))
          · exact Or.inr hlate

/-! ## Whole runs -/

/-- With its next call a clear comes to its end. -/
def Ends (w : Agents) (i : Nat) : Prop :=
  ∃ client, w.clients[i]? = some client ∧ client.op = .clear ∧
    client.next = some .clearKnownProjects

theorem Clearing.cleared {w w' : Agents} {i : Nat} {answer : Answer} (h : Clearing w)
    (hends : Ends w i) (hstep : system.step w (.step i answer) = some w') : Cleared w' := by
  obtain ⟨client, hclient, _, hnext⟩ := hends
  refine ⟨h.faithful.step follows_code hstep, ?_, fun client' hclient' => Or.inl ?_⟩
  · obtain ⟨client₁, c, k, hclient₁, hprog, rfl⟩ := System.step_call hstep
    rw [hclient] at hclient₁
    cases hclient₁
    rw [next_of_prog hprog] at hnext
    cases hnext
    have hdrained : client.place.drained = true := h.faithful.allowed hclient hprog
    have hpart : partWay client = true := by
      rw [partWay, Client.running, next_of_prog hprog, hdrained]
      rfl
    exact h.empty client (List.mem_of_getElem? hclient) hpart
  · obtain ⟨j, hj⟩ := List.mem_iff_getElem?.mp hclient'
    obtain ⟨client₁, c, k, hclient₁, hprog, rfl⟩ := System.step_call hstep
    rw [hclient] at hclient₁
    cases hclient₁
    rw [next_of_prog hprog] at hnext
    cases hnext
    rcases System.client_of_call hj with ⟨_, rfl⟩ | ⟨_, other, hother, rfl⟩
    · exact Bool.or_true _
    · exact Bool.or_true _

def start : Agents := { state := {} }

theorem Clearing.start : Clearing start := by
  refine ⟨fun i client p hclient => ?_, fun client hclient => ?_⟩
  · cases hclient
  · cases hclient

theorem sound_step {w w' : Agents} {act : Act Op Answer} (h : Sound w.state)
    (hstep : system.step w act = some w') : Sound w'.state := by
  cases act with
  | spawn op =>
      rw [System.step_spawn hstep]
      exact h
  | drop i =>
      obtain ⟨client, c, k, hclient, hprog, rfl⟩ := System.step_drop hstep
      exact h
  | step i answer =>
      obtain ⟨client, c, k, hclient, hprog, rfl⟩ := System.step_call hstep
      exact h.handle c answer

theorem sound_run {w : Agents} {acts : List (Act Op Answer)}
    (hrun : Runs.run system.step start acts = some w) : Sound w.state := by
  have hkept (w : Agents) (act : Act Op Answer) (w' : Agents) (h : Sound w.state)
      (hstep : system.step w act = some w') : Sound w'.state := sound_step h hstep
  exact @Runs.invariant_always _ _ system.step (fun w : Agents => Sound w.state) hkept _ _ _
    Sound.start hrun

/-- In every run a project has one runner at most, and what is removed is cancelled; and
where registrations keep away from the clears, a clear that has come to its end with no
refresh or registration started afterwards leaves no runner. -/
theorem none_after_logout {w : Agents} {acts : List (Act Op Answer)}
    (hrun : Runs.run system.step start acts = some w) :
    OneRunner w.state ∧ RemovedCancelled w.state ∧
      (Runs.Meets system.step Unobserved start acts →
        ∀ before i answer after u, acts = before ++ .step i answer :: after →
          Runs.run system.step start before = some u → Ends u i →
          (∀ act ∈ after, ∀ op, act = .spawn op → op.start.registers = false) →
          ∀ r ∈ w.state.runners, r.cancelled = true) := by
  have hsound : Sound w.state := sound_run hrun
  refine ⟨hsound.oneRunner, hsound.removedCancelled, ?_⟩
  rintro hmeets before i answer after u rfl hbefore hends hspawn
  obtain ⟨hmeets₁, hmeets₂⟩ := hmeets.append hbefore
  have hclearing : Clearing u := by
    apply Runs.invariant _ Clearing.start hmeets₁ hbefore
    intro w act w' h hcond hstep
    exact h.step hcond hstep
  rw [Runs.run_append, hbefore] at hrun
  obtain ⟨v, hstep, hafter⟩ := (Runs.run_cons_eq_some system.step).mp hrun
  have hmeets₃ : Runs.Meets system.step Unobserved v after := by
    have hrest := hmeets₂.2
    rw [hstep] at hrest
    exact hrest
  have hcleared : Cleared w := by
    apply Runs.invariant _ (hclearing.cleared hends hstep)
      (hmeets₃.and_mem fun act hact => hspawn act hact) hafter
    intro w act w' h hcond hstep
    exact h.step hcond.1 hcond.2 hstep
  exact hsound.cancelled hcleared.empty

/-- A refresh registers a project, and the clear that follows cancels its runner. -/
def refreshThenClear : List (Act Op Answer) :=
  let probed : Answer := { cache := ["p"], order := ["p"], probe := fun _ => .ok true }
  [.spawn .refresh, .step 0 probed, .step 0 probed, .step 0 probed, .step 0 probed,
    .step 0 probed, .step 0 probed, .spawn .clear, .step 1 {}]

theorem none_after_logout_refreshThenClear :
    ∃ u w, Runs.run system.step start refreshThenClear = some u ∧ Ends u 1 ∧
      Runs.run system.step start (refreshThenClear ++ [.step 1 {}]) = some w ∧
      w.state.runners.length = 1 ∧ ∀ r ∈ w.state.runners, r.cancelled = true :=
  ⟨_, _, rfl, ⟨_, rfl, rfl, rfl⟩, rfl, rfl,
    (none_after_logout (show Runs.run system.step start (refreshThenClear ++ [.step 1 {}]) =
      some _ from rfl)).2.2 (by decide)
      refreshThenClear 1 {} [] _ rfl rfl ⟨_, rfl, rfl, rfl⟩ (by simp)⟩

/-- A refresh has probed a project; a clear begins and comes to its end; then the refresh
registers the project. -/
theorem runner_after_logout :
    let probed : Answer := { cache := ["p"], order := ["p"], probe := fun _ => .ok true }
    let before : List (Act Op Answer) :=
      [.spawn .refresh, .step 0 probed, .step 0 probed, .step 0 probed, .step 0 probed,
        .step 0 probed, .spawn .clear, .step 1 {}]
    ∃ u w, Runs.run system.step start before = some u ∧ Ends u 1 ∧
      Runs.run system.step start (before ++ [.step 1 {}, .step 0 probed]) = some w ∧
      w.state.runners = [{ project := "p" }] :=
  ⟨_, _, rfl, ⟨_, rfl, rfl, rfl⟩, rfl, rfl⟩

end DatumConnect.Heartbeat.Projects
