import DatumConnect.Plugin.CommandPlaces
/-!
# Commands that take turns

Nothing keeps the commands off each other's pid files: no lock, and no look at whose file it is
before it is written or removed.  Here is when they do not get in each other's way, and what holds
of every process and every command in any case.
-/

namespace DatumConnect.Plugin.Commands

open DatumConnect.Lib
open DatumConnect.Lib.Pool

/-- A command at work. -/
abbrev Command := Client Op Call Call.Reply Unit Place Unit

def Op.supervises (name : String) : Op → Bool
  | .runSupervisor name' _ => name' = name
  | _ => false

/-- A process of the tunnel: the supervisor's or the one of the Rust binary. -/
def Role.of (name : String) : Role → Bool
  | .supervisor name' | .child name' => name' = name
  | .daemon | .other => false

def Host.Quiet (h : Host) (name : String) : Prop := ∀ p ∈ h.machine.procs, p.role.of name = false

def Host.NoDaemon (h : Host) : Prop := ∀ p ∈ h.machine.procs, p.role ≠ .daemon

instance (h : Host) (name : String) : Decidable (h.Quiet name) := by
  unfold Host.Quiet
  infer_instance

instance (h : Host) : Decidable h.NoDaemon := by
  unfold Host.NoDaemon
  infer_instance

/-- A supervisor of the tunnel that has written the pid file, and its child, run. -/
def Supervises (h : Host) (name : String) (cl : Command) : Prop :=
  cl.place.op.supervises name = true ∧ cl.place.wrote = true ∧
    (∃ self ∈ cl.place.self, h.machine.Alive self.serial) ∧
    ∃ child ∈ cl.place.child, h.machine.Alive child.serial

instance (h : Host) (name : String) (cl : Command) : Decidable (Supervises h name cl) := by
  unfold Supervises
  infer_instance

section

variable (parseTime : List Char → Option Nat)

/-- What a call must not come across. -/
def Undisturbed (w : Clients) (i : Nat) (g : Place) (answer : Answer) : Call → Prop
  -- Nobody writes or removes the pid file of a tunnel while a supervisor that has written it, and
  -- its child, run.
  | .create (.tunnel name) | .write (.tunnel name) _ | .remove (.tunnel name) =>
      ∀ cl ∈ w.clients, ¬Supervises w.state name cl
  -- A daemon's pid file is written, and goes only once no daemon runs.
  | .create .daemon | .write .daemon _ => answer.ok = true
  | .remove .daemon => w.state.NoDaemon
  -- No two daemon commands are under way at a time.
  | .read .daemon => ∀ j < w.clients.length, j ≠ i → ∀ cl ∈ w.clients[j]?, cl.has Place.busy = false
  -- No supervisor is started while `ps` is at work on a tunnel it has found to be a zombie.
  | .start (.supervisor name) =>
      ∀ cl ∈ w.clients, cl.running = true → cl.place.op = .ps true → name ∉ cl.place.judged
  -- A tunnel is found to be a zombie only where none of its processes runs.
  | .pidAlive n =>
      g.op = .ps true → ∀ name ∈ g.judge parseTime n (w.state.machine.pidAlive n),
        name ∈ g.judged ∨ w.state.Quiet name
  -- Nobody else writes pid files.
  | .put _ _ => False
  | _ => True

instance (w : Clients) (i : Nat) (g : Place) (answer : Answer) (c : Call) :
    Decidable (Undisturbed parseTime w i g answer c) := by
  match c with
  | .create .daemon | .create (.tunnel _) | .write .daemon _ | .write (.tunnel _) _
  | .remove .daemon | .remove (.tunnel _) | .read .daemon | .read (.tunnel _)
  | .start .daemon | .start (.supervisor _) | .start (.child _) | .start .other
  | .exists _ | .listTunnels | .pidAlive _ | .findProcess _ | .signal _ _ _ | .beforeDeadline
  | .now | .wait _ | .report _ _ | .ends _ | .arrives | .put _ _ =>
      dsimp only [Undisturbed]
      infer_instance

/-- The commands do not get in each other's way, and a `daemon start` is not cut off between the
start and the write. -/
def InTurn (w : Clients) : Act Op Answer → Prop
  | .step i answer =>
      ∀ client ∈ w.clients[i]?, ∀ c ∈ client.next,
        Undisturbed parseTime w i client.place answer c
  | .drop i =>
      ∀ client ∈ w.clients[i]?, client.place.op.startsDaemon = true → client.place.busy = true →
        client.place.child = none
  | .spawn _ => True

instance (w : Clients) (act : Act Op Answer) : Decidable (InTurn parseTime w act) := by
  match act with
  | .step _ _ | .drop _ | .spawn _ =>
      dsimp only [InTurn]
      infer_instance

/-! ## What holds in any case -/

/-- A process that runs or ran. -/
structure Known (m : Machine) (p : Proc) : Prop where
  old : p.serial < m.next
  small : p.pid < 2 ^ 31
  same : ∀ q ∈ m.procs, q.serial = p.serial → q = p

/-- What a command knows of itself. -/
structure Rooted (m : Machine) (g : Place) : Prop where
  self : ∀ p, g.self = some p → Known m p ∧
    ∀ name, g.op.supervises name = true → p.role = .supervisor name
  child : ∀ p, g.child = some p → Known m p ∧
    ∀ name, g.op.supervises name = true → p.role = .child name
  time : ∀ t, g.time = some t → PidFile.newline ∉ t ∧ (parseTime t).isSome = true

structure Base (pidfd : Bool) (w : Clients) : Prop where
  faithful : System.Faithful (system parseTime pidfd) (fun _ _ _ => True) w
  op : ∀ (i : Nat) (cl : Command), w.clients[i]? = some cl → cl.place.op = cl.op
  procs : ∀ p ∈ w.state.machine.procs, 0 < p.pid ∧ (p.role ≠ .other → p.ours = true)
  rooted : ∀ (i : Nat) (cl : Command), w.clients[i]? = some cl →
    Rooted parseTime w.state.machine cl.place

variable {parseTime} {pidfd : Bool}

theorem rooted_new (m : Machine) (op : Op) : Rooted parseTime m { op } where
  self := nofun
  child := nofun
  time := nofun

theorem Known.moves {m m' : Machine} {new : Proc → Prop} {p : Proc} (h : Known m p)
    (hm : Moves m m' new) : Known m' p where
  old := Nat.lt_of_lt_of_le h.old hm.next_le
  small := h.small
  same := by
    intro q hq hserial
    rcases hm.procs q hq with hold | ⟨hlate, -⟩
    · exact h.same q hold hserial
    · have hearly := h.old
      omega

theorem known_spawned {m : Machine} {pid group : Nat} {ours : Bool} {role : Role}
    (hfree : m.Free pid) : Known (m.spawn pid group ours role) (m.spawned pid group ours role) where
  old := Nat.lt_succ_self _
  small := hfree.2.1
  same := by
    intro q hq hserial
    rcases Machine.mem_spawn.mp hq with hold | hnew
    · have hlt := m.serial_lt q hold
      have hnext : q.serial = m.next := hserial
      omega
    · exact hnew

theorem Rooted.moves {m m' : Machine} {new : Proc → Prop} {g : Place} (h : Rooted parseTime m g)
    (hm : Moves m m' new) : Rooted parseTime m' g where
  self := fun p hp => ⟨(h.self p hp).1.moves hm, (h.self p hp).2⟩
  child := fun p hp => ⟨(h.child p hp).1.moves hm, (h.child p hp).2⟩
  time := h.time

theorem supervises_eq {op : Op} {name : String} (h : op.supervises name = true) :
    ∃ binaryPath, op = .runSupervisor name binaryPath := by
  cases op with
  | runSupervisor name' binaryPath =>
      have hname : name' = name := of_decide_eq_true h
      exact ⟨binaryPath, by rw [hname]⟩
  | _ => cases h

theorem started_some {h : Host} {answer : Answer} {ours : Bool} {role : Role} {p : Proc}
    (hstarted : (h.started answer ours role).2 = some p) :
    p = h.machine.spawned answer.pid answer.group ours role ∧ h.machine.Free answer.pid ∧
      (h.started answer ours role).1 =
        { h with machine := h.machine.spawn answer.pid answer.group ours role } := by
  unfold Host.started at hstarted ⊢
  split at hstarted
  · rename_i hgo
    rw [if_pos hgo]
    cases hstarted
    exact ⟨rfl, hgo.2, rfl⟩
  · cases hstarted

/-- A command after a call of its own. -/
theorem Rooted.advance {s : Host} {g : Place} {c : Call} {answer : Answer}
    (hallowed : g.Allowed parseTime c)
    (htime : s.allows parseTime answer c = true)
    (hmoves : Rooted parseTime (s.handle pidfd c answer).1.machine g) :
    Rooted parseTime (s.handle pidfd c answer).1.machine
      (g.advance parseTime c (s.handle pidfd c answer).2) := by
  cases c with
  | «exists» | listTunnels | beforeDeadline | wait | ends | arrives | put => exact hmoves
  | read | pidAlive | findProcess | signal | report | create | write => exact { hmoves with }
  | remove file =>
      cases file with
      | daemon => exact { hmoves with }
      | tunnel name => exact hmoves
  | now =>
      exact { hmoves with
        time := by
          intro t ht
          cases ht
          change (decide _ && _) = true at htime
          rw [Bool.and_eq_true, decide_eq_true_eq] at htime
          exact htime }
  | start role =>
      have hspawned : ∀ p, (s.handle pidfd (.start role) answer).2 = some p →
          Known (s.handle pidfd (.start role) answer).1.machine p ∧ p.role = role := by
        intro p hp
        obtain ⟨rfl, hfree, hstate⟩ := started_some hp
        have hknown : Known (s.started answer true role).1.machine
            (s.machine.spawned answer.pid answer.group true role) := by
          rw [hstate]
          exact known_spawned hfree
        exact ⟨hknown, rfl⟩
      cases role with
      | supervisor name =>
          exact { hmoves with
            self := by
              intro p hp
              obtain ⟨hknown, hrole⟩ := hspawned p hp
              refine ⟨hknown, ?_⟩
              intro name' hname
              obtain ⟨-, binaryPath, hop⟩ := hallowed
              obtain ⟨binaryPath', hop'⟩ := supervises_eq hname
              cases hop.symm.trans hop'
              exact hrole }
      | child name =>
          exact { hmoves with
            child := by
              intro p hp
              obtain ⟨hknown, hrole⟩ := hspawned p hp
              refine ⟨hknown, ?_⟩
              intro name' hname
              obtain ⟨-, -, binaryPath, hop⟩ := hallowed
              obtain ⟨binaryPath', hop'⟩ := supervises_eq hname
              cases hop.symm.trans hop'
              exact hrole }
      | daemon =>
          exact { hmoves with
            child := by
              intro p hp
              obtain ⟨hknown, hrole⟩ := hspawned p hp
              refine ⟨hknown, ?_⟩
              intro name' hname
              obtain ⟨binaryPath, hop⟩ := hallowed.1
              obtain ⟨binaryPath', hop'⟩ := supervises_eq hname
              cases hop.symm.trans hop' }
      | other => exact hallowed.elim

theorem base_start : Base parseTime pidfd start where
  faithful := by
    intro i cl p hcl
    cases hcl
  op := by
    intro i cl hcl
    cases hcl
  procs := nofun
  rooted := by
    intro i cl hcl
    cases hcl

/-- What is waited for, where a call is made. -/
theorem ready_call {w : Clients} {i : Nat} {answer : Answer} {client : Command} {c : Call}
    (hready : ready parseTime w (.step i answer) = true) (hclient : w.clients[i]? = some client)
    (hnext : client.next = some c) :
    (∀ self, client.place.self = some self → w.state.machine.Alive self.serial) ∧
      w.state.allows parseTime answer c = true := by
  change (w.clients[i]?).all _ = true at hready
  rw [hclient, Option.all_some, Bool.and_eq_true, hnext, Option.all_some] at hready
  refine ⟨?_, hready.2⟩
  intro self hself
  have halive := hready.1
  rw [hself, Option.all_some, decide_eq_true_eq] at halive
  exact halive

theorem Base.procs_call {w : Clients} (h : Base parseTime pidfd w) (c : Call) (answer : Answer) :
    ∀ p ∈ (w.state.handle pidfd c answer).1.machine.procs,
      0 < p.pid ∧ (p.role ≠ .other → p.ours = true) := by
  intro p hp
  rcases (w.state.moves_handle c answer).procs p hp with hold | ⟨-, hfree, hnew⟩
  · exact h.procs p hold
  · rcases hnew with ⟨role, hc, rfl⟩ | ⟨-, rfl⟩
    · exact ⟨hfree.1, fun _ => rfl⟩
    · exact ⟨hfree.1, fun hother => absurd rfl hother⟩

theorem base_step (w : Clients) (act : Act Op Answer) (w' : Clients) (h : Base parseTime pidfd w)
    (hstep : step parseTime pidfd w act = some w') : Base parseTime pidfd w' := by
  obtain ⟨hready, hstep'⟩ := System.of_stepWhen hstep
  have hfaithful := h.faithful.step follows_code hstep'
  cases act with
  | spawn op =>
      have hw' := System.step_spawn hstep'
      subst hw'
      refine ⟨hfaithful, ?op, h.procs, ?rooted⟩
      case op =>
        intro i cl hcl
        rcases System.client_of_spawn hcl with hold | ⟨-, rfl⟩
        · exact h.op i cl hold
        · rfl
      case rooted =>
        intro i cl hcl
        rcases System.client_of_spawn hcl with hold | ⟨-, rfl⟩
        · exact h.rooted i cl hold
        · exact rooted_new _ op
  | step i answer =>
      obtain ⟨client, c, k, hclient, hprog, rfl⟩ := System.step_call hstep'
      obtain ⟨hnext, -⟩ := running_of_prog hprog
      have hallowed : client.place.Allowed parseTime c := h.faithful.allowed hclient hprog
      have hm := @Host.moves_handle pidfd w.state c answer
      refine ⟨hfaithful, ?op, h.procs_call c answer, ?rooted⟩
      case op =>
        intro j cl hcl
        rcases System.client_of_call hcl with ⟨rfl, rfl⟩ | ⟨-, other, hother, rfl⟩
        · exact (advance_op _ _ _).trans (h.op j client hclient)
        · exact h.op j other hother
      case rooted =>
        intro j cl hcl
        rcases System.client_of_call hcl with ⟨rfl, rfl⟩ | ⟨-, other, hother, rfl⟩
        · exact Rooted.advance hallowed (ready_call hready hclient hnext).2
            ((h.rooted j client hclient).moves hm)
        · exact (h.rooted j other hother).moves hm
  | drop i =>
      obtain ⟨client, c, k, hclient, hprog, rfl⟩ := System.step_drop hstep'
      have hm := moves_abandon w.state client.place fun _ => False
      refine ⟨hfaithful, ?op, ?procs, ?rooted⟩
      case op =>
        intro j cl hcl
        rcases System.client_of_drop hcl with ⟨rfl, rfl⟩ | ⟨-, hold⟩
        · exact h.op j client hclient
        · exact h.op j cl hold
      case procs =>
        intro p hp
        rcases hm.procs p hp with hold | ⟨-, hnever⟩
        · exact h.procs p hold
        · exact hnever.elim
      case rooted =>
        intro j cl hcl
        rcases System.client_of_drop hcl with ⟨rfl, rfl⟩ | ⟨-, hold⟩
        · exact (h.rooted j client hclient).moves hm
        · exact (h.rooted j cl hold).moves hm

end

end DatumConnect.Plugin.Commands
