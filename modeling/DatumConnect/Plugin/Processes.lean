import Mathlib.Data.List.Nodup
import Mathlib.Algebra.Group.Nat.Defs
/-!
# Processes

The system gives every process a pid that no other has while it runs.  A pid outlives its
process; the serial number of a process is its own for good.
-/

namespace DatumConnect.Plugin.Commands

inductive Role where
  | supervisor (name : String)
  | child (name : String)
  | daemon
  | other
  deriving DecidableEq, Repr

structure Proc where
  serial : Nat
  pid : Nat
  group : Nat
  /-- The user may signal it. -/
  ours : Bool
  role : Role
  deriving DecidableEq, Repr

/-- A process that a number given to `kill` stands for. -/
def Proc.Addressed (p : Proc) (n : Int) : Prop :=
  p.ours = true ∧ (0 < n ∧ n = p.pid ∨ n < -1 ∧ n = -p.group)

instance (p : Proc) (n : Int) : Decidable (p.Addressed n) := by
  unfold Proc.Addressed
  infer_instance

structure Machine where
  /-- The processes that run. -/
  procs : List Proc := []
  /-- How many there have been. -/
  next : Nat := 0
  serial_lt : ∀ p ∈ procs, p.serial < next := by simp
  nodup : (procs.map Proc.serial).Nodup := by simp

/-- What `os.FindProcess` gives. -/
inductive Handle where
  | done
  | pidfd (serial : Nat)
  | pid (n : Int)
  deriving DecidableEq, Repr

namespace Machine

variable (m : Machine)

def Alive (serial : Nat) : Prop := ∃ p ∈ m.procs, p.serial = serial

instance (serial : Nat) : Decidable (m.Alive serial) := by
  unfold Alive
  infer_instance

/-- A pid the system can give. -/
def Free (pid : Nat) : Prop := 0 < pid ∧ pid < 2 ^ 31 ∧ ∀ p ∈ m.procs, p.pid ≠ pid

instance (pid : Nat) : Decidable (m.Free pid) := by
  unfold Free
  infer_instance

def spawned (pid group : Nat) (ours : Bool) (role : Role) : Proc :=
  { serial := m.next, pid, group, ours, role }

def spawn (pid group : Nat) (ours : Bool) (role : Role) : Machine where
  procs := m.procs ++ [m.spawned pid group ours role]
  next := m.next + 1
  serial_lt := by
    intro p hp
    rcases List.mem_append.mp hp with hold | hnew
    · have hlt := m.serial_lt p hold
      omega
    · rw [List.mem_singleton] at hnew
      subst hnew
      exact Nat.lt_succ_self _
  nodup := by
    rw [List.map_append, List.nodup_append]
    refine ⟨m.nodup, List.nodup_singleton _, ?_⟩
    intro serial hold serial' hnew heq
    rw [List.map_cons, List.map_nil, List.mem_singleton] at hnew
    obtain ⟨p, hp, hserial⟩ := List.mem_map.mp hold
    have hlt := m.serial_lt p hp
    subst heq
    rw [hserial, hnew] at hlt
    exact absurd hlt (Nat.lt_irrefl _)

def ends (serial : Nat) : Machine where
  procs := m.procs.filter fun p => p.serial ≠ serial
  next := m.next
  serial_lt := fun p hp => m.serial_lt p (List.mem_of_mem_filter hp)
  nodup := m.nodup.sublist (List.filter_sublist.map _)

/-- `PIDAlive`, and which process it sees. -/
def pidAlive (n : Int) : Option Proc :=
  if n ≤ 0 then none else m.procs.find? fun p => p.ours && decide (n = p.pid)

/-- `os.FindProcess`: where the system has `pidfd_open` the handle is for the process of that
moment, and elsewhere, or for a number that is no pid, for the number. -/
def findProcess (pidfd : Bool) (n : Int) : Handle :=
  if pidfd = true ∧ 0 < n then
    match m.procs.find? fun p => decide (n = p.pid) with
    | some p => .pidfd p.serial
    | none => .done
  else .pid n

/-- The processes a signal goes to.  `os.Process.Signal` refuses 0 and -1. -/
def targets : Handle → List Nat
  | .done => []
  | .pidfd serial => (m.procs.filter fun p => p.ours && decide (p.serial = serial)).map Proc.serial
  | .pid n => (m.procs.filter fun p => decide (p.Addressed n)).map Proc.serial

variable {m}

theorem mem_spawn {pid group : Nat} {ours : Bool} {role : Role} {p : Proc} :
    p ∈ (m.spawn pid group ours role).procs ↔
      p ∈ m.procs ∨ p = m.spawned pid group ours role := by
  rw [spawn, List.mem_append, List.mem_singleton]

theorem mem_ends {serial : Nat} {p : Proc} :
    p ∈ (m.ends serial).procs ↔ p ∈ m.procs ∧ p.serial ≠ serial := by
  rw [ends, List.mem_filter, decide_eq_true_eq]

theorem eq_of_serial {p q : Proc} (hp : p ∈ m.procs) (hq : q ∈ m.procs)
    (h : p.serial = q.serial) : p = q :=
  List.inj_on_of_nodup_map m.nodup hp hq h

theorem mem_of_pidAlive {n : Int} {p : Proc} (h : m.pidAlive n = some p) :
    p ∈ m.procs ∧ p.Addressed n := by
  unfold pidAlive at h
  split at h
  · cases h
  · rename_i hpos
    have hmem := List.mem_of_find?_eq_some h
    have hfound := List.find?_some h
    rw [Bool.and_eq_true, decide_eq_true_eq] at hfound
    exact ⟨hmem, hfound.1, .inl ⟨Int.not_le.mp hpos, hfound.2⟩⟩

/-- A process of the user's that runs is seen. -/
theorem pidAlive_of_mem {p : Proc} (hp : p ∈ m.procs) (hours : p.ours = true) (hpid : 0 < p.pid) :
    (m.pidAlive p.pid).isSome = true := by
  unfold pidAlive
  rw [if_neg (by omega), List.find?_isSome]
  exact ⟨p, hp, by simp [hours]⟩

end Machine

/-! ## Processes come and go -/

/-- Processes have ended, and those that have come up are `new`. -/
structure Moves (m m' : Machine) (new : Proc → Prop) : Prop where
  next_le : m.next ≤ m'.next
  procs : ∀ p ∈ m'.procs, p ∈ m.procs ∨ m.next ≤ p.serial ∧ new p

theorem Moves.refl (m : Machine) (new : Proc → Prop) : Moves m m new :=
  ⟨Nat.le_refl _, fun _ hp => .inl hp⟩

theorem Moves.mono {m m' : Machine} {new new' : Proc → Prop} (h : Moves m m' new)
    (hnew : ∀ p, new p → new' p) : Moves m m' new' :=
  ⟨h.next_le, fun p hp => (h.procs p hp).imp_right fun hp => ⟨hp.1, hnew p hp.2⟩⟩

theorem moves_ends (m : Machine) (serial : Nat) (new : Proc → Prop) :
    Moves m (m.ends serial) new :=
  ⟨Nat.le_refl _, fun _ hp => .inl (Machine.mem_ends.mp hp).1⟩

theorem moves_spawn {m : Machine} {pid group : Nat} {ours : Bool} {role : Role}
    {new : Proc → Prop} (hnew : new (m.spawned pid group ours role)) :
    Moves m (m.spawn pid group ours role) new := by
  refine ⟨Nat.le_succ _, ?_⟩
  intro p hp
  rcases Machine.mem_spawn.mp hp with hold | rfl
  · exact .inl hold
  · exact .inr ⟨Nat.le_refl _, hnew⟩

/-- A process that was there runs only if it ran before. -/
theorem Moves.alive {m m' : Machine} {new : Proc → Prop} (h : Moves m m' new) {serial : Nat}
    (hold : serial < m.next) (halive : m'.Alive serial) : m.Alive serial := by
  obtain ⟨p, hp, hserial⟩ := halive
  rcases h.procs p hp with hmem | ⟨hlate, -⟩
  · exact ⟨p, hmem, hserial⟩
  · omega

end DatumConnect.Plugin.Commands
