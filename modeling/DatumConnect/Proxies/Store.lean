import DatumConnect.Lib.Runs
import DatumConnect.Lib.Serial
import DatumConnect.Proxies.State
/-!
# The shared proxy store

Every `ListenNode` of a daemon loads `state.yml` into a `StateWrapper` of its
own (`Repo::load_state`) and rewrites the whole file on each
`StateWrapper::update`.  The steps below are the points at which the tasks of a
multi-threaded runtime can interleave: an update loads the wrapper's copy, stores
the changed copy, and then awaits the file write; `load_state` looks for the file
before it reads it or writes the empty default.
-/

namespace DatumConnect.Proxies.Store

open DatumConnect.Lib.Serial (Span)

/-- How far a call of `StateWrapper::update` has got. -/
inductive Phase where
  | invoked
  | loaded (snapshot : State)
  /-- In memory, at step `storedAt`; the file write is still to come. -/
  | stored (snapshot next : State) (res : Option ProxyState) (storedAt : Nat)
  /-- The file holds `next`; the caller has yet to see `Ok`. -/
  | written (next : State) (res : Option ProxyState) (storedAt : Nat)
  | returned (next : State) (res : Option ProxyState) (storedAt returnedAt : Nat)
  /-- `write_state` failed and `update` returned its error. -/
  | failed (storedAt : Nat)
  deriving DecidableEq, Repr

namespace Phase

/-- The step at which the call changed the wrapper's copy. -/
def storedAt : Phase → Option Nat
  | .stored _ _ _ at_ | .written _ _ at_ | .returned _ _ at_ _ | .failed at_ => some at_
  | _ => none

/-- The call's file write is done. -/
def hasWritten : Phase → Bool
  | .written .. | .returned .. => true
  | _ => false

/-- When the caller got its `Ok`. -/
def returnedAt : Phase → Option Nat
  | .returned _ _ _ at_ => some at_
  | _ => none

end Phase

structure UpdateCall where
  wrapper : Nat
  op : Update
  invokedAt : Nat
  phase : Phase := .invoked
  deriving DecidableEq, Repr

/-- The file, the copy each loaded wrapper holds, the `load_state` calls that
have looked for the file (`true`: it exists), and the update calls. -/
structure Sys where
  file : Option State
  wrappers : List State
  opening : List Bool := []
  calls : List UpdateCall := []
  clock : Nat := 0
  deriving DecidableEq, Repr

namespace Sys

/-- What `state.yml` holds; a file that is not there holds no proxies. -/
def saved (s : Sys) : State := s.file.getD {}

def setPhase (s : Sys) (c : Nat) (phase : Phase) : Sys :=
  { s with calls := s.calls.modify c fun call => { call with phase } }

end Sys

inductive Action where
  | openBegin
  | openEnd (k : Nat)
  | invoke (wrapper : Nat) (op : Update)
  | load (c : Nat)
  | store (c : Nat)
  | write (c : Nat)
  | failWrite (c : Nat)
  | ret (c : Nat)
  deriving DecidableEq, Repr

/-- The clock counts steps. -/
def Sys.tick (s : Sys) : Sys := { s with clock := s.clock + 1 }

/-- The phase of call `c`, if it has been made. -/
def Sys.phase? (s : Sys) (c : Nat) : Option Phase := s.calls[c]?.map UpdateCall.phase

def act (s : Sys) : Action → Option Sys
  | .openBegin => some { s with opening := s.opening ++ [s.file.isSome] }
  | .openEnd k =>
      match s.opening[k]?, s.file with
      | some true, some state =>
          some { s with wrappers := s.wrappers ++ [state], opening := s.opening.eraseIdx k }
      | some true, none => none -- the read fails and `load_state` with it
      | some false, _ =>
          some { s with
            file := some {}
            wrappers := s.wrappers ++ [{}]
            opening := s.opening.eraseIdx k }
      | none, _ => none
  | .invoke wrapper op =>
      if wrapper < s.wrappers.length then
        some { s with calls := s.calls ++ [{ wrapper, op, invokedAt := s.clock }] }
      else none
  | .load c =>
      match s.calls[c]?, s.phase? c with
      | some call, some .invoked =>
          s.wrappers[call.wrapper]?.map fun snapshot => s.setPhase c (.loaded snapshot)
      | _, _ => none
  | .store c =>
      match s.calls[c]?, s.phase? c with
      | some call, some (.loaded snapshot) =>
          let (next, res) := call.op.run snapshot
          some { s.setPhase c (.stored snapshot next res s.clock) with
            wrappers := s.wrappers.set call.wrapper next }
      | _, _ => none
  | .write c =>
      match s.phase? c with
      | some (.stored _ next res storedAt) =>
          some { s.setPhase c (.written next res storedAt) with file := some next }
      | _ => none
  | .failWrite c =>
      match s.phase? c with
      | some (.stored _ _ _ storedAt) => some (s.setPhase c (.failed storedAt))
      | _ => none
  | .ret c =>
      match s.phase? c with
      | some (.written next res storedAt) =>
          some (s.setPhase c (.returned next res storedAt s.clock))
      | _ => none

theorem act_failWrite {s t : Sys} {c : Nat} : act s (.failWrite c) = some t ↔
    ∃ snapshot next res storedAt,
      s.phase? c = some (.stored snapshot next res storedAt) ∧
      t = s.setPhase c (.failed storedAt) := by
  simp only [act]
  cases hphase : s.phase? c with
  | none => simp
  | some phase => cases phase <;> simp [eq_comm]

def step (s : Sys) (a : Action) : Option Sys := (act s a).map Sys.tick

abbrev run : Sys → List Action → Option Sys := Lib.Runs.run step

/-! ## The calls by number -/

namespace Sys

/-- The change call `c` makes. -/
def op (s : Sys) (c : Nat) : Update :=
  (s.calls[c]?.map UpdateCall.op).getD (.removeProxy "")

def span (s : Sys) (c : Nat) : Span where
  invokedAt := (s.calls[c]?.map UpdateCall.invokedAt).getD 0
  returnedAt := (s.phase? c).bind Phase.returnedAt

/-- Call `c` has written the file. -/
def Written (s : Sys) (c : Nat) : Prop :=
  ∃ phase, s.phase? c = some phase ∧ phase.hasWritten = true

/-- Every call has returned `Ok`. -/
def AllReturned (s : Sys) : Prop :=
  ∀ call ∈ s.calls, call.phase.returnedAt.isSome = true

instance (s : Sys) : Decidable s.AllReturned :=
  inferInstanceAs (Decidable (∀ call ∈ s.calls, call.phase.returnedAt.isSome = true))

theorem phase?_eq_some {s : Sys} {c : Nat} {phase : Phase} :
    s.phase? c = some phase ↔ ∃ call, s.calls[c]? = some call ∧ call.phase = phase := by
  simp [phase?]

theorem lt_of_phase?_eq_some {s : Sys} {c : Nat} {phase : Phase}
    (h : s.phase? c = some phase) : c < s.calls.length := by
  obtain ⟨call, hcall, _⟩ := Iff.mp phase?_eq_some h
  exact (List.getElem?_eq_some_iff.mp hcall).1

@[simp] theorem setPhase_file (s : Sys) (c : Nat) (phase : Phase) :
    (s.setPhase c phase).file = s.file := rfl

@[simp] theorem setPhase_wrappers (s : Sys) (c : Nat) (phase : Phase) :
    (s.setPhase c phase).wrappers = s.wrappers := rfl

@[simp] theorem setPhase_clock (s : Sys) (c : Nat) (phase : Phase) :
    (s.setPhase c phase).clock = s.clock := rfl

/-- Call `d` after call `c` has moved to another phase. -/
theorem setPhase_getElem? (s : Sys) (c d : Nat) (phase : Phase) :
    (s.setPhase c phase).calls[d]? =
      s.calls[d]?.map fun call => if c = d then { call with phase } else call := by
  simp only [setPhase, List.getElem?_modify]
  split <;> simp_all

/-- A call is what it was, or it is the one that has moved on. -/
theorem mem_setPhase {s : Sys} {c : Nat} {phase : Phase} {call : UpdateCall}
    (h : call ∈ (s.setPhase c phase).calls) :
    call ∈ s.calls ∨ ∃ old, s.calls[c]? = some old ∧ call = { old with phase } := by
  obtain ⟨d, hd⟩ := List.mem_iff_getElem?.mp h
  rw [setPhase_getElem?, Option.map_eq_some_iff] at hd
  obtain ⟨old, hold, rfl⟩ := hd
  split
  · rename_i hcd
    exact .inr ⟨old, hcd ▸ hold, rfl⟩
  · exact .inl (List.mem_of_getElem? hold)

@[simp] theorem setPhase_op (s : Sys) (c d : Nat) (phase : Phase) :
    (s.setPhase c phase).op d = s.op d := by
  simp only [op, setPhase_getElem?, Option.map_map]
  congr 2
  funext call
  rw [Function.comp_apply]
  split <;> rfl

theorem setPhase_invokedAt (s : Sys) (c d : Nat) (phase : Phase) :
    ((s.setPhase c phase).span d).invokedAt = (s.span d).invokedAt := by
  simp only [span, setPhase_getElem?, Option.map_map]
  congr 2
  funext call
  rw [Function.comp_apply]
  split <;> rfl

theorem setPhase_phase?_self {s : Sys} {c : Nat} (hc : c < s.calls.length)
    (phase : Phase) : (s.setPhase c phase).phase? c = some phase := by
  simp [phase?, setPhase_getElem?, List.getElem?_eq_getElem hc]

theorem setPhase_phase?_of_ne {s : Sys} {c d : Nat} (h : c ≠ d) (phase : Phase) :
    (s.setPhase c phase).phase? d = s.phase? d := by
  simp [phase?, setPhase_getElem?, h]

theorem AllReturned.written_iff {s : Sys} (h : s.AllReturned) (c : Nat) :
    s.Written c ↔ c < s.calls.length := by
  constructor
  · rintro ⟨phase, hphase, _⟩
    exact lt_of_phase?_eq_some hphase
  · intro hc
    refine ⟨s.calls[c].phase, by simp [phase?, List.getElem?_eq_getElem hc], ?_⟩
    have hret := h s.calls[c] (List.getElem_mem hc)
    cases hphase : s.calls[c].phase <;> simp_all [Phase.returnedAt, Phase.hasWritten]

end Sys

/-! ## What one step can do -/

variable {s t : Sys} {c : Nat}

theorem act_load : act s (.load c) = some t ↔
    ∃ call snapshot, s.calls[c]? = some call ∧ call.phase = .invoked ∧
      s.wrappers[call.wrapper]? = some snapshot ∧ t = s.setPhase c (.loaded snapshot) := by
  simp only [act, Sys.phase?]
  cases hcall : s.calls[c]? with
  | none => simp
  | some call => cases hphase : call.phase <;> simp [hphase, eq_comm]

theorem act_store : act s (.store c) = some t ↔
    ∃ call snapshot, s.calls[c]? = some call ∧ call.phase = .loaded snapshot ∧
      t = { s.setPhase c
              (.stored snapshot (call.op.apply snapshot) (call.op.run snapshot).2 s.clock) with
            wrappers := s.wrappers.set call.wrapper (call.op.apply snapshot) } := by
  simp only [act, Sys.phase?, Update.apply]
  cases hcall : s.calls[c]? with
  | none => simp
  | some call => cases hphase : call.phase <;> simp [hphase, eq_comm]

theorem act_write : act s (.write c) = some t ↔
    ∃ snapshot next res storedAt,
      s.phase? c = some (.stored snapshot next res storedAt) ∧
      t = { s.setPhase c (.written next res storedAt) with file := some next } := by
  simp only [act]
  cases hphase : s.phase? c with
  | none => simp
  | some phase => cases phase <;> simp [eq_comm]

theorem act_ret : act s (.ret c) = some t ↔
    ∃ next res storedAt, s.phase? c = some (.written next res storedAt) ∧
      t = s.setPhase c (.returned next res storedAt s.clock) := by
  simp only [act]
  cases hphase : s.phase? c with
  | none => simp
  | some phase => cases phase <;> simp [eq_comm]

theorem act_invoke {w : Nat} {op : Update} : act s (.invoke w op) = some t ↔
    w < s.wrappers.length ∧
      t = { s with calls := s.calls ++ [{ wrapper := w, op, invokedAt := s.clock }] } := by
  simp only [act]
  split <;> simp_all [eq_comm]

/-- Opening an instance leaves the calls and the clock alone, and changes the
file only to write the default where none was found. -/
theorem act_open {a : Action} (ha : a = .openBegin ∨ ∃ k, a = .openEnd k)
    (h : act s a = some t) :
    t.calls = s.calls ∧ t.clock = s.clock ∧
      (t.file = s.file ∨ t.file = some {} ∧ ∃ k, a = .openEnd k ∧ s.opening[k]? = some false) := by
  rcases ha with rfl | ⟨k, rfl⟩
  · simp only [act, Option.some.injEq] at h
    simp [← h]
  · simp only [act] at h
    split at h
    · simp only [Option.some.injEq] at h
      simp [← h]
    · cases h
    · simp only [Option.some.injEq] at h
      simp_all [← h]
    · cases h

end DatumConnect.Proxies.Store
