import DatumConnect.Proxies.Store
/-!
# What holds of every copy of the list

The list is in the file, in the copy of each wrapper, and in the updates on their way.
A property of lists that the updates keep is kept wherever the list is.
-/

namespace DatumConnect.Proxies.Store

/-- The list that a call has loaded has `P`, and its update has `Q`; a list that it is
about to write has `P`. -/
def UpdateCall.Carries (P : State → Prop) (Q : Update → Prop) (call : UpdateCall) : Prop :=
  match call.phase with
  | .invoked => Q call.op
  | .loaded snapshot => Q call.op ∧ P snapshot
  | .stored _ next _ _ => P next
  | .written .. | .returned .. | .failed _ => True

/-- Every copy of the list has `P`, and every update that is still to be applied `Q`. -/
structure Everywhere (P : State → Prop) (Q : Update → Prop) (s : Sys) : Prop where
  saved : P s.saved
  wrappers : ∀ state ∈ s.wrappers, P state
  calls : ∀ call ∈ s.calls, call.Carries P Q

section Decidable

variable (P : State → Prop) (Q : Update → Prop) [DecidablePred P] [DecidablePred Q]

instance (call : UpdateCall) : Decidable (call.Carries P Q) := by
  unfold UpdateCall.Carries
  split <;> infer_instance

instance (s : Sys) : Decidable (Everywhere P Q s) :=
  decidable_of_iff
    (P s.saved ∧ (∀ state ∈ s.wrappers, P state) ∧ ∀ call ∈ s.calls, call.Carries P Q)
    ⟨fun ⟨hsaved, hwrappers, hcalls⟩ => ⟨hsaved, hwrappers, hcalls⟩,
      fun h => ⟨h.saved, h.wrappers, h.calls⟩⟩

end Decidable

namespace Everywhere

variable {P : State → Prop} {Q : Update → Prop} {s t : Sys} {c : Nat}

/-- Copies of the list may go. -/
theorem of_subset (h : Everywhere P Q s) (hsaved : t.saved = s.saved)
    (hwrappers : ∀ state ∈ t.wrappers, P state) (hcalls : t.calls ⊆ s.calls) :
    Everywhere P Q t :=
  ⟨hsaved ▸ h.saved, hwrappers, fun call hcall => h.calls call (hcalls hcall)⟩

/-- A call moves on to a phase in which it carries what it should. -/
theorem setPhase (h : Everywhere P Q s) {phase : Phase}
    (hphase : ∀ old, s.calls[c]? = some old → UpdateCall.Carries P Q { old with phase }) :
    Everywhere P Q (s.setPhase c phase) where
  saved := h.saved
  wrappers := h.wrappers
  calls call hcall := by
    rcases Sys.mem_setPhase hcall with hcall | ⟨old, hold, rfl⟩
    · exact h.calls call hcall
    · exact hphase old hold

theorem openEnd (h : Everywhere P Q s) (hempty : P {}) {k : Nat}
    (hact : act s (.openEnd k) = some t) : Everywhere P Q t := by
  have append : ∀ state, P state → ∀ copy ∈ s.wrappers ++ [state], P copy := by
    intro state hstate copy hcopy
    rcases List.mem_append.mp hcopy with hcopy | hcopy
    · exact h.wrappers copy hcopy
    · rwa [List.mem_singleton.mp hcopy]
  simp only [act] at hact
  split at hact
  · rename_i state _ hfile
    cases hact
    have hstate : P state := by simpa [Sys.saved, hfile] using h.saved
    exact ⟨h.saved, append state hstate, h.calls⟩
  · cases hact
  · cases hact
    exact ⟨hempty, append {} hempty, h.calls⟩
  · cases hact

/-- Every step keeps what each update keeps. -/
theorem step (h : Everywhere P Q s) (hempty : P {})
    (happly : ∀ state op, P state → Q op → P (op.apply state)) {a : Action}
    (ha : ∀ wrapper op, a = .invoke wrapper op → Q op) (hstep : Store.step s a = some t) :
    Everywhere P Q t := by
  obtain ⟨u, hu, rfl⟩ := Option.map_eq_some_iff.mp hstep
  suffices hevery : Everywhere P Q u from ⟨hevery.saved, hevery.wrappers, hevery.calls⟩
  cases a with
  | openBegin =>
      cases hu
      exact ⟨h.saved, h.wrappers, h.calls⟩
  | openEnd k => exact h.openEnd hempty hu
  | invoke wrapper op =>
      obtain ⟨_, rfl⟩ := act_invoke.mp hu
      refine ⟨h.saved, h.wrappers, fun call hcall => ?_⟩
      rcases List.mem_append.mp hcall with hcall | hcall
      · exact h.calls call hcall
      · rw [List.mem_singleton.mp hcall]
        exact ha wrapper op rfl
  | load c =>
      obtain ⟨call, snapshot, hcall, hphase, hsnapshot, rfl⟩ := act_load.mp hu
      refine h.setPhase fun old hold => ?_
      obtain rfl : call = old := Option.some.inj (hcall.symm.trans hold)
      have hcarries := h.calls call (List.mem_of_getElem? hcall)
      rw [UpdateCall.Carries, hphase] at hcarries
      exact ⟨hcarries, h.wrappers snapshot (List.mem_of_getElem? hsnapshot)⟩
  | store c =>
      obtain ⟨call, snapshot, hcall, hphase, rfl⟩ := act_store.mp hu
      have hcarries := h.calls call (List.mem_of_getElem? hcall)
      rw [UpdateCall.Carries, hphase] at hcarries
      have hnext : P (call.op.apply snapshot) := happly snapshot call.op hcarries.2 hcarries.1
      have hmoved : Everywhere P Q (s.setPhase c (.stored snapshot (call.op.apply snapshot)
          (call.op.run snapshot).2 s.clock)) := h.setPhase fun _ _ => hnext
      refine ⟨hmoved.saved, fun copy hcopy => ?_, hmoved.calls⟩
      rcases List.mem_or_eq_of_mem_set hcopy with hcopy | rfl
      · exact h.wrappers copy hcopy
      · exact hnext
  | write c =>
      obtain ⟨snapshot, next, res, storedAt, hphase, rfl⟩ := act_write.mp hu
      obtain ⟨call, hcall, hstored⟩ := Sys.phase?_eq_some.mp hphase
      have hcarries := h.calls call (List.mem_of_getElem? hcall)
      rw [UpdateCall.Carries, hstored] at hcarries
      have hmoved : Everywhere P Q (s.setPhase c (.written next res storedAt)) :=
        h.setPhase fun _ _ => trivial
      exact ⟨hcarries, hmoved.wrappers, hmoved.calls⟩
  | failWrite c =>
      obtain ⟨_, _, _, _, _, rfl⟩ := act_failWrite.mp hu
      exact h.setPhase fun _ _ => trivial
  | ret c =>
      obtain ⟨_, _, _, _, rfl⟩ := act_ret.mp hu
      exact h.setPhase fun _ _ => trivial

/-- No update puts a second entry of an id in the list. -/
theorem nodup_step (h : Everywhere (fun state => state.ids.Nodup) (fun _ => True) s) {a : Action}
    (hstep : Store.step s a = some t) :
    Everywhere (fun state => state.ids.Nodup) (fun _ => True) t := by
  refine h.step List.nodup_nil (fun state op hstate _ => ?_) (fun _ _ _ => trivial) hstep
  cases op with
  | setProxy proxy => exact State.nodup_ids_setProxy hstate
  | removeProxy id => exact State.nodup_ids_removeProxy hstate

end Everywhere

end DatumConnect.Proxies.Store
