import DatumConnect.Proxies.Shared
/-!
# Clones of one wrapper

Updates made through clones of one `StateWrapper` share its copy.  One is lost
when two of them load the same copy, and the file is left behind when two file
writes finish in the other order than their stores.
-/

namespace DatumConnect.Proxies.Store

open DatumConnect.Lib

/-- One wrapper, just loaded from the file. -/
def Sys.loaded (state : State) : Sys := { file := some state, wrappers := [state] }

/-- The wrapper holds the result of every update, once each in some order, and
the file holds the same. -/
def AllKept (base : State) (s : Sys) : Prop :=
  ∃ order : List Nat, order.Perm (List.range s.calls.length) ∧
    s.wrappers = [Serial.replay Update.apply base (order.map s.op)] ∧
    s.file = s.wrappers.head?

/-- No other update has been stored since this one loaded the copy it changes,
and no update stored later has reached the file before it. -/
def InTurn (s : Sys) : Action → Prop
  | .store c =>
      match s.calls[c]?, s.phase? c with
      | some call, some (.loaded snapshot) => s.wrappers[call.wrapper]? = some snapshot
      | _, _ => True
  | .write c =>
      match s.phase? c with
      | some (.stored _ _ _ storedAt) =>
          ∀ call ∈ s.calls, call.phase.hasWritten = true →
            ∀ at_ ∈ call.phase.storedAt, at_ < storedAt
      | _ => True
  | _ => True

instance (s : Sys) (a : Action) : Decidable (InTurn s a) := by
  match a with
  | .store c =>
      dsimp only [InTurn]
      match s.calls[c]?, s.phase? c with
      | some call, some (.loaded snapshot) =>
          dsimp only
          infer_instance
      | none, _ | some _, none | some _, some .invoked | some _, some (.stored _ _ _ _)
      | some _, some (.written _ _ _) | some _, some (.returned _ _ _ _)
      | some _, some (.failed _) => exact instDecidableTrue
  | .write c =>
      dsimp only [InTurn]
      match s.phase? c with
      | some (.stored _ _ _ storedAt) =>
          dsimp only
          infer_instance
      | none | some .invoked | some (.loaded _) | some (.written _ _ _)
      | some (.returned _ _ _ _) | some (.failed _) => exact instDecidableTrue
  | .openBegin | .openEnd _ | .invoke _ _ | .load _ | .failWrite _ | .ret _ =>
      exact instDecidableTrue

/-- When call `c` changed the wrapper's copy, if it has. -/
def Sys.storedAt (s : Sys) (c : Nat) : Option Nat := (s.phase? c).bind Phase.storedAt

/-- What every run under `InTurn` preserves: the stored updates, in the order of
their stores, make up the copy, and a prefix of them makes up the file. -/
structure CloneInv (base : State) (s : Sys) (order : List Nat) (saved : Nat) : Prop where
  opening_nil : s.opening = []
  nodup : order.Nodup
  mem_iff : ∀ c, c ∈ order ↔ (s.storedAt c).isSome = true
  wrappers_eq : s.wrappers = [Serial.replay Update.apply base (order.map s.op)]
  saved_le : saved ≤ order.length
  file_eq : s.file = some (Serial.replay Update.apply base ((order.take saved).map s.op))
  unsaved : ∀ c ∈ order.drop saved, ¬ s.Written c
  increasing : order.Pairwise fun c d =>
    ∀ a ∈ s.storedAt c, ∀ b ∈ s.storedAt d, a < b
  stored_lt : ∀ c, ∀ a ∈ s.storedAt c, a < s.clock
  next_eq : ∀ before c after snapshot next res storedAt,
    order = before ++ c :: after →
    s.phase? c = some (.stored snapshot next res storedAt) →
      next = Serial.replay Update.apply base ((before ++ [c]).map s.op)

namespace CloneInv

variable {base : State} {s t : Sys} {c : Nat} {order : List Nat} {saved : Nat}

theorem loaded (state : State) : CloneInv state (Sys.loaded state) [] 0 where
  opening_nil := rfl
  nodup := List.nodup_nil
  mem_iff c := by simp [Sys.storedAt, Sys.phase?, Sys.loaded]
  wrappers_eq := rfl
  saved_le := Nat.zero_le _
  file_eq := rfl
  unsaved := by simp
  increasing := List.Pairwise.nil
  stored_lt := by simp [Sys.storedAt, Sys.phase?, Sys.loaded]
  next_eq := by simp

theorem tick (h : CloneInv base s order saved) : CloneInv base s.tick order saved :=
  { h with stored_lt := fun c a ha => Nat.lt_succ_of_lt (h.stored_lt c a ha) }

theorem mem_of_stored (h : CloneInv base s order saved) {snapshot next : State}
    {res : Option ProxyState} {storedAt : Nat}
    (hphase : s.phase? c = some (.stored snapshot next res storedAt)) : c ∈ order :=
  (h.mem_iff c).mpr (by simp [Sys.storedAt, hphase, Phase.storedAt])

/-- Nothing is stored, and the file is not written. -/
theorem of_eq (h : CloneInv base s order saved) (hopening : t.opening = s.opening)
    (hwrappers : t.wrappers = s.wrappers) (hfile : t.file = s.file)
    (hclock : t.clock = s.clock) (hop : ∀ d ∈ order, t.op d = s.op d)
    (hstored : ∀ d, t.storedAt d = s.storedAt d)
    (hwritten : ∀ d ∈ order, t.Written d → s.Written d)
    (hphase : ∀ d snapshot next res storedAt,
      t.phase? d = some (.stored snapshot next res storedAt) →
        s.phase? d = some (.stored snapshot next res storedAt)) :
    CloneInv base t order saved := by
  have hmap : ∀ ds : List Nat, (∀ d ∈ ds, d ∈ order) → ds.map t.op = ds.map s.op := fun ds hds =>
    List.map_congr_left fun d hd => hop d (hds d hd)
  refine ⟨hopening.trans h.opening_nil, h.nodup, ?_, ?_, h.saved_le, ?_, ?_, ?_, ?_, ?_⟩
  · intro d
    rw [hstored, h.mem_iff]
  · rw [hwrappers, h.wrappers_eq, hmap order fun _ hd => hd]
  · rw [hfile, h.file_eq, hmap _ fun _ hd => List.mem_of_mem_take hd]
  · intro d hd hw
    exact h.unsaved d hd (hwritten d (List.mem_of_mem_drop hd) hw)
  · simpa only [hstored] using h.increasing
  · intro d
    rw [hstored, hclock]
    exact h.stored_lt d
  · intro before d after snapshot next res storedAt horder hd
    rw [h.next_eq before d after snapshot next res storedAt horder (hphase _ _ _ _ _ hd)]
    congr 1
    refine (hmap _ fun e he => ?_).symm
    rw [horder]
    simp only [List.mem_append, List.mem_cons] at he ⊢
    tauto

/-- A call moves on without storing or writing. -/
theorem setPhase (h : CloneInv base s order saved) {old : Phase} (phase : Phase)
    (hold : s.phase? c = some old) (hstored : phase.storedAt = old.storedAt)
    (hwritten : phase.hasWritten = true → old.hasWritten = true)
    (hphase : ∀ snapshot next res storedAt, phase ≠ .stored snapshot next res storedAt) :
    CloneInv base (s.setPhase c phase) order saved := by
  have hself := Sys.setPhase_phase?_self (Sys.lt_of_phase?_eq_some hold) phase
  refine h.of_eq rfl rfl rfl rfl (fun d _ => Sys.setPhase_op s c d phase) ?_ ?_ ?_
  · intro d
    by_cases hcd : c = d
    · subst hcd
      simp [Sys.storedAt, hself, hold, hstored]
    · rw [Sys.storedAt, Sys.storedAt, Sys.setPhase_phase?_of_ne hcd]
  · rintro d _ ⟨phase', hphase', hw⟩
    by_cases hcd : c = d
    · subst hcd
      rw [hself, Option.some.injEq] at hphase'
      exact ⟨old, hold, hwritten (hphase' ▸ hw)⟩
    · exact ⟨phase', Sys.setPhase_phase?_of_ne hcd phase ▸ hphase', hw⟩
  · intro d snapshot next res storedAt hd
    by_cases hcd : c = d
    · subst hcd
      rw [hself, Option.some.injEq] at hd
      exact absurd hd (hphase snapshot next res storedAt)
    · rwa [Sys.setPhase_phase?_of_ne hcd] at hd

theorem invoke (h : CloneInv base s order saved) (w : Nat) (op : Update) :
    CloneInv base
      { s with calls := s.calls ++ [{ wrapper := w, op, invokedAt := s.clock }] }
      order saved := by
  have hold : ∀ d, d < s.calls.length →
      (s.calls ++ [{ wrapper := w, op, invokedAt := s.clock }])[d]? = s.calls[d]? :=
    fun d hd => List.getElem?_append_left hd
  have hnew : ∀ d : Nat, (s.calls ++ [{ wrapper := w, op, invokedAt := s.clock }])[d]? = s.calls[d]? ∨
      s.calls[d]? = none ∧
        ∀ call : UpdateCall, (s.calls ++ [{ wrapper := w, op, invokedAt := s.clock }])[d]? =
          some call → call.phase = .invoked := by
    intro d
    by_cases hd : d < s.calls.length
    · exact .inl (hold d hd)
    · refine .inr ⟨List.getElem?_eq_none (by omega), ?_⟩
      intro call hcall
      rw [List.getElem?_append_right (by omega)] at hcall
      rw [List.mem_singleton.mp (List.mem_of_getElem? hcall)]
  refine h.of_eq rfl rfl rfl rfl ?_ ?_ ?_ ?_
  · intro d hd
    have hlt : d < s.calls.length := by
      have hsome := (h.mem_iff d).mp hd
      by_contra hge
      simp [Sys.storedAt, Sys.phase?, List.getElem?_eq_none (Nat.le_of_not_lt hge)] at hsome
    simp only [Sys.op, hold d hlt]
  · intro d
    simp only [Sys.storedAt, Sys.phase?]
    rcases hnew d with heq | ⟨hnone, hinvoked⟩
    · rw [heq]
    · rw [hnone]
      cases hcall : (s.calls ++ [{ wrapper := w, op, invokedAt := s.clock }])[d]? with
      | none => rfl
      | some call => simp [hinvoked call hcall, Phase.storedAt]
  · rintro d _ ⟨phase, hphase, hw⟩
    obtain ⟨call, hcall, rfl⟩ := Sys.phase?_eq_some.mp hphase
    rcases hnew d with heq | ⟨_, hinvoked⟩
    · exact ⟨_, Sys.phase?_eq_some.mpr ⟨call, heq ▸ hcall, rfl⟩, hw⟩
    · rw [hinvoked call hcall] at hw
      cases hw
  · intro d snapshot next res storedAt hphase
    obtain ⟨call, hcall, hcallPhase⟩ := Sys.phase?_eq_some.mp hphase
    rcases hnew d with heq | ⟨_, hinvoked⟩
    · exact Sys.phase?_eq_some.mpr ⟨call, heq ▸ hcall, hcallPhase⟩
    · rw [hinvoked call hcall] at hcallPhase
      cases hcallPhase

/-- The copy a call loaded is still the wrapper's when it stores: the call goes
last in the order. -/
theorem store (h : CloneInv base s order saved) {call : UpdateCall} {snapshot : State}
    {res : Option ProxyState} (hcall : s.calls[c]? = some call)
    (hphase : call.phase = .loaded snapshot)
    (hcurrent : s.wrappers[call.wrapper]? = some snapshot) :
    CloneInv base
      (Sys.tick { s.setPhase c (.stored snapshot (call.op.apply snapshot) res s.clock) with
        wrappers := s.wrappers.set call.wrapper (call.op.apply snapshot) })
      (order ++ [c]) saved := by
  set t := Sys.tick { s.setPhase c (.stored snapshot (call.op.apply snapshot) res s.clock) with
    wrappers := s.wrappers.set call.wrapper (call.op.apply snapshot) } with ht
  have hold : s.phase? c = some (.loaded snapshot) := Sys.phase?_eq_some.mpr ⟨call, hcall, hphase⟩
  have hself : t.phase? c =
      some (.stored snapshot (call.op.apply snapshot) res s.clock) :=
    Sys.setPhase_phase?_self (Sys.lt_of_phase?_eq_some hold) _
  have hother : ∀ d, c ≠ d → t.phase? d = s.phase? d := fun d hcd =>
    Sys.setPhase_phase?_of_ne hcd _
  have hop : t.op = s.op := funext fun d => Sys.setPhase_op s c d _
  have hopc : s.op c = call.op := by simp [Sys.op, hcall]
  have hfresh : c ∉ order := by
    rw [h.mem_iff, Sys.storedAt, hold]
    simp [Phase.storedAt]
  have hcopy : call.wrapper = 0 ∧ Serial.replay Update.apply base (order.map s.op) = snapshot := by
    rw [h.wrappers_eq] at hcurrent
    cases hw : call.wrapper <;> simp_all
  have hnext : call.op.apply snapshot =
      Serial.replay Update.apply base ((order ++ [c]).map s.op) := by
    rw [List.map_append, List.map_singleton, Serial.replay_snoc, hcopy.2, hopc]
  have hstored : ∀ d ∈ order, t.storedAt d = s.storedAt d := fun d hd => by
    rw [Sys.storedAt, Sys.storedAt, hother d fun hcd => hfresh (hcd ▸ hd)]
  have hstoredc : t.storedAt c = some s.clock := by
    rw [Sys.storedAt, hself]
    rfl
  refine ⟨h.opening_nil, ?_, ?_, ?_, ?_, ?_, ?_, ?_, ?_, ?_⟩
  · rw [List.nodup_append_comm, List.singleton_append, List.nodup_cons]
    exact ⟨hfresh, h.nodup⟩
  · intro d
    rw [List.mem_append, List.mem_singleton]
    by_cases hcd : c = d
    · subst hcd
      simp [hstoredc]
    · have hdc : d ≠ c := fun heq => hcd heq.symm
      simp only [hdc, or_false, h.mem_iff, Sys.storedAt, hother d hcd]
  · rw [hop, ← hnext]
    change s.wrappers.set call.wrapper _ = _
    rw [h.wrappers_eq, hcopy.1]
    rfl
  · rw [List.length_append]
    exact Nat.le_add_right_of_le h.saved_le
  · rw [List.take_append_of_le_length h.saved_le, hop]
    exact h.file_eq
  · intro d hd
    rw [List.drop_append_of_le_length h.saved_le, List.mem_append, List.mem_singleton] at hd
    rintro ⟨phase, hphase', hw⟩
    rcases hd with hd | rfl
    · have hcd : c ≠ d := fun heq => hfresh (heq ▸ List.mem_of_mem_drop hd)
      exact h.unsaved d hd ⟨phase, hother d hcd ▸ hphase', hw⟩
    · rw [hself, Option.some.injEq] at hphase'
      rw [← hphase'] at hw
      cases hw
  · rw [List.pairwise_append]
    refine ⟨h.increasing.imp_of_mem ?_, List.pairwise_singleton _ _, ?_⟩
    · intro d e hd he hde
      rwa [hstored d hd, hstored e he]
    · intro d hd e he a ha b hb
      rw [List.mem_singleton.mp he, hstoredc, Option.mem_some_iff] at hb
      rw [← hb]
      exact h.stored_lt d a (hstored d hd ▸ ha)
  · intro d a ha
    by_cases hcd : c = d
    · subst hcd
      rw [hstoredc, Option.mem_some_iff] at ha
      exact ha ▸ Nat.lt_succ_self _
    · rw [Sys.storedAt, hother d hcd] at ha
      exact Nat.lt_succ_of_lt (h.stored_lt d a ha)
  · intro before d after snapshot' next res' storedAt horder hd
    rw [hop]
    rcases List.eq_nil_or_concat after with rfl | ⟨after', e, rfl⟩
    · obtain ⟨rfl, hcd⟩ := List.append_inj' horder rfl
      cases hcd
      rw [hself] at hd
      cases hd
      exact hnext
    · rw [List.concat_eq_append, ← List.cons_append, ← List.append_assoc] at horder
      obtain ⟨horder, hce⟩ := List.append_inj' horder rfl
      have hd' : d ∈ order := by simp [horder]
      rw [hother d fun hcd => hfresh (hcd ▸ hd')] at hd
      exact h.next_eq before d after' snapshot' next res' storedAt horder hd

/-- No later store has been written: the file now holds the calls up to this one. -/
theorem write (h : CloneInv base s order saved) {snapshot next : State}
    {res : Option ProxyState} {storedAt : Nat}
    (hphase : s.phase? c = some (.stored snapshot next res storedAt))
    (hinTurn : InTurn s (.write c)) :
    ∃ saved', CloneInv base
      { s.setPhase c (.written next res storedAt) with file := some next } order saved' := by
  obtain ⟨before, after, horder⟩ := List.append_of_mem (h.mem_of_stored hphase)
  set t : Sys := { s.setPhase c (.written next res storedAt) with file := some next } with ht
  have hself : t.phase? c = some (.written next res storedAt) :=
    Sys.setPhase_phase?_self (Sys.lt_of_phase?_eq_some hphase) _
  have hother : ∀ d, c ≠ d → t.phase? d = s.phase? d := fun d hcd =>
    Sys.setPhase_phase?_of_ne hcd _
  have hop : t.op = s.op := funext fun d => Sys.setPhase_op s c d _
  have hstored : t.storedAt = s.storedAt := by
    funext d
    by_cases hcd : c = d
    · subst hcd
      rw [Sys.storedAt, Sys.storedAt, hself, hphase]
      rfl
    · rw [Sys.storedAt, Sys.storedAt, hother d hcd]
  have hnodup := h.nodup
  have hincreasing := h.increasing
  rw [horder] at hnodup hincreasing
  refine ⟨before.length + 1, h.opening_nil, h.nodup, ?_, ?_, ?_, ?_, ?_, ?_, ?_, ?_⟩
  · rw [hstored]
    exact h.mem_iff
  · rw [hop]
    exact h.wrappers_eq
  · rw [horder, List.length_append, List.length_cons]
    omega
  · have htake : order.take (before.length + 1) = before ++ [c] := by
      rw [horder, List.take_length_add_append, List.take_succ_cons, List.take_zero]
    rw [htake, hop, ← h.next_eq before c after snapshot next res storedAt horder hphase]
  · intro d hd
    have hdrop : order.drop (before.length + 1) = after := by
      rw [horder, List.drop_length_add_append, List.drop_succ_cons, List.drop_zero]
    rw [hdrop] at hd
    have hcd : c ≠ d := by
      rintro rfl
      exact (List.nodup_cons.mp (List.nodup_append.mp hnodup).2.1).1 hd
    rintro ⟨phase, hd', hw⟩
    rw [hother d hcd] at hd'
    -- a written `d` was stored before `c`, but the order has it after `c`
    obtain ⟨call, hcall, rfl⟩ := Sys.phase?_eq_some.mp hd'
    obtain ⟨at_, hat⟩ : ∃ at_, call.phase.storedAt = some at_ := by
      cases hcp : call.phase <;> simp_all [Phase.hasWritten, Phase.storedAt]
    have hlt : at_ < storedAt := by
      simp only [InTurn, hphase] at hinTurn
      exact hinTurn call (List.mem_of_getElem? hcall) hw at_ hat
    have hgt : storedAt < at_ := by
      have hlater := (List.pairwise_append.mp hincreasing).2.1
      refine (List.pairwise_cons.mp hlater).1 d hd storedAt ?_ at_ ?_
      · simp [Sys.storedAt, hphase, Phase.storedAt]
      · simp [Sys.storedAt, hd', hat]
    omega
  · rw [hstored]
    exact h.increasing
  · rw [hstored]
    exact h.stored_lt
  · intro before' d after' snapshot' next' res' storedAt' horder' hd
    by_cases hcd : c = d
    · subst hcd
      rw [hself] at hd
      cases hd
    · rw [hother d hcd] at hd
      rw [hop]
      exact h.next_eq before' d after' snapshot' next' res' storedAt' horder' hd

/-- One step of an update on a clone; no further wrapper is being loaded. -/
theorem step (h : CloneInv base s order saved) {a : Action} (ha : InTurn s a)
    (hclone : a ≠ .openBegin) (hstep : Store.step s a = some t) :
    ∃ order' saved', CloneInv base t order' saved' := by
  obtain ⟨u, hu, rfl⟩ := Option.map_eq_some_iff.mp hstep
  cases a with
  | openBegin => exact absurd rfl hclone
  | openEnd k => simp [act, h.opening_nil] at hu
  | invoke w op =>
      obtain ⟨_, rfl⟩ := act_invoke.mp hu
      exact ⟨order, saved, (h.invoke w op).tick⟩
  | load c =>
      obtain ⟨call, snapshot, hcall, hphase, _, rfl⟩ := act_load.mp hu
      refine ⟨order, saved, (h.setPhase (.loaded snapshot)
        (Sys.phase?_eq_some.mpr ⟨call, hcall, hphase⟩) rfl ?_ ?_).tick⟩
      · simp [Phase.hasWritten]
      · simp
  | store c =>
      obtain ⟨call, snapshot, hcall, hphase, rfl⟩ := act_store.mp hu
      have hold : s.phase? c = some (.loaded snapshot) :=
        Sys.phase?_eq_some.mpr ⟨call, hcall, hphase⟩
      have hcurrent : s.wrappers[call.wrapper]? = some snapshot := by
        simpa [InTurn, hcall, hold] using ha
      exact ⟨order ++ [c], saved, h.store hcall hphase hcurrent⟩
  | write c =>
      obtain ⟨snapshot, next, res, storedAt, hphase, rfl⟩ := act_write.mp hu
      obtain ⟨saved', hwrite⟩ := h.write hphase ha
      exact ⟨order, saved', hwrite.tick⟩
  | failWrite c =>
      obtain ⟨snapshot, next, res, storedAt, hphase, rfl⟩ := act_failWrite.mp hu
      refine ⟨order, saved, (h.setPhase (.failed storedAt) hphase rfl ?_ ?_).tick⟩
      · simp [Phase.hasWritten]
      · simp
  | ret c =>
      obtain ⟨next, res, storedAt, hphase, rfl⟩ := act_ret.mp hu
      refine ⟨order, saved, (h.setPhase (.returned next res storedAt s.clock) hphase rfl ?_ ?_).tick⟩
      · simp [Phase.hasWritten]
      · simp

/-- With every call returned, all are in the order and none is missing from the
file. -/
theorem allKept (h : CloneInv base s order saved) (hret : s.AllReturned) : AllKept base s := by
  have hcovers : ∀ c, c ∈ order ↔ c < s.calls.length := by
    intro c
    rw [h.mem_iff, ← hret.written_iff]
    constructor
    · intro hsome
      rw [Sys.storedAt] at hsome
      obtain ⟨phase, hphase⟩ := Option.isSome_iff_exists.mp (Option.isSome_of_isSome_bind hsome)
      exact (hret.written_iff c).mpr (Sys.lt_of_phase?_eq_some hphase)
    · rintro ⟨phase, hphase, hw⟩
      rw [Sys.storedAt, hphase]
      cases phase <;> simp_all [Phase.hasWritten, Phase.storedAt]
  have hsaved : order.drop saved = [] := by
    refine List.eq_nil_iff_forall_not_mem.mpr fun c hc => ?_
    exact h.unsaved c hc ((hret.written_iff c).mpr ((hcovers c).mp (List.mem_of_mem_drop hc)))
  have htake : order.take saved = order := by
    have hlen := List.drop_eq_nil_iff.mp hsaved
    exact List.take_of_length_le hlen
  refine ⟨order, ?_, h.wrappers_eq, ?_⟩
  · rw [List.perm_ext_iff_of_nodup h.nodup List.nodup_range]
    intro c
    rw [hcovers, List.mem_range]
  · rw [h.file_eq, htake, h.wrappers_eq]
    rfl

end CloneInv

/-- While updates store and write in turn, the wrapper and the file hold, once
all calls have returned `Ok`, the result of every update once in some order. -/
theorem clone_updates_kept (state : State) (actions : List Action) (s : Sys)
    (hclones : Action.openBegin ∉ actions) (hrun : run (Sys.loaded state) actions = some s)
    (hinTurn : Runs.Meets step InTurn (Sys.loaded state) actions) (hret : s.AllReturned) :
    AllKept state s := by
  have hsteps : Runs.Meets step (fun s a => InTurn s a ∧ a ≠ .openBegin) _ actions :=
    hinTurn.and_mem fun a ha heq => hclones (heq ▸ ha)
  have hstep : ∀ u a v, (∃ order saved, CloneInv state u order saved) →
      InTurn u a ∧ a ≠ .openBegin → step u a = some v →
        ∃ order saved, CloneInv state v order saved := by
    rintro u a v ⟨order, saved, h⟩ ⟨ha, hclone⟩ hstep
    exact h.step ha hclone hstep
  obtain ⟨order, saved, h⟩ :=
    Runs.invariant hstep ⟨[], 0, CloneInv.loaded state⟩ hsteps hrun
  exact h.allKept hret

/-- Two overlapping updates: the second loads and stores while the first is still
writing the file. -/
def storeThenStore : List Action :=
  [.invoke 0 (.setProxy webProxy), .invoke 0 (.setProxy sshProxy), .load 0, .store 0,
    .load 1, .store 1, .write 0, .write 1, .ret 1, .ret 0]

/-- The same two updates, the file writes finishing the other way round. -/
def writesReordered : List Action :=
  [.invoke 0 (.setProxy webProxy), .invoke 0 (.setProxy sshProxy), .load 0, .store 0,
    .load 1, .store 1, .write 1, .write 0, .ret 1, .ret 0]

theorem clone_updates_kept_storeThenStore :
    ∃ s, run (Sys.loaded {}) storeThenStore = some s ∧
      s.file = some { proxies := [webProxy, sshProxy] } ∧ AllKept {} s :=
  ⟨_, rfl, rfl, clone_updates_kept {} storeThenStore _ (by decide) rfl (by decide) (by decide)⟩

/-- The last write is of the older list: the file lacks the second proxy, which
the wrapper has. -/
theorem clone_updates_left_behind :
    ¬ ∀ (state : State) (actions : List Action) (s : Sys),
      Action.openBegin ∉ actions → run (Sys.loaded state) actions = some s →
        s.AllReturned → AllKept state s := by
  intro hall
  obtain ⟨order, _, _, hfile⟩ := hall {} writesReordered _ (by decide) rfl (by decide)
  exact absurd hfile (by decide)

end DatumConnect.Proxies.Store
