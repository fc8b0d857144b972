import DatumConnect.Proxies.Store
/-!
# One file, many instances

Each instance rewrites the whole file from the copy it holds, so an update made
through one instance survives the next write made through another only while
that other instance's copy is up to date.
-/

namespace DatumConnect.Proxies.Store

open DatumConnect.Lib

/-- Before any instance is loaded. -/
def Sys.fresh (file : Option State) : Sys := { file, wrappers := [] }

/-- The state file is the result of applying all the calls in an order in which
no call comes after one that was made only after it had returned. -/
def Serialised (base : State) (s : Sys) : Prop :=
  ∃ order, Serial.Order Update.apply s.op s.span (· < s.calls.length) base s.saved order

/-- The list an update worked from is still the file's when it writes, and
`load_state` writes the empty default only while nothing has been saved. -/
def UpToDate (s : Sys) : Action → Prop
  | .openEnd k => s.opening[k]? = some false → s.saved = {}
  | .write c =>
      match s.phase? c with
      | some (.stored snapshot _ _ _) => s.saved = snapshot
      | _ => True
  | _ => True

instance (s : Sys) (a : Action) : Decidable (UpToDate s a) := by
  unfold UpToDate
  split
  · infer_instance
  · split <;> infer_instance
  · infer_instance

/-- What every run under `UpToDate` preserves: the calls that have written the
file serialise to its contents. -/
structure SharedInv (base : State) (s : Sys) : Prop where
  serial : ∃ order, Serial.Order Update.apply s.op s.span s.Written base s.saved order
  next_eq : ∀ c snapshot next res storedAt,
    s.phase? c = some (.stored snapshot next res storedAt) →
      next = Update.apply snapshot (s.op c)
  invoked_lt : ∀ call ∈ s.calls, call.invokedAt < s.clock

namespace SharedInv

theorem fresh (file : Option State) :
    SharedInv (file.getD {}) (Sys.fresh file) where
  serial := by
    refine ⟨[], Serial.Order.nil _ ?_⟩
    rintro c ⟨phase, hphase, _⟩
    simp [Sys.fresh, Sys.phase?] at hphase
  next_eq := by simp [Sys.fresh, Sys.phase?]
  invoked_lt := by simp [Sys.fresh]

variable {base : State} {s t : Sys} {c : Nat}

theorem invokedAt_lt (h : SharedInv base s) {d : Nat} (hd : s.Written d) :
    (s.span d).invokedAt < s.clock := by
  obtain ⟨phase, hphase, _⟩ := hd
  obtain ⟨call, hcall, _⟩ := Sys.phase?_eq_some.mp hphase
  have hlt := h.invoked_lt call (List.mem_of_getElem? hcall)
  simpa [Sys.span, hcall] using hlt

theorem tick (h : SharedInv base s) : SharedInv base s.tick where
  serial := h.serial
  next_eq := h.next_eq
  invoked_lt call hcall := Nat.lt_succ_of_lt (h.invoked_lt call hcall)

/-- Only the calls, the clock and the saved list matter. -/
theorem of_eq (h : SharedInv base s) (hcalls : t.calls = s.calls)
    (hsaved : t.saved = s.saved) (hclock : t.clock = s.clock) : SharedInv base t := by
  have hphase : t.phase? = s.phase? := by
    funext c
    rw [Sys.phase?, Sys.phase?, hcalls]
  have hop : t.op = s.op := by
    funext c
    rw [Sys.op, Sys.op, hcalls]
  have hspan : t.span = s.span := by
    funext c
    rw [Sys.span, Sys.span, hcalls, hphase]
  refine ⟨?_, ?_, ?_⟩
  · have hwritten : t.Written = s.Written := by
      funext c
      rw [Sys.Written, Sys.Written, hphase]
    rw [hop, hspan, hwritten, hsaved]
    exact h.serial
  · rw [hphase, hop]
    exact h.next_eq
  · rw [hcalls, hclock]
    exact h.invoked_lt

theorem setPhase_invoked_lt (h : SharedInv base s) (phase : Phase) :
    ∀ call ∈ (s.setPhase c phase).calls, call.invokedAt < s.clock := by
  intro call hcall
  obtain ⟨d, hd⟩ := List.mem_iff_getElem?.mp hcall
  rw [Sys.setPhase_getElem?, Option.map_eq_some_iff] at hd
  obtain ⟨old, hold, rfl⟩ := hd
  have hlt := h.invoked_lt old (List.mem_of_getElem? hold)
  split <;> exact hlt

/-- A call moves on without writing the file; if it returns, it returns now. -/
theorem setPhase (h : SharedInv base s) {old : Phase} (phase : Phase)
    (hold : s.phase? c = some old) (hwritten : phase.hasWritten = old.hasWritten)
    (hret : ∀ at_ ∈ phase.returnedAt, s.clock ≤ at_)
    (hnext : ∀ snapshot next res storedAt,
      phase = .stored snapshot next res storedAt → next = Update.apply snapshot (s.op c)) :
    SharedInv base (s.setPhase c phase) := by
  have hc := Sys.lt_of_phase?_eq_some hold
  refine ⟨?_, ?_, h.setPhase_invoked_lt phase⟩
  · obtain ⟨order, horder⟩ := h.serial
    refine ⟨order, horder.congr (fun d _ => Sys.setPhase_op s c d phase) ?_ ?_⟩
    · rintro d e hd he ⟨at_, hat, hlt⟩
      rw [Sys.setPhase_invokedAt] at hlt
      by_cases hce : c = e
      · subst hce
        have hnow : s.clock ≤ at_ :=
          hret at_ (by simpa [Sys.span, Sys.setPhase_phase?_self hc] using hat)
        have := h.invokedAt_lt hd
        omega
      · refine ⟨at_, ?_, hlt⟩
        simpa [Sys.span, Sys.setPhase_phase?_of_ne hce] using hat
    · intro d
      by_cases hcd : c = d
      · subst hcd
        simp [Sys.Written, Sys.setPhase_phase?_self hc, hold, hwritten]
      · simp [Sys.Written, Sys.setPhase_phase?_of_ne hcd]
  · intro d snapshot next res storedAt hd
    rw [Sys.setPhase_op]
    by_cases hcd : c = d
    · subst hcd
      rw [Sys.setPhase_phase?_self hc, Option.some.injEq] at hd
      exact hnext snapshot next res storedAt hd
    · rw [Sys.setPhase_phase?_of_ne hcd] at hd
      exact h.next_eq d snapshot next res storedAt hd

/-- A call whose list is still the file's writes: it goes last in the order. -/
theorem write (h : SharedInv base s) {snapshot next : State} {res : Option ProxyState}
    {storedAt : Nat} (hold : s.phase? c = some (.stored snapshot next res storedAt))
    (hfresh : s.saved = snapshot) :
    SharedInv base { s.setPhase c (.written next res storedAt) with file := some next } := by
  have hc := Sys.lt_of_phase?_eq_some hold
  refine ⟨?_, ?_, h.setPhase_invoked_lt _⟩
  · obtain ⟨order, horder⟩ := h.serial
    have hnext : next = Update.apply s.saved (s.op c) := by
      rw [hfresh]
      exact h.next_eq c snapshot next res storedAt hold
    have hlast := horder.snoc (fun d => s.Written d ∨ d = c)
      (c := c)
      (by simp [Sys.Written, hold, Phase.hasWritten])
      (by simp [Sys.span, hold, Phase.returnedAt])
      (fun d => Iff.rfl)
    rw [← hnext] at hlast
    refine ⟨order ++ [c], hlast.congr (fun d _ => Sys.setPhase_op s c d _) ?_ ?_⟩
    · rintro d e hd he ⟨at_, hat, hlt⟩
      refine ⟨at_, ?_, by rwa [← Sys.setPhase_invokedAt s c d (.written next res storedAt)]⟩
      by_cases hce : c = e
      · subst hce
        have hnone : (s.setPhase c (.written next res storedAt)).phase? c =
            some (.written next res storedAt) := Sys.setPhase_phase?_self hc _
        change at_ ∈ ((s.setPhase c (.written next res storedAt)).phase? c).bind
          Phase.returnedAt at hat
        simp [hnone, Phase.returnedAt] at hat
      · have hsame := Sys.setPhase_phase?_of_ne (s := s) hce (.written next res storedAt)
        change at_ ∈ ((s.setPhase c (.written next res storedAt)).phase? e).bind
          Phase.returnedAt at hat
        rwa [hsame] at hat
    · intro d
      by_cases hcd : c = d
      · subst hcd
        have hself := Sys.setPhase_phase?_self hc (.written next res storedAt)
        simp only [or_true, iff_true]
        exact ⟨_, hself, rfl⟩
      · have hsame := Sys.setPhase_phase?_of_ne (s := s) hcd (.written next res storedAt)
        have hd : d ≠ c := fun heq => hcd heq.symm
        simp only [hd, or_false]
        exact exists_congr fun phase => by rw [← hsame]; rfl
  · intro d snapshot' next' res' storedAt' hd
    change (s.setPhase c _).phase? d = _ at hd
    change next' = Update.apply snapshot' ((s.setPhase c _).op d)
    rw [Sys.setPhase_op]
    by_cases hcd : c = d
    · subst hcd
      rw [Sys.setPhase_phase?_self hc] at hd
      cases hd
    · rw [Sys.setPhase_phase?_of_ne hcd] at hd
      exact h.next_eq d snapshot' next' res' storedAt' hd

/-- A new call has done nothing yet. -/
theorem invoke (h : SharedInv base s) (w : Nat) (op : Update) :
    SharedInv base
      { s with
        calls := s.calls ++ [{ wrapper := w, op, invokedAt := s.clock }]
        clock := s.clock + 1 } := by
  set t : Sys := { s with
    calls := s.calls ++ [{ wrapper := w, op, invokedAt := s.clock }]
    clock := s.clock + 1 } with ht
  have hold : ∀ d, d < s.calls.length → t.calls[d]? = s.calls[d]? := fun d hd =>
    List.getElem?_append_left hd
  have hnew : ∀ d phase, t.phase? d = some phase → phase ≠ .invoked →
      d < s.calls.length := by
    intro d phase hphase hne
    by_contra hd
    rw [Sys.phase?, ht, List.getElem?_append_right (by omega)] at hphase
    cases hd0 : d - s.calls.length <;> simp_all
  have hwritten : ∀ d, t.Written d ↔ s.Written d := by
    intro d
    constructor
    · rintro ⟨phase, hphase, hw⟩
      have hd := hnew d phase hphase (by rintro rfl; cases hw)
      exact ⟨phase, by rwa [Sys.phase?, hold d hd] at hphase, hw⟩
    · rintro ⟨phase, hphase, hw⟩
      have hd := Sys.lt_of_phase?_eq_some hphase
      exact ⟨phase, by rwa [Sys.phase?, hold d hd], hw⟩
  have hlt : ∀ d, s.Written d → d < s.calls.length := by
    rintro d ⟨phase, hphase, _⟩
    exact Sys.lt_of_phase?_eq_some hphase
  refine ⟨?_, ?_, ?_⟩
  · obtain ⟨order, horder⟩ := h.serial
    refine ⟨order, horder.congr ?_ ?_ hwritten⟩
    · intro d hd
      rw [Sys.op, Sys.op, hold d (hlt d hd)]
    · intro d e hd he hbefore
      have hspan : ∀ d, s.Written d → t.span d = s.span d := fun d hd => by
        rw [Sys.span, Sys.span, Sys.phase?, Sys.phase?, hold d (hlt d hd)]
      rwa [hspan d hd, hspan e he] at hbefore
  · intro d snapshot next res storedAt hphase
    have hd := hnew d _ hphase (by simp)
    rw [Sys.phase?, hold d hd] at hphase
    rw [Sys.op, hold d hd]
    exact h.next_eq d snapshot next res storedAt hphase
  · intro call hcall
    rcases List.mem_append.mp hcall with hcall | hcall
    · exact Nat.lt_succ_of_lt (h.invoked_lt call hcall)
    · rw [List.mem_singleton.mp hcall]
      exact Nat.lt_succ_self _

theorem step (h : SharedInv base s) {a : Action} (ha : UpToDate s a)
    (hstep : Store.step s a = some t) : SharedInv base t := by
  obtain ⟨u, hu, rfl⟩ := Option.map_eq_some_iff.mp hstep
  cases a with
  | openBegin =>
      obtain ⟨hcalls, hclock, hfile⟩ := act_open (.inl rfl) hu
      refine (h.of_eq hcalls ?_ hclock).tick
      rcases hfile with hfile | ⟨_, k, hk, _⟩
      · rw [Sys.saved, Sys.saved, hfile]
      · cases hk
  | openEnd k =>
      obtain ⟨hcalls, hclock, hfile⟩ := act_open (.inr ⟨k, rfl⟩) hu
      refine (h.of_eq hcalls ?_ hclock).tick
      rcases hfile with hfile | ⟨hfile, k', hk, hfound⟩
      · rw [Sys.saved, Sys.saved, hfile]
      · cases hk
        rw [ha hfound, Sys.saved, hfile]
        rfl
  | invoke w op =>
      obtain ⟨_, rfl⟩ := act_invoke.mp hu
      exact h.invoke w op
  | load c =>
      obtain ⟨call, snapshot, hcall, hphase, _, rfl⟩ := act_load.mp hu
      refine tick (h.setPhase (.loaded snapshot)
        (Sys.phase?_eq_some.mpr ⟨call, hcall, hphase⟩) rfl ?_ ?_)
      · simp [Phase.returnedAt]
      · rintro _ _ _ _ ⟨⟩
  | store c =>
      obtain ⟨call, snapshot, hcall, hphase, rfl⟩ := act_store.mp hu
      have hop : s.op c = call.op := by simp [Sys.op, hcall]
      have hmoved := h.setPhase
        (.stored snapshot (call.op.apply snapshot) (call.op.run snapshot).2 s.clock)
        (Sys.phase?_eq_some.mpr ⟨call, hcall, hphase⟩) rfl (by simp [Phase.returnedAt])
        (by rintro _ _ _ _ ⟨⟩; rw [hop])
      refine tick ?_
      exact hmoved.of_eq rfl rfl rfl
  | write c =>
      obtain ⟨snapshot, next, res, storedAt, hphase, rfl⟩ := act_write.mp hu
      have hfresh : s.saved = snapshot := by simpa [UpToDate, hphase] using ha
      exact (h.write hphase hfresh).tick
  | failWrite c =>
      obtain ⟨snapshot, next, res, storedAt, hphase, rfl⟩ := act_failWrite.mp hu
      refine tick (h.setPhase (.failed storedAt) hphase rfl ?_ ?_)
      · simp [Phase.returnedAt]
      · rintro _ _ _ _ ⟨⟩
  | ret c =>
      obtain ⟨next, res, storedAt, hphase, rfl⟩ := act_ret.mp hu
      refine tick (h.setPhase (.returned next res storedAt s.clock) hphase rfl ?_ ?_)
      · simp [Phase.returnedAt]
      · rintro _ _ _ _ ⟨⟩

/-- With every call returned, the order covers all of them. -/
theorem serialised (h : SharedInv base s) (hret : s.AllReturned) : Serialised base s := by
  obtain ⟨order, horder⟩ := h.serial
  refine ⟨order, horder.nodup, ?_, horder.respects, horder.value_eq⟩
  intro c
  rw [horder.mem_iff, hret.written_iff]

end SharedInv

/-- While no update writes from an outdated copy, the file is, once all calls
have returned `Ok`, the result of a serial order of them. -/
theorem shared_store_serialised (file : Option State) (actions : List Action) (s : Sys)
    (hrun : run (Sys.fresh file) actions = some s)
    (hfresh : Lib.Runs.Meets step UpToDate (Sys.fresh file) actions)
    (hret : s.AllReturned) : Serialised (file.getD {}) s :=
  (Lib.Runs.invariant (fun _ _ _ hinv ha hst => hinv.step ha hst)
    (SharedInv.fresh file) hfresh hrun).serialised hret

def webProxy : ProxyState := ⟨⟨"web", none, ⟨"127.0.0.1", 80⟩⟩, true⟩

def sshProxy : ProxyState := ⟨⟨"ssh", none, ⟨"127.0.0.1", 22⟩⟩, true⟩

/-- Two instances, the second loaded after the first was updated. -/
def loadAfterUpdate : List Action :=
  [.openBegin, .openEnd 0, .invoke 0 (.setProxy webProxy), .load 0, .store 0, .write 0, .ret 0,
    .openBegin, .openEnd 0, .invoke 1 (.setProxy sshProxy), .load 1, .store 1, .write 1, .ret 1]

/-- Two instances loaded from one empty store, then each updated in turn. -/
def loadBeforeUpdate : List Action :=
  [.openBegin, .openEnd 0, .openBegin, .openEnd 0,
    .invoke 0 (.setProxy webProxy), .load 0, .store 0, .write 0, .ret 0,
    .invoke 1 (.setProxy sshProxy), .load 1, .store 1, .write 1, .ret 1]

theorem shared_store_serialised_loadAfterUpdate :
    ∃ s, run (Sys.fresh none) loadAfterUpdate = some s ∧
      s.file = some { proxies := [webProxy, sshProxy] } ∧ Serialised {} s :=
  ⟨_, rfl, rfl, shared_store_serialised none loadAfterUpdate _ rfl (by decide) (by decide)⟩

/-- The second instance's write drops the proxy the first one added. -/
theorem shared_store_loses_update :
    ¬ ∀ (file : Option State) (actions : List Action) (s : Sys),
      run (Sys.fresh file) actions = some s → s.AllReturned → Serialised (file.getD {}) s := by
  intro hall
  obtain ⟨order, horder⟩ := hall none loadBeforeUpdate _ rfl (by decide)
  exact absurd horder.value_mem (by decide)

end DatumConnect.Proxies.Store
