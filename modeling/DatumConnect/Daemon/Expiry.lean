import DatumConnect.Daemon.Busy
/-!
# Auto-expiry

A tunnel is live from where a start has written its advertisement to where a
disable has deleted it.  The sweep finds what is in `running`, so what is live has
to be there, or be in the hands of a start or a stop.
-/

namespace DatumConnect.Daemon

open DatumConnect.Lib
open DatumConnect.Lib.Prog (Protocol Follows)
open DatumConnect.Lib.Pool

/-- The operations that turn tunnels on and off. -/
def Op.switches : Op → Bool
  | .start _ _ _ | .stop _ _ | .sweep => true
  | _ => false

/-- Live, and not to be found by the sweep. -/
def Unlisted (s : State) (id : String) : Prop := id ∈ s.live ∧ id ∉ s.running

instance (s : State) (id : String) : Decidable (Unlisted s id) := by
  unfold Unlisted
  infer_instance

/-- The call is one of a method that its reply makes fail. -/
def replyFails : (c : Call) → c.Reply → Bool
  | .service method c, r => fails method c r
  | _, _ => false

/-- No call fails that leaves the tunnel of its operation live and not in `running`. -/
def Answered (s : State) (client : Operation) (c : Call) (answer : Answer) : Prop :=
  replyFails c (s.handle c answer).2 = true →
    ∀ id ∈ client.place.held, ¬ Unlisted (s.handle c answer).1 id

/-- Only starts, stops and sweeps run; none fails, or is dropped, where its tunnel is
live and not in `running`. -/
def Unbroken (w : Operations) : Act Op Answer → Prop
  | .spawn op => op.switches = true
  | .step i answer => System.OnCall Answered w (.step i answer)
  | .drop i => ∀ client ∈ w.clients[i]?, ∀ id ∈ client.place.held, ¬ Unlisted w.state id

instance (s : State) (client : Operation) (c : Call) (answer : Answer) :
    Decidable (Answered s client c answer) := by
  unfold Answered
  infer_instance

instance (w : Operations) (act : Act Op Answer) : Decidable (Unbroken w act) := by
  match act with
  | .spawn _ | .step _ _ | .drop _ =>
      dsimp only [Unbroken]
      infer_instance

/-! ## What a call does to live tunnels -/

variable {app : AppState} {g : Place} {s : State} {answer : Answer} {c : Call} {id : String}

/-- The tunnel that a call may leave live and not in `running`. -/
def Call.exposes : Call → Option String
  | .runningRemove id => some id
  | .service (.setEnabled id true) c => if writesAdvertisement c then some id else none
  | _ => none

theorem live_handle (h : id ∈ (s.handle c answer).1.live) :
    id ∈ s.live ∨ c.exposes = some id := by
  unfold State.handle at h
  cases c with
  | service method c =>
      cases method with
      | setEnabled id' enabled =>
          cases enabled with
          | true =>
              simp only [State.serve, State.liveAfter] at h
              split at h
              · rename_i hwritten
                rw [Bool.and_eq_true] at hwritten
                rcases Finset.mem_insert.mp h with rfl | h
                · exact .inr (by simp [Call.exposes, hwritten.1])
                · exact .inl h
              · exact .inl h
          | false =>
              simp only [State.serve, State.liveAfter] at h
              split at h
              · exact .inl (Finset.mem_of_mem_erase h)
              · exact .inl h
      | _ => exact .inl h
  | writeToken id' ttlSeconds =>
      simp only [State.serve] at h
      split at h <;> exact .inl h
  | saveInspectorTarget id' target | removeInspectorTarget id' | saveNote id' note
  | removeNote id' | createTokensDir id' | deleteTokens id' | appendAudit line
  | saveListenKey projectId id' key =>
      simp only [State.serve] at h
      split at h <;> exact .inl h
  | _ => exact .inl h

theorem running_handle (h : id ∉ (s.handle c answer).1.running) :
    id ∉ s.running ∨ c.exposes = some id := by
  unfold State.handle at h
  cases c with
  | runningRemove id' =>
      by_cases hid : id' = id
      · exact .inr (congrArg some hid)
      · exact .inl fun hmem => h (AList.mem_erase.mpr ⟨fun heq => hid heq.symm, hmem⟩)
  | runningInsert id' key service => exact .inl fun hmem => h ((AList.mem_insert _).mpr (.inr hmem))
  | writeToken id' ttlSeconds =>
      simp only [State.serve] at h
      split at h <;> exact .inl h
  | saveInspectorTarget id' target | removeInspectorTarget id' | saveNote id' note
  | removeNote id' | createTokensDir id' | deleteTokens id' | appendAudit line
  | saveListenKey projectId id' key =>
      simp only [State.serve] at h
      split at h <;> exact .inl h
  | _ => exact .inl h

theorem unlisted_handle (h : Unlisted (s.handle c answer).1 id) :
    Unlisted s id ∨ c.exposes = some id := by
  rcases live_handle h.1 with hlive | hexposes
  · rcases running_handle h.2 with hrunning | hexposes
    · exact .inl ⟨hlive, hrunning⟩
    · exact .inr hexposes
  · exact .inr hexposes

/-- Whoever exposes a tunnel has reserved it. -/
theorem held_of_exposes (hallowed : g.Allowed c) (hdeletes : g.deletes = none)
    (h : c.exposes = some id) : g.held = some id := by
  unfold Call.exposes at h
  split at h
  · cases h
    rcases hallowed.binds with hdeleted | ⟨_, hheld⟩
    · rw [hdeletes] at hdeleted
      cases hdeleted
    · exact hheld
  · split at h
    · cases h
      exact hallowed.binds
    · cases h
  · cases h

/-- An operation whose tunnel is live and not in `running` owes it an entry, unless
the call has failed. -/
theorem owing_advance (hallowed : g.Allowed c) (hheld : g.held = some id)
    (howing : Unlisted s id → g.owing = true)
    (hanswered : replyFails c (s.handle c answer).2 = true → ¬ Unlisted (s.handle c answer).1 id)
    (h : Unlisted (s.handle c answer).1 id) :
    (g.advance c (s.handle c answer).2).owing = true := by
  have hok : replyFails c (s.handle c answer).2 = false :=
    Bool.eq_false_iff.mpr fun hfails => hanswered hfails h
  by_cases hbefore : Unlisted s id
  · -- it owes one already, and what would settle that makes the tunnel listed or not live
    have howing := howing hbefore
    cases c with
    | runningRemove id' => exact (congrArg (_ || ·) howing).trans (Bool.or_true _)
    | runningInsert id' key service =>
        have hid : id' = id := Option.some.inj (hallowed.binds.1.symm.trans hheld)
        exact absurd ((AList.mem_insert _).mpr (.inl hid.symm)) h.2
    | service method c =>
        have hok : fails method c (s.handle (.service method c) answer).2 = false := hok
        cases method with
        | getActive id' => simp only [Place.advance, hok, howing, Bool.not_false, Bool.and_self]
        | setEnabled id' enabled =>
            cases enabled with
            | true => simp only [Place.advance, hok, howing, Bool.not_false, Bool.or_true,
                Bool.and_self]
            | false =>
                have hid : id' = id := Option.some.inj (hallowed.binds.symm.trans hheld)
                have hsees : seesNoAdvertisement c
                    (s.handle (.service (.setEnabled id' false) c) answer).2 = false := by
                  refine Bool.eq_false_iff.mpr fun hsees => ?_
                  have hlive : (s.handle (.service (.setEnabled id' false) c) answer).1.live =
                      s.live.erase id' := if_pos (by rw [Bool.or_eq_true]; exact .inl hsees)
                  rw [Unlisted, hlive, hid] at h
                  exact Finset.notMem_erase id s.live h.1
                simp only [Place.advance, hok, hsees, howing, Bool.not_false, Bool.and_self]
        | _ => exact howing
    | _ => exact howing
  · have hexposes := (unlisted_handle h).resolve_left hbefore
    unfold Call.exposes at hexposes
    split at hexposes
    · rename_i id'
      obtain rfl := Option.some.inj hexposes
      have hin : id' ∈ s.running := by
        by_contra hout
        exact hbefore ⟨h.1, hout⟩
      have hremoved : (s.running.lookup id').isSome = true := AList.lookup_isSome.mpr hin
      exact (congrArg (· || _) hremoved).trans (Bool.true_or _)
    · rename_i id' c
      split at hexposes
      · rename_i hwrites
        have hok : fails (.setEnabled id' true) c
            (s.handle (.service (.setEnabled id' true) c) answer).2 = false := hok
        simp only [Place.advance, hok, hwrites, Bool.not_false, Bool.true_or, Bool.and_self]
      · cases hexposes
    · cases hexposes

/-! ## Every run -/

variable {w w' : Operations} {i : Nat} {client : Operation}

/-- Every tunnel that is live is in `running`, or a start or stop in progress has
reserved it. -/
def Kept (w : Operations) : Prop :=
  ∀ id ∈ w.state.live, id ∈ w.state.running ∨ ∃ i, heldBy w i = some id

structure Watched (app : AppState) (w : Operations) : Prop where
  orderly : Orderly app w
  deletes : ∀ (i : Nat) (client : Operation), w.clients[i]? = some client →
    client.place.deletes = none
  held : ∀ id, Unlisted w.state id → ∃ i, heldBy w i = some id
  owing : ∀ (i : Nat) (client : Operation) (id : String), w.clients[i]? = some client →
    heldBy w i = some id → Unlisted w.state id → client.place.owing = true

/-- What a release or a claim leaves unlisted was so before. -/
theorem unlisted_of_claim (hc : c.keepsBusy = false) (h : Unlisted (s.handle c answer).1 id) :
    Unlisted s id := by
  cases c with
  | claimBusy id' => exact h
  | releaseBusy id' => exact h
  | _ => cases hc

/-- A tunnel that is unlisted after a call of its holder is still held by it. -/
theorem Watched.still_held {k : c.Reply → Task (Except Rejection Unit)} (h : Watched app w)
    (hclient : w.clients[i]? = some client) (hprog : client.prog = some (.call c k))
    (hheld : client.place.held = some id) (hunlisted : Unlisted (w.state.handle c answer).1 id) :
    (client.place.advance c (w.state.handle c answer).2).held = some id := by
  have hholds : heldBy w i = some id :=
    (heldBy_of_prog h.orderly.faithful hclient (by simp [hprog])).trans hheld
  have hallowed := h.orderly.faithful.allowed hclient hprog
  cases hc : c.keepsBusy with
  | true => rw [held_advance hc, hheld]
  | false =>
      have hbefore := unlisted_of_claim hc hunlisted
      have howing := h.owing i client id hclient hholds hbefore
      cases c with
      | claimBusy id' =>
          have hnone : client.place.held = none := hallowed.binds
          rw [hnone] at hheld
          cases hheld
      | releaseBusy id' =>
          rw [hallowed.binds.2] at howing
          cases howing
      | _ => cases hc

theorem Watched.held_called {k : c.Reply → Task (Except Rejection Unit)} (h : Watched app w)
    (hclient : w.clients[i]? = some client) (hprog : client.prog = some (.call c k))
    (hheldBy : heldBy (w.called (system app) i client c k answer) = Function.update (heldBy w) i
      (client.place.advance c (w.state.handle c answer).2).held)
    (hunlisted : Unlisted (w.state.handle c answer).1 id) :
    ∃ j, heldBy (w.called (system app) i client c k answer) j = some id := by
  have hholds : heldBy w i = client.place.held :=
    heldBy_of_prog h.orderly.faithful hclient (by simp [hprog])
  have hallowed := h.orderly.faithful.allowed hclient hprog
  have hsome : ∃ j, heldBy w j = some id := by
    rcases unlisted_handle hunlisted with hbefore | hexposes
    · exact h.held id hbefore
    · exact ⟨i, hholds.trans (held_of_exposes hallowed (h.deletes i client hclient) hexposes)⟩
  obtain ⟨j, hj⟩ := hsome
  refine ⟨j, ?_⟩
  rw [hheldBy]
  rcases eq_or_ne j i with rfl | hji
  · rw [Function.update_self]
    exact h.still_held hclient hprog (hholds.symm.trans hj) hunlisted
  · rwa [Function.update_of_ne hji]

theorem Watched.owing_called {k : c.Reply → Task (Except Rejection Unit)} (h : Watched app w)
    (hclient : w.clients[i]? = some client) (hprog : client.prog = some (.call c k))
    (hheldBy : heldBy (w.called (system app) i client c k answer) = Function.update (heldBy w) i
      (client.place.advance c (w.state.handle c answer).2).held)
    (hanswered : Answered w.state client c answer) {j : Nat} {cl : Operation}
    (hcl : (w.called (system app) i client c k answer).clients[j]? = some cl)
    (hj : heldBy (w.called (system app) i client c k answer) j = some id)
    (hunlisted : Unlisted (w.state.handle c answer).1 id) : cl.place.owing = true := by
  have hholds : heldBy w i = client.place.held :=
    heldBy_of_prog h.orderly.faithful hclient (by simp [hprog])
  have hallowed := h.orderly.faithful.allowed hclient hprog
  rw [hheldBy] at hj
  rcases System.client_of_call hcl with ⟨rfl, rfl⟩ | ⟨hji, other, hother, rfl⟩
  · rw [Function.update_self] at hj
    by_cases hheld : client.place.held = some id
    · exact owing_advance hallowed hheld
        (h.owing j client id hclient (hholds.trans hheld)) (fun hfails => hanswered hfails id hheld)
        hunlisted
    · -- only a claim reserves a tunnel, and one that is unlisted is reserved already
      cases hc : c.keepsBusy with
      | true =>
          rw [held_advance hc] at hj
          exact absurd hj hheld
      | false =>
          obtain ⟨holder, hholder⟩ := h.held id (unlisted_of_claim hc hunlisted)
          have hbusy : id ∈ w.state.busy := h.orderly.leased.taken.mpr ⟨holder, hholder⟩
          cases c with
          | claimBusy id' =>
              simp only [Place.advance] at hj
              split at hj
              · rename_i hgranted
                cases hj
                exact absurd hbusy (of_decide_eq_true hgranted)
              · exact absurd hj hheld
          | releaseBusy id' => cases hj
          | _ => cases hc
  · rw [Function.update_of_ne hji] at hj
    rcases unlisted_handle hunlisted with hbefore | hexposes
    · exact h.owing j other id hother hj hbefore
    · have hi : heldBy w i = some id :=
        hholds.trans (held_of_exposes hallowed (h.deletes i client hclient) hexposes)
      exact absurd (h.orderly.leased.one hj hi) hji

theorem Watched.step {act : Act Op Answer} (h : Watched app w) (hunbroken : Unbroken w act)
    (hstep : (system app).step w act = some w') : Watched app w' := by
  have horderly := h.orderly.step hstep
  cases act with
  | spawn op =>
      obtain rfl := System.step_spawn hstep
      refine ⟨horderly, fun j cl hcl => ?_, fun id hunlisted => ?_, fun j cl id hcl hj hunlisted => ?_⟩
      · rcases System.client_of_spawn hcl with hold | ⟨_, rfl⟩
        · exact h.deletes j cl hold
        · cases op with
          | delete id actor => cases hunbroken
          | _ => rfl
      · rw [heldBy_spawn]
        exact h.held id hunlisted
      · rw [heldBy_spawn] at hj
        obtain ⟨cl', hcl', _⟩ := heldBy_eq_some.mp hj
        rcases System.client_of_spawn hcl with hold | ⟨rfl, _⟩
        · exact h.owing j cl id hold hj hunlisted
        · rw [List.getElem?_eq_none le_rfl] at hcl'
          cases hcl'
  | step i answer =>
      obtain ⟨client, c, k, hclient, hprog, rfl⟩ := System.step_call hstep
      have hheldBy := heldBy_called (k := k) hclient horderly.faithful
      have hanswered := hunbroken client hclient c (by simp [Client.next, hprog])
      refine ⟨horderly, fun j cl hcl => ?_, fun id hunlisted => ?_, fun j cl id hcl hj hunlisted => ?_⟩
      · rcases System.client_of_call hcl with ⟨_, rfl⟩ | ⟨_, other, hother, rfl⟩
        · exact (deletes_advance _).trans (h.deletes i client hclient)
        · exact h.deletes j other hother
      · exact h.held_called hclient hprog hheldBy hunlisted
      · exact h.owing_called hclient hprog hheldBy hanswered hcl hj hunlisted
  | drop i =>
      obtain ⟨client, c, k, hclient, hprog, rfl⟩ := System.step_drop hstep
      have hholds : heldBy w i = client.place.held :=
        heldBy_of_prog h.orderly.faithful hclient (by simp [hprog])
      have hstate {id : String} (hu : Unlisted (w.dropped (system app) i client).state id) :
          Unlisted w.state id := by
        simp only [World.dropped, system] at hu
        cases hplace : client.place.held with
        | none => rwa [hplace] at hu
        | some id' =>
            rw [hplace] at hu
            exact hu
      have hother {j : Nat} {id : String} (hj : heldBy w j = some id) (hu : Unlisted w.state id) :
          j ≠ i := by
        rintro rfl
        exact hunbroken client hclient id (hholds.symm.trans hj) hu
      refine ⟨horderly, fun j cl hcl => ?_, fun id hunlisted => ?_, fun j cl id hcl hj hunlisted => ?_⟩
      · rcases System.client_of_drop hcl with ⟨_, rfl⟩ | ⟨_, hold⟩
        · exact h.deletes i client hclient
        · exact h.deletes j cl hold
      · obtain ⟨j, hj⟩ := h.held id (hstate hunlisted)
        refine ⟨j, ?_⟩
        rw [heldBy_dropped hclient, Function.update_of_ne (hother hj (hstate hunlisted))]
        exact hj
      · rw [heldBy_dropped hclient] at hj
        rcases System.client_of_drop hcl with ⟨rfl, _⟩ | ⟨hji, hold⟩
        · rw [Function.update_self] at hj
          cases hj
        · rw [Function.update_of_ne hji] at hj
          exact h.owing j cl id hold hj (hstate hunlisted)

theorem mem_expired {maxTunnelRuntime : Nat} {running : RunningTunnel}
    (hlookup : s.running.lookup id = some running)
    (hold : maxTunnelRuntime < s.now - running.startedAt) : id ∈ s.expired maxTunnelRuntime :=
  List.mem_map.mpr ⟨⟨id, running⟩,
    List.mem_filter.mpr ⟨AList.mem_lookup_iff.mp hlookup, decide_eq_true hold⟩, rfl⟩

/-- A sweep that looks finds every tunnel that is live, in nobody's hands and too old. -/
theorem Watched.finds (h : Watched app w) {maxTunnelRuntime : Nat} {after : Operation}
    (hclient : w.clients[i]? = some client)
    (hnext : client.next = some (.runningExpired maxTunnelRuntime))
    (hstep : (system app).step w (.step i answer) = some w') (hafter : w'.clients[i]? = some after)
    (hlive : id ∈ w.state.live) (hfree : ∀ j, heldBy w j ≠ some id) :
    ∃ running, w.state.running.lookup id = some running ∧
      (maxTunnelRuntime < (w.state.await answer).now - running.startedAt →
        id ∈ after.place.due) := by
  have hin : id ∈ w.state.running := by
    by_contra hout
    obtain ⟨j, hj⟩ := h.held id ⟨hlive, hout⟩
    exact hfree j hj
  obtain ⟨running, hlookup⟩ := Option.isSome_iff_exists.mp (AList.lookup_isSome.mpr hin)
  refine ⟨running, hlookup, fun hold => ?_⟩
  obtain ⟨client', c, k, hclient', hprog, rfl⟩ := System.step_call hstep
  obtain rfl : client = client' := Option.some.inj (hclient.symm.trans hclient')
  obtain rfl : c = .runningExpired maxTunnelRuntime := by simpa [Client.next, hprog] using hnext
  rw [System.called_self hclient] at hafter
  cases hafter
  exact mem_expired (s := w.state.await answer) hlookup hold

/-- In every run of starts, stops and sweeps none of which breaks off where its
tunnel is live and not in `running`, what is live is in `running` or in the hands of
a start or a stop; so a sweep that looks finds what is too old, and a sweep that has
ended has tried to stop all it has found. -/
theorem expiry_keeps (app : AppState) (s : State) (hbusy : s.busy = ∅)
    (hlive : ∀ id ∈ s.live, id ∈ s.running) (acts : List (Act Op Answer)) (w : Operations)
    (hrun : Runs.run (system app).step { state := s } acts = some w)
    (hunbroken : Runs.Meets (system app).step Unbroken { state := s } acts) :
    Kept w ∧
      (∀ (i : Nat) (client after : Operation) (maxTunnelRuntime : Nat) (answer : Answer)
        (w' : Operations), w.clients[i]? = some client →
        client.next = some (.runningExpired maxTunnelRuntime) →
        (system app).step w (.step i answer) = some w' → w'.clients[i]? = some after →
        ∀ id ∈ w.state.live, (∀ j, heldBy w j ≠ some id) →
          ∃ running, w.state.running.lookup id = some running ∧
            (maxTunnelRuntime < (w.state.await answer).now - running.startedAt →
              id ∈ after.place.due)) ∧
      (∀ (i : Nat) (client : Operation) (r : Except Rejection Unit), w.clients[i]? = some client →
        client.op = .sweep → client.result = some r →
          ∀ id ∈ client.place.due, id ∈ client.place.attempted) := by
  have hinit : Watched app { state := s } :=
    { orderly := Orderly.init hbusy
      deletes := fun i client hclient => by simp at hclient
      held := fun id hunlisted => absurd (hlive id hunlisted.1) hunlisted.2
      owing := fun i client id hclient => by simp at hclient }
  have hwatched : Watched app w :=
    Runs.invariant (fun _ _ _ h hcond hstep => h.step hcond hstep) hinit hunbroken hrun
  refine ⟨fun id hid => ?_, ?_, ?_⟩
  · by_cases hin : id ∈ w.state.running
    · exact .inl hin
    · exact .inr (hwatched.held id ⟨hid, hin⟩)
  · exact fun i client after maxTunnelRuntime answer w' hclient hnext hstep hafter id hid hfree =>
      hwatched.finds hclient hnext hstep hafter hid hfree
  · exact fun i client r hclient hop hresult =>
      (hwatched.orderly.faithful.ended hclient hresult).attempted hop

/-! ### A start and a stop -/

def startThenStop : List (Act Op Answer) :=
  .spawn (.start "tunnel-a" "setup" none) :: List.replicate 31 (.step 0 {}) ++
    .spawn (.stop "tunnel-a" "setup") :: List.replicate 11 (.step 1 {})

/-- A start whose look at the tunnel fails once the advertisement is written. -/
def startLeftHalfway : List (Act Op Answer) :=
  .spawn (.start "tunnel-a" "setup" none) :: List.replicate 24 (.step 0 {}) ++
    [.step 0 { cloud := { outcome := .failed (.other "timed out") } }, .step 0 {}]

theorem expiry_keeps_startThenStop :
    ∃ w, Runs.run (system plainApp).step { state := tunnelOff } startThenStop = some w ∧
      w.state.live = ∅ ∧ Kept w :=
  ⟨_, rfl, rfl, (expiry_keeps plainApp tunnelOff rfl (fun _ h => nomatch h) startThenStop _ rfl
    (by decide)).1⟩

/-- The start has ended, and no sweep will find the tunnel. -/
theorem expiry_loses_tunnel :
    ∃ w, Runs.run (system plainApp).step { state := tunnelOff } startLeftHalfway = some w ∧
      (∀ client ∈ w.clients, client.running = false) ∧ ¬ Kept w := by
  refine ⟨_, rfl, by decide, fun hkept => ?_⟩
  rcases hkept "tunnel-a" (by decide) with hin | ⟨i, hi⟩
  · exact absurd hin (by decide)
  · cases i with
    | zero => cases hi
    | succ i => cases hi

end DatumConnect.Daemon
