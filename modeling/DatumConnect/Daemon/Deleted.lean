import DatumConnect.Daemon.Busy
/-!
# What is left of a deleted tunnel

A delete removes what the daemon keeps of a tunnel, and does not reserve it first.
The other operations enter things for a tunnel they have looked up.
-/

namespace DatumConnect.Daemon

open DatumConnect.Lib
open DatumConnect.Lib.Prog (Protocol Follows)
open DatumConnect.Lib.Pool

/-- The daemon keeps something of the tunnel there. -/
def State.has (s : State) (id : String) : Store → Prop
  | .running => id ∈ s.running
  | .inspectors => id ∈ s.inspectors
  | .targets => id ∈ s.targets
  | .notes => id ∈ s.notes
  | .tokens => id ∈ s.tokens

instance (s : State) (id : String) (store : Store) : Decidable (s.has id store) := by
  cases store <;> (unfold State.has; infer_instance)

/-- What a call enters, and for which tunnel. -/
def Call.enters : Call → Option (Store × String)
  | .runningInsert id _ _ => some (.running, id)
  | .inspectorsInsert id _ => some (.inspectors, id)
  | .saveInspectorTarget id _ => some (.targets, id)
  | .saveNote id _ => some (.notes, id)
  | .createTokensDir id | .writeToken id _ => some (.tokens, id)
  | _ => none

/-- What a call removes, and of which tunnel. -/
def Call.wipes : Call → Option (Store × String)
  | .runningRemove id => some (.running, id)
  | .inspectorsRemove id => some (.inspectors, id)
  | .removeInspectorTarget id => some (.targets, id)
  | .removeNote id => some (.notes, id)
  | .deleteTokens id => some (.tokens, id)
  | _ => none

/-- The tunnel that a call shows to be there. -/
def Call.sights : (c : Call) → c.Reply → Option String
  | .service (.getActive id) c, r => if finds id c r then some id else none
  | .service .create c, r => makes c r
  | _, _ => none

/-- The operation deletes the tunnel and has begun to remove what is kept of it. -/
def Forgetting (client : Operation) (id : String) : Prop :=
  client.place.deletes = some id ∧ client.place.wiped ≠ []

instance (client : Operation) (id : String) : Decidable (Forgetting client id) := by
  unfold Forgetting
  infer_instance

/-- What a delete removes in memory is removed; of the files, only what can be. -/
def Removed (c : Call) (answer : Answer) : Prop :=
  match c with
  | .removeInspectorTarget _ | .removeNote _ | .deleteTokens _ => answer.ok = true
  | _ => True

/-- A delete begins to remove things when no operation in progress has seen the
tunnel; nothing shows the tunnel to be there after that; and the delete's removals
succeed. -/
structure Settled (w : Operations) (client : Operation) (c : Call) (answer : Answer) : Prop where
  begins : ∀ id ∈ client.place.deletes, c.wipes.isSome = true → client.place.wiped = [] →
    ∀ other ∈ w.clients, other.running = true → other.place.seen ≠ some id
  sights : ∀ id ∈ c.sights (w.state.handle c answer).2, ∀ other ∈ w.clients, ¬ Forgetting other id
  removed : client.place.deletes.isSome = true → Removed c answer

instance (c : Call) (answer : Answer) : Decidable (Removed c answer) := by
  unfold Removed
  split <;> infer_instance

theorem settled_iff {w : Operations} {client : Operation} {c : Call} {answer : Answer} :
    Settled w client c answer ↔
      (∀ id ∈ client.place.deletes, c.wipes.isSome = true → client.place.wiped = [] →
        ∀ other ∈ w.clients, other.running = true → other.place.seen ≠ some id) ∧
      (∀ id ∈ c.sights (w.state.handle c answer).2, ∀ other ∈ w.clients, ¬ Forgetting other id) ∧
      (client.place.deletes.isSome = true → Removed c answer) :=
  ⟨fun h => ⟨h.begins, h.sights, h.removed⟩, fun h => ⟨h.1, h.2.1, h.2.2⟩⟩

instance (w : Operations) (client : Operation) (c : Call) (answer : Answer) :
    Decidable (Settled w client c answer) :=
  decidable_of_iff' _ settled_iff

def Undisturbed (w : Operations) : Act Op Answer → Prop
  | .step i answer => ∀ client ∈ w.clients[i]?, ∀ c ∈ client.next, Settled w client c answer
  | _ => True

instance (w : Operations) (act : Act Op Answer) : Decidable (Undisturbed w act) := by
  unfold Undisturbed
  split <;> infer_instance

/-- Once every operation has ended, nothing is kept of a tunnel that was deleted. -/
def NothingLeft (w : Operations) : Prop :=
  (∀ client ∈ w.clients, client.running = false) →
    ∀ client ∈ w.clients, ∀ id actor, client.op = .delete id actor →
      client.result = some (.ok ()) → ∀ store, ¬ w.state.has id store

/-! ## What a call enters and removes -/

variable {app : AppState} {g : Place} {s : State} {answer : Answer} {c : Call} {id : String}
  {store : Store}

theorem mem_of_mem_erase {β : Type} {map : AList fun _ : String => β} {id' : String}
    (h : id ∈ map.erase id') : id ∈ map := (AList.mem_erase.mp h).2

theorem enters_of_mem_insert {β : Type} {map : AList fun _ : String => β} {id' : String} {b : β}
    (h : id ∈ map.insert id' b) : id ∈ map ∨ some (store, id') = some (store, id) :=
  ((AList.mem_insert _).mp h).elim (fun heq => .inr (by rw [heq])) .inl

/-- What is kept of a tunnel was kept before, or the call has entered it. -/
theorem has_handle (h : (s.handle c answer).1.has id store) :
    s.has id store ∨ c.enters = some (store, id) := by
  unfold State.handle at h
  cases c with
  | runningInsert id' key service =>
      cases store with
      | running => exact enters_of_mem_insert h
      | _ => exact .inl h
  | inspectorsInsert id' endpoint =>
      cases store with
      | inspectors => exact enters_of_mem_insert h
      | _ => exact .inl h
  | saveInspectorTarget id' target =>
      simp only [State.serve] at h
      split at h
      · cases store with
        | targets => exact enters_of_mem_insert h
        | _ => exact .inl h
      · exact .inl h
  | saveNote id' note =>
      simp only [State.serve] at h
      split at h
      · cases store with
        | notes => exact enters_of_mem_insert h
        | _ => exact .inl h
      · exact .inl h
  | createTokensDir id' =>
      simp only [State.serve] at h
      split at h
      · cases store with
        | tokens => exact enters_of_mem_insert h
        | _ => exact .inl h
      · exact .inl h
  | writeToken id' ttlSeconds =>
      simp only [State.serve] at h
      split at h
      · cases store with
        | tokens => exact enters_of_mem_insert h
        | _ => exact .inl h
      · exact .inl h
  | runningRemove id' =>
      cases store with
      | running => exact .inl (mem_of_mem_erase h)
      | _ => exact .inl h
  | inspectorsRemove id' =>
      cases store with
      | inspectors => exact .inl (mem_of_mem_erase h)
      | _ => exact .inl h
  | removeInspectorTarget id' =>
      simp only [State.serve] at h
      split at h
      · cases store with
        | targets => exact .inl (mem_of_mem_erase h)
        | _ => exact .inl h
      · exact .inl h
  | removeNote id' =>
      simp only [State.serve] at h
      split at h
      · cases store with
        | notes => exact .inl (mem_of_mem_erase h)
        | _ => exact .inl h
      · exact .inl h
  | deleteTokens id' =>
      simp only [State.serve] at h
      split at h
      · cases store with
        | tokens => exact .inl (mem_of_mem_erase h)
        | _ => exact .inl h
      · exact .inl h
  | appendAudit line | saveListenKey projectId id' key =>
      simp only [State.serve] at h
      split at h <;> exact .inl h
  | _ => exact .inl h

/-- What a call has removed is not kept. -/
theorem wiped_handle (hwipes : c.wipes = some (store, id)) (hremoved : Removed c answer) :
    ¬ (s.handle c answer).1.has id store := by
  have herase {β : Type} (map : AList fun _ : String => β) : id ∉ map.erase id :=
    fun hmem => (AList.mem_erase.mp hmem).1 rfl
  unfold State.handle
  cases c with
  | runningRemove id' | inspectorsRemove id' =>
      cases hwipes
      exact herase _
  | removeInspectorTarget id' | removeNote id' | deleteTokens id' =>
      cases hwipes
      have hok : answer.ok = true := hremoved
      simp only [State.serve, if_pos hok]
      exact herase _
  | _ => cases hwipes

/-- What an operation enters is of a tunnel it has seen. -/
theorem seen_of_enters (hallowed : g.Allowed c) (h : c.enters = some (store, id)) :
    g.seen = some id := by
  have hbinds := hallowed.binds
  cases c with
  | runningInsert id' key service =>
      cases h
      exact hbinds.2
  | inspectorsInsert id' endpoint | saveInspectorTarget id' target | saveNote id' note
  | createTokensDir id' | writeToken id' ttlSeconds =>
      cases h
      exact hbinds
  | _ => cases h

/-- What a delete removes is of the tunnel it deletes. -/
theorem wipes_of_deletes (hallowed : g.Allowed c) (hdeletes : g.deletes = some id)
    (h : c.wipes.isSome = true) : ∃ store, c.wipes = some (store, id) := by
  have hbinds := hallowed.binds
  cases c with
  | runningRemove id' =>
      rcases hbinds with heq | ⟨hnone, _⟩
      · obtain rfl := Option.some.inj (heq.symm.trans hdeletes)
        exact ⟨_, rfl⟩
      · rw [hnone] at hdeletes
        cases hdeletes
  | removeNote id' =>
      rcases hbinds with heq | hnone
      · obtain rfl := Option.some.inj (heq.symm.trans hdeletes)
        exact ⟨_, rfl⟩
      · rw [hnone] at hdeletes
        cases hdeletes
  | inspectorsRemove id' | removeInspectorTarget id' | deleteTokens id' =>
      obtain rfl := Option.some.inj (hbinds.symm.trans hdeletes)
      exact ⟨_, rfl⟩
  | _ => cases h

/-- What an operation sees it had seen before, or the call shows it. -/
theorem seen_advance {r : c.Reply} (h : (g.advance c r).seen = some id) :
    g.seen = some id ∨ c.sights r = some id := by
  cases c with
  | service method c =>
      cases method with
      | getActive id' =>
          simp only [Place.advance] at h
          split at h
          · rename_i hfinds
            exact .inr (by rw [Call.sights, if_pos hfinds, h])
          · exact .inl h
      | create =>
          rcases Option.or_eq_some_iff.mp h with hmakes | ⟨_, hseen⟩
          · exact .inr hmakes
          · exact .inl hseen
      | setEnabled id' enabled => cases enabled <;> exact .inl h
      | _ => exact .inl h
  | inspectorsInsert id' endpoint =>
      simp only [Place.advance] at h
      split at h
      · cases h
      · exact .inl h
  | runningInsert id' key service => cases h
  | saveNote id' note => cases h
  | writeToken id' ttlSeconds => cases h
  | _ => exact .inl h

theorem wiped_advance (r : c.Reply) :
    (g.advance c r).wiped = match c.wipes with
      | some (store, _) => store :: g.wiped
      | none => g.wiped := by
  cases c with
  | service method c =>
      cases method with
      | setEnabled id' enabled => cases enabled <;> rfl
      | _ => rfl
  | _ => rfl

theorem sights_of_wipes {r : c.Reply} (h : c.wipes.isSome = true) : c.sights r = none := by
  cases c with
  | service method c => cases h
  | _ => rfl

/-! ## Every run -/

variable {w w' : Operations} {i : Nat} {client : Operation}

structure Deleting (app : AppState) (w : Operations) : Prop where
  faithful : (system app).Faithful Ended w
  deletes : ∀ (i : Nat) (client : Operation) (id actor : String), w.clients[i]? = some client →
    client.op = .delete id actor → client.place.deletes = some id
  unseen : ∀ (i j : Nat) (client other : Operation) (id : String), w.clients[i]? = some client →
    w.clients[j]? = some other → Forgetting client id → other.running = true →
      other.place.seen ≠ some id
  wiped : ∀ (i : Nat) (client : Operation) (id : String) (store : Store),
    w.clients[i]? = some client → client.place.deletes = some id → store ∈ client.place.wiped →
      ¬ w.state.has id store

/-- What was seen after a call had been seen before it, or the call shows it. -/
theorem seen_of_called {k : c.Reply → Task (Except Rejection Unit)} {j : Nat} {other : Operation}
    (hclient : w.clients[i]? = some client) (hprog : client.prog = some (.call c k))
    (hother : (w.called (system app) i client c k answer).clients[j]? = some other)
    (hrunning : other.running = true) (hseen : other.place.seen = some id) :
    (∃ (j : Nat) (before : Operation), w.clients[j]? = some before ∧ before.running = true ∧
      before.place.seen = some id) ∨ c.sights (w.state.handle c answer).2 = some id := by
  rcases System.client_of_call hother with ⟨_, rfl⟩ | ⟨_, before, hbefore, rfl⟩
  · refine (seen_advance hseen).imp_left fun hseen => ⟨i, client, hclient, ?_, hseen⟩
    simp [Client.running, Client.next, hprog]
  · exact .inl ⟨j, before, hbefore, hrunning, hseen⟩

/-- A delete that is forgetting a tunnel after a call was at it before, or begins to. -/
theorem forgetting_of_called {k : c.Reply → Task (Except Rejection Unit)} {j : Nat}
    {deleting : Operation} (hclient : w.clients[i]? = some client)
    (hdeleting : (w.called (system app) i client c k answer).clients[j]? = some deleting)
    (hforgetting : Forgetting deleting id) :
    (∃ (j : Nat) (before : Operation), w.clients[j]? = some before ∧ Forgetting before id) ∨
      client.place.deletes = some id ∧ c.wipes.isSome = true ∧ client.place.wiped = [] := by
  rcases System.client_of_call hdeleting with ⟨_, rfl⟩ | ⟨_, before, hbefore, rfl⟩
  · obtain ⟨hdeletes, hwiped⟩ := hforgetting
    have hdeletes : client.place.deletes = some id := (deletes_advance _).symm.trans hdeletes
    by_cases hbefore : client.place.wiped = []
    · refine .inr ⟨hdeletes, ?_, hbefore⟩
      by_contra hnone
      rw [Option.not_isSome_iff_eq_none] at hnone
      exact hwiped ((wiped_advance _).trans (by rw [hnone, hbefore]))
    · exact .inl ⟨i, client, hclient, hdeletes, hbefore⟩
  · exact .inl ⟨j, before, hbefore, hforgetting⟩

theorem Deleting.unseen_called {k : c.Reply → Task (Except Rejection Unit)} (h : Deleting app w)
    (hclient : w.clients[i]? = some client) (hprog : client.prog = some (.call c k))
    (hsettled : Settled w client c answer) {a b : Nat} {deleting other : Operation}
    (hdeleting : (w.called (system app) i client c k answer).clients[a]? = some deleting)
    (hother : (w.called (system app) i client c k answer).clients[b]? = some other)
    (hforgetting : Forgetting deleting id) (hrunning : other.running = true) :
    other.place.seen ≠ some id := by
  intro hseen
  rcases seen_of_called hclient hprog hother hrunning hseen with
    ⟨j, before, hbefore, hrunning, hseen⟩ | hsights
  · rcases forgetting_of_called hclient hdeleting hforgetting with
      ⟨a, before', hbefore', hforgetting⟩ | ⟨hdeletes, hwipes, hwiped⟩
    · exact h.unseen a j before' before id hbefore' hbefore hforgetting hrunning hseen
    · exact hsettled.begins id hdeletes hwipes hwiped before (List.mem_of_getElem? hbefore)
        hrunning hseen
  · rcases forgetting_of_called hclient hdeleting hforgetting with
      ⟨a, before, hbefore, hforgetting⟩ | ⟨_, hwipes, _⟩
    · exact hsettled.sights id hsights before (List.mem_of_getElem? hbefore) hforgetting
    · rw [sights_of_wipes hwipes] at hsights
      cases hsights

theorem Deleting.wiped_called {k : c.Reply → Task (Except Rejection Unit)} (h : Deleting app w)
    (hclient : w.clients[i]? = some client) (hprog : client.prog = some (.call c k))
    (hsettled : Settled w client c answer) {a : Nat} {deleting : Operation}
    (hdeleting : (w.called (system app) i client c k answer).clients[a]? = some deleting)
    (hdeletes : deleting.place.deletes = some id) (hwiped : store ∈ deleting.place.wiped) :
    ¬ (w.state.handle c answer).1.has id store := by
  have hallowed := h.faithful.allowed hclient hprog
  have hrunning : client.running = true := by simp [Client.running, Client.next, hprog]
  -- what was removed before has not been entered: its tunnel has not been seen
  have hkeeps {a : Nat} {before : Operation} (hbefore : w.clients[a]? = some before)
      (hdeletes : before.place.deletes = some id) (hmem : store ∈ before.place.wiped) :
      ¬ (w.state.handle c answer).1.has id store := by
    intro hhas
    rcases has_handle hhas with hhad | henters
    · exact h.wiped a before id store hbefore hdeletes hmem hhad
    · exact h.unseen a i before client id hbefore hclient ⟨hdeletes, List.ne_nil_of_mem hmem⟩
        hrunning (seen_of_enters hallowed henters)
  rcases System.client_of_call hdeleting with ⟨_, rfl⟩ | ⟨_, before, hbefore, rfl⟩
  · have hdeletes : client.place.deletes = some id := (deletes_advance _).symm.trans hdeletes
    have hwiped : store ∈ (client.place.advance c (w.state.handle c answer).2).wiped := hwiped
    rw [wiped_advance] at hwiped
    cases hwipes : c.wipes with
    | none =>
        rw [hwipes] at hwiped
        exact hkeeps hclient hdeletes hwiped
    | some wipes =>
        obtain ⟨store', hstore'⟩ := wipes_of_deletes hallowed hdeletes (by rw [hwipes]; rfl)
        obtain rfl := Option.some.inj (hwipes.symm.trans hstore')
        rw [hwipes] at hwiped
        rcases List.mem_cons.mp hwiped with rfl | hmem
        · exact wiped_handle hstore' (hsettled.removed (by rw [hdeletes]; rfl))
        · exact hkeeps hclient hdeletes hmem
  · exact hkeeps hbefore hdeletes hwiped

theorem Deleting.step {act : Act Op Answer} (h : Deleting app w) (hundisturbed : Undisturbed w act)
    (hstep : (system app).step w act = some w') : Deleting app w' := by
  have hfaithful := h.faithful.step (Op.follows app) hstep
  cases act with
  | spawn op =>
      obtain rfl := System.step_spawn hstep
      have hfresh : op.begins.seen = none ∧ op.begins.wiped = [] := by cases op <;> exact ⟨rfl, rfl⟩
      refine ⟨hfaithful, fun j cl id actor hcl hop => ?_,
        fun a b deleting other id ha hb hforgetting hrunning => ?_,
        fun j cl id store hcl hdeletes hwiped => ?_⟩
      · rcases System.client_of_spawn hcl with hold | ⟨_, rfl⟩
        · exact h.deletes j cl id actor hold hop
        · obtain rfl : op = .delete id actor := hop
          rfl
      · rcases System.client_of_spawn ha with hold | ⟨_, rfl⟩
        · rcases System.client_of_spawn hb with hold' | ⟨_, rfl⟩
          · exact h.unseen a b deleting other id hold hold' hforgetting hrunning
          · exact fun hseen => nomatch hfresh.1.symm.trans hseen
        · exact absurd hfresh.2 hforgetting.2
      · rcases System.client_of_spawn hcl with hold | ⟨_, rfl⟩
        · exact h.wiped j cl id store hold hdeletes hwiped
        · have hempty : (Client.new (system app) op).place.wiped = [] := hfresh.2
          rw [hempty] at hwiped
          exact absurd hwiped List.not_mem_nil
  | step i answer =>
      obtain ⟨client, c, k, hclient, hprog, rfl⟩ := System.step_call hstep
      have hsettled := hundisturbed client hclient c (by simp [Client.next, hprog])
      refine ⟨hfaithful, fun j cl id actor hcl hop => ?_,
        fun a b deleting other id ha hb hforgetting hrunning =>
          h.unseen_called hclient hprog hsettled ha hb hforgetting hrunning,
        fun j cl id store hcl hdeletes hwiped =>
          h.wiped_called hclient hprog hsettled hcl hdeletes hwiped⟩
      rcases System.client_of_call hcl with ⟨_, rfl⟩ | ⟨_, other, hother, rfl⟩
      · exact (deletes_advance _).trans (h.deletes i client id actor hclient hop)
      · exact h.deletes j other id actor hother hop
  | drop i =>
      obtain ⟨client, c, k, hclient, hprog, rfl⟩ := System.step_drop hstep
      have hstate (id : String) (store : Store) :
          (w.dropped (system app) i client).state.has id store ↔ w.state.has id store := by
        simp only [World.dropped, system]
        cases client.place.held <;> exact Iff.rfl
      refine ⟨hfaithful, fun j cl id actor hcl hop => ?_,
        fun a b deleting other id ha hb hforgetting hrunning => ?_,
        fun j cl id store hcl hdeletes hwiped => ?_⟩
      · rcases System.client_of_drop hcl with ⟨_, rfl⟩ | ⟨_, hold⟩
        · exact h.deletes i client id actor hclient hop
        · exact h.deletes j cl id actor hold hop
      · rcases System.client_of_drop hb with ⟨_, rfl⟩ | ⟨_, hold'⟩
        · cases hrunning
        · rcases System.client_of_drop ha with ⟨_, rfl⟩ | ⟨_, hold⟩
          · exact h.unseen i b client other id hclient hold' hforgetting hrunning
          · exact h.unseen a b deleting other id hold hold' hforgetting hrunning
      · rw [hstate]
        rcases System.client_of_drop hcl with ⟨_, rfl⟩ | ⟨_, hold⟩
        · exact h.wiped i client id store hclient hdeletes hwiped
        · exact h.wiped j cl id store hold hdeletes hwiped

/-- In every run in which no delete begins to remove things while an operation in
progress has seen its tunnel, nothing shows the tunnel to be there after that, and
the delete's removals succeed, nothing is left of a deleted tunnel. -/
theorem nothing_left (app : AppState) (s : State) (acts : List (Act Op Answer)) (w : Operations)
    (hrun : Runs.run (system app).step { state := s } acts = some w)
    (hundisturbed : Runs.Meets (system app).step Undisturbed { state := s } acts) :
    NothingLeft w := by
  have hinit : Deleting app { state := s } :=
    { faithful := fun i client p hclient => by simp at hclient
      deletes := fun i client id actor hclient => by simp at hclient
      unseen := fun i j client other id hclient => by simp at hclient
      wiped := fun i client id store hclient => by simp at hclient }
  have hdeleting : Deleting app w :=
    Runs.invariant (fun _ _ _ h hcond hstep => h.step hcond hstep) hinit hundisturbed hrun
  intro _ client hmem id actor hop hresult store
  obtain ⟨i, hclient⟩ := List.mem_iff_getElem?.mp hmem
  have hended := hdeleting.faithful.ended hclient hresult
  exact hdeleting.wiped i client id store hclient (hdeleting.deletes i client id actor hclient hop)
    (hended.wiped id actor hop rfl store)

/-! ### A note and a start -/

def noteThenDelete : List (Act Op Answer) :=
  .spawn (.setNote "tunnel-a" "garage door") :: List.replicate 6 (.step 0 {}) ++
    .spawn (.delete "tunnel-a" "setup") :: List.replicate 20 (.step 1 {})

/-- The start has looked its tunnel up for the last time when the delete runs. -/
def deleteDuringStart : List (Act Op Answer) :=
  .spawn (.start "tunnel-a" "setup" none) :: List.replicate 28 (.step 0 {}) ++
    .spawn (.delete "tunnel-a" "setup") :: List.replicate 21 (.step 1 {}) ++
      List.replicate 3 (.step 0 {})

theorem nothing_left_noteThenDelete :
    ∃ w, Runs.run (system plainApp).step { state := tunnelOff } noteThenDelete = some w ∧
      NothingLeft w :=
  ⟨_, rfl, nothing_left plainApp tunnelOff noteThenDelete _ rfl (by decide)⟩

theorem deleted_tunnel_runs_on :
    ∃ w, Runs.run (system plainApp).step { state := tunnelOff } deleteDuringStart = some w ∧
      ¬ NothingLeft w := by
  refine ⟨_, rfl, fun hnothing => ?_⟩
  refine hnothing (by decide) _ (List.mem_cons_of_mem _ List.mem_cons_self) "tunnel-a" "setup" rfl
    rfl .running ?_
  decide

end DatumConnect.Daemon
