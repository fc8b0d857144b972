import DatumConnect.Credentials.AuthWatch
/-!
# Rebuilds in time

What a swap and a rebuild must not come across, and that every client then keeps up with the token.
-/

namespace DatumConnect.Credentials

open DatumConnect.Lib
open DatumConnect.Lib.Pool

/-! ## What a step must not come across -/

/-- No rebuild of the client is under way with another token. -/
def Clients.Alone (w : Clients) (id : Nat) (token : String) : Prop :=
  ∀ cl ∈ w.clients, cl.place.op.client = some id → ∀ t ∈ cl.place.taken, t = token

instance (w : Clients) (id : Nat) (token : String) : Decidable (w.Alone id token) := by
  unfold Clients.Alone
  infer_instance

/-- The task of the client is yet to take its first token. -/
def Clients.Begins (w : Clients) (id : Nat) : Prop :=
  w.task id = [] ∨ ∃ cl ∈ w.task id, cl.place.coming = true

instance (w : Clients) (id : Nat) : Decidable (w.Begins id) := by
  unfold Clients.Begins
  infer_instance

section

variable (builds : String → String → Bool)

def Undisturbed (w : Clients) (g : Place) : Call → Prop
  -- No other swap is under way, and no client without a `token_rx` has taken its first token.
  | .store newToken =>
      (∀ cl ∈ w.clients, cl.place.swapping = none) ∧
        (newToken = w.state.source.token ∨
          ∀ id < w.state.clients.length, w.state.has id false = true → w.Begins id)
  | .token => ∀ id ∈ g.op.client, w.Alone id w.state.source.token
  | .borrow id => w.Alone id w.state.source.tokenTx.value
  -- There is a kube client for the token.
  | .build id accessToken => ∀ p ∈ w.state.clients[id]?, builds p.serverUrl accessToken = true
  | _ => True

instance (w : Clients) (g : Place) (c : Call) : Decidable (Undisturbed builds w g c) := by
  unfold Undisturbed
  split <;> infer_instance

def InTime (w : Clients) : Act Op Unit → Prop
  | .step i _ => ∀ client ∈ w.clients[i]?, ∀ c ∈ client.next, Undisturbed builds w client.place c
  | _ => True

instance (w : Clients) (act : Act Op Unit) : Decidable (InTime builds w act) := by
  unfold InTime
  split <;> infer_instance

end

variable {builds : String → String → Bool} {w : Clients}

/-! ## Where the programs are -/

/-- Some program is at such a place. -/
def Clients.At (w : Clients) (P : Place → Prop) : Prop :=
  ∃ (i : Nat) (cl : Worker), w.clients[i]? = some cl ∧ P cl.place

/-- A rebuild of the client has taken the token. -/
def Clients.Taking (w : Clients) (id : Nat) (token : String) : Prop :=
  w.At fun g => g.op.client = some id ∧ g.taken = some token

/-- A rebuild of the client has stored the kube client, and not the token. -/
def Clients.Half (w : Clients) (id : Nat) : Prop :=
  w.At fun g => g.op.client = some id ∧ g.half = true

def Clients.Swapping (w : Clients) : Prop := w.At fun g => g.swapping ≠ none

def Clients.Coming (w : Clients) (id : Nat) : Prop :=
  w.At fun g => g.op.tasks id = true ∧ g.coming = true

/-- The task has been told of a change, and is yet to look what it is. -/
def Clients.Told (w : Clients) (id : Nat) : Prop :=
  w.At fun g => g.op.tasks id = true ∧ g.notified = true ∧ g.took = false

/-- The task of the client has not been spawned. -/
def Clients.NoTask (w : Clients) (id : Nat) : Prop :=
  ∀ (i : Nat) (cl : Worker), w.clients[i]? = some cl → cl.op.tasks id = false

section

variable {P : Place → Prop} {i : Nat} {client : Worker} {c : Call} {k : c.Reply → Program Bool}

theorem at_of_called (h : Clients.At (w.called (system builds) i client c k ()) P) :
    w.At P ∨ P (client.place.advance c (handle builds w.state c ()).2) := by
  obtain ⟨j, cl, hcl, hP⟩ := h
  rcases place_of_call hcl with ⟨_, _, hplace⟩ | ⟨_, other, hother, _, _, hplace⟩
  · exact .inr (hplace ▸ hP)
  · exact .inl ⟨j, other, hother, hplace ▸ hP⟩

theorem at_caller (hclient : w.clients[i]? = some client)
    (hP : P (client.place.advance c (handle builds w.state c ()).2)) :
    Clients.At (w.called (system builds) i client c k ()) P :=
  ⟨i, _, System.called_self hclient, hP⟩

theorem at_called (h : w.At P) (hclient : w.clients[i]? = some client)
    (hkeep : P client.place → P (client.place.advance c (handle builds w.state c ()).2)) :
    Clients.At (w.called (system builds) i client c k ()) P := by
  obtain ⟨j, cl, hcl, hP⟩ := h
  rcases Decidable.em (j = i) with rfl | hne
  · rw [hclient] at hcl
    cases hcl
    exact at_caller hclient (hkeep hP)
  · exact ⟨j, _, System.called_other hcl hne, hP⟩

theorem noTask_called (hclient : w.clients[i]? = some client) {id : Nat} (h : w.NoTask id) :
    Clients.NoTask (w.called (system builds) i client c k ()) id := by
  intro j cl hcl
  rcases place_of_call hcl with ⟨_, hop, _⟩ | ⟨_, other, hother, hop, _⟩
  · exact hop ▸ h i client hclient
  · exact hop ▸ h j other hother

end

theorem at_spawned {P : Place → Prop} {op : Op} :
    Clients.At (w.spawned (system builds) op) P ↔ w.At P ∨ P { op } := by
  refine ⟨?_, ?_⟩
  · rintro ⟨j, cl, hcl, hP⟩
    rcases System.client_of_spawn hcl with hold | ⟨_, rfl⟩
    · exact .inl ⟨j, cl, hold, hP⟩
    · exact .inr hP
  · rintro (⟨j, cl, hcl, hP⟩ | hP)
    · have hlt := (List.getElem?_eq_some_iff.mp hcl).1
      exact ⟨j, cl, (List.getElem?_append_left hlt).trans hcl, hP⟩
    · exact ⟨w.clients.length, Client.new (system builds) op, List.getElem?_concat_length, hP⟩

theorem task_eq_nil {id : Nat} : w.task id = [] ↔ w.NoTask id := by
  rw [Clients.task, List.filter_eq_nil_iff]
  refine ⟨fun h i cl hcl => ?_, fun h cl hcl => ?_⟩
  · exact eq_false_of_ne_true (h cl (List.mem_of_getElem? hcl))
  · obtain ⟨i, hi⟩ := List.getElem?_of_mem hcl
    rw [h i cl hi]
    exact Bool.false_ne_true

theorem client_of_tasks {op : Op} {id : Nat} (h : op.tasks id = true) : op.client = some id := by
  cases op with
  | authTask id' b => exact congrArg some (of_decide_eq_true h)
  | authTurn id' b => exact congrArg some (of_decide_eq_true h)
  | _ => cases h

/-! ## What keeps a client up with its source -/

/-- A change of the token is still to reach the client. -/
def Due (w : Clients) (id : Nat) (p : ProjectControlPlaneClient) : Prop :=
  w.NoTask id ∨ w.Coming id ∨
    ∃ v, p.seen = some v ∧ (v ≠ w.state.source.tokenTx.version ∨ w.Swapping)

/-- The client has the token of the source, or a rebuild is about to give it. -/
structure Fresh (w : Clients) (id : Nat) (p : ProjectControlPlaneClient) : Prop where
  taking : ∀ t, w.Taking id t → t = w.state.source.token
  reaches : w.Taking id w.state.source.token ∨
    p.accessToken = w.state.source.token ∧ p.client.token = w.state.source.token

structure Kept (builds : String → String → Bool) (w : Clients) : Prop where
  base : Base builds w
  swap : ∀ t, (w.At fun g => g.swapping = some t) → w.state.source.token = t
  /-- What is seen of a change is the source's token, unless it is about to change again. -/
  value : w.Swapping ∨ w.state.source.tokenTx.value = w.state.source.token ∨
    ∀ (id : Nat) (p : ProjectControlPlaneClient) (v : Nat), w.state.clients[id]? = some p →
      p.live = true → p.seen = some v → v = w.state.source.tokenTx.version ∧ ¬w.Told id
  agree : ∀ id t t', w.Taking id t → w.Taking id t' → t = t'
  half : ∀ (id : Nat) (p : ProjectControlPlaneClient), w.state.clients[id]? = some p → w.Half id →
    w.Taking id p.client.token
  paired : ∀ (id : Nat) (p : ProjectControlPlaneClient), w.state.clients[id]? = some p →
    p.client.serverUrl = p.serverUrl ∧ (p.client.token = p.accessToken ∨ w.Half id)
  current : ∀ (id : Nat) (p : ProjectControlPlaneClient), w.state.clients[id]? = some p →
    p.live = true → Due w id p ∨ Fresh w id p

/-! ## What a call makes of the place of its caller -/

theorem swapping_advance {g : Place} {c : Call} {r : c.Reply} {t : String}
    (h : (g.advance c r).swapping = some t) : g.swapping = some t ∨ c = .store t := by
  cases c with
  | token =>
      change Place.swapping (if _ then _ else _) = _ at h
      split at h <;> exact .inl h
  | loadToken id =>
      change Place.swapping (if _ then _ else _) = _ at h
      split at h <;> exact .inl h
  | build id t =>
      change Place.swapping (if _ then _ else _) = _ at h
      split at h <;> exact .inl h
  | store t' =>
      cases h
      exact .inr rfl
  | send t' => cases h
  | _ => exact .inl h

theorem swapping_stays {g : Place} {c : Call} (r : c.Reply) (hsend : ∀ t, c ≠ .send t)
    (h : g.swapping ≠ none) : (g.advance c r).swapping ≠ none := by
  cases c with
  | token =>
      change Place.swapping (if _ then _ else _) ≠ _
      split <;> exact h
  | loadToken id =>
      change Place.swapping (if _ then _ else _) ≠ _
      split <;> exact h
  | build id t =>
      change Place.swapping (if _ then _ else _) ≠ _
      split <;> exact h
  | store t' => exact Option.some_ne_none t'
  | send t' => exact absurd rfl (hsend t')
  | _ => exact h

/-- The call takes the token. -/
def Takes (s : Plane) (g : Place) (t : String) : Call → Prop
  | .token => g.op.client.isSome = true ∧ s.source.token = t
  | .borrow _ => s.source.tokenTx.value = t
  | _ => False

theorem taken_advance {s : Plane} {g : Place} {c : Call} {t : String}
    (h : (g.advance c (handle builds s c ()).2).taken = some t) :
    g.taken = some t ∨ Takes s g t c := by
  cases c with
  | token =>
      change Place.taken (if _ then _ else _) = _ at h
      split at h
      · rename_i hclient
        exact .inr ⟨hclient, Option.some.inj h⟩
      · exact .inl h
  | loadToken id =>
      change Place.taken (if _ then _ else _) = _ at h
      split at h
      · cases h
      · exact .inl h
  | build id t' =>
      change Place.taken (if _ then _ else _) = _ at h
      split at h
      · exact .inl h
      · cases h
  | storeToken id t' => cases h
  | borrow id => exact .inr (Option.some.inj h)
  | _ => exact .inl h

/-- A place that is half through a rebuild has just become so, or was before. -/
theorem half_of_advance {g : Place} {c : Call} {r : c.Reply} (hallowed : g.Allowed c)
    (h : (g.advance c r).half = true) :
    (∃ id t, c = .storeClient id t) ∨ g.half = true ∧ (g.advance c r).taken = g.taken := by
  cases c with
  | token =>
      change Place.half (if _ then _ else _) = _ at h
      rcases hallowed with ⟨hclient, _, hhalf⟩ | ⟨serverUrl, hop⟩
      · rw [if_pos hclient, Place.take, hhalf] at h
        cases h
      · have hplace : g.advance .token r = g := if_neg (by rw [hop]; exact Bool.false_ne_true)
        rw [hplace]
        exact .inr ⟨by rwa [if_neg (by rw [hop]; exact Bool.false_ne_true)] at h, rfl⟩
  | loadToken id =>
      change Place.half (if _ then _ else _) = _ at h
      rw [Place.finish] at h
      split at h
      · cases h
      · exact absurd h (by rw [hallowed.2.2]; exact Bool.false_ne_true)
  | build id t =>
      change Place.half (if _ then _ else _) = _ at h
      rw [Place.finish] at h
      split at h
      · exact absurd h (by rw [hallowed.2.2]; exact Bool.false_ne_true)
      · cases h
  | storeClient id t => exact .inl ⟨id, t, rfl⟩
  | storeToken id t => cases h
  | borrow id =>
      change g.half = true at h
      exact absurd h (by rw [hallowed.2.2.2.2]; exact Bool.false_ne_true)
  | _ => exact .inr ⟨h, rfl⟩

theorem half_stays {g : Place} {c : Call} (r : c.Reply) (hallowed : g.Allowed c)
    (hstore : ∀ id t, c = .storeToken id t → g.op.client ≠ some id) (h : g.half = true) :
    (g.advance c r).half = true := by
  cases c with
  | token =>
      change Place.half (if _ then _ else _) = _
      split <;> exact h
  | loadToken id => exact absurd h (by rw [hallowed.2.2]; exact Bool.false_ne_true)
  | build id t => exact absurd h (by rw [hallowed.2.2]; exact Bool.false_ne_true)
  | storeClient id t => rfl
  | storeToken id t => exact absurd hallowed.1 (hstore id t rfl)
  | _ => exact h

theorem told_of_advance {g : Place} {c : Call} {r : c.Reply} (hc : ∀ id, c ≠ .changed id)
    (h : (g.advance c r).notified = true ∧ (g.advance c r).took = false) :
    g.notified = true ∧ g.took = false := by
  cases c with
  | token =>
      change Place.notified (if _ then _ else _) = true ∧ Place.took (if _ then _ else _) = false at h
      split at h
      · exact absurd h.2 Bool.noConfusion
      · exact h
  | loadToken id =>
      change Place.notified (if _ then _ else _) = true ∧ Place.took (if _ then _ else _) = false at h
      split at h <;> exact h
  | build id t =>
      change Place.notified (if _ then _ else _) = true ∧ Place.took (if _ then _ else _) = false at h
      split at h <;> exact h
  | changed id => exact absurd rfl (hc id)
  | borrow id => exact absurd h.2 Bool.noConfusion
  | _ => exact h

/-- A task is yet to take its token until it does. -/
theorem coming_stays {s : Plane} {g : Place} {c : Call} (hallowed : g.Allowed c)
    (htakes : ∀ t, ¬Takes s g t c) (h : g.coming = true) :
    (g.advance c (handle builds s c ()).2).coming = true := by
  cases c with
  | token =>
      change Place.coming (if _ then _ else _) = true
      split
      · rename_i hclient
        exact absurd ⟨hclient, rfl⟩ (htakes s.source.token)
      · exact h
  | loadToken id =>
      change Place.coming (if _ then _ else _) = true
      split <;> exact h
  | build id t =>
      change Place.coming (if _ then _ else _) = true
      split <;> exact h
  | changed id =>
      have hnone : g.coming = false := by
        rw [show g = { op := .authTurn id true } from hallowed]
        rfl
      rw [hnone] at h
      cases h
  | borrow id => exact absurd rfl (htakes s.source.tokenTx.value)
  | _ => exact h

/-! ## One call -/

theorem token_handle {s : Plane} {c : Call} (hc : ∀ t, c ≠ .store t) :
    (handle builds s c ()).1.source.token = s.source.token := by
  cases c with
  | store t => exact absurd rfl (hc t)
  | _ => rfl

theorem client_token_after (s : Plane) (j : Nat) (p : ProjectControlPlaneClient) (c : Call) :
    (s.after j p c).client.token = p.client.token ∨
      ∃ t, c = .storeClient j t ∧ (s.after j p c).client.token = t := by
  cases c with
  | storeClient id t =>
      rcases Decidable.em (id = j) with rfl | hne
      · refine .inr ⟨t, rfl, ?_⟩
        rw [Plane.after, if_pos rfl]
      · rw [Plane.after, if_neg hne]
        exact .inl rfl
  | storeToken id t =>
      rw [Plane.after]
      split <;> exact .inl rfl
  | changed id =>
      rw [Plane.after]
      split <;> exact .inl rfl
  | drop id =>
      rw [Plane.after]
      split <;> exact .inl rfl
  | _ => exact .inl rfl

section

variable {i : Nat} {client : Worker} {c : Call} {k : c.Reply → Program Bool}

theorem eq_of_alone {id : Nat} {t t' : String} (h : w.Alone id t') (htaking : w.Taking id t) :
    t = t' := by
  obtain ⟨j, cl, hcl, hop, htaken⟩ := htaking
  exact h cl (List.mem_of_getElem? hcl) hop t htaken

/-- A token that a rebuild has after a call it had before, or takes while no other has another. -/
theorem taking_of_called (hclient : w.clients[i]? = some client) (hallowed : client.place.Allowed c)
    (hundisturbed : Undisturbed builds w client.place c) {id : Nat} {t : String}
    (h : Clients.Taking (w.called (system builds) i client c k ()) id t) :
    w.Taking id t ∨ w.Alone id t ∧ Takes w.state client.place t c := by
  rcases at_of_called h with hold | ⟨hop, htaken⟩
  · exact .inl hold
  · rw [op_advance] at hop
    rcases taken_advance htaken with hold | htakes
    · exact .inl ⟨i, client, hclient, hop, hold⟩
    · refine .inr ⟨?_, htakes⟩
      cases c with
      | token =>
          obtain ⟨_, rfl⟩ := htakes
          exact hundisturbed id hop
      | borrow id' =>
          obtain rfl : w.state.source.tokenTx.value = t := htakes
          have hid : client.place.op.client = some id' := by
            rw [hallowed.1]
            rfl
          rw [hid] at hop
          cases hop
          exact hundisturbed
      | _ => exact htakes.elim

end

end DatumConnect.Credentials
