import DatumConnect.Credentials.ControlPlane
/-!
# Keeping up with the token

A client keeps up with the token of its source as long as its task hears of every change, and no two
rebuilds of it are under way with different tokens.
-/

namespace DatumConnect.Credentials

open DatumConnect.Lib
open DatumConnect.Lib.Prog (Follows)
open DatumConnect.Lib.Pool

variable {builds : String → String → Bool}

/-! ## Each call follows from the ones before it -/

/-- Where a program is at its end. -/
structure Rested (op : Op) (g : Place) (goesOn : Bool) : Prop where
  same : g.op = op
  taken : g.taken = none
  swapping : g.swapping = none
  coming : g.coming = false
  goesOn : ∀ id, op = .authTask id true ∨ op = .authTurn id true → goesOn = !g.closed

theorem follows_rebuild {g : Place} {id : Nat} {accessToken : String}
    (hclient : g.op.client = some id) (htaken : g.taken = some accessToken)
    (hhalf : g.half = false) :
    Follows protocol (fun g' _ => g' = g.finish) (rebuildIfChanged id accessToken) g := by
  refine ⟨⟨hclient, by rw [htaken]; rfl, hhalf⟩, fun current => ?_⟩
  by_cases hcurrent : current = accessToken
  · have hplace : protocol.advance g (.loadToken id) current = g.finish :=
      if_pos (by rw [htaken, hcurrent])
    rw [hplace]
    change Follows protocol _ (if current = accessToken then _ else _) _
    rw [if_pos hcurrent]
    exact rfl
  · have hplace : protocol.advance g (.loadToken id) current = g := by
      refine if_neg fun h => hcurrent ?_
      rw [htaken] at h
      exact (Option.some.inj h).symm
    rw [hplace]
    change Follows protocol _ (if current = accessToken then _ else _) _
    rw [if_neg hcurrent]
    refine ⟨⟨hclient, htaken, hhalf⟩, fun built => ?_⟩
    cases built with
    | false => exact rfl
    | true => exact ⟨⟨hclient, htaken, hhalf⟩, fun _ => ⟨⟨hclient, htaken, rfl⟩, fun _ => rfl⟩⟩

theorem follows_refresh {g : Place} {id : Nat} (hclient : g.op.client = some id)
    (htaken : g.taken = none) (hhalf : g.half = false) :
    Follows protocol (fun g' _ => ∃ t, g' = (g.take t).finish) (clientRefreshed id) g := by
  refine ⟨.inl ⟨by rw [hclient]; rfl, htaken, hhalf⟩, fun token => ?_⟩
  have hplace : protocol.advance g .token token = g.take token := if_pos (by rw [hclient]; rfl)
  have hrebuild := @follows_rebuild (g.take token) id token hclient rfl hhalf
  rw [hplace]
  exact hrebuild.mono fun g' _ h => ⟨token, h⟩

theorem follows_code (op : Op) :
    Follows protocol (Rested op) (code builds op) { op } := by
  cases op with
  | swapToken newToken =>
      exact ⟨rfl, fun _ => ⟨rfl, fun _ => ⟨rfl, rfl, rfl, rfl, nofun⟩⟩⟩
  | new serverUrl accessToken =>
      have hend : Rested (.new serverUrl accessToken) { op := .new serverUrl accessToken } false :=
        ⟨rfl, rfl, rfl, rfl, nofun⟩
      change Follows protocol _ (ProjectControlPlaneClient.new builds serverUrl accessToken >>= _) _
      unfold ProjectControlPlaneClient.new
      split
      · exact ⟨trivial, fun _ => hend⟩
      · exact hend
  | newWithTokenSource serverUrl =>
      have hend : Rested (.newWithTokenSource serverUrl) { op := .newWithTokenSource serverUrl }
          false := ⟨rfl, rfl, rfl, rfl, nofun⟩
      refine ⟨.inr ⟨serverUrl, rfl⟩, fun token => ?_⟩
      change Follows protocol _ ((if builds serverUrl token then _ else _) >>= _)
        { op := .newWithTokenSource serverUrl }
      split
      · exact ⟨trivial, fun _ => hend⟩
      · exact hend
  | clientRefreshed id =>
      refine Follows.bind ((follows_refresh rfl rfl rfl).mono fun g _ => ?_)
      rintro ⟨t, rfl⟩
      exact ⟨rfl, rfl, rfl, rfl, nofun⟩
  | authTask id watching =>
      have hend (t : String) : Rested (.authTask id watching)
          ((Place.take { op := .authTask id watching } t).finish) true :=
        ⟨rfl, rfl, rfl, rfl, fun _ _ => rfl⟩
      cases watching with
      | true =>
          refine Follows.bind ((follows_refresh rfl rfl rfl).mono fun g _ => ?_)
          rintro ⟨t, rfl⟩
          exact hend t
      | false =>
          refine Follows.bind ((follows_refresh rfl rfl rfl).mono fun g _ => ?_)
          rintro ⟨t, rfl⟩
          exact hend t
  | authTurn id watching =>
      cases watching with
      | true =>
          refine ⟨rfl, fun changed => ?_⟩
          cases changed with
          | false => exact ⟨rfl, rfl, rfl, rfl, fun _ _ => rfl⟩
          | true =>
              refine ⟨⟨rfl, rfl, rfl, rfl, rfl⟩, fun newToken => ?_⟩
              change Follows protocol _ (rebuildIfChanged id newToken >>= _) _
              refine Follows.bind ((follows_rebuild rfl rfl rfl).mono fun g _ => ?_)
              rintro rfl
              exact ⟨rfl, rfl, rfl, rfl, fun _ _ => rfl⟩
      | false =>
          refine ⟨rfl, fun changed => ?_⟩
          cases changed with
          | false => exact ⟨rfl, rfl, rfl, rfl, nofun⟩
          | true =>
              change Follows protocol _ (clientRefreshed id >>= _) _
              refine Follows.bind ((follows_refresh rfl rfl rfl).mono fun g _ => ?_)
              rintro ⟨t, rfl⟩
              exact ⟨rfl, rfl, rfl, rfl, nofun⟩
  | dropClient id => exact ⟨rfl, fun _ => ⟨rfl, rfl, rfl, rfl, nofun⟩⟩

/-! ## What one call does to the clients -/

theorem Plane.modify_clients (s : Plane) (id j : Nat)
    (f : ProjectControlPlaneClient → ProjectControlPlaneClient) :
    (s.modify id f).clients[j]? = (s.clients[j]?).map fun c => if id = j then f c else c :=
  List.getElem?_modify f id s.clients j

/-- What a call makes of client `j`. -/
def Plane.after (s : Plane) (j : Nat) (p : ProjectControlPlaneClient) :
    Call → ProjectControlPlaneClient
  | .storeClient id t =>
      if id = j then { p with client := { serverUrl := p.serverUrl, token := t } } else p
  | .storeToken id t => if id = j then { p with accessToken := t } else p
  | .changed id =>
      if id = j then { p with seen := p.seen.map fun _ => s.source.tokenTx.version } else p
  | .drop id => if id = j then { p with live := false } else p
  | _ => p

theorem clients_handle (s : Plane) (c : Call) {j : Nat} (hj : j < s.clients.length) :
    (handle builds s c ()).1.clients[j]? = (s.clients[j]?).map fun p => s.after j p c := by
  have hsame : s.clients[j]? = (s.clients[j]?).map fun p => p := by
    rw [Option.map_id_fun', id]
  cases c with
  | create serverUrl accessToken watching => exact (List.getElem?_append_left hj).trans hsame
  | storeClient id t => exact s.modify_clients id j _
  | storeToken id t => exact s.modify_clients id j _
  | changed id => exact s.modify_clients id j _
  | drop id => exact s.modify_clients id j _
  | token => exact hsame
  | store t => exact hsame
  | send t => exact hsame
  | loadToken id => exact hsame
  | build id t => exact hsame
  | borrow id => exact hsame
  | select id => exact hsame

/-- What stays of a client. -/
structure Stays (p p' : ProjectControlPlaneClient) : Prop where
  serverUrl : p'.serverUrl = p.serverUrl
  watching : p'.seen.isSome = p.seen.isSome
  live : p'.live = true → p.live = true

theorem stays_after (s : Plane) (j : Nat) (p : ProjectControlPlaneClient) (c : Call) :
    Stays p (s.after j p c) := by
  have hsame : Stays p p := ⟨rfl, rfl, id⟩
  cases c with
  | storeClient id t =>
      change Stays p (if id = j then _ else p)
      split
      · exact ⟨rfl, rfl, fun h => h⟩
      · exact hsame
  | storeToken id t =>
      change Stays p (if id = j then _ else p)
      split
      · exact ⟨rfl, rfl, fun h => h⟩
      · exact hsame
  | changed id =>
      change Stays p (if id = j then _ else p)
      split
      · exact ⟨rfl, Option.isSome_map, fun h => h⟩
      · exact hsame
  | drop id =>
      change Stays p (if id = j then _ else p)
      split
      · exact ⟨rfl, rfl, nofun⟩
      · exact hsame
  | _ => exact hsame

theorem length_handle (s : Plane) (c : Call) :
    s.clients.length ≤ (handle builds s c ()).1.clients.length := by
  cases c with
  | create serverUrl accessToken watching =>
      rw [handle, List.length_append]
      exact Nat.le_add_right _ _
  | _ => simp [handle, Plane.modify]

/-- A client after a call is one from before it, or has just been made. -/
theorem client_of_handle {s : Plane} {c : Call} {j : Nat} {p' : ProjectControlPlaneClient}
    (h : (handle builds s c ()).1.clients[j]? = some p') :
    (∃ p, s.clients[j]? = some p ∧ p' = s.after j p c) ∨
      ∃ serverUrl t watching, c = .create serverUrl t watching ∧ j = s.clients.length ∧
        p' = {
          serverUrl
          accessToken := t
          client := { serverUrl, token := t }
          seen := if watching then some s.source.tokenTx.version else none } := by
  rcases Nat.lt_or_ge j s.clients.length with hj | hj
  · rw [clients_handle s c hj, Option.map_eq_some_iff] at h
    obtain ⟨p, hp, rfl⟩ := h
    exact .inl ⟨p, hp, rfl⟩
  · have hlt := (List.getElem?_eq_some_iff.mp h).1
    cases c with
    | create serverUrl t watching =>
        change (s.clients ++ [_])[j]? = some p' at h
        rw [List.getElem?_append_right hj, List.getElem?_singleton] at h
        split at h
        · exact .inr ⟨serverUrl, t, watching, rfl, by omega, (Option.some.inj h).symm⟩
        · cases h
    | _ =>
        simp only [handle, Plane.modify, List.length_modify] at hlt
        omega

/-! ## What holds in any case -/

structure Base (builds : String → String → Bool) (w : Clients) : Prop where
  faithful : System.Faithful (system builds) (fun op g b => Rested op g b) w
  kept : ∀ (i : Nat) (cl : Worker), w.clients[i]? = some cl → ∃ p, cl.prog = some p
  op : ∀ (i : Nat) (cl : Worker), w.clients[i]? = some cl → cl.place.op = cl.op
  half : ∀ (i : Nat) (cl : Worker), w.clients[i]? = some cl → cl.place.half = true →
    cl.place.taken.isSome = true
  opened : ∀ (i : Nat) (cl : Worker), w.clients[i]? = some cl → cl.place.closed = false
  known : ∀ (i : Nat) (cl : Worker) (id : Nat), w.clients[i]? = some cl →
    cl.op.client = some id → id < w.state.clients.length
  watching : ∀ (i : Nat) (cl : Worker) (id : Nat) (b : Bool), w.clients[i]? = some cl →
    cl.op = .authTask id b ∨ cl.op = .authTurn id b →
    ∃ p, w.state.clients[id]? = some p ∧ p.seen.isSome = b
  alive : w.state.source.tokenTx.alive = true
  seen : ∀ (id : Nat) (p : ProjectControlPlaneClient) (v : Nat), w.state.clients[id]? = some p →
    p.seen = some v → v ≤ w.state.source.tokenTx.version

variable {w : Clients}

theorem no_worker {token : String} {i : Nat} {cl : Worker}
    (h : (start token).clients[i]? = some cl) : False := by
  rw [show (start token).clients = [] from rfl, List.getElem?_nil] at h
  cases h

theorem no_client {token : String} {id : Nat} {p : ProjectControlPlaneClient}
    (h : (start token).state.clients[id]? = some p) : False := by
  rw [show (start token).state.clients = [] from rfl, List.getElem?_nil] at h
  cases h

theorem base_start (token : String) : Base builds (start token) where
  faithful _ _ _ hcl := (no_worker hcl).elim
  kept _ _ hcl := (no_worker hcl).elim
  op _ _ hcl := (no_worker hcl).elim
  half _ _ hcl := (no_worker hcl).elim
  opened _ _ hcl := (no_worker hcl).elim
  known _ _ _ hcl := (no_worker hcl).elim
  watching _ _ _ _ hcl := (no_worker hcl).elim
  alive := rfl
  seen _ _ _ hp := (no_client hp).elim

theorem op_advance (g : Place) (c : Call) (r : c.Reply) : (g.advance c r).op = g.op := by
  cases c with
  | token =>
      change Place.op (if _ then _ else _) = _
      split <;> rfl
  | loadToken id =>
      change Place.op (if _ then _ else _) = _
      split <;> rfl
  | build id t =>
      change Place.op (if _ then _ else _) = _
      split <;> rfl
  | _ => rfl

theorem half_advance {g : Place} {c : Call} (hallowed : g.Allowed c) (r : c.Reply)
    (hg : g.half = true → g.taken.isSome = true) :
    (g.advance c r).half = true → (g.advance c r).taken.isSome = true := by
  cases c with
  | token =>
      change Place.half (if _ then _ else _) = true → (Place.taken (if _ then _ else _)).isSome = true
      split
      · exact fun _ => rfl
      · exact hg
  | loadToken id =>
      change Place.half (if _ then _ else _) = true → (Place.taken (if _ then _ else _)).isSome = true
      split
      · exact nofun
      · exact hg
  | build id t =>
      change Place.half (if _ then _ else _) = true → (Place.taken (if _ then _ else _)).isSome = true
      split
      · exact hg
      · exact nofun
  | storeClient id t =>
      intro _
      change g.taken.isSome = true
      rw [hallowed.2.1]
      rfl
  | storeToken id t => exact nofun
  | borrow id => exact fun _ => rfl
  | _ => exact hg

theorem tokenChanged_ne_closed {s : Plane} (halive : s.source.tokenTx.alive = true) (id : Nat) :
    s.tokenChanged id ≠ .closed := by
  unfold Plane.tokenChanged
  split
  · exact Watch.ne_closed halive
  · exact Watch.Changed.noConfusion

theorem call_ready {i : Nat} {client : Worker} {c : Call} {k : c.Reply → Program Bool}
    (hready : ready w (.step i ()) = true) (hclient : w.clients[i]? = some client)
    (hprog : client.prog = some (.call c k)) : w.state.ready c = true := by
  change ((w.clients[i]?).bind Client.next).all w.state.ready = true at hready
  have hnext : client.next = some c := by
    unfold Client.next
    rw [hprog]
  rw [hclient, Option.bind_some, hnext] at hready
  exact hready

theorem ready_changed {s : Plane} {id : Nat} (h : s.ready (.changed id) = true) :
    s.lives id = true ∧ s.tokenChanged id ≠ .waits := by
  have h := Bool.and_eq_true_iff.mp h
  exact ⟨h.1, bne_iff_ne.mp h.2⟩

theorem lives_iff {s : Plane} {id : Nat} :
    s.lives id = true ↔ ∃ p, s.clients[id]? = some p ∧ p.live = true := by
  rw [Plane.lives, Option.any_eq_true]

theorem has_iff {s : Plane} {id : Nat} {b : Bool} :
    s.has id b = true ↔ ∃ p, s.clients[id]? = some p ∧ p.live = true ∧ p.seen.isSome = b := by
  rw [Plane.has, Option.any_eq_true]
  simp [Bool.and_eq_true]

/-- The place of a program after a call is that of one before it, or the caller's. -/
theorem place_of_call {i j : Nat} {client cl : Worker} {c : Call} {k : c.Reply → Program Bool}
    (hcl : (w.called (system builds) i client c k ()).clients[j]? = some cl) :
    j = i ∧ cl.op = client.op ∧
        cl.place = client.place.advance c (handle builds w.state c ()).2 ∨
      j ≠ i ∧ ∃ other, w.clients[j]? = some other ∧ cl.op = other.op ∧ cl.prog = other.prog ∧
        cl.place = other.place := by
  rcases System.client_of_call hcl with ⟨rfl, rfl⟩ | ⟨hne, other, hother, rfl⟩
  · exact .inl ⟨rfl, rfl, rfl⟩
  · exact .inr ⟨hne, other, hother, rfl, rfl, rfl⟩

/-- What is true of a place before a call, and of the caller's after it, is true of every place
after it. -/
theorem places_called {P : Op → Place → Prop} {i : Nat} {client : Worker} {c : Call}
    {k : c.Reply → Program Bool}
    (h : ∀ (j : Nat) (cl : Worker), w.clients[j]? = some cl → P cl.op cl.place)
    (hnew : P client.op (client.place.advance c (handle builds w.state c ()).2)) (j : Nat)
    (cl : Worker) (hcl : (w.called (system builds) i client c k ()).clients[j]? = some cl) :
    P cl.op cl.place := by
  rcases place_of_call hcl with ⟨_, hop, hplace⟩ | ⟨_, other, hother, hop, _, hplace⟩
  · rw [hop, hplace]
    exact hnew
  · rw [hop, hplace]
    exact h j other hother

theorem source_handle_alive (s : Plane) (c : Call) :
    (handle builds s c ()).1.source.tokenTx.alive = s.source.tokenTx.alive := by
  cases c with
  | send t => exact Watch.alive_send
  | _ => rfl

theorem version_le_handle (s : Plane) (c : Call) :
    s.source.tokenTx.version ≤ (handle builds s c ()).1.source.tokenTx.version := by
  cases c with
  | send t => exact Watch.version_le_send
  | _ => exact Nat.le_refl _

theorem seen_handle {s : Plane} {c : Call} {id v : Nat} {p' : ProjectControlPlaneClient}
    (h : ∀ (id : Nat) (p : ProjectControlPlaneClient) (v : Nat), s.clients[id]? = some p →
      p.seen = some v → v ≤ s.source.tokenTx.version)
    (hp : (handle builds s c ()).1.clients[id]? = some p') (hv : p'.seen = some v) :
    v ≤ s.source.tokenTx.version := by
  rcases client_of_handle hp with ⟨p, hold, rfl⟩ | ⟨_, _, watching, _, _, rfl⟩
  · cases c with
    | changed id' =>
        change ProjectControlPlaneClient.seen (if id' = id then _ else p) = some v at hv
        split at hv
        · obtain ⟨_, _, hv⟩ := Option.map_eq_some_iff.mp hv
          exact Nat.le_of_eq hv.symm
        · exact h id p v hold hv
    | storeClient id' t =>
        change ProjectControlPlaneClient.seen (if id' = id then _ else p) = some v at hv
        split at hv <;> exact h id p v hold hv
    | storeToken id' t =>
        change ProjectControlPlaneClient.seen (if id' = id then _ else p) = some v at hv
        split at hv <;> exact h id p v hold hv
    | drop id' =>
        change ProjectControlPlaneClient.seen (if id' = id then _ else p) = some v at hv
        split at hv <;> exact h id p v hold hv
    | _ => exact h id p v hold hv
  · cases watching with
    | true =>
        cases hv
        exact Nat.le_refl _
    | false => cases hv

/-- A task that goes on has been told of a change. -/
theorem changed_reply {s : Plane} {id : Nat} (halive : s.source.tokenTx.alive = true)
    (hready : s.ready (.changed id) = true) : (handle builds s (.changed id) ()).2 = true := by
  have hclosed := tokenChanged_ne_closed halive id
  have hwaits := (ready_changed hready).2
  refine decide_eq_true ?_
  cases hchanged : s.tokenChanged id with
  | waits => exact absurd hchanged hwaits
  | changed => rfl
  | closed => exact absurd hchanged hclosed

theorem opened_advance {s : Plane} {g : Place} {c : Call}
    (halive : s.source.tokenTx.alive = true) (hready : s.ready c = true)
    (hg : g.closed = false) : (g.advance c (handle builds s c ()).2).closed = false := by
  cases c with
  | token =>
      change Place.closed (if _ then _ else _) = false
      split <;> exact hg
  | loadToken id =>
      change Place.closed (if _ then _ else _) = false
      split <;> exact hg
  | build id t =>
      change Place.closed (if _ then _ else _) = false
      split <;> exact hg
  | changed id =>
      change (!(handle builds s (.changed id) ()).2) = false
      rw [changed_reply halive hready]
      rfl
  | _ => exact hg

theorem Base.called (h : Base builds w) {i : Nat} {client : Worker} {c : Call}
    {k : c.Reply → Program Bool} (hclient : w.clients[i]? = some client)
    (hprog : client.prog = some (.call c k)) (hready : w.state.ready c = true)
    (hfaithful : System.Faithful (system builds) (fun op g b => Rested op g b)
      (w.called (system builds) i client c k ())) :
    Base builds (w.called (system builds) i client c k ()) where
  faithful := hfaithful
  kept := by
    intro j cl hcl
    rcases System.client_of_call hcl with ⟨_, rfl⟩ | ⟨_, other, hother, rfl⟩
    · exact ⟨_, rfl⟩
    · exact h.kept j other hother
  op := places_called (P := fun op g => g.op = op) h.op
    ((op_advance _ _ _).trans (h.op i client hclient))
  half := places_called (P := fun _ g => g.half = true → g.taken.isSome = true) h.half
    (half_advance (h.faithful.allowed hclient hprog) _ (h.half i client hclient))
  opened := places_called (P := fun _ g => g.closed = false) h.opened
    (opened_advance h.alive hready (h.opened i client hclient))
  known := by
    intro j cl id hcl hid
    have hlt : id < w.state.clients.length := by
      rcases place_of_call hcl with ⟨_, hop, _⟩ | ⟨_, other, hother, hop, _⟩
      · exact h.known i client id hclient (hop ▸ hid)
      · exact h.known j other id hother (hop ▸ hid)
    exact Nat.lt_of_lt_of_le hlt (length_handle w.state c)
  watching := by
    intro j cl id b hcl hop
    obtain ⟨p, hp, hb⟩ : ∃ p, w.state.clients[id]? = some p ∧ p.seen.isSome = b := by
      rcases place_of_call hcl with ⟨_, hop', _⟩ | ⟨_, other, hother, hop', _⟩
      · exact h.watching i client id b hclient (hop' ▸ hop)
      · exact h.watching j other id b hother (hop' ▸ hop)
    refine ⟨w.state.after id p c, ?_, (stays_after w.state id p c).watching.trans hb⟩
    change (handle builds w.state c ()).1.clients[id]? = _
    rw [clients_handle _ _ (List.getElem?_eq_some_iff.mp hp).1, hp]
    rfl
  alive := (source_handle_alive w.state c).trans h.alive
  seen _ _ _ hp hv := Nat.le_trans (seen_handle h.seen hp hv) (version_le_handle w.state c)

theorem Base.spawned (h : Base builds w) {op : Op} (hready : ready w (.spawn op) = true)
    (hfaithful : System.Faithful (system builds) (fun op g b => Rested op g b)
      (w.spawned (system builds) op)) :
    Base builds (w.spawned (system builds) op) where
  faithful := hfaithful
  kept := by
    intro j cl hcl
    rcases System.client_of_spawn hcl with hold | ⟨_, rfl⟩
    · exact h.kept j cl hold
    · exact ⟨_, rfl⟩
  op := by
    intro j cl hcl
    rcases System.client_of_spawn hcl with hold | ⟨_, rfl⟩
    · exact h.op j cl hold
    · rfl
  half := by
    intro j cl hcl
    rcases System.client_of_spawn hcl with hold | ⟨_, rfl⟩
    · exact h.half j cl hold
    · exact nofun
  opened := by
    intro j cl hcl
    rcases System.client_of_spawn hcl with hold | ⟨_, rfl⟩
    · exact h.opened j cl hold
    · rfl
  known := by
    intro j cl id hcl hid
    rcases System.client_of_spawn hcl with hold | ⟨_, rfl⟩
    · exact h.known j cl id hold hid
    · cases op with
      | clientRefreshed id' =>
          cases hid
          obtain ⟨p, hp, _⟩ := lives_iff.mp hready
          exact (List.getElem?_eq_some_iff.mp hp).1
      | authTask id' b =>
          cases hid
          obtain ⟨p, hp, _⟩ := has_iff.mp (Bool.and_eq_true_iff.mp hready).1
          exact (List.getElem?_eq_some_iff.mp hp).1
      | authTurn id' b =>
          cases hid
          have hhas := (Bool.and_eq_true_iff.mp (Bool.and_eq_true_iff.mp hready).1).1
          obtain ⟨p, hp, _⟩ := has_iff.mp hhas
          exact (List.getElem?_eq_some_iff.mp hp).1
      | _ => cases hid
  watching := by
    intro j cl id b hcl hop
    rcases System.client_of_spawn hcl with hold | ⟨_, rfl⟩
    · exact h.watching j cl id b hold hop
    · rcases hop with rfl | rfl
      · obtain ⟨p, hp, _, hb⟩ := has_iff.mp (Bool.and_eq_true_iff.mp hready).1
        exact ⟨p, hp, hb⟩
      · have hhas := (Bool.and_eq_true_iff.mp (Bool.and_eq_true_iff.mp hready).1).1
        obtain ⟨p, hp, _, hb⟩ := has_iff.mp hhas
        exact ⟨p, hp, hb⟩
  alive := h.alive
  seen := h.seen

end DatumConnect.Credentials
