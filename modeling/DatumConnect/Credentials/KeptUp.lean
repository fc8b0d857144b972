import DatumConnect.Credentials.InTime
/-!
# Clients that keep up

Rebuilds that are in time keep every client up with its source, so that one whose task waits, and
that nobody rebuilds, has the source's token.
-/

namespace DatumConnect.Credentials

open DatumConnect.Lib
open DatumConnect.Lib.Pool

variable {builds : String → String → Bool} {w : Clients}

/-! ## A call -/

/-- A call that is made in time. -/
structure Made (builds : String → String → Bool) (w : Clients) (i : Nat) (client : Worker) (c : Call) :
    Prop where
  there : w.clients[i]? = some client
  allowed : client.place.Allowed c
  ready : w.state.ready c = true
  undisturbed : Undisturbed builds w client.place c

namespace Kept

variable {i : Nat} {client : Worker} {c : Call} {k : c.Reply → Program Bool}

theorem swap_called (h : Kept builds w) (hm : Made builds w i client c) (t : String)
    (hat : Clients.At (w.called (system builds) i client c k ()) fun g => g.swapping = some t) :
    (handle builds w.state c ()).1.source.token = t := by
  rcases at_of_called hat with hold | hnew
  · have htoken : (handle builds w.state c ()).1.source.token = w.state.source.token := by
      refine token_handle fun t' hc => ?_
      subst hc
      obtain ⟨j, cl, hcl, hswapping⟩ := hold
      have hnone := hm.undisturbed.1 cl (List.mem_of_getElem? hcl)
      rw [hswapping] at hnone
      cases hnone
    exact htoken.trans (h.swap t hold)
  · rcases swapping_advance hnew with hold | rfl
    · have htoken : (handle builds w.state c ()).1.source.token = w.state.source.token := by
        refine token_handle fun t' hc => ?_
        subst hc
        have hnone := hm.undisturbed.1 client (List.mem_of_getElem? hm.there)
        rw [hold] at hnone
        cases hnone
      exact htoken.trans (h.swap t ⟨i, client, hm.there, hold⟩)
    · rfl

theorem agree_called (h : Kept builds w) (hm : Made builds w i client c) (id : Nat) (t t' : String)
    (ht : Clients.Taking (w.called (system builds) i client c k ()) id t)
    (ht' : Clients.Taking (w.called (system builds) i client c k ()) id t') : t = t' := by
  rcases taking_of_called hm.there hm.allowed hm.undisturbed ht with hold | ⟨halone, htakes⟩
  · rcases taking_of_called hm.there hm.allowed hm.undisturbed ht' with hold' | ⟨halone', _⟩
    · exact h.agree id t t' hold hold'
    · exact eq_of_alone halone' hold
  · rcases taking_of_called hm.there hm.allowed hm.undisturbed ht' with hold' | ⟨_, htakes'⟩
    · exact (eq_of_alone halone hold').symm
    · cases c with
      | token => exact htakes.2.symm.trans htakes'.2
      | borrow id' => exact htakes.symm.trans htakes'
      | _ => exact htakes.elim

theorem half_called (h : Kept builds w) (hm : Made builds w i client c)
    (hbase : Base builds (w.called (system builds) i client c k ())) (id : Nat)
    (p : ProjectControlPlaneClient) (hp : (handle builds w.state c ()).1.clients[id]? = some p)
    (hhalf : Clients.Half (w.called (system builds) i client c k ()) id) :
    Clients.Taking (w.called (system builds) i client c k ()) id p.client.token := by
  obtain ⟨j, cl, hcl, hop, hhalf⟩ := hhalf
  obtain ⟨t, ht⟩ := Option.isSome_iff_exists.mp (hbase.half j cl hcl hhalf)
  refine ⟨j, cl, hcl, hop, ?_⟩
  rw [ht]
  have hknown : id < w.state.clients.length := by
    rcases place_of_call hcl with ⟨_, hop', _⟩ | ⟨_, other, hother, hop', _⟩
    · exact h.base.known i client id hm.there (by rw [← hop', ← hbase.op j cl hcl, hop])
    · exact h.base.known j other id hother (by rw [← hop', ← hbase.op j cl hcl, hop])
  rw [clients_handle _ _ hknown, Option.map_eq_some_iff] at hp
  obtain ⟨p, hp, rfl⟩ := hp
  -- The rebuild is half through since before the call, or since the call.
  have hcases : (∃ id' t', c = .storeClient id' t' ∧ j = i) ∨
      w.Half id ∧ w.Taking id t := by
    rcases place_of_call hcl with ⟨hji, _, hplace⟩ | ⟨_, other, hother, _, _, hplace⟩
    · rw [hplace] at hop hhalf ht
      rw [op_advance] at hop
      rcases half_of_advance hm.allowed hhalf with ⟨id', t', hc⟩ | ⟨hold, htaken⟩
      · exact .inl ⟨id', t', hc, hji⟩
      · rw [htaken] at ht
        exact .inr ⟨⟨i, client, hm.there, hop, hold⟩, i, client, hm.there, hop, ht⟩
    · rw [hplace] at hop hhalf ht
      exact .inr ⟨⟨j, other, hother, hop, hhalf⟩, j, other, hother, hop, ht⟩
  rcases client_token_after w.state id p c with hsame | ⟨t', rfl, ht'⟩
  · rcases hcases with ⟨id', t', rfl, rfl⟩ | ⟨hhalf', htaking⟩
    · rcases place_of_call hcl with ⟨_, _, hplace⟩ | ⟨hne, _⟩
      · rw [hplace] at hop ht
        have hid : some id' = some id := hm.allowed.1.symm.trans hop
        cases hid
        have htt : some t' = some t := hm.allowed.2.1.symm.trans ht
        cases htt
        rw [Plane.after, if_pos rfl]
      · exact absurd rfl hne
    · rw [hsame]
      exact congrArg some (h.agree id _ _ htaking (h.half id p hp hhalf'))
  · rw [ht']
    rcases hcases with ⟨id', t'', hc, rfl⟩ | ⟨_, htaking⟩
    · cases hc
      rcases place_of_call hcl with ⟨_, _, hplace⟩ | ⟨hne, _⟩
      · rw [hplace] at ht
        exact ht.symm.trans hm.allowed.2.1
      · exact absurd rfl hne
    · exact congrArg some
        (h.agree id _ _ htaking ⟨i, client, hm.there, hm.allowed.1, hm.allowed.2.1⟩)

theorem paired_called (h : Kept builds w) (hm : Made builds w i client c) (id : Nat)
    (p : ProjectControlPlaneClient) (hp : (handle builds w.state c ()).1.clients[id]? = some p) :
    p.client.serverUrl = p.serverUrl ∧
      (p.client.token = p.accessToken ∨
        Clients.Half (w.called (system builds) i client c k ()) id) := by
  rcases client_of_handle hp with ⟨p, hold, rfl⟩ | ⟨_, _, _, _, _, rfl⟩
  · obtain ⟨hurl, hpaired⟩ := h.paired id p hold
    have hstays (hstore : ∀ id' t, c = .storeToken id' t → client.place.op.client ≠ some id')
        (hhalf : w.Half id) : Clients.Half (w.called (system builds) i client c k ()) id := by
      refine at_called hhalf hm.there fun hg => ⟨?_, half_stays _ hm.allowed hstore hg.2⟩
      rw [op_advance]
      exact hg.1
    cases c with
    | storeClient id' t =>
        rcases Decidable.em (id' = id) with rfl | hne
        · rw [Plane.after, if_pos rfl]
          exact ⟨rfl, .inr (at_caller hm.there ⟨hm.allowed.1, rfl⟩)⟩
        · rw [Plane.after, if_neg hne]
          exact ⟨hurl, hpaired.imp_right (hstays fun _ _ hc => by cases hc)⟩
    | storeToken id' t =>
        rcases Decidable.em (id' = id) with rfl | hne
        · rw [Plane.after, if_pos rfl]
          have htaking : w.Taking id' t :=
            ⟨i, client, hm.there, hm.allowed.1, hm.allowed.2.1⟩
          have hhalf : w.Half id' := ⟨i, client, hm.there, hm.allowed.1, hm.allowed.2.2⟩
          exact ⟨hurl, .inl (h.agree id' _ _ (h.half id' p hold hhalf) htaking)⟩
        · rw [Plane.after, if_neg hne]
          refine ⟨hurl, hpaired.imp_right fun hhalf => ?_⟩
          -- The rebuild that is half through is not the caller's.
          refine at_called hhalf hm.there fun hg => ?_
          have hid : some id' = some id := hm.allowed.1.symm.trans hg.1
          exact absurd (Option.some.inj hid) hne
    | changed id' =>
        rw [Plane.after]
        split <;> exact ⟨hurl, hpaired.imp_right (hstays fun _ _ hc => by cases hc)⟩
    | drop id' =>
        rw [Plane.after]
        split <;> exact ⟨hurl, hpaired.imp_right (hstays fun _ _ hc => by cases hc)⟩
    | _ => exact ⟨hurl, hpaired.imp_right (hstays fun _ _ hc => by cases hc)⟩
  · exact ⟨rfl, .inl rfl⟩

theorem swapping_called (hm : Made builds w i client c) (hc : ∀ t, c ≠ .send t)
    (hswapping : w.Swapping) : Clients.Swapping (w.called (system builds) i client c k ()) :=
  at_called hswapping hm.there (swapping_stays _ hc)

theorem told_of_called (hm : Made builds w i client c) (hc : ∀ id, c ≠ .changed id) {id : Nat}
    (h : Clients.Told (w.called (system builds) i client c k ()) id) : w.Told id := by
  rcases at_of_called h with hold | ⟨htasks, htold⟩
  · exact hold
  · rw [op_advance] at htasks
    exact ⟨i, client, hm.there, htasks, told_of_advance hc htold⟩

/-- A client that watches has seen what the call leaves it with. -/
theorem seen_after {s : Plane} {j : Nat} {p : ProjectControlPlaneClient} (hc : ∀ id, c ≠ .changed id) :
    (s.after j p c).seen = p.seen := by
  cases c with
  | storeClient id t =>
      rw [Plane.after]
      split <;> rfl
  | storeToken id t =>
      rw [Plane.after]
      split <;> rfl
  | changed id => exact absurd rfl (hc id)
  | drop id =>
      rw [Plane.after]
      split <;> rfl
  | _ => rfl

/-- The task of a client is told of a change only if there is one it has not seen. -/
theorem unseen {id : Nat} (hbase : Base builds w) (hm : Made builds w i client (.changed id)) :
    ∃ p v, w.state.clients[id]? = some p ∧ p.live = true ∧ p.seen = some v ∧
      v ≠ w.state.source.tokenTx.version := by
  obtain ⟨hlives, hwaits⟩ := ready_changed hm.ready
  obtain ⟨p, hp, hlive⟩ := lives_iff.mp hlives
  have hop : client.op = .authTurn id true := by
    rw [← hbase.op i client hm.there, show client.place = { op := .authTurn id true } from hm.allowed]
  obtain ⟨p', hp', hsome⟩ := hbase.watching i client id true hm.there (.inr hop)
  rw [hp] at hp'
  cases hp'
  obtain ⟨v, hv⟩ := Option.isSome_iff_exists.mp hsome
  refine ⟨p, v, hp, hlive, hv, fun hsame => hwaits ?_⟩
  rw [Plane.tokenChanged, hp, Option.bind_some, hv]
  subst hsame
  change (if _ then _ else if _ then _ else _) = _
  rw [if_neg (fun h => h rfl), if_pos hbase.alive]

theorem seen_called (hm : Made builds w i client c) (hc : ∀ id, c ≠ .changed id)
    (h : ∀ (id : Nat) (p : ProjectControlPlaneClient) (v : Nat), w.state.clients[id]? = some p →
      p.live = true → p.seen = some v → v = w.state.source.tokenTx.version ∧ ¬w.Told id)
    {id v : Nat} {p : ProjectControlPlaneClient} (hp : w.state.clients[id]? = some p)
    (hlive : (w.state.after id p c).live = true) (hv : (w.state.after id p c).seen = some v) :
    v = w.state.source.tokenTx.version ∧
      ¬Clients.Told (w.called (system builds) i client c k ()) id := by
  rw [seen_after hc] at hv
  have hboth := h id p v hp ((stays_after _ _ _ _).live hlive) hv
  exact ⟨hboth.1, fun htold => hboth.2 (told_of_called hm hc htold)⟩

theorem value_called (h : Kept builds w) (hm : Made builds w i client c) :
    Clients.Swapping (w.called (system builds) i client c k ()) ∨
      (handle builds w.state c ()).1.source.tokenTx.value =
        (handle builds w.state c ()).1.source.token ∨
      ∀ (id : Nat) (p : ProjectControlPlaneClient) (v : Nat),
        (handle builds w.state c ()).1.clients[id]? = some p → p.live = true → p.seen = some v →
        v = (handle builds w.state c ()).1.source.tokenTx.version ∧
          ¬Clients.Told (w.called (system builds) i client c k ()) id := by
  cases c with
  | store t => exact .inl (at_caller hm.there (Option.some_ne_none t))
  | send t =>
      right
      cases hwatched : w.state.watched with
      | true =>
          have htoken := h.swap t ⟨i, client, hm.there, hm.allowed⟩
          refine .inl ?_
          change (w.state.source.tokenTx.send w.state.watched t).value = w.state.source.token
          rw [htoken, hwatched]
          rfl
      | false =>
          refine .inr fun id p v hp hlive hv => ?_
          change w.state.clients[id]? = some p at hp
          have hnone := List.any_eq_false.mp hwatched p (List.mem_of_getElem? hp)
          rw [hlive, hv] at hnone
          exact absurd rfl hnone
  | changed id =>
      obtain ⟨p, v, hp, hlive, hv, hne⟩ := unseen h.base hm
      rcases h.value with hswapping | hvalue | hseen
      · exact .inl (swapping_called hm (fun _ => Call.noConfusion) hswapping)
      · exact .inr (.inl hvalue)
      · exact absurd (hseen id p v hp hlive hv).1 hne
  | create serverUrl t watching =>
      rcases h.value with hswapping | hvalue | hseen
      · exact .inl (swapping_called hm (fun _ => Call.noConfusion) hswapping)
      · exact .inr (.inl hvalue)
      · refine .inr (.inr fun id p v hp hlive hv => ?_)
        rcases client_of_handle hp with ⟨p, hold, rfl⟩ | ⟨_, _, watching', _, hid, rfl⟩
        · exact seen_called hm (fun _ => Call.noConfusion) hseen hold hlive hv
        · have hversion : v = w.state.source.tokenTx.version := by
            cases watching' with
            | true =>
                cases hv
                rfl
            | false => cases hv
          refine ⟨hversion, fun htold => ?_⟩
          obtain ⟨j, cl, hcl, htasks, _⟩ := told_of_called hm (fun _ => Call.noConfusion) htold
          rw [h.base.op j cl hcl] at htasks
          have hlt := h.base.known j cl id hcl (client_of_tasks htasks)
          omega
  | _ =>
      rcases h.value with hswapping | hvalue | hseen
      · exact .inl (swapping_called hm (fun _ => Call.noConfusion) hswapping)
      · exact .inr (.inl hvalue)
      · refine .inr (.inr fun id p v hp hlive hv => ?_)
        rcases client_of_handle hp with ⟨p, hold, rfl⟩ | ⟨_, _, _, hc, _⟩
        · exact seen_called hm (fun _ => Call.noConfusion) hseen hold hlive hv
        · cases hc

/-- A client stays due if its task has not taken a token, it has not been told of a change, and no
swap has ended. -/
theorem due_called (hm : Made builds w i client c) {id : Nat} {p : ProjectControlPlaneClient}
    (hsend : ∀ t, c ≠ .send t) (hchanged : c ≠ .changed id)
    (htakes : client.place.op.tasks id = true → ∀ t, ¬Takes w.state client.place t c)
    (hdue : Due w id p) :
    Due (w.called (system builds) i client c k ()) id (w.state.after id p c) := by
  rcases hdue with htask | hcoming | ⟨v, hv, hbehind⟩
  · exact .inl (noTask_called hm.there htask)
  · refine .inr (.inl (at_called hcoming hm.there fun hg => ⟨?_, ?_⟩))
    · rw [op_advance]
      exact hg.1
    · exact coming_stays hm.allowed (htakes hg.1) hg.2
  · refine .inr (.inr ⟨v, ?_, ?_⟩)
    · cases c with
      | changed id' =>
          rw [Plane.after, if_neg fun hid => hchanged (congrArg Call.changed hid)]
          exact hv
      | _ => exact (seen_after fun _ => Call.noConfusion).trans hv
    · refine hbehind.imp (fun hne => ?_) (swapping_called hm hsend)
      cases c with
      | send t => exact absurd rfl (hsend t)
      | _ => exact hne

/-- A client stays fresh if nobody takes a token for it, and a rebuild that ends has given it the
token. -/
theorem fresh_called (hm : Made builds w i client c) {id : Nat} {p p' : ProjectControlPlaneClient}
    (htoken : (handle builds w.state c ()).1.source.token = w.state.source.token)
    (htakes : client.place.op.client = some id → ∀ t, ¬Takes w.state client.place t c)
    (hends : client.place.op.client = some id → client.place.taken = some w.state.source.token →
      (client.place.advance c (handle builds w.state c ()).2).taken = client.place.taken ∨
        p'.accessToken = w.state.source.token ∧ p'.client.token = w.state.source.token)
    (hcells : p.accessToken = w.state.source.token ∧ p.client.token = w.state.source.token →
      Clients.Taking (w.called (system builds) i client c k ()) id w.state.source.token ∨
        p'.accessToken = w.state.source.token ∧ p'.client.token = w.state.source.token)
    (hfresh : Fresh w id p) : Fresh (w.called (system builds) i client c k ()) id p' := by
  refine ⟨fun t ht => ?_, ?_⟩
  · change t = (handle builds w.state c ()).1.source.token
    rw [htoken]
    rcases at_of_called ht with hold | ⟨hop, htaken⟩
    · exact hfresh.taking t hold
    · rw [op_advance] at hop
      rcases taken_advance htaken with hold | hnew
      · exact hfresh.taking t ⟨i, client, hm.there, hop, hold⟩
      · exact absurd hnew (htakes hop t)
  · change Clients.Taking _ id (handle builds w.state c ()).1.source.token ∨
      p'.accessToken = (handle builds w.state c ()).1.source.token ∧
        p'.client.token = (handle builds w.state c ()).1.source.token
    rw [htoken]
    rcases hfresh.reaches with ⟨j, cl, hcl, hop, htaken⟩ | hboth
    · rcases Decidable.em (j = i) with rfl | hne
      · rw [hm.there] at hcl
        cases hcl
        refine (hends hop htaken).imp_left fun hsame => ?_
        exact at_caller hm.there ⟨(congrArg Op.client (op_advance _ _ _)).trans hop, hsame.trans htaken⟩
      · exact .inl ⟨j, _, System.called_other hcl hne, hop, htaken⟩
    · exact hcells hboth

/-- A rebuild that takes the token of the source, and comes across no other, makes its client
fresh. -/
theorem fresh_taken (hm : Made builds w i client c) {id : Nat} {p : ProjectControlPlaneClient}
    (hop : client.place.op.client = some id)
    (htoken : (handle builds w.state c ()).1.source.token = w.state.source.token)
    (halone : w.Alone id w.state.source.token)
    (htaken : (client.place.advance c (handle builds w.state c ()).2).taken =
      some w.state.source.token) :
    Fresh (w.called (system builds) i client c k ()) id p := by
  refine ⟨fun t ht => ?_, .inl ?_⟩
  · change t = (handle builds w.state c ()).1.source.token
    rw [htoken]
    rcases at_of_called ht with hold | ⟨_, hnew⟩
    · exact eq_of_alone halone hold
    · rw [htaken] at hnew
      exact (Option.some.inj hnew).symm
  · change Clients.Taking _ id (handle builds w.state c ()).1.source.token
    rw [htoken]
    exact at_caller hm.there ⟨(congrArg Op.client (op_advance _ _ _)).trans hop, htaken⟩

/-- A swap is stored while every client without a `token_rx` is yet to take its first token, so
every client is due. -/
theorem due_stored {t : String} {k : Unit → Program Bool} (hm : Made builds w i client (.store t)) {id : Nat}
    {p : ProjectControlPlaneClient} (hp : w.state.clients[id]? = some p) (hlive : p.live = true)
    (hbegins : ∀ id < w.state.clients.length, w.state.has id false = true → w.Begins id)
    (hops : ∀ (j : Nat) (cl : Worker), w.clients[j]? = some cl → cl.place.op = cl.op) :
    Due (w.called (system builds) i client (.store t) k ()) id p := by
  cases hseen : p.seen with
  | some v => exact .inr (.inr ⟨v, hseen, .inr (at_caller hm.there (Option.some_ne_none t))⟩)
  | none =>
      have hhas : w.state.has id false = true := has_iff.mpr ⟨p, hp, hlive, by rw [hseen]; rfl⟩
      rcases hbegins id (List.getElem?_eq_some_iff.mp hp).1 hhas with hnil | ⟨cl, hmem, hcoming⟩
      · exact .inl (noTask_called hm.there (task_eq_nil.mp hnil))
      · obtain ⟨hmem, htasks⟩ := List.mem_filter.mp hmem
        obtain ⟨j, hcl⟩ := List.getElem?_of_mem hmem
        have hat : w.Coming id := ⟨j, cl, hcl, by rw [hops j cl hcl]; exact htasks, hcoming⟩
        exact .inr (.inl (at_called hat hm.there fun hg => hg))

/-- A swap that is sent is still to be seen by every client that watches. -/
theorem sent_current (h : Kept builds w) {t : String} {k : Unit → Program Bool} (hm : Made builds w i client (.send t))
    {id : Nat} {p : ProjectControlPlaneClient} (hp : w.state.clients[id]? = some p)
    (hlive : p.live = true) :
    Due (w.called (system builds) i client (.send t) k ()) id p ∨
      Fresh (w.called (system builds) i client (.send t) k ()) id p := by
  cases hseen : p.seen with
  | some v =>
      have hwatched : w.state.watched = true :=
        List.any_eq_true.mpr ⟨p, List.mem_of_getElem? hp, by rw [hlive, hseen]; rfl⟩
      have hle := h.base.seen id p v hp hseen
      refine .inl (.inr (.inr ⟨v, hseen, .inl ?_⟩))
      change v ≠ (w.state.source.tokenTx.send w.state.watched t).version
      rw [hwatched]
      change v ≠ w.state.source.tokenTx.version + 1
      omega
  | none =>
      rcases h.current id p hp hlive with (htask | hcoming | ⟨v, hv, _⟩) | hfresh
      · exact .inl (.inl (noTask_called hm.there htask))
      · exact .inl (.inr (.inl (at_called hcoming hm.there fun hg => hg)))
      · rw [hseen] at hv
        cases hv
      · exact .inr (fresh_called hm rfl (fun _ _ ht => ht) (fun _ _ => .inl rfl) .inr hfresh)

/-- A rebuild that finds the token it has taken leaves the client with it. -/
theorem found_cells (h : Kept builds w) {id : Nat} {p : ProjectControlPlaneClient} {t : String}
    (hp : w.state.clients[id]? = some p) (htaking : w.Taking id t) (hfound : p.accessToken = t) :
    p.client.token = t := by
  rcases (h.paired id p hp).2 with hpaired | hhalf
  · exact hpaired.trans hfound
  · exact h.agree id _ _ (h.half id p hp hhalf) htaking

theorem current_called (h : Kept builds w) (hm : Made builds w i client c) (id : Nat)
    (p' : ProjectControlPlaneClient) (hp' : (handle builds w.state c ()).1.clients[id]? = some p')
    (hlive' : p'.live = true) :
    Due (w.called (system builds) i client c k ()) id p' ∨
      Fresh (w.called (system builds) i client c k ()) id p' := by
  rcases client_of_handle hp' with ⟨p, hp, rfl⟩ | ⟨_, _, _, _, rfl, _⟩
  · have hlive := (stays_after _ _ _ _).live hlive'
    have hcurrent := h.current id p hp hlive
    cases c with
    | token =>
        rcases Decidable.em (client.place.op.client = some id) with hop | hop
        · refine .inr (fresh_taken hm hop rfl (hm.undisturbed id hop) ?_)
          change Place.taken (if _ then _ else _) = _
          rw [if_pos (by rw [hop]; rfl)]
          rfl
        · refine hcurrent.imp (due_called hm (fun _ => Call.noConfusion) Call.noConfusion
            fun htasks => absurd (client_of_tasks htasks) hop) fun hfresh => ?_
          exact fresh_called hm rfl (fun hop' => absurd hop' hop) (fun hop' => absurd hop' hop) .inr
            hfresh
    | store t =>
        rcases hm.undisturbed.2 with rfl | hbegins
        · refine hcurrent.imp (due_called hm (fun _ => Call.noConfusion) Call.noConfusion
            fun _ _ ht => ht) fun hfresh => ?_
          exact fresh_called hm rfl (fun _ _ ht => ht) (fun _ _ => .inl rfl) .inr hfresh
        · exact .inl (due_stored hm hp hlive hbegins h.base.op)
    | send t => exact h.sent_current hm hp hlive
    | loadToken id' =>
        refine hcurrent.imp (due_called hm (fun _ => Call.noConfusion) Call.noConfusion
          fun _ _ ht => ht) fun hfresh => ?_
        refine fresh_called hm rfl (fun _ _ ht => ht) (fun hop htaken => ?_) .inr hfresh
        obtain rfl : id' = id := Option.some.inj (hm.allowed.1.symm.trans hop)
        have hreply : (handle builds w.state (.loadToken id') ()).2 = p.accessToken := by
          change ((w.state.clients[id']?).map _).getD "" = _
          rw [hp]
          rfl
        change Place.taken (if _ then _ else _) = _ ∨ _
        split
        · rename_i hfound
          have hcells : p.accessToken = w.state.source.token :=
            hreply.symm.trans (Option.some.inj (hfound.symm.trans htaken))
          have htaking : w.Taking id' w.state.source.token := ⟨i, client, hm.there, hop, htaken⟩
          exact .inr ⟨hcells, h.found_cells hp htaking hcells⟩
        · exact .inl rfl
    | build id' t =>
        refine hcurrent.imp (due_called hm (fun _ => Call.noConfusion) Call.noConfusion
          fun _ _ ht => ht) fun hfresh => ?_
        refine fresh_called hm rfl (fun _ _ ht => ht) (fun hop htaken => .inl ?_) .inr hfresh
        obtain rfl : id' = id := Option.some.inj (hm.allowed.1.symm.trans hop)
        change Place.taken (if (w.state.clients[id']?).any _ = true then _ else _) = _
        rw [hp, if_pos]
        exact hm.undisturbed p hp
    | storeClient id' t =>
        refine hcurrent.imp (due_called hm (fun _ => Call.noConfusion) Call.noConfusion
          fun _ _ ht => ht) fun hfresh => ?_
        refine fresh_called hm rfl (fun _ _ ht => ht) (fun _ _ => .inl rfl) (fun hcells => ?_) hfresh
        rcases Decidable.em (id' = id) with rfl | hne
        · have htoken := hfresh.taking t ⟨i, client, hm.there, hm.allowed.1, hm.allowed.2.1⟩
          subst htoken
          exact .inl (at_caller hm.there ⟨hm.allowed.1, hm.allowed.2.1⟩)
        · rw [Plane.after, if_neg hne]
          exact .inr hcells
    | storeToken id' t =>
        refine hcurrent.imp (due_called hm (fun _ => Call.noConfusion) Call.noConfusion
          fun _ _ ht => ht) fun hfresh => ?_
        rcases Decidable.em (id' = id) with rfl | hne
        · have htaking : w.Taking id' t := ⟨i, client, hm.there, hm.allowed.1, hm.allowed.2.1⟩
          have hhalf : w.Half id' := ⟨i, client, hm.there, hm.allowed.1, hm.allowed.2.2⟩
          have htoken := hfresh.taking t htaking
          have hcells : (w.state.after id' p (.storeToken id' t)).accessToken = w.state.source.token ∧
              (w.state.after id' p (.storeToken id' t)).client.token = w.state.source.token := by
            rw [Plane.after, if_pos rfl]
            exact ⟨htoken, (h.agree id' _ _ (h.half id' p hp hhalf) htaking).trans htoken⟩
          exact fresh_called hm rfl (fun _ _ ht => ht) (fun _ _ => .inr hcells) (fun _ => .inr hcells)
            hfresh
        · rw [Plane.after, if_neg hne]
          refine fresh_called hm rfl (fun _ _ ht => ht) (fun hop _ => ?_) .inr hfresh
          have hid : some id' = some id := hm.allowed.1.symm.trans hop
          exact absurd (Option.some.inj hid) hne
    | changed id' =>
        have hplace : client.place = { op := .authTurn id' true } := hm.allowed
        rcases Decidable.em (id' = id) with rfl | hne
        · refine .inl (.inr (.inl (at_caller hm.there ⟨?_, ?_⟩)))
          · rw [op_advance, hplace]
            exact decide_eq_true rfl
          · change Place.coming { client.place with notified := _, closed := _ } = true
            rw [changed_reply h.base.alive hm.ready, hplace]
            rfl
        · have hne' : Call.changed id' ≠ Call.changed id := fun hc => hne (Call.changed.inj hc)
          refine hcurrent.imp (due_called hm (fun _ => Call.noConfusion) hne' fun _ _ ht => ht)
            fun hfresh => ?_
          rw [Plane.after, if_neg hne]
          exact fresh_called hm rfl (fun _ _ ht => ht) (fun _ _ => .inl rfl) .inr hfresh
    | borrow id' =>
        obtain ⟨hop', hnotified, htook, _⟩ := hm.allowed
        have hid : client.place.op.client = some id' := by
          rw [hop']
          rfl
        rcases Decidable.em (id' = id) with rfl | hne
        · have hop : client.op = .authTurn id' true :=
            (h.base.op i client hm.there).symm.trans hop'
          obtain ⟨p₀, hp₀, hsome⟩ := h.base.watching i client id' true hm.there (.inr hop)
          rw [hp] at hp₀
          cases hp₀
          obtain ⟨v, hv⟩ := Option.isSome_iff_exists.mp hsome
          rcases h.value with hswapping | hvalue | hseen
          · refine .inl (.inr (.inr ⟨v, hv, .inr ?_⟩))
            exact swapping_called hm (fun _ => Call.noConfusion) hswapping
          · refine .inr (fresh_taken hm hid rfl ?_ ?_)
            · rw [← hvalue]
              exact hm.undisturbed
            · exact congrArg some hvalue
          · refine absurd ⟨i, client, hm.there, ?_, hnotified, htook⟩ (hseen id' p v hp hlive hv).2
            rw [hop']
            exact decide_eq_true rfl
        · have hother : ¬client.place.op.client = some id := fun hop =>
            hne (Option.some.inj (hid.symm.trans hop))
          refine hcurrent.imp (due_called hm (fun _ => Call.noConfusion) Call.noConfusion
            fun htasks => absurd (client_of_tasks htasks) hother) fun hfresh => ?_
          exact fresh_called hm rfl (fun hop => absurd hop hother) (fun hop => absurd hop hother) .inr
            hfresh
    | drop id' =>
        rcases Decidable.em (id' = id) with rfl | hne
        · rw [Plane.after, if_pos rfl] at hlive'
          cases hlive'
        · refine hcurrent.imp (due_called hm (fun _ => Call.noConfusion) Call.noConfusion
            fun _ _ ht => ht) fun hfresh => ?_
          rw [Plane.after, if_neg hne]
          exact fresh_called hm rfl (fun _ _ ht => ht) (fun _ _ => .inl rfl) .inr hfresh
    | _ =>
        refine hcurrent.imp (due_called hm (fun _ => Call.noConfusion) Call.noConfusion
          fun _ _ ht => ht) fun hfresh => ?_
        exact fresh_called hm rfl (fun _ _ ht => ht) (fun _ _ => .inl rfl) .inr hfresh
  · refine .inl (.inl (noTask_called hm.there fun j cl hcl => ?_))
    cases htasks : cl.op.tasks w.state.clients.length with
    | false => rfl
    | true =>
        have hlt := h.base.known j cl _ hcl (client_of_tasks htasks)
        omega

theorem called (h : Kept builds w) (hm : Made builds w i client c)
    (hbase : Base builds (w.called (system builds) i client c k ())) :
    Kept builds (w.called (system builds) i client c k ()) where
  base := hbase
  swap := h.swap_called hm
  value := h.value_called hm
  agree := h.agree_called hm
  half := h.half_called hm hbase
  paired := h.paired_called hm
  current := h.current_called hm

/-! ## A program that begins -/

theorem due_spawned {op : Op} {id : Nat} {p : ProjectControlPlaneClient}
    (hready : ready w (.spawn op) = true) (h : Due w id p) :
    Due (w.spawned (system builds) op) id p := by
  rcases h with htask | hcoming | ⟨v, hv, hbehind⟩
  · rcases Decidable.em (∃ b, op = .authTask id b) with ⟨b, rfl⟩ | hother
    · exact .inr (.inl (at_spawned.mpr (.inr ⟨decide_eq_true rfl, rfl⟩)))
    · left
      intro j cl hcl
      rcases System.client_of_spawn hcl with hold | ⟨_, rfl⟩
      · exact htask j cl hold
      · cases op with
        | authTask id' b =>
            refine decide_eq_false fun hid => hother ⟨b, ?_⟩
            rw [hid]
        | authTurn id' b =>
            refine decide_eq_false fun hid => ?_
            -- A turn of the loop follows what the task has done before.
            subst hid
            have hbusy := (Bool.and_eq_true_iff.mp (Bool.and_eq_true_iff.mp hready).1).2
            rw [task_eq_nil.mpr htask] at hbusy
            cases hbusy
        | _ => rfl
  · exact .inr (.inl (at_spawned.mpr (.inl hcoming)))
  · exact .inr (.inr ⟨v, hv, hbehind.imp_right fun hswapping => at_spawned.mpr (.inl hswapping)⟩)

theorem spawned (h : Kept builds w) {op : Op} (hready : ready w (.spawn op) = true)
    (hbase : Base builds (w.spawned (system builds) op)) :
    Kept builds (w.spawned (system builds) op) := by
  have htaking {id : Nat} {t : String} : Clients.Taking (w.spawned (system builds) op) id t ↔
      w.Taking id t := by
    refine at_spawned.trans (or_iff_left ?_)
    rintro ⟨_, htaken⟩
    cases htaken
  have hhalf {id : Nat} : Clients.Half (w.spawned (system builds) op) id ↔ w.Half id := by
    refine at_spawned.trans (or_iff_left ?_)
    rintro ⟨_, hhalf⟩
    cases hhalf
  refine ⟨hbase, ?_, ?_, ?_, ?_, ?_, ?_⟩
  · intro t hat
    rcases at_spawned.mp hat with hold | hnew
    · exact h.swap t hold
    · cases hnew
  · refine h.value.imp (fun hswapping => at_spawned.mpr (.inl hswapping)) (.imp_right ?_)
    intro hseen id p v hp hlive hv
    refine ⟨(hseen id p v hp hlive hv).1, fun htold => (hseen id p v hp hlive hv).2 ?_⟩
    rcases at_spawned.mp htold with hold | ⟨_, hnotified, _⟩
    · exact hold
    · cases hnotified
  · exact fun id t t' ht ht' => h.agree id t t' (htaking.mp ht) (htaking.mp ht')
  · exact fun id p hp hhalf' => htaking.mpr (h.half id p hp (hhalf.mp hhalf'))
  · exact fun id p hp => ⟨(h.paired id p hp).1, (h.paired id p hp).2.imp_right hhalf.mpr⟩
  · intro id p hp hlive
    refine (h.current id p hp hlive).imp (due_spawned hready) fun hfresh => ?_
    exact ⟨fun t ht => hfresh.taking t (htaking.mp ht), hfresh.reaches.imp_left htaking.mpr⟩

end Kept

/-! ## Runs -/

theorem not_at_start {token : String} {P : Place → Prop} (h : (start token).At P) : False := by
  obtain ⟨i, cl, hcl, _⟩ := h
  exact no_worker hcl

theorem kept_start (token : String) : Kept builds (start token) where
  base := base_start token
  swap _ h := (not_at_start h).elim
  value := .inr (.inl rfl)
  agree _ _ _ h := (not_at_start h).elim
  half _ _ hp := (no_client hp).elim
  paired _ _ hp := (no_client hp).elim
  current _ _ hp := (no_client hp).elim

theorem kept_step {w w' : Clients} {act : Act Op Unit} (h : Kept builds w)
    (hintime : InTime builds w act) (hstep : step builds w act = some w') : Kept builds w' := by
  obtain ⟨hready, hstep⟩ := System.of_stepWhen hstep
  have hfaithful := h.base.faithful.step (fun op => follows_code op) hstep
  cases act with
  | spawn op =>
      obtain rfl := System.step_spawn hstep
      exact h.spawned hready (h.base.spawned hready hfaithful)
  | step i answer =>
      obtain ⟨client, c, k, hclient, hprog, rfl⟩ := System.step_call hstep
      have hnext : client.next = some c := by
        unfold Client.next
        rw [hprog]
      have hready' := call_ready hready hclient hprog
      have hm : Made builds w i client c :=
        ⟨hclient, h.base.faithful.allowed hclient hprog, hready', hintime client hclient c hnext⟩
      exact h.called hm (h.base.called hclient hprog hready' hfaithful)
  | drop i => cases hready

/-- Where a task waits. -/
def Call.waits (id : Nat) : Bool → Call
  | true => .changed id
  | false => .select id

/-- A program that has no step left has returned, or waits where a task waits. -/
theorem settled_client (h : Base builds w) (hsettled : w.Settled builds) {i : Nat} {cl : Worker}
    (hcl : w.clients[i]? = some cl) :
    (∃ b, cl.prog = some (.ret b) ∧ Rested cl.op cl.place b) ∨
      ∃ id b, cl.place = { op := .authTurn id b } ∧ w.state.ready (.waits id b) = false := by
  obtain ⟨p, hprog⟩ := h.kept i cl hcl
  cases p with
  | ret b => exact .inl ⟨b, hprog, h.faithful i cl _ hcl hprog⟩
  | call c k =>
      have hready : w.state.ready c = false := by
        refine eq_false_of_ne_true fun hready => ?_
        have hact : ready w (.step i ()) = true := by
          have hnext : cl.next = some c := by
            unfold Client.next
            rw [hprog]
          change ((w.clients[i]?).bind Client.next).all w.state.ready = true
          rw [hcl, Option.bind_some, hnext]
          exact hready
        have hstep := hsettled.1 i
        rw [step, System.stepWhen, if_pos hact, System.step, hcl] at hstep
        simp only [hprog] at hstep
        cases hstep
      have hallowed := h.faithful.allowed hcl hprog
      cases c with
      | changed id => exact .inr ⟨id, true, hallowed, hready⟩
      | select id => exact .inr ⟨id, false, hallowed, hready⟩
      | _ => cases hready

theorem settled_place (h : Base builds w) (hsettled : w.Settled builds) {i : Nat} {cl : Worker}
    (hcl : w.clients[i]? = some cl) :
    cl.place.taken = none ∧ cl.place.swapping = none ∧ cl.place.coming = false := by
  rcases settled_client h hsettled hcl with ⟨b, _, hrested⟩ | ⟨id, b, hplace, _⟩
  · exact ⟨hrested.taken, hrested.swapping, hrested.coming⟩
  · rw [hplace]
    exact ⟨rfl, rfl, rfl⟩

/-- When nobody has a step left, every live client has a task that has seen the last change. -/
theorem not_due (h : Base builds w) (hsettled : w.Settled builds) {id : Nat}
    {p : ProjectControlPlaneClient} (hp : w.state.clients[id]? = some p) (hlive : p.live = true) :
    ¬Due w id p := by
  have hhas : w.state.has id p.seen.isSome = true := has_iff.mpr ⟨p, hp, hlive, rfl⟩
  obtain ⟨hnotask, hnoturn⟩ := hsettled.2 id p.seen.isSome
  have htask : ¬w.NoTask id := by
    intro htask
    have hready : ready w (.spawn (.authTask id p.seen.isSome)) = true := by
      change (w.state.has id p.seen.isSome && (w.task id).isEmpty) = true
      rw [hhas, task_eq_nil.mpr htask]
      rfl
    rw [step, System.stepWhen, if_pos hready] at hnotask
    cases hnotask
  rintro (hnone | ⟨i, cl, hcl, _, hcoming⟩ | ⟨v, hv, hbehind⟩)
  · exact htask hnone
  · rw [(settled_place h hsettled hcl).2.2] at hcoming
    cases hcoming
  · have hversion : v = w.state.source.tokenTx.version := by
      by_contra hne
      -- The next turn of the loop would begin, unless one waits for a change, and there is one.
      have hall : (w.task id).all (fun cl => cl.result == some true) = true := by
        refine List.all_eq_true.mpr fun cl hmem => ?_
        obtain ⟨hmem, htasks⟩ := List.mem_filter.mp hmem
        obtain ⟨i, hcl⟩ := List.getElem?_of_mem hmem
        have hwatching : cl.op = .authTask id true ∨ cl.op = .authTurn id true := by
          have hb (b : Bool) (hop : cl.op = .authTask id b ∨ cl.op = .authTurn id b) : b = true := by
            obtain ⟨p', hp', hb⟩ := h.watching i cl id b hcl hop
            rw [hp] at hp'
            cases hp'
            rw [← hb, hv]
            rfl
          cases hop : cl.op with
          | authTask id' b =>
              rw [hop] at htasks
              obtain rfl := of_decide_eq_true htasks
              rw [hb b (.inl hop)]
              exact .inl rfl
          | authTurn id' b =>
              rw [hop] at htasks
              obtain rfl := of_decide_eq_true htasks
              rw [hb b (.inr hop)]
              exact .inr rfl
          | _ =>
              rw [hop] at htasks
              cases htasks
        rcases settled_client h hsettled hcl with ⟨b, hprog, hrested⟩ | ⟨id', b, hplace, hready⟩
        · have hgoes := hrested.goesOn id hwatching
          rw [h.opened i cl hcl] at hgoes
          rw [Client.result, hprog, hgoes]
          rfl
        · have hop := h.op i cl hcl
          rw [hplace] at hop
          rcases hwatching with hop' | hop'
          · rw [hop'] at hop
            cases hop
          · rw [hop'] at hop
            cases hop
            have hlives : w.state.lives id = true := lives_iff.mpr ⟨p, hp, hlive⟩
            have hchanged : w.state.tokenChanged id = .changed := by
              rw [Plane.tokenChanged, hp, Option.bind_some, hv]
              exact if_pos hne
            change (w.state.lives id && w.state.tokenChanged id != .waits) = false at hready
            rw [hlives, hchanged] at hready
            cases hready
      have hready : ready w (.spawn (.authTurn id p.seen.isSome)) = true := by
        have hbusy : (w.task id).isEmpty = false := by
          refine eq_false_of_ne_true fun hempty => htask (task_eq_nil.mp ?_)
          exact List.isEmpty_iff.mp hempty
        change (w.state.has id p.seen.isSome && !(w.task id).isEmpty &&
          (w.task id).all fun cl => cl.result == some true) = true
        rw [hhas, hbusy, hall]
        rfl
      rw [step, System.stepWhen, if_pos hready] at hnoturn
      cases hnoturn
    rcases hbehind with hne | ⟨i, cl, hcl, hswapping⟩
    · exact hne hversion
    · exact hswapping (settled_place h hsettled hcl).2.1

/-- If the swaps and the rebuilds are in time, then every live client has the token of the source,
and a kube client built with it, whenever no task, caller or swap has a step left to take. -/
theorem settled_current {token : String} {acts : List (Act Op Unit)}
    (hmeets : Runs.Meets (step builds) (InTime builds) (start token) acts)
    (hrun : Runs.run (step builds) (start token) acts = some w) (hsettled : w.Settled builds) :
    w.state.Current := by
  have h : Kept builds w := Runs.invariant (fun w act w' hw hcond hstep => kept_step hw hcond hstep)
    (kept_start token) hmeets hrun
  intro p hmem hlive
  obtain ⟨id, hp⟩ := List.getElem?_of_mem hmem
  rcases h.current id p hp hlive with hdue | hfresh
  · exact absurd hdue (not_due h.base hsettled hp hlive)
  · rcases hfresh.reaches with ⟨i, cl, hcl, _, htaken⟩ | ⟨hcell, htoken⟩
    · rw [(settled_place h.base hsettled hcl).1] at htaken
      cases htaken
    · refine ⟨hcell, ?_⟩
      rw [← htoken, ← (h.paired id p hp).1]

instance : Decidable (w.Settled builds) :=
  decidable_of_iff
    ((∀ i < w.clients.length, step builds w (.step i ()) = none) ∧
      ∀ id < w.state.clients.length, ∀ watching,
        step builds w (.spawn (.authTask id watching)) = none ∧
          step builds w (.spawn (.authTurn id watching)) = none) <| by
    refine and_congr ⟨fun h i => ?_, fun h i _ => h i⟩ ⟨fun h id => ?_, fun h id _ => h id⟩
    · rcases Nat.lt_or_ge i w.clients.length with hi | hi
      · exact h i hi
      · rw [step, System.stepWhen, System.step, List.getElem?_eq_none hi]
        exact ite_self none
    · rcases Nat.lt_or_ge id w.state.clients.length with hid | hid
      · exact h id hid
      · intro watching
        have hhas : w.state.has id watching = false := by
          rw [Plane.has, List.getElem?_eq_none hid]
          rfl
        refine ⟨if_neg ?_, if_neg ?_⟩
        · change ¬(w.state.has id watching && _) = true
          rw [hhas]
          exact Bool.false_ne_true
        · change ¬(w.state.has id watching && _ && _) = true
          rw [hhas]
          exact Bool.false_ne_true

instance (s : Plane) : Decidable s.Current := by
  unfold Plane.Current
  infer_instance

def steps (i n : Nat) : List (Act Op Unit) := List.replicate n (.step i ())

/-- A client made by `new_with_token_source`, as the one with the number 0, and its task. -/
def watchingRun : List (Act Op Unit) :=
  .spawn (.newWithTokenSource "https://api") :: steps 0 2 ++ .spawn (.authTask 0 true) ::
    steps 1 2 ++ [.spawn (.authTurn 0 true)]

/-- The client sees a swap, is refreshed, and waits again. -/
def followedRun : List (Act Op Unit) :=
  watchingRun ++ .spawn (.swapToken "t1") :: steps 3 2 ++ steps 2 6 ++
    .spawn (.authTurn 0 true) :: .spawn (.clientRefreshed 0) :: steps 5 2

theorem settled_current_followed :
    ∃ w, Runs.run (step fun _ _ => true) (start "t0") followedRun = some w ∧ w.state.Current := by
  have hmeets : Runs.Meets (step fun _ _ => true) (InTime fun _ _ => true) (start "t0")
      followedRun := by
    decide +kernel
  have hsettled : (Runs.run (step fun _ _ => true) (start "t0") followedRun).map
      (fun w => decide (w.Settled fun _ _ => true)) = some true := by
    decide +kernel
  obtain ⟨w, hrun, hw⟩ := Option.map_eq_some_iff.mp hsettled
  exact ⟨w, hrun, settled_current hmeets hrun (of_decide_eq_true hw)⟩

/-- The task of a client made by `new` ends at once, and a swap passes it by. -/
def deafRun : List (Act Op Unit) :=
  .spawn (.new "https://api" "t0") :: steps 0 1 ++ .spawn (.authTask 0 false) :: steps 1 2 ++
    .spawn (.authTurn 0 false) :: steps 2 1 ++ .spawn (.swapToken "t1") :: steps 3 2

/-- A caller has read the token before a swap, and stores it after the task has stored the new
one. -/
def lateRun : List (Act Op Unit) :=
  watchingRun ++ .spawn (.clientRefreshed 0) :: steps 3 1 ++ .spawn (.swapToken "t1") ::
    steps 4 2 ++ steps 2 6 ++ steps 3 4 ++ [.spawn (.authTurn 0 true)]

/-- The kube client of one rebuild and the token of another are stored last. -/
def mixedRun : List (Act Op Unit) :=
  watchingRun ++ .spawn (.swapToken "t1") :: steps 3 1 ++ .spawn (.clientRefreshed 0) ::
    steps 4 3 ++ .spawn (.swapToken "t2") :: steps 3 1 ++ steps 5 2 ++ steps 2 5 ++ steps 4 2 ++
    steps 2 1 ++ [.spawn (.authTurn 0 true)]

/-- The world is at rest after the actions, and whether the token is then current. -/
def endsStale (acts : List (Act Op Unit)) : Option (Bool × Bool) :=
  (Runs.run (step fun _ _ => true) (start "t0") acts).map fun w =>
    (decide (w.Settled fun _ _ => true), decide w.state.Current)

theorem settled_stale :
    endsStale deafRun = some (true, false) ∧ endsStale lateRun = some (true, false) ∧
      endsStale mixedRun = some (true, false) := by
  refine ⟨?_, ?_, ?_⟩ <;> decide +kernel

end DatumConnect.Credentials
