import DatumConnect.Peers.Operations
import DatumConnect.Lib.Runs
/-!
# Advertisements that can be listed and revoked

One fact, that a target is advertised, is kept in the node's list and in the
advertised set, in memory and in a file each.  The four agree between calls as long
as no write of the two files fails.
-/

namespace DatumConnect.Peers

open DatumConnect.Lib
open DatumConnect.Cloud (Error)
open DatumConnect.Daemon (Rejection)
open DatumConnect.Proxies

/-! ## Calls one after the other -/

/-- A call of the daemon, with the answers its own calls get. -/
structure Request where
  op : Op
  answers : List Answer
  deriving DecidableEq, Repr

/-- Calls are made one after the other, each until it returns. -/
def step (s : PeerState) (request : Request) : Option PeerState :=
  match Prog.exec PeerState.handle s request.answers request.op.code with
  | (t, some _) => some t
  | (_, none) => none

/-- Every enabled proxy that an advertise call put in the list is in the advertised
set. -/
def PeerState.Listed (s : PeerState) : Prop :=
  ∀ state ∈ s.node, ∀ proxy ∈ state.proxies,
    proxy.enabled = true → proxy.id ∈ s.put → proxy.id ∈ s.advertised

/-- The ids in the node's list. -/
def PeerState.listed (s : PeerState) : List String :=
  match s.node with
  | some state => state.ids
  | none => []

/-- The call saves the list or the set. -/
def Call.saves : Call → Bool
  | .setProxy _ | .removeProxy _ | .saveAdvertised => true
  | _ => false

def Written (_ : PeerState) (c : Call) (answer : Answer) : Prop :=
  c.saves = true → answer.fails = none

/-- `id` is revoked until the writes of an attempt all succeed. -/
inductive Retried (cond : PeerState → Call → Answer → Prop) (id : String) :
    PeerState → PeerState → Except Rejection Unit → Prop where
  | done {s t : PeerState} {r : Except Rejection Unit} (answers : List Answer)
      (hexec : Prog.exec PeerState.handle s answers (revoke id).run = (t, some r))
      (hcond : Prog.Answered PeerState.handle cond s answers (revoke id).run)
      (hwritten : Prog.Answered PeerState.handle Written s answers (revoke id).run) :
      Retried cond id s t r
  | again {s u t : PeerState} {r r' : Except Rejection Unit} (answers : List Answer)
      (hexec : Prog.exec PeerState.handle s answers (revoke id).run = (u, some r'))
      (hcond : Prog.Answered PeerState.handle cond s answers (revoke id).run)
      (hfailed : ¬ Prog.Answered PeerState.handle Written s answers (revoke id).run)
      (hretried : Retried cond id u t r) : Retried cond id s t r

/-- Revoking `id` ends in `Ok`, with `id` neither in the list nor in the set. -/
def PeerState.Revocable (cond : PeerState → Call → Answer → Prop) (s : PeerState) (id : String) :
    Prop :=
  ∀ t r, Retried cond id s t r → r = .ok () ∧ id ∉ t.listed ∧ id ∉ t.advertised

/-- No write of the list or of the set fails, and a node that is to be restored can
be built. -/
def Unfailing (s : PeerState) (c : Call) (answer : Answer) : Prop :=
  Written s c answer ∧ (c = .listenNode → s.advertised ≠ ∅ → answer.builds = true)

instance (s : PeerState) (c : Call) (answer : Answer) : Decidable (Written s c answer) := by
  unfold Written
  infer_instance

instance (s : PeerState) (c : Call) (answer : Answer) : Decidable (Unfailing s c answer) := by
  unfold Unfailing
  infer_instance

def RequestUnfailing (s : PeerState) (request : Request) : Prop :=
  Prog.Answered PeerState.handle Unfailing s request.answers request.op.code

instance (s : PeerState) (request : Request) : Decidable (RequestUnfailing s request) := by
  unfold RequestUnfailing
  infer_instance

/-! ## What the calls keep -/

namespace PeerState

/-- The list in `state.yml`. -/
def saved (s : PeerState) : State :=
  match s.stateYml with
  | .list state => state
  | _ => {}

/-- List and set agree, in memory and on the disk. -/
structure Kept (s : PeerState) : Prop where
  json_eq : s.advertisedJson = s.advertised
  nodup : s.saved.ids.Nodup
  mem_iff : ∀ id, id ∈ s.saved.ids ↔ id ∈ s.advertised
  node_saved : ∀ state ∈ s.node, s.stateYml = .list state
  restored : s.advertised ≠ ∅ → s.node.isSome = true

namespace Kept

variable {s : PeerState} {id : String}

theorem start : Kept {} where
  json_eq := rfl
  nodup := List.nodup_nil
  mem_iff := by simp [PeerState.saved, State.ids]
  node_saved := nofun
  restored := nofun

theorem listed_eq (h : s.Kept) {state : State} (hnode : s.node = some state) :
    s.saved = state := by
  rw [PeerState.saved, h.node_saved state hnode]

theorem listed (h : s.Kept) : s.Listed := by
  intro state hnode proxy hproxy _ _
  rw [← h.mem_iff, h.listed_eq hnode]
  exact List.mem_map_of_mem hproxy

theorem not_mem (h : s.Kept) (hid : id ∉ s.advertised) : id ∉ s.listed := by
  rw [PeerState.listed]
  split
  · rename_i state hnode
    rwa [← h.listed_eq hnode, h.mem_iff]
  · exact List.not_mem_nil

/-- An advertised id is in the node's list. -/
theorem node_of_mem (h : s.Kept) (hid : id ∈ s.advertised) :
    ∃ state, s.node = some state ∧ s.stateYml = .list state ∧ id ∈ state.ids := by
  obtain ⟨state, hnode⟩ := Option.isSome_iff_exists.mp (h.restored (Finset.ne_empty_of_mem hid))
  refine ⟨state, hnode, h.node_saved state hnode, ?_⟩
  rwa [← h.listed_eq hnode, h.mem_iff]

end Kept

end PeerState

/-- However the calls are answered without a failed write, `post` holds at the end. -/
abbrev Ends {α : Type} (post : PeerState → α → Prop) (p : Task α) (s : PeerState) : Prop :=
  Prog.SafeWhen PeerState.handle Unfailing (fun _ => True) post p s

variable {s : PeerState} {α β : Type}

theorem ends_perform {c : Call} {f : c.Reply → Task β} {post : PeerState → β → Prop}
    (h : ∀ answer, Unfailing s c answer → Ends post (f (s.handle c answer).2) (s.handle c answer).1) :
    Ends post (Task.perform c >>= f) s :=
  ⟨trivial, h⟩

theorem ends_lift {c : Call} {f : c.Reply → TaskE β} {post : PeerState → Except Rejection β → Prop}
    (h : ∀ answer, Unfailing s c answer →
      Ends post (f (s.handle c answer).2).run (s.handle c answer).1) :
    Ends post (TaskE.lift (Task.perform c) >>= f).run s :=
  ⟨trivial, h⟩

/-- A look that leaves the state alone. -/
theorem ends_isAdvertised {id : String} {f : Bool → TaskE β}
    {post : PeerState → Except Rejection β → Prop}
    (h : Ends post (f (decide (id ∈ s.advertised))).run s) :
    Ends post (TaskE.lift (Task.perform (.isAdvertised id)) >>= f).run s :=
  ends_lift fun _ _ => h

theorem ends_listenNodeIfPresent {f : Bool → TaskE β}
    {post : PeerState → Except Rejection β → Prop} (h : Ends post (f s.node.isSome).run s) :
    Ends post (TaskE.lift (Task.perform .listenNodeIfPresent) >>= f).run s :=
  ends_lift fun _ _ => h

theorem ends_orInternal {p : Task (Except Error α)} {f : α → TaskE β}
    {post : PeerState → Except Rejection β → Prop}
    (h : Ends (fun t r => match r with
      | .ok a => Ends post (f a).run t
      | .error e => post t (.error (.internal e))) p s) :
    Ends post (TaskE.orInternal p >>= f).run s := by
  refine Prog.SafeWhen.bindE (Prog.SafeWhen.bind (h.mono fun t r _ hr => ?_))
  cases r <;> exact ⟨trivial, hr⟩

/-! ## Each operation -/

namespace PeerState

variable {answer : Answer} {state : State}

theorem listenNode_of_list (hnode : s.node = none) (hbuilds : answer.builds = true)
    (hyml : s.stateYml = .list state) :
    s.listenNode answer = ({ s with node := some state }, .ok ()) := by
  rw [PeerState.listenNode, hnode, hbuilds, hyml]

theorem update_of_written (hnode : s.node = some state) (hwritten : answer.fails = none)
    (op : Update) : s.update answer op =
      ({ s with node := some (op.run state).1, stateYml := .list (op.run state).1 },
        .ok (op.run state).2) := by
  rw [PeerState.update, hnode]
  simp only [PeerState.write, hwritten]
  rfl

theorem handle_setProxy (hnode : s.node = some state) (hwritten : answer.fails = none)
    (proxy : ProxyState) : s.handle (.setProxy proxy) answer =
      ({ s with
          node := some (state.setProxy proxy)
          stateYml := .list (state.setProxy proxy)
          put := insert proxy.id s.put }, .ok ()) := by
  simp only [PeerState.handle, update_of_written hnode hwritten]
  rfl

theorem handle_removeProxy (hnode : s.node = some state) (hwritten : answer.fails = none)
    (id : String) : s.handle (.removeProxy id) answer =
      ({ s with
          node := some (state.removeProxy id).1
          stateYml := .list (state.removeProxy id).1 }, .ok (state.removeProxy id).2) :=
  update_of_written hnode hwritten (.removeProxy id)

theorem handle_saveAdvertised (hwritten : answer.fails = none) :
    s.handle .saveAdvertised answer = ({ s with advertisedJson := s.advertised }, .ok ()) := by
  simp only [PeerState.handle, hwritten]

end PeerState

namespace PeerState.Kept

theorem listenNode (h : s.Kept) (answer : Answer) :
    (s.listenNode answer).1.Kept ∧
      ((s.listenNode answer).2 = .ok () → (s.listenNode answer).1.node.isSome = true) := by
  unfold PeerState.listenNode
  split
  · rename_i state _ hnode
    exact ⟨h, fun _ => by simp [hnode]⟩
  · exact ⟨h, nofun⟩
  · rename_i hnode _
    split
    · rename_i state hyml
      refine ⟨⟨h.json_eq, h.nodup, h.mem_iff, ?_, fun _ => rfl⟩, fun _ => rfl⟩
      rintro _ ⟨⟩
      exact hyml
    · exact ⟨h, nofun⟩
    · rename_i hyml
      have hsaved : s.saved = {} := by rw [PeerState.saved, hyml]
      have hempty : ∀ id, id ∈ ({} : State).ids ↔ id ∈ s.advertised := hsaved ▸ h.mem_iff
      unfold PeerState.write
      cases answer.fails with
      | none =>
          refine ⟨⟨h.json_eq, List.nodup_nil, hempty, ?_, fun _ => rfl⟩, fun _ => rfl⟩
          rintro _ ⟨⟩
          rfl
      | some left =>
          have hunset : s.advertised = ∅ := by
            refine Finset.eq_empty_iff_forall_notMem.mpr fun id hid => ?_
            exact List.not_mem_nil ((hempty id).mpr hid)
          cases left with
          | untouched => exact ⟨h, nofun⟩
          | unreadable =>
              refine ⟨⟨h.json_eq, List.nodup_nil, hempty, ?_, fun hne => absurd hunset hne⟩, nofun⟩
              simp [hnode]
          | complete =>
              refine ⟨⟨h.json_eq, List.nodup_nil, hempty, ?_, fun hne => absurd hunset hne⟩, nofun⟩
              simp [hnode]

/-- The list has gained a proxy, and the set its id. -/
theorem advertised (h : s.Kept) {state : State} (hnode : s.node = some state) (proxy : ProxyState)
    (put : Finset String) :
    PeerState.Kept
      { node := some (state.setProxy proxy), stateYml := .list (state.setProxy proxy)
        advertised := insert proxy.id s.advertised
        advertisedJson := insert proxy.id s.advertised, put } where
  json_eq := rfl
  nodup := State.nodup_ids_setProxy (h.listed_eq hnode ▸ h.nodup)
  mem_iff id := by
    have hids := h.mem_iff id
    rw [h.listed_eq hnode] at hids
    rw [Finset.mem_insert, ← hids]
    exact State.mem_ids_setProxy
  node_saved := by
    rintro _ ⟨⟩
    rfl
  restored _ := rfl

/-- The list has lost a proxy, and the set its id. -/
theorem revoked (h : s.Kept) {state : State} (hnode : s.node = some state) (id : String)
    (put : Finset String) :
    PeerState.Kept
      { node := some (state.removeProxy id).1, stateYml := .list (state.removeProxy id).1
        advertised := s.advertised.erase id, advertisedJson := s.advertised.erase id, put } where
  json_eq := rfl
  nodup := by
    change (state.removeProxy id).1.ids.Nodup
    rw [State.ids_removeProxy]
    exact (h.listed_eq hnode ▸ h.nodup).erase id
  mem_iff id' := by
    have hnodup : state.ids.Nodup := h.listed_eq hnode ▸ h.nodup
    have hids := h.mem_iff id'
    rw [h.listed_eq hnode] at hids
    change id' ∈ (state.removeProxy id).1.ids ↔ _
    rw [State.ids_removeProxy, hnodup.mem_erase_iff, Finset.mem_erase, hids]
  node_saved := by
    rintro _ ⟨⟩
    rfl
  restored _ := rfl

end PeerState.Kept

theorem new_kept (h : s.Kept) : Ends (fun t _ => t.Kept) new s := by
  refine ends_perform fun answer _ => ?_
  change Ends _ (if decide (s.advertisedJson ≠ ∅) = true then _ else _)
    { s with node := none, advertised := s.advertisedJson }
  by_cases hprior : s.advertisedJson = ∅
  · rw [if_neg (by simpa using hprior)]
    refine ⟨trivial, rfl, h.nodup, fun id => ?_, nofun, fun hne => absurd hprior hne⟩
    rw [h.json_eq]
    exact h.mem_iff id
  · rw [if_pos (by simpa using hprior)]
    refine ends_perform fun answer hanswer => ⟨trivial, ?_⟩
    have hbuilds : answer.builds = true := hanswer.2 rfl hprior
    obtain ⟨state, hnode⟩ :=
      Option.isSome_iff_exists.mp (h.restored (h.json_eq ▸ hprior))
    have hyml := h.node_saved state hnode
    change PeerState.Kept (PeerState.listenNode { s with node := none, advertised := _ } answer).1
    rw [PeerState.listenNode_of_list (s := { s with node := none, advertised := _ }) rfl hbuilds hyml]
    refine ⟨rfl, h.nodup, fun id => ?_, ?_, fun _ => rfl⟩
    · change id ∈ s.saved.ids ↔ id ∈ s.advertisedJson
      rw [h.json_eq, h.mem_iff]
    · rintro _ ⟨⟩
      exact hyml

theorem markAdvertised_kept (h : s.Kept) {state : State} (hnode : s.node = some state)
    (proxy : ProxyState) (put : Finset String) :
    Ends (fun t r => t.Kept ∧ r = .ok ()) (markAdvertised proxy.id)
      { s with
        node := some (state.setProxy proxy)
        stateYml := .list (state.setProxy proxy)
        put } := by
  refine ends_perform fun _ _ => ends_perform fun answer hanswer => ?_
  rw [PeerState.handle_saveAdvertised (hanswer.1 rfl)]
  exact ⟨trivial, h.advertised hnode proxy put, rfl⟩

theorem unmarkAdvertised_kept (h : s.Kept) {state : State} (hnode : s.node = some state)
    (id : String) :
    Ends (fun t r => t.Kept ∧ r = .ok () ∧ id ∉ t.advertised) (unmarkAdvertised id)
      { s with
        node := some (state.removeProxy id).1
        stateYml := .list (state.removeProxy id).1 } := by
  refine ends_perform fun _ _ => ends_perform fun answer hanswer => ?_
  rw [PeerState.handle_saveAdvertised (hanswer.1 rfl)]
  exact ⟨trivial, h.revoked hnode id _, rfl, Finset.notMem_erase id _⟩

theorem advertise_kept (h : s.Kept) (endpoint : String) (label : Option String) :
    Ends (fun t _ => t.Kept) (advertise endpoint label).run s := by
  unfold advertise
  split
  · exact ⟨trivial, h⟩
  refine ends_lift fun answer _ => ends_orInternal ⟨trivial, fun answer _ => ⟨trivial, ?_⟩⟩
  obtain ⟨hlisten, hsome⟩ := h.listenNode answer
  simp only [PeerState.handle]
  generalize s.listenNode answer = listening at hlisten hsome ⊢
  obtain ⟨t, r⟩ := listening
  cases r with
  | error e => exact hlisten
  | ok u =>
      obtain ⟨state, hnode⟩ := Option.isSome_iff_exists.mp (hsome rfl)
      refine ends_orInternal ⟨trivial, fun answer hanswer => ⟨trivial, ?_⟩⟩
      rw [PeerState.handle_setProxy hnode (hanswer.1 rfl)]
      refine ends_orInternal ((markAdvertised_kept hlisten hnode _ _).mono ?_)
      rintro v _ _ ⟨hkept, rfl⟩
      exact ⟨trivial, hkept⟩

theorem revoke_kept (h : s.Kept) (id : String) :
    Ends (fun t r => t.Kept ∧ (id ∈ s.advertised → r = .ok () ∧ id ∉ t.advertised))
      (revoke id).run s := by
  refine ends_isAdvertised ?_
  by_cases hid : id ∈ s.advertised
  · obtain ⟨state, hnode, hyml, hmem⟩ := h.node_of_mem hid
    obtain ⟨removed, hremoved⟩ :=
      Option.isSome_iff_exists.mp (State.removeProxy_snd_isSome.mpr hmem)
    rw [decide_eq_true hid, if_pos rfl]
    refine ends_listenNodeIfPresent ?_
    rw [hnode, Option.isSome_some, if_pos rfl]
    refine ends_orInternal ⟨trivial, fun answer hanswer => ⟨trivial, ?_⟩⟩
    rw [PeerState.handle_removeProxy hnode (hanswer.1 rfl), hremoved]
    refine Prog.SafeWhen.bind ((unmarkAdvertised_kept h hnode id).mono ?_)
    rintro v _ _ ⟨hkept, rfl, hgone⟩
    exact ⟨trivial, hkept, fun _ => ⟨rfl, hgone⟩⟩
  · rw [decide_eq_false hid, if_neg Bool.false_ne_true]
    exact ⟨trivial, h, fun hmem => absurd hmem hid⟩

theorem Op.kept (h : s.Kept) (op : Op) : Ends (fun t _ => t.Kept) op.code s := by
  cases op with
  | restart => exact Prog.SafeWhen.bind ((new_kept h).mono fun _ _ _ hkept => ⟨trivial, hkept⟩)
  | advertise endpoint label =>
      refine Prog.SafeWhen.bindE ((advertise_kept h endpoint label).mono fun t r _ hkept => ?_)
      cases r with
      | ok id => exact ⟨trivial, hkept⟩
      | error e => exact hkept
  | revoke id => exact (revoke_kept h id).mono fun _ _ _ hkept => hkept.1

namespace PeerState.Kept

theorem step {t : PeerState} (h : s.Kept) {request : Request} (hanswers : RequestUnfailing s request)
    (hstep : Peers.step s request = some t) : t.Kept := by
  have hends := (Op.kept h request.op).exec hanswers
  unfold Peers.step at hstep
  generalize Prog.exec PeerState.handle s request.answers request.op.code = run at hends hstep
  obtain ⟨u, r⟩ := run
  cases r with
  | none => cases hstep
  | some r =>
      cases hstep
      exact hends.2 r rfl

/-- The first attempt ends in `Ok`: none of its writes fails. -/
theorem revocable {id : String} (h : s.Kept) (hid : id ∈ s.advertised) :
    s.Revocable Unfailing id := by
  intro t r hretried
  cases hretried with
  | done answers hexec hcond _ =>
      have hends := ((revoke_kept h id).exec hcond).2 r (by rw [hexec])
      rw [hexec] at hends
      obtain ⟨hkept, hrevoked⟩ := hends
      obtain ⟨rfl, hgone⟩ := hrevoked hid
      exact ⟨rfl, hkept.not_mem hgone, hgone⟩
  | again answers _ hcond hfailed _ =>
      exact absurd (hcond.mono fun _ _ _ hunfailing => hunfailing.1) hfailed

end PeerState.Kept

/-- While no write of the list or of the set fails, and the node comes back at each
restart, what is advertised is listed, and revoking it ends in `Ok`. -/
theorem advertisements_revocable (requests : List Request) (s : PeerState)
    (hrun : Runs.run step {} requests = some s)
    (hunfailing : Runs.Meets step RequestUnfailing {} requests) :
    s.Listed ∧ ∀ id ∈ s.advertised, s.Revocable Unfailing id := by
  have hkept : s.Kept :=
    Runs.invariant (fun _ _ _ hkept hanswers hstep => hkept.step hanswers hstep)
      PeerState.Kept.start hunfailing hrun
  exact ⟨hkept.listed, fun _ hid => hkept.revocable hid⟩

/-- `localhost:80` is advertised as `proxy-web`; the last write may fail. -/
def advertiseWeb (fails : Option Left) : Request where
  op := .advertise "localhost:80" none
  answers := [{ id := "web" }, {}, {}, {}, { fails }, {}]

theorem advertisements_revocable_advertiseWeb :
    ∃ s, Runs.run step {} [advertiseWeb none] = some s ∧ s.advertised = {"proxy-web"} ∧
      s.Revocable Unfailing "proxy-web" := by
  refine ⟨_, rfl, by decide, ?_⟩
  exact (advertisements_revocable [advertiseWeb none] _ rfl (by decide)).2 "proxy-web" (by decide)

/-- The advertised set cannot be saved: `advertise` fails, and leaves behind an enabled
proxy that is not in the set. -/
theorem advertisement_unlisted :
    ¬ ∀ (requests : List Request) (s : PeerState), Runs.run step {} requests = some s →
      s.Listed ∧ ∀ id ∈ s.advertised, s.Revocable (fun _ _ _ => True) id := by
  intro hall
  have hlisted := (hall [advertiseWeb (some .untouched)] _ rfl).1
  exact absurd (hlisted _ rfl _ List.mem_cons_self rfl (by decide)) (by decide)

end DatumConnect.Peers
