import DatumConnect.Cli.Nodes
import DatumConnect.Cli.Waiting
/-!
# The identity a tunnel is set up under

Whichever way the command comes by its tunnel, whether the key on file is that of the
node whose connector the proxy references.
-/

namespace DatumConnect.Cli

open DatumConnect.Lib
open DatumConnect.Lib.Prog (Only Safe SafeWhen Within OnOk Answered)
open DatumConnect.Cloud
open DatumConnect.Tunnels

namespace Machine

variable {session : Session} {key : String} {s t u : Machine}

/-- A new key is another one than those there have been. -/
def Fresh (session : Session) (s : Machine) (c : Call) (answer : Answer) : Prop :=
  match c with
  | .generateKey | .listenKey =>
      ∀ key ∈ s.keys, session.publicKey answer.text ≠ session.publicKey key
  | _ => True

instance (session : Session) : ∀ s c answer, Decidable (Fresh session s c answer) :=
  fun s c answer => by
    unfold Fresh
    split <;> infer_instance

/-- Every way the program ends, its keys being new. -/
def Ends {α : Type} (session : Session) (post : Machine → α → Prop) (p : Task α) (s : Machine) :
    Prop :=
  SafeWhen (handle session) (Fresh session) (fun _ => True) post p s

/-! ## Before the tunnel is touched -/

/-- Tunnels and connectors are as they were. -/
structure Untouched (session : Session) (s t : Machine) : Prop where
  owners : t.owners = s.owners
  keys : s.keys ⊆ t.keys
  kept : ∀ tunnelId, Kept s t tunnelId
  sound : s.Sound session → t.Sound session

def SameFiles (s t : Machine) : Prop := t.listenKeys = s.listenKeys ∧ t.legacyKey = s.legacyKey

instance : Std.Refl (Untouched session) where
  refl s := ⟨rfl, List.Subset.refl _, Kept.refl s, id⟩

theorem Untouched.trans (h : Untouched session s t) (h' : Untouched session t u) :
    Untouched session s u where
  owners := h'.owners.trans h.owners
  keys := List.Subset.trans h.keys h'.keys
  kept tunnelId := (h.kept tunnelId).trans (h'.kept tunnelId)
  sound hs := h'.sound (h.sound hs)

/-- What looking at the project leaves as it is. -/
structure Looked (session : Session) (s t : Machine) : Prop extends Untouched session s t where
  files : SameFiles s t

instance : Std.Refl (Looked session) where
  refl s := ⟨Std.Refl.refl s, rfl, rfl⟩

instance : IsTrans Machine (Looked session) where
  trans _ _ _ h h' := ⟨h.toUntouched.trans h'.toUntouched, h'.files.1.trans h.files.1,
    h'.files.2.trans h.files.2⟩

theorem looked_node {endpointId : String} {c : Cloud.Call} {answer : Answer}
    (h : writtenKind c = none) : Looked session s (s.node endpointId c answer).1 := by
  have hmade : madeConnector (s.found answer) answer.cloud c = none := by
    cases c with
    | create kind name spec => cases h
    | _ => rfl
  have hrepointed : repointed (s.found answer) answer.cloud c = [] := by
    cases c with
    | create kind name spec => cases h
    | patch kind name patch => cases h
    | _ => rfl
  have howners : (s.node endpointId c answer).1.owners = s.owners := by
    show ownersAfter s.owners endpointId (madeConnector (s.found answer) answer.cloud c) = s.owners
    rw [hmade]
    rfl
  have hnone : Writes [] c := Writes.of_none h
  have hfits : Fits endpointId s c := plain_of_writes (by simp) (by simp) hnone s
  refine ⟨⟨howners, List.Subset.refl _, fun tunnelId => ?_, fun hs => ?_⟩, rfl, rfl⟩
  · apply kept_of_not_repointed
    rw [hrepointed]
    exact List.not_mem_nil
  · refine ⟨published_node hfits hs, ?_, ?_, hs.stored, hs.legacy⟩
    · rw [howners]
      exact hs.single
    · rw [howners]
      exact hs.known

/-- A method of a node is its calls. -/
theorem safe_service {α : Type} {method : Method} {p : SvcE α} {I : Machine → Prop}
    {post : Machine → Except Error α → Prop} (hmethod : ∀ tunnelId, method ≠ .delete tunnelId)
    (h : Safe (nodeHandle session key) I post p.run s) :
    Safe (handle session) I post (Task.service key method p) s := by
  apply Safe.embed
  have hsame : (fun s c answer => handle session s (.service key method c) answer) =
      nodeHandle session key := by
    funext s c answer
    cases method with
    | delete tunnelId => exact absurd rfl (hmethod tunnelId)
    | _ => rfl
  rw [hsame]
  exact h

theorem ends_of_within {α : Type} {rel : Machine → Machine → Prop} {post : Machine → α → Prop}
    {p : Task α} (h : Within (handle session) rel post p s) :
    Ends session (fun t a => rel s t ∧ post t a) p s :=
  ((Safe.mono h fun _ _ hrel hpost => ⟨hrel, hpost⟩).weaken fun _ _ => trivial).when

theorem ends_orFail {α : Type} {post : Machine → α → Prop} {p : Task (Except Error α)}
    (h : Ends session (OnOk post) p s) : Ends session (OnOk post) (TaskE.orFail p).run s := by
  refine SafeWhen.bind (SafeWhen.mono h fun t r _ hr => ⟨trivial, ?_⟩)
  cases r with
  | ok a =>
      rintro b ⟨⟩
      exact hr a rfl
  | error err => exact fun b hb => nomatch hb

theorem ends_lift {α : Type} {post : Machine → α → Prop} {p : Task α}
    (h : Ends session post p s) : Ends session (OnOk post) (TaskE.lift p).run s := by
  refine SafeWhen.bind (SafeWhen.mono h fun t r _ hr => ⟨trivial, ?_⟩)
  rintro b ⟨⟩
  exact hr

theorem ends_ret {α : Type} {post : Machine → α → Prop} {a : α} (h : post s a) :
    Ends session (OnOk post) (Pure.pure a : TaskE α).run s := by
  refine ⟨trivial, ?_⟩
  rintro b ⟨⟩
  exact h

theorem ends_fail {α : Type} {post : Machine → α → Prop} {message : String} :
    Ends session (OnOk post) (TaskE.fail message : TaskE α).run s :=
  ⟨trivial, fun _ h => nomatch h⟩

theorem Ends.bindOk {α β : Type} {p : TaskE α} {f : α → TaskE β} {post : Machine → β → Prop}
    (h : Ends session (OnOk fun t a => Ends session (OnOk post) (f a).run t) p.run s) :
    Ends session (OnOk post) (p >>= f).run s :=
  SafeWhen.bindOk h

theorem Ends.mono {α : Type} {post post' : Machine → α → Prop} {p : Task α}
    (h : Ends session post p s) (hpost : ∀ t a, post t a → post' t a) : Ends session post' p s :=
  SafeWhen.mono h fun t a _ => hpost t a

/-- A key that is made is none of those there have been. -/
def New (session : Session) (s : Machine) (key : String) : Prop :=
  ∀ old ∈ s.keys, session.publicKey key ≠ session.publicKey old

theorem looked_key (s : Machine) (key : String) :
    Looked session s { s with keys := key :: s.keys } := by
  refine ⟨⟨rfl, List.subset_cons_self _ _, fun tunnelId => Kept.refl s tunnelId, fun hs => ?_⟩,
    rfl, rfl⟩
  refine ⟨hs.published, hs.single, fun owner howner => ?_, fun tunnelId stored hstored => ?_,
    fun legacy hlegacy => ?_⟩
  · obtain ⟨known, hknown, heq⟩ := hs.known owner howner
    exact ⟨known, List.mem_cons_of_mem _ hknown, heq⟩
  · exact List.mem_cons_of_mem _ (hs.stored tunnelId stored hstored)
  · exact List.mem_cons_of_mem _ (hs.legacy legacy hlegacy)

theorem ends_bindNode (key : String) :
    Ends session (OnOk fun t _ => t = s) (TaskE.orFail (Task.perform (.bindNode key))).run s :=
  ends_orFail ⟨trivial, fun _ _ => ⟨trivial, fun _ _ => rfl⟩⟩

theorem ends_newNode :
    Ends session (OnOk fun t key => Looked session s t ∧ key ∈ t.keys ∧ New session s key)
      Session.newNode.run s := by
  have hlisten : Ends session
      (OnOk fun t key => Looked session s t ∧ key ∈ t.keys ∧ New session s key)
      (Task.perform .listenKey) s := by
    refine ⟨trivial, fun answer hanswer => ⟨trivial, fun key hkey => ?_⟩⟩
    have heq : answer.reply answer.text = .ok key := hkey
    unfold Answer.reply at heq
    split at heq
    · cases heq
      exact ⟨looked_key s _, List.mem_cons_self, hanswer⟩
    · cases heq
  refine Ends.bindOk ((ends_orFail hlisten).mono fun t r hr key hkey => ?_)
  have hkey := hr key hkey
  refine Ends.bindOk ((ends_bindNode key).mono fun u r hr _ hbound => ?_)
  rw [hr _ hbound]
  exact ends_ret hkey

/-! ### Looking tunnels up -/

theorem within_look {α : Type} {p : Svc α} (h : Only (Writes []) p) (s : Machine) :
    Within (nodeHandle session key) (Looked session) (fun _ _ => True) p s := by
  have hcall : ∀ s c answer, Writes [] c → Looked session s (nodeHandle session key s c answer).1 := by
    intro s c answer hc
    apply looked_node
    cases hkind : writtenKind c with
    | none => rfl
    | some kind => exact absurd (hc kind hkind) List.not_mem_nil
  exact h.within hcall s

theorem ends_look {α : Type} {p : SvcE α} {post : Machine → Except Error α → Prop}
    (h : Within (nodeHandle session key) (Looked session) post p.run s) :
    Ends session (fun t r => Looked session s t ∧ post t r) (Task.service key .look p) s :=
  ends_of_within (safe_service (by simp) h)

/-- The tunnels are those whose name says so. -/
theorem within_listActive (s : Machine) :
    Within (nodeHandle session key) (Looked session)
      (OnOk fun _ tunnels => ∀ tunnel ∈ tunnels, tunnel.id ≠ "") TunnelService.listActive.run s := by
  refine Within.bindOk ((within_look (Writes.lift (Only.perform (Writes.of_none rfl))) s).mono
    fun t _ _ _ project _ => ?_)
  cases project with
  | none => exact Within.ret fun _ h => by cases h; simp
  | some projectId =>
      refine Within.bindOk ?_
      refine Within.bindOk ((within_look (Writes.client projectId) t).mono fun u _ _ _ _ _ => ?_)
      refine Within.bindOk ((within_look (Writes.mapError (Only.perform (Writes.of_none rfl))) u).mono
        fun v _ _ _ proxies _ => ?_)
      refine Within.bindOk ((within_look (Writes.mapError (Only.perform (Writes.of_none rfl))) v).mono
        fun w _ _ _ ads _ => ?_)
      refine Within.bindOk ((within_look (Writes.mapError (Only.perform (Writes.of_none rfl))) w).mono
        fun x _ _ _ connectors _ => ?_)
      refine Within.ret ?_
      rintro both ⟨⟩
      refine Within.ret ?_
      rintro tunnels ⟨⟩ tunnel htunnel
      obtain ⟨proxy, hproxy, rfl⟩ := List.mem_map.mp htunnel
      have hname := (List.mem_filter.mp hproxy).2
      show proxy.name ≠ ""
      intro hempty
      rw [hempty] at hname
      cases hname

theorem within_getActive (tunnelId : String) (s : Machine) :
    Within (nodeHandle session key) (Looked session)
      (OnOk fun _ found => ∀ tunnel ∈ found, tunnel.id ≠ "") (TunnelService.getActive tunnelId).run s := by
  refine Within.bindOk ((within_listActive s).mono fun t r _ hr tunnels htunnels => ?_)
  refine Within.ret ?_
  rintro found ⟨⟩ tunnel htunnel
  exact hr tunnels htunnels tunnel (List.mem_of_find?_eq_some htunnel)

theorem ends_getActive (tunnelId : String) :
    Ends session (OnOk fun t found => Looked session s t ∧ ∀ tunnel ∈ found, tunnel.id ≠ "")
      (Session.getActive key tunnelId).run s := by
  refine ends_orFail ((ends_look (within_getActive tunnelId s)).mono fun t r hr found hfound => ?_)
  exact ⟨hr.1, hr.2 found hfound⟩

/-! ### Keys on file -/

theorem keyFor_none {tunnelId : String} :
    s.keyFor tunnelId = none ↔ s.listenKeys.lookup tunnelId = none ∧ s.legacyKey = none := by
  unfold keyFor
  cases s.listenKeys.lookup tunnelId <;> simp

theorem mem_keys_of_keyFor (hs : s.Sound session) {tunnelId : String}
    (h : s.keyFor tunnelId = some key) : key ∈ s.keys := by
  unfold keyFor at h
  cases hlookup : s.listenKeys.lookup tunnelId with
  | some stored =>
      rw [hlookup] at h
      cases h
      exact hs.stored tunnelId _ hlookup
  | none =>
      rw [hlookup] at h
      exact hs.legacy key h

/-- The key a tunnel is taken up with is on file from then on. -/
theorem ends_listenKeyForTunnel (projectId tunnelId : String) :
    Ends session (OnOk fun t stored => Untouched session s t ∧ stored = s.keyFor tunnelId ∧
        t.listenKeys.lookup tunnelId = stored)
      (TaskE.orFail (Task.perform (.listenKeyForTunnel projectId tunnelId))).run s := by
  refine ends_orFail ⟨trivial, fun answer _ => ⟨trivial, fun stored hstored => ?_⟩⟩
  change (s.loadKey answer tunnelId).2 = .ok stored at hstored
  show Untouched session s (s.loadKey answer tunnelId).1 ∧ _ ∧
    (s.loadKey answer tunnelId).1.listenKeys.lookup tunnelId = stored
  unfold loadKey keyFor at *
  cases hlookup : s.listenKeys.lookup tunnelId with
  | some key =>
      rw [hlookup] at hstored
      change answer.reply (some key) = .ok stored at hstored
      unfold Answer.reply at hstored
      split at hstored
      · cases hstored
        exact ⟨Std.Refl.refl s, rfl, hlookup⟩
      · cases hstored
  | none =>
      cases hlegacy : s.legacyKey with
      | none =>
          rw [hlookup, hlegacy] at hstored
          change answer.reply none = .ok stored at hstored
          unfold Answer.reply at hstored
          split at hstored
          · cases hstored
            exact ⟨Std.Refl.refl s, rfl, hlookup⟩
          · cases hstored
      | some key =>
          rw [hlookup, hlegacy] at hstored
          change answer.reply (some key) = .ok stored at hstored
          unfold Answer.reply at hstored
          split at hstored
          · rename_i hok
            cases hstored
            simp only [hok, Bool.true_or, if_true]
            refine ⟨⟨rfl, List.Subset.refl _, fun id => Kept.refl s id, fun hs => ?_⟩, rfl,
              AList.lookup_insert _⟩
            refine ⟨hs.published, hs.single, hs.known, fun id other hother => ?_, fun _ h => nomatch h⟩
            by_cases hid : id = tunnelId
            · subst hid
              rw [AList.lookup_insert] at hother
              cases hother
              exact hs.legacy key hlegacy
            · rw [AList.lookup_insert_ne hid] at hother
              exact hs.stored id other hother
          · cases hstored

/-! ### Resolving the flags -/

/-- The tunnel is taken up with the key on file, or with a new one. -/
structure TakenUp (session : Session) (s t : Machine) (resolved : Session.Resolved) (key : String)
    (tunnel : TunnelSummary) : Prop where
  preresolved : resolved.preresolved = some (key, tunnel)
  id : tunnel.id ≠ ""
  untouched : Untouched session s t
  known : s.Sound session → key ∈ t.keys
  rewires : (resolved.inMemoryKey = none ∧ resolved.forceRewire = false ∧
      t.listenKeys.lookup tunnel.id = some key ∧ s.keyFor tunnel.id = some key) ∨
    (resolved.inMemoryKey = some key ∧ resolved.forceRewire = true)

theorem keyFor_looked (h : Looked session s t) (tunnelId : String) :
    t.keyFor tunnelId = s.keyFor tunnelId := by
  rw [keyFor, keyFor, h.files.1, h.files.2]

theorem ends_resolveListenKey (tunnelId : String) :
    Ends session (OnOk fun t keyAndRewire => Untouched session s t ∧
        (s.Sound session → keyAndRewire.1 ∈ t.keys) ∧
        (keyAndRewire.2 = false → t.listenKeys.lookup tunnelId = some keyAndRewire.1 ∧
          s.keyFor tunnelId = some keyAndRewire.1))
      (session.resolveListenKey tunnelId).run s := by
  refine Ends.bindOk ((ends_listenKeyForTunnel _ tunnelId).mono fun t r hr stored hstored => ?_)
  obtain ⟨huntouched, hfor, hlookup⟩ := hr stored hstored
  cases stored with
  | some key =>
      apply ends_ret
      refine ⟨huntouched, fun hs => ?_, fun _ => ⟨hlookup, hfor.symm⟩⟩
      exact huntouched.keys (mem_keys_of_keyFor hs hfor.symm)
  | none =>
      have hgenerate : Ends session (fun u (key : String) => Looked session t u ∧ key ∈ u.keys)
          (Task.perform .generateKey) t := by
        refine ⟨trivial, fun answer _ => ⟨trivial, ?_⟩⟩
        exact ⟨looked_key t answer.text, List.mem_cons_self⟩
      refine Ends.bindOk ((ends_lift hgenerate).mono fun u r hr key hkey => ?_)
      obtain ⟨hlooked, hmem⟩ := hr key hkey
      apply ends_ret
      exact ⟨huntouched.trans hlooked.toUntouched, fun _ => hmem, fun h => nomatch h⟩

theorem ends_resolveId (tunnelId : String) (endpoint : Option String) :
    Ends session (OnOk fun t resolved => ∃ key tunnel, TakenUp session s t resolved key tunnel)
      (session.resolveId tunnelId endpoint).run s := by
  refine Ends.bindOk (ends_newNode.mono fun t r hr temporary htemporary => ?_)
  obtain ⟨hst, -, -⟩ := hr temporary htemporary
  refine Ends.bindOk ((ends_getActive tunnelId).mono fun u r hr found hfound => ?_)
  obtain ⟨htu, hid⟩ := hr found hfound
  have hsu := hst.toUntouched.trans htu.toUntouched
  cases found with
  | none => exact ends_fail
  | some tunnel =>
      simp only
      split
      · exact ends_fail
      · refine Ends.bindOk ((ends_resolveListenKey tunnel.id).mono fun v r hr both hboth => ?_)
        obtain ⟨huv, hknown, hstored⟩ := hr both hboth
        obtain ⟨key, shouldRewire⟩ := both
        refine Ends.bindOk ((ends_bindNode key).mono fun w r hr _ hbound => ?_)
        rw [hr _ hbound]
        apply ends_ret
        refine ⟨key, tunnel, rfl, hid tunnel rfl, hsu.trans huv, fun hs => hknown (hsu.sound hs), ?_⟩
        cases shouldRewire with
        | true => exact Or.inr ⟨rfl, rfl⟩
        | false =>
            obtain ⟨hlookup, hfor⟩ := hstored rfl
            rw [keyFor_looked htu, keyFor_looked hst] at hfor
            exact Or.inl ⟨rfl, rfl, hlookup, hfor⟩

theorem ends_pick (tunnels : List TunnelSummary) :
    Ends session (OnOk fun t picked => t = s ∧ picked ∈ tunnels) (session.pick tunnels).run s := by
  match tunnels with
  | [] => exact ends_fail
  | [tunnel] => exact ends_ret ⟨rfl, List.mem_singleton.mpr rfl⟩
  | first :: second :: more =>
      have hselect {choices : List String} :
          Ends session (OnOk fun t (_ : Fin choices.length) => t = s)
            (TaskE.orFail (Task.perform (.select choices))).run s :=
        ends_orFail ⟨trivial, fun _ _ => ⟨trivial, fun _ _ => rfl⟩⟩
      refine Ends.bindOk (hselect.mono fun t r hr index hindex => ?_)
      exact ends_ret ⟨hr index hindex, List.get_mem _ _⟩

theorem ends_resolvePicked :
    Ends session (OnOk fun t resolved => ∃ key tunnel, TakenUp session s t resolved key tunnel)
      session.resolvePicked.run s := by
  refine Ends.bindOk (ends_newNode.mono fun t r hr temporary htemporary => ?_)
  obtain ⟨hst, -, -⟩ := hr temporary htemporary
  refine Ends.bindOk ((ends_orFail ((ends_look (within_listActive t)).mono
    fun u r hr tunnels htunnels => (⟨hr.1, hr.2 tunnels htunnels⟩ :
      Looked session t u ∧ ∀ tunnel ∈ tunnels, tunnel.id ≠ ""))).mono
    fun u r hr tunnels htunnels => ?_)
  obtain ⟨htu, hid⟩ := hr tunnels htunnels
  refine Ends.bindOk ((ends_pick tunnels).mono fun v r hr picked hpicked => ?_)
  obtain ⟨rfl, hmem⟩ := hr picked hpicked
  refine Ends.bindOk ((ends_listenKeyForTunnel _ picked.id).mono fun w r hr stored hstored => ?_)
  obtain ⟨huntouched, hfor, hlookup⟩ := hr stored hstored
  cases stored with
  | none => exact ends_fail
  | some key =>
      refine Ends.bindOk ((ends_bindNode key).mono fun x r hr _ hbound => ?_)
      rw [hr _ hbound]
      have hsv := hst.toUntouched.trans htu.toUntouched
      apply ends_ret
      refine ⟨key, picked, rfl, hid picked hmem, hsv.trans huntouched, fun hs => ?_,
        Or.inl ⟨rfl, rfl, hlookup, ?_⟩⟩
      · exact huntouched.keys (mem_keys_of_keyFor (hsv.sound hs) hfor.symm)
      · rw [← keyFor_looked hst, ← keyFor_looked htu]
        exact hfor.symm

/-- The command is given an endpoint and no tunnel. -/
def alone (endpoint id : Option String) : Bool := endpoint.isSome && id.isNone

theorem ends_resolve_named {endpoint id : Option String} (h : alone endpoint id = false) :
    Ends session (OnOk fun t resolved => ∃ key tunnel, TakenUp session s t resolved key tunnel)
      (session.resolve endpoint id).run s := by
  cases id with
  | some tunnelId => cases endpoint <;> exact ends_resolveId tunnelId _
  | none =>
      cases endpoint with
      | none => exact ends_resolvePicked
      | some endpoint => cases h

/-- By an endpoint alone two keys are made: one to be stored, and one for the node. -/
structure Doubled (session : Session) (s t : Machine) (resolved : Session.Resolved)
    (fresh : String) : Prop where
  preresolved : resolved.preresolved = none
  inMemoryKey : resolved.inMemoryKey = some fresh
  forceRewire : resolved.forceRewire = false
  looked : Looked session s t
  known : fresh ∈ t.keys
  new : New session s fresh

theorem ends_resolve_alone {endpoint id : Option String} (h : alone endpoint id = true) :
    Ends session (OnOk fun t resolved => ∃ fresh, Doubled session s t resolved fresh)
      (session.resolve endpoint id).run s := by
  cases endpoint with
  | none => cases h
  | some endpoint =>
      cases id with
      | some tunnelId => cases h
      | none =>
          have hgenerate : Ends session
              (fun u (key : String) => Looked session s u ∧ key ∈ u.keys ∧ New session s key)
              (Task.perform .generateKey) s := by
            refine ⟨trivial, fun answer hanswer => ⟨trivial, ?_⟩⟩
            exact ⟨looked_key s answer.text, List.mem_cons_self, hanswer⟩
          refine Ends.bindOk ((ends_lift hgenerate).mono fun t r hr key hkey => ?_)
          obtain ⟨hlooked, hmem, hnew⟩ := hr key hkey
          refine Ends.bindOk ((ends_bindNode key).mono fun u r hr _ hbound => ?_)
          rw [hr _ hbound]
          exact ends_ret ⟨key, rfl, rfl, rfl, hlooked, hmem, hnew⟩

/-! ## Once the node is there -/

/-- What a command has done to its tunnel: the calls of its node, and at most one key
saved, of a tunnel that has been rewired if that was to be done. -/
inductive Settled (session : Session) (key : String) (resolved : Session.Resolved) (s u : Machine)
    (tunnelId : String) : Prop where
  | unsaved (hserves : Serves session key s u)
      (hsaved : resolved.forceRewire = true → resolved.inMemoryKey = none)
  | saved (newKey : String) (t : Machine) (hmemory : resolved.inMemoryKey = some newKey)
      (hserves : Serves session key s t)
      (hpoints : resolved.forceRewire = true → t.Points (session.publicKey key) tunnelId)
      (hserves' : Serves session key (t.withKey tunnelId newKey) u)

theorem Settled.serves {resolved : Session.Resolved} {tunnelId : String} {v : Machine}
    (h : Settled session key resolved s u tunnelId) (huv : Serves session key u v) :
    Settled session key resolved s v tunnelId := by
  cases h with
  | unsaved hserves hsaved => exact .unsaved (IsTrans.trans _ _ _ hserves huv) hsaved
  | saved newKey t hmemory hserves hpoints hserves' =>
      exact .saved newKey t hmemory hserves hpoints (IsTrans.trans _ _ _ hserves' huv)

theorem sound_withKey {tunnelId newKey : String} (hs : s.Sound session) (hkey : newKey ∈ s.keys) :
    (s.withKey tunnelId newKey).Sound session := by
  refine ⟨hs.published, hs.single, hs.known, fun id other hother => ?_, hs.legacy⟩
  by_cases hid : id = tunnelId
  · subst hid
    change (s.listenKeys.insert id newKey).lookup id = some other at hother
    rw [AList.lookup_insert] at hother
    cases hother
    exact hkey
  · change (s.listenKeys.insert tunnelId newKey).lookup id = some other at hother
    rw [AList.lookup_insert_ne hid] at hother
    exact hs.stored id other hother

theorem Settled.hosts {resolved : Session.Resolved} {tunnelId : String}
    (h : Settled session key resolved s u tunnelId) (hs : Hosts session key s)
    (hmemory : ∀ newKey ∈ resolved.inMemoryKey, newKey ∈ s.keys) : Hosts session key u := by
  cases h with
  | unsaved hserves => exact hserves.hosts hs
  | saved newKey t hnew hserves hpoints hserves' =>
      have ht := hserves.hosts hs
      apply hserves'.hosts
      refine ⟨sound_withKey ht.1 ?_, ht.2⟩
      rw [hserves.keys]
      exact hmemory newKey hnew

theorem ends_service {α : Type} {method : Method} {p : SvcE α}
    {post : Machine → Except Error α → Prop} (hmethod : ∀ tunnelId, method ≠ .delete tunnelId)
    (h : Within (nodeHandle session key) (Serves session key) post p.run s) :
    Ends session (fun t r => Serves session key s t ∧ post t r) (Task.service key method p) s :=
  ends_of_within (safe_service hmethod h)

/-- What only waits changes nothing. -/
theorem ends_waits {α : Type} {p : Task α} (h : Only Waits p) :
    Ends session (fun t _ => t = s) p s := by
  have hsame : ∀ t c answer, Waits c → (handle session t c answer).1 = t := by
    intro t c answer hc
    cases c <;> first | rfl | cases hc
  exact h.safeWhen (J := fun t => t = s) (fun t c answer hc ht _ => (hsame t c answer hc).trans ht)
    (fun _ _ => trivial) rfl

theorem ends_saveListenKey {inMemoryKey : Option String} {tunnelId : String} :
    Ends session (OnOk fun t _ => t = match inMemoryKey with
        | some newKey => s.withKey tunnelId newKey
        | none => s) (session.saveListenKey inMemoryKey tunnelId).run s := by
  cases inMemoryKey with
  | none => exact ends_ret rfl
  | some newKey =>
      refine ends_orFail ⟨trivial, fun answer _ => ⟨trivial, fun done hdone => ?_⟩⟩
      show (if answer.ok then s.withKey tunnelId newKey else s) = s.withKey tunnelId newKey
      have hreply : answer.reply () = .ok done := hdone
      unfold Answer.reply at hreply
      split at hreply
      · rename_i hok
        exact if_pos hok
      · cases hreply

/-- A tunnel there is is rewired before its new key is saved. -/
theorem ends_adoptTunnel {label : Option String} {resolved : Session.Resolved}
    {tunnel : TunnelSummary} (hs : Hosts session key s) :
    Ends session (OnOk fun u tunnelId => tunnelId = tunnel.id ∧
        Settled session key resolved s u tunnel.id)
      (session.adoptTunnel key label resolved tunnel).run s := by
  unfold Session.adoptTunnel
  split
  · refine Ends.bindOk ((ends_orFail ((ends_service (by simp) (within_inSelectedProject
      fun t projectId hst => within_updateProject (hst.hosts hs) projectId _ _ _)).mono
      fun t r hr updated hupdated => (⟨hr.1, hr.2 updated hupdated⟩ :
        Serves session key s t ∧ t.Points (session.publicKey key) tunnel.id ∧
          updated.id = tunnel.id))).mono fun t r hr updated hupdated => ?_)
    obtain ⟨hst, hpoints, hid⟩ := hr updated hupdated
    refine Ends.bindOk (ends_saveListenKey.mono fun u r hr _ hsaved => ?_)
    have hu := hr _ hsaved
    have hcleanup : Ends session (OnOk fun v _ => Serves session key u v)
        (TaskE.service key .cleanupOrphanedConnectors cleanupOrphanedConnectors).run u :=
      ends_orFail ((ends_service (by simp) (within_plain plain_cleanupOrphanedConnectors u)).mono
        fun v r hr _ _ => hr.1)
    refine Ends.bindOk (hcleanup.mono fun v r hr _ hcleaned => ?_)
    have huv := hr _ hcleaned
    apply ends_ret
    cases hkey : resolved.inMemoryKey with
    | none =>
        rw [hkey] at hu
        subst hu
        exact ⟨hid, .unsaved (IsTrans.trans _ _ _ hst huv) fun _ => hkey⟩
    | some newKey =>
        rw [hkey] at hu
        subst hu
        exact ⟨hid, .saved newKey t hkey hst (fun _ => hpoints) huv⟩
  · rename_i hsame
    apply ends_ret
    have hforce : resolved.forceRewire = false := by
      cases hforce : resolved.forceRewire with
      | false => rfl
      | true => simp [hforce] at hsame
    refine ⟨rfl, .unsaved (Std.Refl.refl s) ?_⟩
    rw [hforce]
    exact fun h => nomatch h

theorem ends_createTunnel {label : Option String} {resolved : Session.Resolved}
    (hs : Hosts session key s) (hforce : resolved.forceRewire = false) :
    Ends session (OnOk fun u tunnelId => Settled session key resolved s u tunnelId)
      (session.createTunnel key label resolved).run s := by
  refine Ends.bindOk ((ends_orFail ((ends_service (by simp) (within_inSelectedProject
    fun t projectId hst => within_createProject (hst.hosts hs) projectId _ _)).mono
    fun t r hr tunnel _ => hr.1)).mono fun t r hr tunnel htunnel => ?_)
  have hst := hr tunnel htunnel
  refine Ends.bindOk (ends_saveListenKey.mono fun u r hr _ hsaved => ?_)
  have hu := hr _ hsaved
  apply ends_ret
  cases hkey : resolved.inMemoryKey with
  | none =>
      rw [hkey] at hu
      subst hu
      exact .unsaved hst fun _ => hkey
  | some newKey =>
      rw [hkey] at hu
      subst hu
      refine .saved newKey t hkey hst ?_ (Std.Refl.refl _)
      rw [hforce]
      exact fun h => nomatch h

/-- What is left of the setup when the tunnel is there. -/
theorem ends_finish {resolved : Session.Resolved} {tunnelId : String} {rounds : Nat}
    (hs : Hosts session key s) :
    Ends session (OnOk fun t result => Serves session key s t ∧ result = (key, tunnelId))
      (do
        let _ ← TaskE.lift (Task.service key (.setEnabled tunnelId)
          ((session.serviceFor key).setEnabledActive tunnelId true))
        session.awaitReady key tunnelId resolved.endpoint rounds
        return (key, tunnelId) : TaskE (String × String)).run s := by
  refine Ends.bindOk ((ends_lift (ends_service (by simp) (within_inSelectedProject
    fun t projectId hst => within_setEnabledProject (hst.hosts hs) projectId tunnelId))).mono
    fun t r hr enabled henabled => ?_)
  obtain ⟨hst, -⟩ := hr enabled henabled
  have hready : Ends session (OnOk fun u _ => Serves session key t u)
      (session.awaitReady key tunnelId resolved.endpoint rounds).run t := by
    refine Ends.bindOk ((ends_waits (waits_awaitTunnelProgress rounds)).mono
      fun u r hu progress _ => ?_)
    subst hu
    refine Ends.bindOk ((ends_lift (ends_service (by simp)
      (within_refreshConnectionDetails (hst.hosts hs)))).mono fun v r hr refreshed hrefreshed => ?_)
    obtain ⟨huv, -⟩ := hr refreshed hrefreshed
    refine Ends.bindOk ((ends_lift (ends_waits (waits_awaitHostnames progress 20))).mono
      fun w r hr again hagain => ?_)
    have hw := hr again hagain
    refine Ends.bindOk ((ends_waits (waits_verify again.hostnames)).mono fun x r hx _ _ => ?_)
    subst hx
    subst hw
    have hget : Ends session (OnOk fun y _ => Serves session key x y)
        (Session.getActive key tunnelId).run x :=
      ends_orFail ((ends_service (by simp) (within_writes []
        (writes_listActive.bindE fun _ => Only.ret _) (by simp) (by simp) x)).mono
          fun y r hr _ _ => hr.1)
    refine Ends.bindOk (hget.mono fun y r hr found hfound => ?_)
    have hxy := hr found hfound
    cases found with
    | none => exact ends_fail
    | some tunnel => exact ends_ret (IsTrans.trans _ _ _ huv hxy)
  refine Ends.bindOk (hready.mono fun u r hr _ hdone => ?_)
  exact ends_ret ⟨IsTrans.trans _ _ _ hst (hr _ hdone), rfl⟩

/-! ## The whole setup -/

theorem ends_setup_named {label endpoint id : Option String} {rounds : Nat} (hs : s.Sound session)
    (h : alone endpoint id = false) :
    Ends session (OnOk fun u result => ∃ t resolved tunnel,
        TakenUp session s t resolved result.1 tunnel ∧ result.2 = tunnel.id ∧
        Settled session result.1 resolved t u tunnel.id)
      (session.setup label endpoint id rounds).run s := by
  refine Ends.bindOk ((ends_resolve_named h).mono fun t r hr resolved hresolved => ?_)
  obtain ⟨key, tunnel, htaken⟩ := hr resolved hresolved
  have ht : Hosts session key t := ⟨htaken.untouched.sound hs, htaken.known hs⟩
  have hselect : session.selectNode resolved = pure (key, some tunnel) := by
    rw [Session.selectNode, htaken.preresolved]
    simp only [if_neg htaken.id]
  rw [hselect]
  refine Ends.bindOk (ends_ret ?_)
  refine Ends.bindOk ((ends_lift (ends_waits waits_startHeartbeat)).mono fun u r hr _ hstarted => ?_)
  rw [hr _ hstarted]
  refine Ends.bindOk ((ends_adoptTunnel ht).mono fun v r hr tunnelId hadopted => ?_)
  obtain ⟨rfl, hsettled⟩ := hr tunnelId hadopted
  have hmemory : ∀ newKey ∈ resolved.inMemoryKey, newKey ∈ t.keys := by
    intro newKey hnew
    rcases htaken.rewires with ⟨hnone, -⟩ | ⟨hkey, -⟩
    · rw [hnone] at hnew
      cases hnew
    · rw [hkey] at hnew
      cases hnew
      exact ht.2
  refine (ends_finish (hsettled.hosts ht hmemory)).mono fun w r hr result hresult => ?_
  obtain ⟨hvw, rfl⟩ := hr result hresult
  exact ⟨t, resolved, tunnel, htaken, rfl, hsettled.serves hvw⟩

/-- What a command that is given an endpoint alone goes by. -/
structure Unnamed (session : Session) (s t : Machine) (resolved : Session.Resolved)
    (fresh key : String) : Prop extends Doubled session s t resolved fresh where
  node : New session s key
  other : session.publicKey fresh ≠ session.publicKey key

theorem ends_setup_alone {label endpoint id : Option String} {rounds : Nat} (hs : s.Sound session)
    (h : alone endpoint id = true) :
    Ends session (OnOk fun u result => ∃ t resolved fresh v,
        Unnamed session s t resolved fresh result.1 ∧ Looked session t v ∧ result.1 ∈ v.keys ∧
        Settled session result.1 resolved v u result.2)
      (session.setup label endpoint id rounds).run s := by
  refine Ends.bindOk ((ends_resolve_alone h).mono fun t r hr resolved hresolved => ?_)
  obtain ⟨fresh, hdoubled⟩ := hr resolved hresolved
  have hselect : Ends session
      (OnOk fun v (both : String × Option TunnelSummary) => Looked session t v ∧
        both.1 ∈ v.keys ∧ New session t both.1)
      (session.selectNode resolved).run t := by
    rw [Session.selectNode, hdoubled.preresolved]
    refine Ends.bindOk (ends_newNode.mono fun u r hr key hkey => ?_)
    obtain ⟨htu, hmem, hnew⟩ := hr key hkey
    have hlook : Ends session (OnOk fun v _ => Looked session u v)
        (TaskE.service key .look (TunnelService.getActiveByEndpoint resolved.endpoint)).run u :=
      ends_orFail ((ends_look (within_look (writes_listActive.bindE fun _ => Only.ret _) u)).mono
        fun v r hr _ _ => hr.1)
    refine Ends.bindOk (hlook.mono fun v r hr found hfound => ?_)
    have huv := hr found hfound
    exact ends_ret ⟨IsTrans.trans _ _ _ htu huv, huv.keys hmem, hnew⟩
  refine Ends.bindOk (hselect.mono fun v r hr both hboth => ?_)
  obtain ⟨htv, hmem, hnew⟩ := hr both hboth
  obtain ⟨key, existing⟩ := both
  have hv : Hosts session key v := ⟨htv.sound (hdoubled.looked.sound hs), hmem⟩
  have hunnamed : Unnamed session s t resolved fresh key :=
    { hdoubled with
      node := fun old hold => hnew old (hdoubled.looked.keys hold)
      other := fun heq => hnew fresh hdoubled.known heq.symm }
  refine Ends.bindOk ((ends_lift (ends_waits waits_startHeartbeat)).mono fun w r hr _ hstarted => ?_)
  rw [hr _ hstarted]
  have hensure : Ends session (OnOk fun w tunnelId => Settled session key resolved v w tunnelId)
      (session.ensureTunnel key label resolved existing).run v := by
    cases existing with
    | none => exact ends_createTunnel hv hdoubled.forceRewire
    | some tunnel =>
        refine (ends_adoptTunnel hv).mono fun w r hr tunnelId hadopted => ?_
        obtain ⟨rfl, hsettled⟩ := hr tunnelId hadopted
        exact hsettled
  refine Ends.bindOk (hensure.mono fun w r hr tunnelId hensured => ?_)
  have hsettled := hr tunnelId hensured
  have hmemory : ∀ newKey ∈ resolved.inMemoryKey, newKey ∈ v.keys := by
    intro newKey hkey
    rw [hdoubled.inMemoryKey] at hkey
    cases hkey
    exact htv.keys hdoubled.known
  refine (ends_finish (hsettled.hosts hv hmemory)).mono fun x r hr result hresult => ?_
  obtain ⟨hwx, rfl⟩ := hr result hresult
  exact ⟨t, resolved, fresh, v, hunnamed, htv, hmem, hsettled.serves hwx⟩

/-! ## Which tunnels keep their identity -/

variable {tunnelId : String} {proxy : HTTPProxy}

theorem Points.pointsTo {endpointId : String} (h : s.Points endpointId tunnelId)
    (hproxy : (s.cluster .httpProxy).get? tunnelId = some proxy) : s.PointsTo endpointId tunnelId :=
  ⟨proxy, hproxy, h proxy hproxy⟩

/-- A tunnel that is the node's is no other's. -/
theorem Points.eq {endpointId other : String} (h : s.Points endpointId tunnelId)
    (hs : s.Sound session) (hother : s.PointsTo other tunnelId) : other = endpointId := by
  obtain ⟨proxy, hproxy, name, hname, howned⟩ := hother
  obtain ⟨name', hname', howned'⟩ := h proxy hproxy
  rw [hname] at hname'
  cases hname'
  exact hs.single name other endpointId howned howned'

theorem coherent_iff_of_lookup (h : s.listenKeys.lookup tunnelId = some key) :
    s.Coherent session tunnelId ↔ s.PointsTo (session.publicKey key) tunnelId := by
  constructor
  · rintro ⟨key', hkey', hpoints⟩
    rw [h] at hkey'
    cases hkey'
    exact hpoints
  · exact fun hpoints => ⟨key, h, hpoints⟩

/-- A tunnel that is taken up has its key, and is the node's if its proxy was or has been
written. -/
theorem coherent_named {resolved : Session.Resolved} {tunnel : TunnelSummary}
    (htaken : TakenUp session s t resolved key tunnel) (hrewired : s.rewired = [])
    (hsettled : Settled session key resolved t u tunnel.id)
    (hproxy : (u.cluster .httpProxy).get? tunnel.id = some proxy) :
    u.Coherent session tunnel.id ↔ s.Resumable session tunnel.id ∨ tunnel.id ∈ u.rewired := by
  cases hsettled with
  | unsaved hserves hsaved =>
      rcases htaken.rewires with ⟨hnone, -, hlookup, hfor⟩ | ⟨hkey, hforce⟩
      · rw [← hserves.listenKeys] at hlookup
        rw [coherent_iff_of_lookup hlookup]
        rcases hserves.tracked tunnel.id with hkept | hmoved
        · have hkept := (htaken.untouched.kept tunnel.id).trans hkept
          have hnot : tunnel.id ∉ u.rewired := by
            rw [hkept.1, hrewired]
            exact List.not_mem_nil
          rw [hkept.pointsTo_iff hproxy]
          constructor
          · exact fun hpoints => Or.inl ⟨key, hfor, hpoints⟩
          · rintro (⟨key', hkey', hpoints⟩ | hmem)
            · rw [hfor] at hkey'
              cases hkey'
              exact hpoints
            · exact absurd hmem hnot
        · exact iff_of_true (hmoved.2.pointsTo hproxy) (Or.inr hmoved.1)
      · rw [hsaved hforce] at hkey
        cases hkey
  | saved newKey v hmemory hserves hpoints hserves' =>
      rcases htaken.rewires with ⟨hnone, -⟩ | ⟨hkey, hforce⟩
      · rw [hnone] at hmemory
        cases hmemory
      · rw [hkey] at hmemory
        cases hmemory
        have hlookup : u.listenKeys.lookup tunnel.id = some key := by
          rw [hserves'.listenKeys]
          exact AList.lookup_insert _
        have hv : (v.withKey tunnel.id key).Points (session.publicKey key) tunnel.id := hpoints hforce
        refine iff_of_true ?_ (Or.inr ?_)
        · rw [coherent_iff_of_lookup hlookup]
          exact (hserves'.points hv).pointsTo hproxy
        · rcases hserves'.tracked tunnel.id with hkept | hmoved
          · exact hkept.1.mpr List.mem_cons_self
          · exact hmoved.1

/-- By an endpoint alone a tunnel stays coherent only where it is left alone. -/
theorem coherent_alone {resolved : Session.Resolved} {fresh : String} {v : Machine}
    (hunnamed : Unnamed session s t resolved fresh key) (hlooked : Looked session t v)
    (hs : s.Sound session) (hkey : key ∈ v.keys) (hrewired : s.rewired = [])
    (hsettled : Settled session key resolved v u tunnelId)
    (hproxy : (u.cluster .httpProxy).get? tunnelId = some proxy) :
    u.Coherent session tunnelId ↔ s.Coherent session tunnelId ∧ tunnelId ∉ u.rewired := by
  have hsv : Looked session s v := IsTrans.trans _ _ _ hunnamed.looked hlooked
  cases hsettled with
  | unsaved hserves hsaved =>
      have hfiles : u.listenKeys = s.listenKeys := hserves.listenKeys.trans hsv.files.1
      rcases hserves.tracked tunnelId with hkept | hmoved
      · have hkept := (hsv.kept tunnelId).trans hkept
        have hnot : tunnelId ∉ u.rewired := by
          rw [hkept.1, hrewired]
          exact List.not_mem_nil
        unfold Coherent
        rw [hfiles, and_iff_left hnot]
        exact exists_congr fun key => and_congr_right fun _ => hkept.pointsTo_iff hproxy
      · refine iff_of_false ?_ fun h => h.2 hmoved.1
        rintro ⟨old, hold, hpoints⟩
        rw [hfiles] at hold
        have hu := hserves.sound (hsv.sound hs) hkey
        exact hunnamed.node old (hs.stored tunnelId old hold) (hmoved.2.eq hu hpoints).symm
  | saved newKey w hmemory hserves hpoints hserves' =>
      rw [hunnamed.inMemoryKey] at hmemory
      cases hmemory
      have hlookup : u.listenKeys.lookup tunnelId = some fresh := by
        rw [hserves'.listenKeys]
        exact AList.lookup_insert _
      refine iff_of_false ?_ ?_
      · rw [coherent_iff_of_lookup hlookup]
        rintro ⟨proxy, -, name, -, howned⟩
        have hnobody : ∀ owner ∈ s.owners, owner.2 ≠ session.publicKey fresh := by
          intro owner howner heq
          obtain ⟨old, hold, hpublic⟩ := hs.known owner howner
          exact hunnamed.new old hold (heq.symm.trans hpublic.symm)
        rcases hserves'.owners _ howned with hbefore | hnode
        · rcases hserves.owners _ hbefore with hbefore | hnode
          · rw [hsv.owners] at hbefore
            exact hnobody _ hbefore rfl
          · exact hunnamed.other hnode
        · exact hunnamed.other hnode
      · rintro ⟨-, hnot⟩
        apply hnot
        rcases hserves'.tracked tunnelId with hkept | hmoved
        · exact hkept.1.mpr List.mem_cons_self
        · exact hmoved.1

/-- A command that has set a tunnel up: named, the tunnel is coherent if the key it is
taken up with was its proxy's before, or a call that rewires it has been carried out;
by an endpoint alone, if it was so before and none has. -/
theorem coherent_iff (session : Session) (label endpoint id : Option String) (rounds : Nat)
    (s t : Machine) (answers : List Answer) (key tunnelId : String) (hs : s.Sound session)
    (hrewired : s.rewired = [])
    (hfresh : Answered (handle session) (Fresh session) s answers
      (session.setup label endpoint id rounds).run)
    (hrun : Prog.exec (handle session) s answers (session.setup label endpoint id rounds).run =
      (t, some (.ok (key, tunnelId))))
    (hproxy : ((t.cluster .httpProxy).get? tunnelId).isSome = true) :
    t.Coherent session tunnelId ↔
      if alone endpoint id then s.Coherent session tunnelId ∧ tunnelId ∉ t.rewired
      else s.Resumable session tunnelId ∨ tunnelId ∈ t.rewired := by
  obtain ⟨proxy, hproxy⟩ := Option.isSome_iff_exists.mp hproxy
  by_cases halone : alone endpoint id = true
  · rw [if_pos halone]
    have hends := (SafeWhen.exec (ends_setup_alone hs halone)
      hfresh).2
    rw [hrun] at hends
    obtain ⟨_, _, _, v, hunnamed, hlooked, hkey, hsettled⟩ := hends _ rfl _ rfl
    exact coherent_alone hunnamed hlooked hs hkey hrewired hsettled hproxy
  · have hnamed : alone endpoint id = false := Bool.eq_false_iff.mpr halone
    rw [if_neg halone]
    have hends := (SafeWhen.exec (ends_setup_named hs hnamed)
      hfresh).2
    rw [hrun] at hends
    obtain ⟨_, resolved, tunnel, htaken, heq, hsettled⟩ := hends _ rfl _ rfl
    change tunnelId = tunnel.id at heq
    subst heq
    exact coherent_named htaken hrewired hsettled hproxy

/-- Every call goes as it should; a key that is made is the one given. -/
def answering (text : String) : Answer where
  cloud := {
    details := some { publicKeyId := "", homeRelay := "r", addresses := [] }
    suffix := "x" }
  text
  progress := some { hostnames := ["tunnel-x.example"], steps := [] }

/-- A tunnel whose proxy references the connector of the key on file. -/
def served : Machine where
  cluster := (Cluster.empty.set .httpProxy {
    objects := [{
      name := "tunnel-x"
      spec := {
        label := some "h:1"
        hostnames := some []
        rules := desiredProxyRules "http://h:1" "datum-connect-x" none } }] }).set .connector {
    objects := [{
      name := "datum-connect-x"
      spec := {
        className := "iroh-quic-tunnel"
        deviceName := some "box"
        deviceOs := some "linux"
        status := some {
          conditions := none
          connectionDetails := some { publicKeyId := "k0", homeRelay := "r", addresses := [] } } } }] }
  listenKeys := AList.insert "tunnel-x" "k0" ∅
  owners := [("datum-connect-x", "k0")]
  keys := ["k0"]

def resuming : List Answer := List.replicate 60 (answering "k1")

theorem sound_served : served.Sound .plain where
  published o endpointId ho hpublic := by
    have hmem := Table.mem_iff.mpr ho
    have heq := List.mem_singleton.mp hmem
    subst heq
    cases hpublic
    exact List.mem_singleton.mpr rfl
  single name a b ha hb := by
    cases List.mem_singleton.mp ha
    cases List.mem_singleton.mp hb
    rfl
  known owner howner := by
    cases List.mem_singleton.mp howner
    exact ⟨"k0", List.mem_singleton.mpr rfl, rfl⟩
  stored tunnelId key hkey := by
    by_cases hid : tunnelId = "tunnel-x"
    · subst hid
      cases hkey
      exact List.mem_singleton.mpr rfl
    · change (AList.insert "tunnel-x" "k0" (∅ : AList fun _ : String => String)).lookup tunnelId =
        some key at hkey
      rw [AList.lookup_insert_ne hid] at hkey
      cases hkey
  legacy key hkey := nomatch hkey

set_option maxRecDepth 8000 in
theorem coherent_resumed :
    ∃ t, Prog.exec (handle .plain) served resuming
        (Session.plain.setup none none (some "tunnel-x") 3).run = (t, some (.ok ("k0", "tunnel-x"))) ∧
      (t.Coherent .plain "tunnel-x" ↔
        if alone none (some "tunnel-x") then
          served.Coherent .plain "tunnel-x" ∧ "tunnel-x" ∉ t.rewired
        else served.Resumable .plain "tunnel-x" ∨ "tunnel-x" ∈ t.rewired) :=
  ⟨_, rfl, coherent_iff .plain none none (some "tunnel-x") 3 served _ resuming "k0" "tunnel-x"
    sound_served rfl (by decide) rfl (by decide)⟩

/-- By an endpoint alone the key that is saved is not the one the tunnel's node has. -/
def creating : List Answer := answering "k1" :: List.replicate 60 (answering "k2")

set_option maxRecDepth 8000 in
theorem identity_lost :
    ∃ t, Prog.exec (handle .plain) { cluster := Cluster.empty } creating
        (Session.plain.setup none (some "h:1") none 3).run = (t, some (.ok ("k2", "tunnel-x"))) ∧
      ((t.cluster .httpProxy).get? "tunnel-x").isSome = true ∧
      ¬ t.Coherent .plain "tunnel-x" := by
  refine ⟨_, rfl, by decide, ?_⟩
  rintro ⟨key, hkey, proxy, -, name, -, howned⟩
  have hstored : some "k1" = some key := hkey
  cases hstored
  have hmem : (name, "k1") ∈ [("datum-connect-x", "k2")] := howned
  exact absurd (Prod.mk.inj (List.mem_singleton.mp hmem)).2 (by decide)

end Machine

end DatumConnect.Cli
