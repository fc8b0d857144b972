import Mathlib.Data.List.Find
import DatumConnect.Tunnels.Made
import DatumConnect.Tunnels.Makes
/-!
# What the operations leave at the server

One operation on a project that nothing else changes.  The ledger keeps, beside the
objects, how many writes of a proxy or an advertisement have been sent, the connector that
was made last, and whether an object that was to be deleted is held back.  Each part of an
operation is described by the ledger it leads to where it succeeds.
-/

namespace DatumConnect.Tunnels

open DatumConnect.Lib
open DatumConnect.Lib.Prog (Only SafeWhen OnOk)
open DatumConnect.Cloud

structure Ledger where
  cluster : Cluster
  writes : Nat := 0
  latest : Option String := none
  held : Bool := false

/-- A PATCH or a POST of an HTTPProxy or a ConnectorAdvertisement. -/
def isWrite : Call → Bool
  | .create .httpProxy _ _ | .create .connectorAdvertisement _ _ => true
  | .patch .httpProxy _ _ | .patch .connectorAdvertisement _ _ => true
  | _ => false

namespace Ledger

def latestAfter (l : Ledger) (answer : Answer) (c : Call) : Option String :=
  match Workshop.creates l.cluster answer c with
  | some (.connector, name) => some name
  | _ => l.latest

/-- The server marks what it is to delete. -/
def holdsBack (answer : Answer) : Call → Bool
  | .delete _ _ => answer.landed && answer.mark
  | _ => false

def serve (endpointId : String) (l : Ledger) (answer : Answer) (c : Call) : Ledger × c.Reply :=
  let (cluster, reply) := l.cluster.serve (Workshop.ofNode endpointId answer) c
  ({ cluster
     writes := if isWrite c then l.writes + 1 else l.writes
     latest := l.latestAfter answer c
     held := l.held || holdsBack answer c }, reply)

def handle (endpointId : String) (l : Ledger) (c : Call) (answer : Answer) : Ledger × c.Reply :=
  serve endpointId { l with cluster := l.cluster.finalize answer.finalized } answer c

/-- The first connector that is found by the identity. -/
def owned (endpointId : String) (s : Cluster) : Option String :=
  ((s .connector).objects.find? fun c => c.spec.publicKeyId = some endpointId).map Object.name

/-- What a computation comes to where nothing else changes the project. -/
abbrev Alone {α : Type} (endpointId : String) (post : Ledger → α → Prop) (p : Svc α)
    (l : Ledger) : Prop :=
  SafeWhen (handle endpointId) (fun _ _ answer => answer.finalized = []) (fun _ => True) post p l

variable {endpointId : String} {l t : Ledger} {α β ε : Type}

theorem finalize_nil (s : Cluster) : s.finalize [] = s := by
  funext kind
  show (s kind).finalize [] = s kind
  unfold Table.finalize Table.filter
  congr 1
  rw [List.filter_eq_self]
  intro o _
  simp

/-! ## One call -/

theorem alone_call {c : Call} {post : Ledger → c.Reply → Prop}
    (h : ∀ answer, post (serve endpointId l answer c).1 (serve endpointId l answer c).2) :
    Alone endpointId post (Prog.perform c) l := by
  refine ⟨trivial, fun answer hfinalized => ⟨trivial, ?_⟩⟩
  have hserve : handle endpointId l c answer = serve endpointId l answer c := by
    rw [handle, hfinalized, finalize_nil]
  rw [hserve]
  exact h answer

theorem latestAfter_of_kind {answer : Answer} {c : Call} (h : writtenKind c ≠ some .connector) :
    l.latestAfter answer c = l.latest := by
  unfold latestAfter
  split
  · rename_i name hcreates
    exact absurd (Workshop.creates_kind hcreates) h
  · rfl

/-- A call that writes no object leaves the ledger as it is. -/
theorem serve_of_plain {answer : Answer} {c : Call} (h : writtenKind c = none) :
    (serve endpointId l answer c).1 = l := by
  have hcluster : (l.cluster.serve (Workshop.ofNode endpointId answer) c).1 = l.cluster := by
    apply Cluster.serve_fst
    · rintro kind name spec rfl
      cases h
    · rintro kind name patch rfl
      cases h
    · rintro kind name rfl
      cases h
  have hwrite : isWrite c = false := by
    unfold isWrite
    split
    · cases h
    · cases h
    · cases h
    · cases h
    · rfl
  have hlatest : l.latestAfter answer c = l.latest :=
    latestAfter_of_kind (by simp [h])
  have hheld : holdsBack answer c = false := by
    unfold holdsBack
    split
    · cases h
    · rfl
  simp only [serve, hcluster, hwrite, hlatest, hheld, Bool.false_eq_true, if_false, Bool.or_false]

/-- The rule for calls that write nothing. -/
theorem alone_plain {c : Call} (hplain : writtenKind c = none) {post : Ledger → c.Reply → Prop}
    (h : ∀ answer, post l (l.cluster.serve (Workshop.ofNode endpointId answer) c).2) :
    Alone endpointId post (Prog.perform c) l := by
  refine alone_call fun answer => ?_
  rw [serve_of_plain hplain]
  exact h answer

/-- A computation that makes no call that writes. -/
theorem alone_only {p : Svc α} (h : Only (fun c => writtenKind c = none) p) :
    Alone endpointId (fun t _ => t = l) p l := by
  refine h.safeWhen (J := fun t => t = l) (fun s c answer hc hs hfinalized => ?_)
    (fun _ _ => trivial) rfl
  subst hs
  rw [handle, hfinalized, finalize_nil]
  exact serve_of_plain hc

/-- What a run comes to that returns. -/
theorem exec_alone {p : SvcE α} {post : Ledger → α → Prop} {answers : List Answer} {a : α}
    (h : Alone endpointId (OnOk post) p.run l)
    (hanswers : ∀ answer ∈ answers, answer.finalized = [])
    (hrun : Prog.exec (handle endpointId) l answers p.run = (t, some (.ok a))) : post t a := by
  have hpost := (h.exec (Prog.Answered.of_mem hanswers)).2 (.ok a) (by rw [hrun])
  rw [hrun] at hpost
  exact hpost a rfl

theorem alone_lift {p : Svc α} {post : Ledger → α → Prop} (h : Alone endpointId post p l) :
    Alone endpointId (OnOk post) (SvcE.lift p).run l := by
  refine SafeWhen.bind (h.mono fun _ a _ ha => ⟨trivial, ?_⟩)
  rintro b hb
  cases hb
  exact ha

theorem alone_mapError {f : ε → Error} {p : Svc (Except ε α)} {post : Ledger → α → Prop}
    (h : Alone endpointId (OnOk post) p l) :
    Alone endpointId (OnOk post) (SvcE.mapError f p).run l := by
  refine SafeWhen.bind (h.mono fun _ r _ hr => ⟨trivial, ?_⟩)
  cases r with
  | ok a =>
      rintro b hb
      cases hb
      exact hr a rfl
  | error e => exact fun b hb => nomatch hb

theorem alone_pure {a : α} {post : Ledger → α → Prop} (h : post l a) :
    Alone endpointId (OnOk post) (pure a : SvcE α).run l := by
  refine ⟨trivial, ?_⟩
  rintro b hb
  cases hb
  exact h

theorem alone_throw {e : Error} {post : Ledger → α → Prop} :
    Alone endpointId (OnOk post) (throw e : SvcE α).run l :=
  ⟨trivial, fun _ h => nomatch h⟩

theorem alone_client {projectId : String} :
    Alone endpointId (OnOk fun t _ => t = l) (SvcE.projectControlPlaneClient projectId).run l :=
  alone_plain (c := .projectControlPlaneClient projectId) rfl fun _ _ _ => rfl

theorem alone_ofExcept {r : Except String α} :
    Alone endpointId (OnOk fun t a => t = l ∧ r = .ok a) (SvcE.ofExcept r).run l := by
  cases r with
  | ok a => exact alone_pure ⟨rfl, rfl⟩
  | error e => exact alone_throw

theorem alone_get {kind : Kind} {name context : String} :
    Alone endpointId (OnOk fun t o => t = l ∧ (l.cluster kind).get? name = some o)
      (SvcE.orElseContext (Svc.get kind name) context).run l := by
  refine alone_mapError (alone_plain rfl fun answer o ho => ⟨rfl, ?_⟩)
  have hget := (Cluster.replying_ok ho).2
  cases hfound : (l.cluster kind).get? name with
  | none => simp [hfound] at hget
  | some o' =>
      rw [hfound] at hget
      cases hget
      rfl

theorem alone_getOpt {kind : Kind} {name context : String} :
    Alone endpointId (OnOk fun t o => t = l ∧ o = (l.cluster kind).get? name)
      (SvcE.orElseContext (Svc.getOpt kind name) context).run l := by
  refine alone_mapError (alone_plain rfl fun answer o ho => ⟨rfl, ?_⟩)
  have hget := (Cluster.replying_ok ho).2
  cases hget
  rfl

theorem alone_list {kind : Kind} {selector : Selector} :
    Alone endpointId (OnOk fun t os => t = l ∧
        os = (l.cluster kind).objects.filter fun o => selector.matches kind o.spec)
      (Svc.list kind selector) l := by
  refine alone_plain rfl fun answer os hos => ⟨rfl, ?_⟩
  have hlist := (Cluster.replying_ok hos).2
  cases hlist
  rfl

theorem alone_listAll {kind : Kind} {context : String} :
    Alone endpointId (OnOk fun t os => t = l ∧ os = (l.cluster kind).objects)
      (SvcE.orElseContext (Svc.list kind .everything) context).run l := by
  refine alone_mapError (alone_list.mono fun t r _ hr os hos => ?_)
  obtain ⟨ht, hlist⟩ := hr os hos
  refine ⟨ht, hlist.trans ?_⟩
  rw [List.filter_eq_self]
  intro o _
  cases kind <;> rfl

/-! ## The connector that is found -/

section Owned

variable {s : Cluster} {name : String}

theorem owned_patch (patch : Patch .connector) :
    owned endpointId (s.patch .connector name patch).1 =
      ((s .connector).objects.find? fun c =>
        (if c.name = name then { c with spec := patch.merge c.spec } else c).spec.publicKeyId =
          some endpointId).map Object.name := by
  unfold Cluster.patch
  cases hget : (s .connector).get? name with
  | some c =>
      simp only [owned, Cluster.set_self]
      rw [Table.find?_patch]
  | none =>
      have hnone : ∀ c ∈ (s .connector).objects, c.name ≠ name := by
        simpa [Table.get?] using hget
      unfold owned
      congr 1
      apply List.find?_congr
      intro c hc
      rw [if_neg (hnone c hc)]

theorem owned_annotations (deviceName deviceOs : String) :
    owned endpointId (s.patch .connector name (.annotations deviceName deviceOs)).1 =
      owned endpointId s := by
  rw [owned_patch]
  unfold owned
  congr 1
  apply List.find?_congr
  intro c _
  split <;> rfl

/-- The first connector stays the first. -/
theorem owned_connectionDetails {details : ConnectionDetails}
    (hdetails : details.publicKeyId = endpointId) (h : owned endpointId s = some name) :
    owned endpointId (s.patch .connector name (.connectionDetails details)).1 = some name := by
  obtain ⟨c, hc, hname⟩ := Option.map_eq_some_iff.mp h
  have hfound := List.find?_some hc
  have hmem := List.mem_of_find?_eq_some hc
  rw [owned_patch, ← h]
  unfold owned
  congr 1
  apply List.find?_congr
  intro c' hc'
  split
  · rename_i hname'
    have heq : c' = c := by
      have hget := Table.mem_iff.mp hc'
      rw [hname', ← hname, Table.mem_iff.mp hmem] at hget
      exact (Option.some.inj hget).symm
    rw [heq, hfound]
    exact decide_eq_true (congrArg some hdetails)
  · rfl

/-- The connector is then the first, if any is. -/
theorem owned_connectionDetails_none {details : ConnectionDetails}
    (hdetails : details.publicKeyId = endpointId) (h : owned endpointId s = none)
    (name : String) :
    owned endpointId (s.patch .connector name (.connectionDetails details)).1 = none ∨
      owned endpointId (s.patch .connector name (.connectionDetails details)).1 = some name := by
  have hnone : ∀ c ∈ (s .connector).objects, c.spec.publicKeyId ≠ some endpointId := by
    have hfind := Option.map_eq_none_iff.mp h
    simpa using hfind
  have hfind : ((s .connector).objects.find? fun c =>
      (if c.name = name then { c with
        spec := Patch.merge (.connectionDetails details) c.spec } else c).spec.publicKeyId =
          some endpointId) = (s .connector).get? name := by
    unfold Table.get?
    apply List.find?_congr
    intro c hc
    by_cases hname : c.name = name
    · rw [if_pos hname, decide_eq_true hname]
      exact decide_eq_true (congrArg some hdetails)
    · rw [if_neg hname, decide_eq_false hname]
      exact decide_eq_false (hnone c hc)
  rw [owned_patch, hfind]
  cases hget : (s .connector).get? name with
  | none => exact Or.inl rfl
  | some c => exact Or.inr (congrArg some (Table.name_of_get? hget))

end Owned

/-! ## Creating -/

/-- Objects of one kind have been added, all with the one spec. -/
structure Grown (kind : Kind) (spec : kind.Spec) (l t : Ledger) : Prop where
  others : ∀ kind', kind' ≠ kind → t.cluster kind' = l.cluster kind'
  objects : ∃ added, (t.cluster kind).objects = (l.cluster kind).objects ++ added ∧
    ∀ o ∈ added, o.spec = spec
  writes : l.writes ≤ t.writes
  latest : kind ≠ .connector → t.latest = l.latest

namespace Grown

variable {kind : Kind} {spec : kind.Spec}

theorem refl (l : Ledger) : Grown kind spec l l :=
  ⟨fun _ _ => rfl, ⟨[], by simp⟩, Nat.le_refl _, fun _ => rfl⟩

theorem trans {u : Ledger} (h : Grown kind spec l t) (h' : Grown kind spec t u) :
    Grown kind spec l u := by
  obtain ⟨added, hadded, hspecs⟩ := h.objects
  obtain ⟨added', hadded', hspecs'⟩ := h'.objects
  refine ⟨fun k hk => (h'.others k hk).trans (h.others k hk), ⟨added ++ added', ?_, ?_⟩,
    h.writes.trans h'.writes, fun hk => (h'.latest hk).trans (h.latest hk)⟩
  · rw [hadded', hadded, List.append_assoc]
  · intro o ho
    rcases List.mem_append.mp ho with ho | ho
    · exact hspecs o ho
    · exact hspecs' o ho

/-- What was there is there still. -/
theorem kept (h : Grown kind spec l t) {name : String} {o : Object kind.Spec}
    (ho : (l.cluster kind).get? name = some o) : (t.cluster kind).get? name = some o := by
  obtain ⟨added, hadded, _⟩ := h.objects
  unfold Table.get? at ho ⊢
  rw [hadded, List.find?_append, ho]
  rfl

theorem owned {spec : ConnectorSpec} (h : Grown .connector spec l t)
    (hspec : spec.publicKeyId = none) : owned endpointId t.cluster = owned endpointId l.cluster := by
  obtain ⟨added, hadded, hspecs⟩ := h.objects
  have hnone : added.find? (fun c => c.spec.publicKeyId = some endpointId) = none := by
    rw [List.find?_eq_none]
    intro c hc
    simp [hspecs c hc, hspec]
  unfold Ledger.owned
  rw [hadded, List.find?_append, hnone, Option.or_none]

end Grown

theorem grown_create (s : Cluster) (kind : Kind) (name : String) (spec : kind.Spec) :
    (∀ kind', kind' ≠ kind → (s.create kind name spec).1 kind' = s kind') ∧
      ∃ added, ((s.create kind name spec).1 kind).objects = (s kind).objects ++ added ∧
        ∀ o ∈ added, o.spec = spec := by
  unfold Cluster.create
  split
  · exact ⟨fun _ _ => rfl, [], by simp, by simp⟩
  · rename_i hnone
    refine ⟨fun kind' hkind => Cluster.set_of_ne _ _ hkind, [{ name, spec }], ?_, by simp⟩
    simp only [Cluster.set_self]
    unfold Table.create
    split
    · rename_i o ho
      rw [hnone] at ho
      cases ho
    · rfl

theorem grown_serve {kind : Kind} {name : NewName} {spec : kind.Spec} {answer : Answer} :
    Grown kind spec l (serve endpointId l answer (.create kind name spec)).1 := by
  have hgrown := grown_create l.cluster kind (Cluster.newName name answer.suffix) spec
  have hcluster : (serve endpointId l answer (.create kind name spec)).1.cluster =
      if answer.landed then (l.cluster.create kind (Cluster.newName name answer.suffix) spec).1
      else l.cluster := Cluster.replying_landed _ _ _
  refine ⟨?_, ?_, ?_, ?_⟩
  · intro kind' hkind
    rw [hcluster]
    split
    · exact hgrown.1 kind' hkind
    · rfl
  · rw [hcluster]
    split
    · exact hgrown.2
    · exact ⟨[], by simp, by simp⟩
  · show l.writes ≤ if isWrite (.create kind name spec) then l.writes + 1 else l.writes
    split <;> omega
  · intro hkind
    apply latestAfter_of_kind
    simpa [writtenKind] using hkind

/-- The object has been made, beside others that nothing is known of. -/
structure MadeIn (kind : Kind) (name : NewName) (spec : kind.Spec) (l t : Ledger)
    (o : Object kind.Spec) : Prop where
  grown : Grown kind spec l t
  there : (t.cluster kind).get? o.name = some o
  fresh : (l.cluster kind).get? o.name = none
  specified : o.spec = spec
  named : ∃ suffix, o.name = Cluster.newName name suffix
  written : isWrite (.create kind name spec) = true → l.writes < t.writes
  latest : kind = .connector → t.latest = some o.name

theorem MadeIn.after {kind : Kind} {name : NewName} {spec : kind.Spec} {u : Ledger}
    {o : Object kind.Spec} (h : MadeIn kind name spec t u o) (hgrown : Grown kind spec l t) :
    MadeIn kind name spec l u o where
  grown := hgrown.trans h.grown
  there := h.there
  fresh := by
    cases hl : (l.cluster kind).get? o.name with
    | none => rfl
    | some o' =>
        have ht := hgrown.kept hl
        rw [h.fresh] at ht
        cases ht
  specified := h.specified
  named := h.named
  written hwrite := Nat.lt_of_le_of_lt hgrown.writes (h.written hwrite)
  latest := h.latest

theorem madeIn_serve {kind : Kind} {name : NewName} {spec : kind.Spec} {answer : Answer}
    {o : Object kind.Spec}
    (h : (serve endpointId l answer (.create kind name spec)).2 = .ok o) :
    MadeIn kind name spec l (serve endpointId l answer (.create kind name spec)).1 o := by
  have hreply : (l.cluster.serve (Workshop.ofNode endpointId answer)
      (.create kind name spec)).2 = .ok o := h
  obtain ⟨hlanded, hname, hfresh⟩ := Cluster.create_ok hreply
  have hcreated := (Cluster.replying_ok hreply).2
  have hnone : (l.cluster kind).get? (Cluster.newName name answer.suffix) = none := hfresh
  have ho : o = { name := Cluster.newName name answer.suffix, spec } := by
    have hcreated' : (l.cluster.create kind (Cluster.newName name answer.suffix) spec).2 =
        .ok o := hcreated
    unfold Cluster.create at hcreated'
    rw [hnone] at hcreated'
    cases hcreated'
    rfl
  refine ⟨grown_serve, ?_, ?_, ?_, ⟨answer.suffix, hname⟩, ?_, ?_⟩
  · have hcluster : (serve endpointId l answer (.create kind name spec)).1.cluster =
        if answer.landed then (l.cluster.create kind (Cluster.newName name answer.suffix) spec).1
        else l.cluster := Cluster.replying_landed _ _ _
    have hlanded' : answer.landed = true := hlanded
    rw [hcluster, if_pos hlanded', Cluster.get?_create, ho, if_pos rfl, hnone]
    rfl
  · rw [ho]
    exact hnone
  · rw [ho]
  · intro hwrite
    show l.writes < if isWrite (.create kind name spec) then l.writes + 1 else l.writes
    rw [if_pos hwrite]
    omega
  · rintro rfl
    show l.latestAfter answer (.create .connector name spec) = some o.name
    have hlanded' : answer.landed = true := hlanded
    rw [latestAfter, Workshop.creates, if_pos ⟨hlanded', hnone⟩, ho]

theorem alone_createRetried {kind : Kind} {name : NewName} {spec : kind.Spec} :
    Alone endpointId (OnOk fun t o => MadeIn kind name spec l t o)
      (createRetried kind name spec) l := by
  unfold createRetried
  generalize quotaCheckDelays = delays
  induction delays generalizing l with
  | nil => exact alone_call fun answer o ho => madeIn_serve ho
  | cons delay delays ih =>
      refine SafeWhen.bind (alone_call (c := .create kind name spec) fun answer => ?_)
      cases hreply : (serve endpointId l answer (.create kind name spec)).2 with
      | ok o =>
          refine ⟨trivial, ?_⟩
          rintro o' ho'
          cases ho'
          exact madeIn_serve hreply
      | error err =>
          simp only
          split
          · refine SafeWhen.bind (alone_plain (c := .sleep delay) rfl fun _ => ?_)
            exact ih.mono fun t r _ hr o ho => (hr o ho).after grown_serve
          · exact ⟨trivial, fun o ho => nomatch ho⟩

/-! ## Making the connector known -/

/-- The same but for the connectors. -/
structure Alike (l t : Ledger) : Prop where
  others : ∀ kind, kind ≠ .connector → t.cluster kind = l.cluster kind
  writes : t.writes = l.writes

/-- The call writes nothing but connectors. -/
def OfConnector (c : Call) : Prop := ∀ kind ∈ writtenKind c, kind = .connector

theorem connecting_ofConnector : Connecting OfConnector where
  plainly c hc := by
    rintro kind hkind
    cases c <;> cases hkind <;> cases hc
  patch name patch := by
    rintro kind hkind
    cases hkind
    rfl
  create spec := by
    rintro kind hkind
    cases hkind
    rfl

theorem alike_serve {answer : Answer} {c : Call} (hc : OfConnector c) :
    Alike l (serve endpointId l answer c).1 := by
  refine ⟨fun kind hkind => Workshop.serve_kind fun hwritten => hkind (hc kind hwritten), ?_⟩
  have hwrite : isWrite c = false := by
    unfold isWrite
    split
    · cases hc _ rfl
    · cases hc _ rfl
    · cases hc _ rfl
    · cases hc _ rfl
    · rfl
  show (if isWrite c then l.writes + 1 else l.writes) = l.writes
  rw [hwrite, if_neg Bool.false_ne_true]

theorem Alike.trans {u : Ledger} (h : Alike l t) (h' : Alike t u) : Alike l u :=
  ⟨fun kind hkind => (h'.others kind hkind).trans (h.others kind hkind),
    h'.writes.trans h.writes⟩

/-- So it is all along. -/
theorem alike_only {p : Svc α} (h : Only OfConnector p) :
    SafeWhen (handle endpointId) (fun _ _ answer => answer.finalized = []) (Alike l)
      (fun t _ => Alike l t) p l := by
  refine h.safeWhen (J := Alike l) (fun s c answer hc hs hfinalized => ?_) (fun _ h => h)
    ⟨fun _ _ => rfl, rfl⟩
  rw [handle, hfinalized, finalize_nil]
  exact hs.trans (alike_serve hc)

/-- The connector that an operation goes by: the first of the identity, or one that is made
where there is none. -/
inductive Connects (endpointId : String) (l t : Ledger) (name : String) : Prop
  | found (before : owned endpointId l.cluster = some name)
      (after : owned endpointId t.cluster = some name)
  | made (before : owned endpointId l.cluster = none) (latest : t.latest = some name)
      (fresh : (l.cluster .connector).get? name = none)
      (there : ((t.cluster .connector).get? name).isSome = true)
      (after : ∀ name' ∈ owned endpointId t.cluster, name' = name)

theorem serve_patch_cluster {kind : Kind} {name : String} {patch : Patch kind} {answer : Answer} :
    (serve endpointId l answer (.patch kind name patch)).1.cluster =
      if answer.landed then (l.cluster.patch kind name patch).1 else l.cluster :=
  Cluster.replying_landed _ _ _

theorem alone_patchDeviceAnnotations (svc : TunnelService) (connector : Connector) :
    Alone endpointId (fun t patched => patched.name = connector.name ∧
        owned endpointId t.cluster = owned endpointId l.cluster)
      (svc.patchDeviceAnnotations connector) l := by
  unfold TunnelService.patchDeviceAnnotations
  split
  · exact ⟨trivial, rfl, rfl⟩
  · let patch := Patch.annotations svc.friendlyDeviceName svc.os
    refine SafeWhen.bind (alone_call (c := .patch .connector connector.name patch)
      fun answer => ?_)
    have howned : owned endpointId
        (serve endpointId l answer (.patch .connector connector.name patch)).1.cluster =
          owned endpointId l.cluster := by
      rw [serve_patch_cluster]
      split
      · exact owned_annotations _ _
      · rfl
    cases hreply : (serve endpointId l answer (.patch .connector connector.name patch)).2 with
    | ok patched => exact ⟨trivial, Cluster.patch_ok hreply, howned⟩
    | error err => exact ⟨trivial, rfl, howned⟩

theorem alone_findConnector (svc : TunnelService) (projectId : String) :
    Alone svc.endpointId (OnOk fun t found => match found with
        | some connector => owned svc.endpointId l.cluster = some connector.name ∧
            owned svc.endpointId t.cluster = some connector.name
        | none => owned svc.endpointId l.cluster = none ∧ t = l)
      (svc.findConnector projectId).run l := by
  refine SafeWhen.bindOk (alone_client.mono fun t _ _ ht _ hok => ?_)
  rw [ht _ hok]
  refine SafeWhen.bindOk (alone_lift (alone_list.mono fun t r _ hr => ?_))
  cases r with
  | error err =>
      split
      · exact alone_throw
      · exact alone_throw
      · exact alone_throw
      · rename_i heq
        cases heq
      · rename_i heq
        cases heq
  | ok connectors =>
      obtain ⟨rfl, hlist⟩ := hr _ rfl
      have howned : owned svc.endpointId t.cluster = connectors.head?.map Object.name := by
        unfold owned
        rw [hlist, List.head?_filter]
        congr 2
      cases connectors with
      | nil => exact alone_pure ⟨howned, rfl⟩
      | cons connector rest =>
          refine SafeWhen.bindOk (alone_lift
            ((alone_patchDeviceAnnotations svc connector).mono fun u patched _ h => ?_))
          obtain ⟨hname, hkept⟩ := h
          refine alone_pure ⟨?_, ?_⟩
          · rw [hname]
            exact howned
          · rw [hkept, hname]
            exact howned

theorem alone_publishConnectionDetails {name : String} :
    Alone endpointId (fun t _ => t.latest = l.latest ∧
        (((l.cluster .connector).get? name).isSome = true →
          ((t.cluster .connector).get? name).isSome = true) ∧
        (owned endpointId l.cluster = some name → owned endpointId t.cluster = some name) ∧
        (owned endpointId l.cluster = none → ∀ name' ∈ owned endpointId t.cluster, name' = name))
      (TunnelService.publishConnectionDetails name) l := by
  have hsame : (owned endpointId l.cluster = some name → owned endpointId l.cluster = some name) ∧
      (owned endpointId l.cluster = none →
        ∀ name' ∈ owned endpointId l.cluster, name' = name) := by
    refine ⟨id, fun hnone name' hname' => ?_⟩
    rw [hnone] at hname'
    cases hname'
  refine SafeWhen.bind (alone_plain (c := .buildConnectionDetails) rfl fun answer => ?_)
  cases hdetails : (l.cluster.serve (Workshop.ofNode endpointId answer)
      .buildConnectionDetails).2 with
  | none => exact ⟨trivial, rfl, id, hsame⟩
  | some details =>
      have hdetails' : (answer.details.map fun d => { d with publicKeyId := endpointId }) =
          some details := hdetails
      have hkey : details.publicKeyId = endpointId := by
        obtain ⟨d, _, rfl⟩ := Option.map_eq_some_iff.mp hdetails'
        rfl
      refine SafeWhen.bind (alone_call (c := .patch .connector name (.connectionDetails details))
        fun answer' => ⟨trivial, ?_⟩)
      refine ⟨rfl, ?_, ?_⟩
      · rw [serve_patch_cluster]
        split
        · rw [Cluster.get?_patch, if_pos rfl]
          simp
        · exact id
      · rw [serve_patch_cluster]
        split
        · refine ⟨owned_connectionDetails hkey, fun hnone name' hname' => ?_⟩
          rcases owned_connectionDetails_none hkey hnone name with h | h
          · rw [h] at hname'
            cases hname'
          · rw [h] at hname'
            cases hname'
            rfl
        · exact hsame

theorem alone_ensureConnector (svc : TunnelService) (projectId : String) :
    Alone svc.endpointId (OnOk fun t connector => Connects svc.endpointId l t connector.name)
      (svc.ensureConnector projectId).run l := by
  refine SafeWhen.bindOk (alone_client.mono fun t _ _ ht _ hok => ?_)
  rw [ht _ hok]
  refine SafeWhen.bindOk ((alone_findConnector svc projectId).mono fun t r _ hr found hfound => ?_)
  have hcase := hr found hfound
  cases found with
  | some connector =>
      refine SafeWhen.bindOk (alone_lift (alone_publishConnectionDetails.mono fun u _ _ h => ?_))
      exact alone_pure (.found hcase.1 (h.2.2.1 hcase.2))
  | none =>
      obtain ⟨hnone, rfl⟩ := hcase
      have hclass : Only (fun c => writtenKind c = none) resolveConnectorClass := by
        refine Only.bind (Only.perform (c := Call.listConnectorClasses) rfl) fun r => ?_
        cases r <;> exact Only.ret _
      refine SafeWhen.bindOk (alone_lift ((alone_only hclass).mono fun u className _ hu => ?_))
      rw [hu]
      refine SafeWhen.bindOk (alone_mapError (alone_createRetried.mono
        fun u r _ hr connector hconnector => ?_))
      have hmade := hr connector hconnector
      refine SafeWhen.bindOk (alone_lift (alone_publishConnectionDetails.mono fun v _ _ h => ?_))
      have hspec : owned svc.endpointId u.cluster = none := by
        rw [hmade.grown.owned rfl]
        exact hnone
      refine alone_pure (.made hnone ?_ hmade.fresh ?_ (h.2.2.2 hspec))
      · rw [h.1]
        exact hmade.latest rfl
      · apply h.2.1
        rw [hmade.there]
        rfl

end Ledger

end DatumConnect.Tunnels
