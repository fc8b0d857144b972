import DatumConnect.Cli.Listen
import DatumConnect.Tunnels.Footprint
/-!
# The nodes of the command

The key of a tunnel is on file, and its proxy references the connector of the node with
that key: what the calls of one node's service keep of this.
-/

namespace DatumConnect.Cli

open DatumConnect.Lib
open DatumConnect.Lib.Prog (Only Safe SafeWhen Within OnOk Answered)
open DatumConnect.Cloud
open DatumConnect.Tunnels

namespace Machine

variable (session : Session)

/-- The backends name a connector of the node. -/
def Names (owners : List (String × String)) (endpointId : String) (spec : ProxySpec) : Prop :=
  ∃ name, HTTPProxy.connectorName spec = some name ∧ (name, endpointId) ∈ owners

/-- The tunnel's proxy references a connector of the node. -/
def PointsTo (s : Machine) (endpointId tunnelId : String) : Prop :=
  ∃ proxy, (s.cluster .httpProxy).get? tunnelId = some proxy ∧ Names s.owners endpointId proxy.spec

/-- The key on file is the one of the node whose connector the proxy references. -/
def Coherent (s : Machine) (tunnelId : String) : Prop :=
  ∃ key, s.listenKeys.lookup tunnelId = some key ∧ s.PointsTo (session.publicKey key) tunnelId

/-- The key that a tunnel is taken up with. -/
def keyFor (s : Machine) (tunnelId : String) : Option String :=
  (s.listenKeys.lookup tunnelId).or s.legacyKey

/-- It is so for the key that the tunnel would be taken up with. -/
def Resumable (s : Machine) (tunnelId : String) : Prop :=
  ∃ key, s.keyFor tunnelId = some key ∧ s.PointsTo (session.publicKey key) tunnelId

/-- The records are those of the project: a connector that can be found by an identity is
its node's, each connector is one node's, and the keys are known. -/
structure Sound (s : Machine) : Prop where
  published : ∀ (o : Connector) (endpointId : String), (s.cluster .connector).get? o.name = some o →
    o.spec.publicKeyId = some endpointId → (o.name, endpointId) ∈ s.owners
  single : ∀ name a b, (name, a) ∈ s.owners → (name, b) ∈ s.owners → a = b
  known : ∀ owner ∈ s.owners, ∃ key ∈ s.keys, session.publicKey key = owner.2
  stored : ∀ tunnelId key, s.listenKeys.lookup tunnelId = some key → key ∈ s.keys
  legacy : ∀ key, s.legacyKey = some key → key ∈ s.keys

/-- The tunnel has been left alone, with the connector its proxy references. -/
def Kept (s t : Machine) (tunnelId : String) : Prop :=
  (tunnelId ∈ t.rewired ↔ tunnelId ∈ s.rewired) ∧
    ∀ proxy', (t.cluster .httpProxy).get? tunnelId = some proxy' →
      ∃ proxy, (s.cluster .httpProxy).get? tunnelId = some proxy ∧
        HTTPProxy.connectorName proxy'.spec = HTTPProxy.connectorName proxy.spec ∧
        ∀ name, HTTPProxy.connectorName proxy.spec = some name →
          ∀ endpointId, (name, endpointId) ∈ t.owners ↔ (name, endpointId) ∈ s.owners

/-- If the tunnel is there, its proxy references a connector of the node. -/
def Points (s : Machine) (endpointId tunnelId : String) : Prop :=
  ∀ proxy, (s.cluster .httpProxy).get? tunnelId = some proxy → Names s.owners endpointId proxy.spec

/-- The tunnel has been rewired to the node. -/
def Moved (endpointId : String) (t : Machine) (tunnelId : String) : Prop :=
  tunnelId ∈ t.rewired ∧ t.Points endpointId tunnelId

/-- What the calls of one node do. -/
structure Serves (key : String) (s t : Machine) : Prop where
  listenKeys : t.listenKeys = s.listenKeys
  legacyKey : t.legacyKey = s.legacyKey
  keys : t.keys = s.keys
  owners : ∀ owner ∈ t.owners, owner ∈ s.owners ∨ owner.2 = session.publicKey key
  owned : ∀ name, (name, session.publicKey key) ∈ s.owners →
    (name, session.publicKey key) ∈ t.owners
  tracked : ∀ tunnelId, Kept s t tunnelId ∨ Moved (session.publicKey key) t tunnelId
  sound : s.Sound session → key ∈ s.keys → t.Sound session

variable {session} {key : String} {s t u : Machine}

theorem Kept.refl (s : Machine) (tunnelId : String) : Kept s s tunnelId :=
  ⟨Iff.rfl, fun proxy hproxy => ⟨proxy, hproxy, rfl, fun _ _ _ => Iff.rfl⟩⟩

theorem Kept.trans {tunnelId : String} (h : Kept s t tunnelId) (h' : Kept t u tunnelId) :
    Kept s u tunnelId := by
  refine ⟨h'.1.trans h.1, fun proxy'' hproxy'' => ?_⟩
  obtain ⟨proxy', hproxy', hname', howners'⟩ := h'.2 proxy'' hproxy''
  obtain ⟨proxy, hproxy, hname, howners⟩ := h.2 proxy' hproxy'
  refine ⟨proxy, hproxy, hname'.trans hname, fun name hconnector endpointId => ?_⟩
  have hconnector' := hname.trans hconnector
  exact (howners' name hconnector' endpointId).trans (howners name hconnector endpointId)

/-- Where nothing is touched, a tunnel stays with the node it is with. -/
theorem Kept.points {tunnelId endpointId : String} (h : Kept s t tunnelId)
    (hpoints : s.Points endpointId tunnelId) : t.Points endpointId tunnelId := by
  intro proxy' hproxy'
  obtain ⟨proxy, hproxy, hname, howners⟩ := h.2 proxy' hproxy'
  obtain ⟨name, hconnector, howned⟩ := hpoints proxy hproxy
  exact ⟨name, hname.trans hconnector, (howners name hconnector endpointId).mpr howned⟩

/-- And the connector that its proxy references then is the one it referenced before. -/
theorem Kept.pointsTo_iff {tunnelId endpointId : String} {proxy' : HTTPProxy}
    (h : Kept s t tunnelId) (hproxy' : (t.cluster .httpProxy).get? tunnelId = some proxy') :
    t.PointsTo endpointId tunnelId ↔ s.PointsTo endpointId tunnelId := by
  obtain ⟨proxy, hproxy, hname, howners⟩ := h.2 proxy' hproxy'
  constructor
  · rintro ⟨found, hfound, name, hconnector, howned⟩
    rw [hproxy'] at hfound
    cases hfound
    rw [hname] at hconnector
    exact ⟨proxy, hproxy, name, hconnector, (howners name hconnector endpointId).mp howned⟩
  · rintro ⟨found, hfound, name, hconnector, howned⟩
    rw [hproxy] at hfound
    cases hfound
    exact ⟨proxy', hproxy', name, hname.trans hconnector,
      (howners name hconnector endpointId).mpr howned⟩

namespace Serves

instance : Std.Refl (Serves session key) where
  refl s := {
    listenKeys := rfl
    legacyKey := rfl
    keys := rfl
    owners := fun _ h => Or.inl h
    owned := fun _ h => h
    tracked := fun tunnelId => Or.inl (Kept.refl s tunnelId)
    sound := fun h _ => h }

instance : IsTrans Machine (Serves session key) where
  trans s t u h h' := {
    listenKeys := h'.listenKeys.trans h.listenKeys
    legacyKey := h'.legacyKey.trans h.legacyKey
    keys := h'.keys.trans h.keys
    owners := fun owner howner => (h'.owners owner howner).elim (h.owners owner) Or.inr
    owned := fun name hname => h'.owned name (h.owned name hname)
    tracked := fun tunnelId => by
      rcases h'.tracked tunnelId with hkept' | hmoved'
      · rcases h.tracked tunnelId with hkept | hmoved
        · exact Or.inl (hkept.trans hkept')
        · exact Or.inr ⟨hkept'.1.mpr hmoved.1, hkept'.points hmoved.2⟩
      · exact Or.inr hmoved'
    sound := fun hs hkey => h'.sound (h.sound hs hkey) (h.keys ▸ hkey) }

/-- A tunnel that is with the node stays with it. -/
theorem points {tunnelId : String} (h : Serves session key s t)
    (hpoints : s.Points (session.publicKey key) tunnelId) :
    t.Points (session.publicKey key) tunnelId := by
  rcases h.tracked tunnelId with hkept | hmoved
  · exact hkept.points hpoints
  · exact hmoved.2

end Serves

/-! ## The calls of a node -/

/-- What the node's service writes: connectors that are not published yet, the details of
its own, and references to its own. -/
def Fits (endpointId : String) (s : Machine) : Cloud.Call → Prop
  | .create .connector _ spec => spec.publicKeyId = none
  | .patch .connector name (.connectionDetails details) =>
      details.publicKeyId = endpointId ∧ (name, endpointId) ∈ s.owners
  | .create .httpProxy _ spec => Names s.owners endpointId spec
  | .patch .httpProxy _ patch => ∀ spec, Names s.owners endpointId (patch.merge spec)
  | _ => True

theorem mem_ownersAfter {owners : List (String × String)} {endpointId : String}
    {made : Option String} {owner : String × String} :
    owner ∈ ownersAfter owners endpointId made ↔
      (made = some owner.1 ∧ owner.2 = endpointId) ∨ (owner ∈ owners ∧ made ≠ some owner.1) := by
  obtain ⟨name, e⟩ := owner
  cases made with
  | none => simp [ownersAfter]
  | some m =>
      simp only [ownersAfter, List.mem_cons, List.mem_filter, Prod.mk.injEq, Option.some.injEq,
        decide_eq_true_eq, ne_eq]
      constructor
      · rintro (⟨rfl, rfl⟩ | ⟨hmem, hne⟩)
        · exact Or.inl ⟨rfl, rfl⟩
        · exact Or.inr ⟨hmem, fun h => hne h.symm⟩
      · rintro (⟨rfl, rfl⟩ | ⟨hmem, hne⟩)
        · exact Or.inl ⟨rfl, rfl⟩
        · exact Or.inr ⟨hmem, fun h => hne h.symm⟩

theorem Names.after {owners : List (String × String)} {endpointId : String} {spec : ProxySpec}
    (h : Names owners endpointId spec) (made : Option String) :
    Names (ownersAfter owners endpointId made) endpointId spec := by
  obtain ⟨name, hname, howned⟩ := h
  refine ⟨name, hname, mem_ownersAfter.mpr ?_⟩
  by_cases hmade : made = some name
  · exact Or.inl ⟨hmade, rfl⟩
  · exact Or.inr ⟨howned, hmade⟩

variable {endpointId : String} {c : Cloud.Call} {answer : Answer}

/-- The project that a call finds. -/
def found (s : Machine) (answer : Answer) : Cluster := s.cluster.finalize answer.cloud.finalized

theorem made_of_madeConnector {cluster : Cluster} {answer : Cloud.Answer} {name : String}
    (h : madeConnector cluster answer c = some name) :
    (∃ newName spec, c = .create .connector newName spec) ∧ (cluster .connector).get? name = none := by
  unfold madeConnector at h
  split at h
  · rename_i newName spec
    rw [Option.ite_none_right_eq_some] at h
    obtain ⟨⟨-, hnone⟩, heq⟩ := h
    cases heq
    exact ⟨⟨newName, spec, rfl⟩, hnone⟩
  · cases h

/-- A proxy that a call has written, or whose connector it has made, is one it has
repointed. -/
theorem mem_repointed_of_wrote {cluster : Cluster} {answer : Cloud.Answer} {name : String}
    {spec : ProxySpec} (h : cluster.Wrote (ofNode endpointId answer) c .httpProxy name spec) :
    name ∈ repointed cluster answer c := by
  rcases h with ⟨newName, rfl, hlanded, hname, hnone⟩ | ⟨patch, o, rfl, hlanded, -, -⟩
  · have hlanded : answer.landed = true := hlanded
    have hname : name = Cluster.newName newName answer.suffix := hname
    rw [hname] at hnone
    simp [repointed, hlanded, hname, hnone]
  · have hlanded : answer.landed = true := hlanded
    simp [repointed, hlanded]

theorem mem_repointed_of_made {cluster : Cluster} {answer : Cloud.Answer} {name : String}
    {proxy : HTTPProxy} (hmade : madeConnector cluster answer c = some name)
    (hproxy : proxy ∈ (cluster .httpProxy).objects)
    (hname : HTTPProxy.connectorName proxy.spec = some name) :
    proxy.name ∈ repointed cluster answer c := by
  obtain ⟨⟨newName, spec, rfl⟩, -⟩ := made_of_madeConnector hmade
  show proxy.name ∈ (madeConnector cluster answer (.create .connector newName spec)).toList.flatMap
    (referencing cluster)
  rw [hmade]
  simp only [Option.toList_some, List.flatMap_cons, List.flatMap_nil, List.append_nil]
  exact List.mem_map_of_mem (List.mem_filter.mpr ⟨hproxy, by simpa using hname⟩)

/-- What is repointed references a connector of the node. -/
theorem points_of_repointed {tunnelId : String} (hfits : Fits endpointId s c)
    (h : tunnelId ∈ repointed (s.found answer) answer.cloud c) :
    (s.node endpointId c answer).1.Points endpointId tunnelId := by
  intro proxy' hproxy'
  change (((s.found answer).serve (ofNode endpointId answer.cloud) c).1 .httpProxy).get? tunnelId =
    some proxy' at hproxy'
  show Names (ownersAfter s.owners endpointId (madeConnector (s.found answer) answer.cloud c))
    endpointId proxy'.spec
  generalize s.found answer = cluster at h hproxy' ⊢
  cases c with
  | create kind newName spec =>
      cases kind with
      | httpProxy =>
          simp only [repointed] at h
          split at h
          · rename_i hfree
            rcases Cluster.spec_of_serve hproxy' with ⟨old, hold, -⟩ | hwrote
            · rw [List.mem_singleton.mp h, hfree.2] at hold
              cases hold
            · obtain ⟨newName', heq, -⟩ | ⟨patch, o, heq, -⟩ := hwrote
              · cases heq
                exact hfits.after _
              · cases heq
          · cases h
      | connector =>
          rw [Cluster.serve_other (by simp) (by simp) (by simp)] at hproxy'
          obtain ⟨name, hmade, hproxy⟩ := List.mem_flatMap.mp h
          obtain ⟨proxy, hmem, hname⟩ := List.mem_map.mp hproxy
          obtain ⟨hmem, hconnector⟩ := List.mem_filter.mp hmem
          rw [← hname, Table.mem_iff.mp hmem] at hproxy'
          cases hproxy'
          refine ⟨name, by simpa using hconnector, mem_ownersAfter.mpr (Or.inl ⟨?_, rfl⟩)⟩
          exact Option.mem_toList.mp hmade
      | _ => cases h
  | patch kind name patch =>
      cases kind with
      | httpProxy =>
          simp only [repointed] at h
          split at h
          · rename_i hlanded
            have hlanded : (ofNode endpointId answer.cloud).landed = true := hlanded
            rw [List.mem_singleton] at h
            subst h
            rw [Cluster.serve, Cluster.replying_landed, if_pos hlanded, Cluster.get?_patch,
              if_pos rfl] at hproxy'
            obtain ⟨old, -, rfl⟩ := Option.map_eq_some_iff.mp hproxy'
            exact Names.after (hfits old.spec) _
          · cases h
      | _ => cases h
  | _ => cases h

/-- What is not repointed is left alone. -/
theorem kept_of_not_repointed {tunnelId : String}
    (h : tunnelId ∉ repointed (s.found answer) answer.cloud c) :
    Kept s (s.node endpointId c answer).1 tunnelId := by
  constructor
  · show tunnelId ∈ repointed (s.found answer) answer.cloud c ++ s.rewired ↔ _
    rw [List.mem_append]
    exact or_iff_right h
  · intro proxy' hproxy'
    change (((s.found answer).serve (ofNode endpointId answer.cloud) c).1 .httpProxy).get? tunnelId =
      some proxy' at hproxy'
    rcases Cluster.spec_of_serve hproxy' with ⟨proxy, hproxy, hspec⟩ | hwrote
    · refine ⟨proxy, Workshop.get?_of_finalize hproxy, by rw [hspec], fun name hname owner => ?_⟩
      show (name, owner) ∈ ownersAfter s.owners endpointId
        (madeConnector (s.found answer) answer.cloud c) ↔ _
      have hmade : madeConnector (s.found answer) answer.cloud c ≠ some name := by
        intro hmade
        apply h
        rw [← Table.name_of_get? hproxy]
        exact mem_repointed_of_made hmade (List.mem_of_find?_eq_some hproxy) hname
      rw [mem_ownersAfter]
      simp [hmade]
    · exact absurd (mem_repointed_of_wrote hwrote) h

/-- The connectors that can be found stay their nodes'. -/
theorem published_node (hfits : Fits endpointId s c) (hs : s.Sound session) (o : Connector)
    (owner : String)
    (ho : ((s.node endpointId c answer).1.cluster .connector).get? o.name = some o)
    (hpublic : o.spec.publicKeyId = some owner) :
    (o.name, owner) ∈ (s.node endpointId c answer).1.owners := by
  change (((s.found answer).serve (ofNode endpointId answer.cloud) c).1 .connector).get? o.name =
    some o at ho
  show (o.name, owner) ∈ ownersAfter s.owners endpointId
    (madeConnector (s.found answer) answer.cloud c)
  rw [mem_ownersAfter]
  rcases Cluster.spec_of_serve ho with ⟨old, hold, hspec⟩ | hwrote
  · have hname : old.name = o.name := Table.name_of_get? hold
    refine Or.inr ⟨?_, fun hmade => ?_⟩
    · rw [hspec] at hpublic
      rw [← hname]
      exact hs.published old owner (Workshop.get?_of_finalize (hname.symm ▸ hold)) hpublic
    · have hnone := (made_of_madeConnector hmade).2
      rw [hold] at hnone
      cases hnone
  · rcases hwrote with ⟨newName, rfl, -⟩ | ⟨patch, old, rfl, -, hold, hspec⟩
    · have hnone : o.spec.publicKeyId = none := hfits
      rw [hnone] at hpublic
      cases hpublic
    · refine Or.inr ⟨?_, fun hmade => ?_⟩
      · have hname : old.name = o.name := Table.name_of_get? hold
        cases patch with
        | annotations deviceName deviceOs =>
            rw [hspec] at hpublic
            rw [← hname]
            exact hs.published old owner (Workshop.get?_of_finalize (hname.symm ▸ hold)) hpublic
        | connectionDetails details =>
            rw [hspec] at hpublic
            obtain ⟨hdetails, howned⟩ := hfits
            have heq : some details.publicKeyId = some owner := hpublic
            rw [← Option.some.inj heq, hdetails]
            exact howned
      · obtain ⟨⟨newName, spec, heq⟩, -⟩ := made_of_madeConnector hmade
        cases heq

theorem serves_node (hfits : Fits (session.publicKey key) s c) :
    Serves session key s (s.node (session.publicKey key) c answer).1 := by
  constructor
  · rfl
  · rfl
  · rfl
  · rintro owner howner
    rcases mem_ownersAfter.mp howner with ⟨-, hnode⟩ | ⟨hold, -⟩
    · exact Or.inr hnode
    · exact Or.inl hold
  · intro name howned
    apply mem_ownersAfter.mpr
    by_cases hmade : madeConnector (s.found answer) answer.cloud c = some name
    · exact Or.inl ⟨hmade, rfl⟩
    · exact Or.inr ⟨howned, hmade⟩
  · intro tunnelId
    by_cases h : tunnelId ∈ repointed (s.found answer) answer.cloud c
    · exact Or.inr ⟨List.mem_append_left _ h, points_of_repointed hfits h⟩
    · exact Or.inl (kept_of_not_repointed h)
  · intro hs hkey
    refine ⟨published_node hfits hs, ?_, ?_, hs.stored, hs.legacy⟩
    · intro name a b ha hb
      rcases mem_ownersAfter.mp ha with ⟨hmade, ha⟩ | ⟨ha, hmade⟩
      · rcases mem_ownersAfter.mp hb with ⟨-, hb⟩ | ⟨-, hmade'⟩
        · exact ha.trans hb.symm
        · exact absurd hmade hmade'
      · rcases mem_ownersAfter.mp hb with ⟨hmade', -⟩ | ⟨hb, -⟩
        · exact absurd hmade' hmade
        · exact hs.single name a b ha hb
    · intro owner howner
      rcases mem_ownersAfter.mp howner with ⟨-, hnode⟩ | ⟨hold, -⟩
      · exact ⟨key, hkey, hnode.symm⟩
      · exact hs.known owner hold

/-! ## The methods of a node's service -/

/-- How the calls of a node are carried out. -/
def nodeHandle (session : Session) (key : String) (s : Machine) (c : Cloud.Call) (answer : Answer) :
    Machine × c.Reply :=
  s.node (session.publicKey key) c answer

/-- The records are those of the project, and the node's key is known. -/
def Hosts (session : Session) (key : String) (s : Machine) : Prop :=
  s.Sound session ∧ key ∈ s.keys

theorem Serves.hosts (h : Serves session key s t) (hs : Hosts session key s) :
    Hosts session key t :=
  ⟨h.sound hs.1 hs.2, h.keys ▸ hs.2⟩

/-- The connector is one of the node's. -/
def Owned (session : Session) (key : String) (s : Machine) (name : String) : Prop :=
  (name, session.publicKey key) ∈ s.owners

/-- The calls that fit whatever the project is like. -/
def Plain (endpointId : String) (c : Cloud.Call) : Prop := ∀ s, Fits endpointId s c

theorem plain_of_writes {kinds : List Kind} (hconnector : .connector ∉ kinds)
    (hproxy : .httpProxy ∉ kinds) {c : Cloud.Call} (hc : Writes kinds c) : Plain endpointId c := by
  intro s
  unfold Fits
  split
  · exact absurd (hc .connector rfl) hconnector
  · exact absurd (hc .connector rfl) hconnector
  · exact absurd (hc .httpProxy rfl) hproxy
  · exact absurd (hc .httpProxy rfl) hproxy
  · trivial

variable {α ε : Type}

theorem within_plain {p : Svc α} (h : Only (Plain (session.publicKey key)) p) (s : Machine) :
    Within (nodeHandle session key) (Serves session key) (fun _ _ => True) p s :=
  have hcall : ∀ s c answer, Plain (session.publicKey key) c →
      Serves session key s (nodeHandle session key s c answer).1 := by
    intro s c answer hc
    exact serves_node (hc s)
  h.within hcall s

theorem within_writes (kinds : List Kind) {p : Svc α} (h : Only (Writes kinds) p)
    (hconnector : .connector ∉ kinds) (hproxy : .httpProxy ∉ kinds) (s : Machine) :
    Within (nodeHandle session key) (Serves session key) (fun _ _ => True) p s :=
  within_plain (h.mono fun _ => plain_of_writes hconnector hproxy) s

theorem within_lift {p : Svc α} {post : Machine → α → Prop}
    (h : Within (nodeHandle session key) (Serves session key) post p s) :
    Within (nodeHandle session key) (Serves session key) (OnOk post) (SvcE.lift p : SvcE α).run s := by
  refine Within.bind (h.mono fun t a _ ha => Within.ret ?_)
  rintro b ⟨⟩
  exact ha

theorem within_mapError {f : ε → Error} {p : Svc (Except ε α)} {post : Machine → α → Prop}
    (h : Within (nodeHandle session key) (Serves session key) (OnOk post) p s) :
    Within (nodeHandle session key) (Serves session key) (OnOk post) (SvcE.mapError f p).run s := by
  refine Within.bind (h.mono fun t r _ hr => Within.ret ?_)
  cases r with
  | ok a =>
      rintro b ⟨⟩
      exact hr a rfl
  | error e => exact fun b hb => nomatch hb

/-! ### The connector -/

theorem within_patchDeviceAnnotations (svc : TunnelService) {connector : Connector}
    (howned : Owned session key s connector.name) :
    Within (nodeHandle session key) (Serves session key)
      (fun t patched => Owned session key t patched.name) (svc.patchDeviceAnnotations connector) s := by
  unfold TunnelService.patchDeviceAnnotations
  split
  · exact Within.ret howned
  · refine Within.call fun answer => ?_
    have hserves : Serves session key s (nodeHandle session key s
        (.patch .connector connector.name (Patch.annotations svc.friendlyDeviceName svc.os)) answer).1 :=
      serves_node trivial
    refine ⟨hserves, ?_⟩
    cases hreply : (nodeHandle session key s
        (.patch .connector connector.name (Patch.annotations svc.friendlyDeviceName svc.os)) answer).2 with
    | error err => exact Within.ret (hserves.owned _ howned)
    | ok patched =>
        have hname : patched.name = connector.name := Cluster.patch_ok hreply
        apply Within.ret
        show Owned session key _ patched.name
        rw [hname]
        exact hserves.owned _ howned

/-- What is listed by the node's identity is the node's. -/
theorem owned_of_list (hs : Hosts session key s) {connectors : List Connector}
    (h : (nodeHandle session key s
      (.list .connector (.field connectorSelectorField (session.publicKey key))) answer).2 =
        .ok connectors) :
    ∀ connector ∈ connectors, Owned session key (nodeHandle session key s
      (.list .connector (.field connectorSelectorField (session.publicKey key))) answer).1
        connector.name := by
  intro connector hconnector
  have hserves : Serves session key s (nodeHandle session key s
      (.list .connector (.field connectorSelectorField (session.publicKey key))) answer).1 :=
    serves_node trivial
  have ht := hserves.hosts hs
  rcases Cluster.list_reply s.cluster .connector
    (.field connectorSelectorField (session.publicKey key))
    (ofNode (session.publicKey key) answer.cloud) with hok | ⟨err, herr⟩
  · rw [← Except.ok.inj (hok.symm.trans h)] at hconnector
    obtain ⟨hmem, hmatches⟩ := List.mem_filter.mp hconnector
    have hpublic : connector.spec.publicKeyId = some (session.publicKey key) := by
      simpa [Selector.matches] using hmatches
    exact ht.1.published connector _ (Table.mem_iff.mp hmem) hpublic
  · have hfalse := herr.symm.trans h
    cases hfalse

theorem within_findConnector (hs : Hosts session key s) (projectId : String) :
    Within (nodeHandle session key) (Serves session key)
      (OnOk fun t r => ∀ connector ∈ r, Owned session key t connector.name)
      ((session.serviceFor key).findConnector projectId).run s := by
  refine Within.bindOk ((within_writes [] (Writes.client projectId) (by simp) (by simp) s).mono
    fun t _ hst _ _ _ => ?_)
  have ht := hst.hosts hs
  refine Within.bindOk (within_lift (Within.call fun answer => ⟨serves_node trivial, ?_⟩))
  have howned : ∀ connectors, (nodeHandle session key t (.list .connector
      (.field connectorSelectorField (session.serviceFor key).endpointId)) answer).2 =
        .ok connectors → ∀ connector ∈ connectors, Owned session key (nodeHandle session key t
          (.list .connector (.field connectorSelectorField (session.serviceFor key).endpointId))
            answer).1 connector.name := fun _ => owned_of_list ht
  generalize (nodeHandle session key t (.list .connector
    (.field connectorSelectorField (session.serviceFor key).endpointId)) answer).2 = r at howned
  apply Within.ret
  split
  · exact Within.ret fun _ h => nomatch h
  · exact Within.ret fun _ h => nomatch h
  · exact Within.ret fun _ h => nomatch h
  · refine Within.ret ?_
    rintro a ⟨⟩ connector hconnector
    cases hconnector
  · rename_i connector rest
    have hfound := howned _ rfl connector List.mem_cons_self
    refine Within.bindOk (within_lift ((within_patchDeviceAnnotations _ hfound).mono ?_))
    intro v patched _ hpatched
    refine Within.ret ?_
    rintro a ⟨⟩ found ⟨⟩
    exact hpatched

/-- Whichever way it is come by, the connector is the node's. -/
theorem within_createConnector {newName : NewName} {spec : ConnectorSpec}
    (hspec : spec.publicKeyId = none) :
    Within (nodeHandle session key) (Serves session key)
      (OnOk fun t connector => Owned session key t connector.name)
      (createRetried .connector newName spec) s := by
  have hcreate : ∀ s, Within (nodeHandle session key) (Serves session key)
      (OnOk fun t (connector : Connector) => Owned session key t connector.name)
      (Svc.create .connector newName spec) s := by
    intro s
    refine Within.call fun answer => ⟨serves_node hspec, Within.ret fun connector hconnector => ?_⟩
    obtain ⟨hlanded, hname, hnone⟩ := Cluster.create_ok hconnector
    have hlanded : answer.cloud.landed = true := hlanded
    have hname : connector.name = Cluster.newName newName answer.cloud.suffix := hname
    have hnone : (s.found answer .connector).get? (Cluster.newName newName answer.cloud.suffix) =
        none := hnone
    apply mem_ownersAfter.mpr
    left
    refine ⟨?_, rfl⟩
    rw [hname]
    exact if_pos ⟨hlanded, hnone⟩
  unfold createRetried
  generalize quotaCheckDelays = delays
  induction delays generalizing s with
  | nil => exact hcreate s
  | cons delay delays ih =>
      refine Within.bind ((hcreate s).mono fun t r _ hr => ?_)
      cases r with
      | ok connector => exact Within.ret hr
      | error err =>
          simp only
          split
          · have hsleep : Only (Writes []) (Svc.sleep delay) := Only.perform (Writes.of_none rfl)
            refine Within.bind ((within_writes [] hsleep (by simp) (by simp) t).mono ?_)
            exact fun u _ _ _ => ih
          · exact Within.ret fun _ h => nomatch h

theorem within_publishConnectionDetails {name : String} (howned : Owned session key s name) :
    Within (nodeHandle session key) (Serves session key) (fun t _ => Owned session key t name)
      (TunnelService.publishConnectionDetails name) s := by
  refine Within.call fun answer => ?_
  have hserves : Serves session key s (nodeHandle session key s .buildConnectionDetails answer).1 :=
    serves_node trivial
  have howned := hserves.owned name howned
  refine ⟨hserves, ?_⟩
  cases hdetails : answer.cloud.details with
  | none =>
      have hreply : (nodeHandle session key s .buildConnectionDetails answer).2 = none :=
        congrArg (Option.map _) hdetails
      rw [hreply]
      exact Within.ret howned
  | some details =>
      have hreply : (nodeHandle session key s .buildConnectionDetails answer).2 =
          some { details with publicKeyId := session.publicKey key } :=
        congrArg (Option.map _) hdetails
      rw [hreply]
      refine Within.call fun answer' => ?_
      have hpublish : Serves session key _ (nodeHandle session key _ (.patch .connector name
          (.connectionDetails { details with publicKeyId := session.publicKey key })) answer').1 :=
        serves_node ⟨rfl, howned⟩
      exact ⟨hpublish, Within.ret (hpublish.owned name howned)⟩

theorem within_ensureConnector (hs : Hosts session key s) (projectId : String) :
    Within (nodeHandle session key) (Serves session key)
      (OnOk fun t connector => Owned session key t connector.name)
      ((session.serviceFor key).ensureConnector projectId).run s := by
  refine Within.bindOk ((within_writes [] (Writes.client projectId) (by simp) (by simp) s).mono
    fun t _ hst _ _ _ => ?_)
  refine Within.bindOk ((within_findConnector (hst.hosts hs) projectId).mono
    fun t r _ hr found hfound => ?_)
  have hfound := hr found hfound
  cases found with
  | some connector =>
      refine Within.bindOk (within_lift ((within_publishConnectionDetails
        (hfound connector rfl)).mono fun u _ _ hu => ?_))
      refine Within.ret ?_
      rintro a ⟨⟩
      exact hu
  | none =>
      have hclass : Only (Writes []) resolveConnectorClass :=
        (Only.perform (Writes.of_none rfl)).bind fun r => by cases r <;> exact Only.ret _
      refine Within.bindOk (within_lift ((within_writes [] hclass (by simp) (by simp) t).mono
        fun u className _ _ => ?_))
      refine Within.bindOk (within_mapError ((within_createConnector rfl).mono
        fun v r _ hr connector hconnector => ?_))
      refine Within.bindOk (within_lift ((within_publishConnectionDetails
        (hr connector hconnector)).mono fun x _ _ hx => ?_))
      refine Within.ret ?_
      rintro a ⟨⟩
      exact hx

/-! ### The proxy -/

theorem names_desired {owners : List (String × String)} {name : String} (spec : ProxySpec)
    (endpoint : String) (wafExemptMatches : Option (List RouteMatch))
    (howned : (name, endpointId) ∈ owners) :
    Names owners endpointId { spec with rules := desiredProxyRules endpoint name wafExemptMatches } :=
  ⟨name, connectorName_desiredProxyRules rfl, howned⟩

/-- The tunnel's proxy references what it did when it was read, or a connector of the
node. -/
def Read (s : Machine) (endpointId tunnelId : String) (existing : HTTPProxy) : Prop :=
  ∀ proxy, (s.cluster .httpProxy).get? tunnelId = some proxy →
    HTTPProxy.connectorName proxy.spec = HTTPProxy.connectorName existing.spec ∨
      Names s.owners endpointId proxy.spec

theorem Serves.read {tunnelId : String} {existing : HTTPProxy} (h : Serves session key s t)
    (hread : s.Read (session.publicKey key) tunnelId existing) :
    t.Read (session.publicKey key) tunnelId existing := by
  intro proxy' hproxy'
  rcases h.tracked tunnelId with hkept | hmoved
  · obtain ⟨proxy, hproxy, hname, -⟩ := hkept.2 proxy' hproxy'
    rcases hread proxy hproxy with hsame | ⟨name, hconnector, howned⟩
    · exact Or.inl (hname.trans hsame)
    · exact Or.inr ⟨name, hname.trans hconnector, h.owned name howned⟩
  · exact Or.inr (hmoved.2 proxy' hproxy')

theorem within_get (tunnelId : String) :
    Within (nodeHandle session key) (Serves session key)
      (OnOk fun t existing => t.Read (session.publicKey key) tunnelId existing)
      (Svc.get .httpProxy tunnelId) s := by
  refine Within.call fun answer => ⟨serves_node trivial, Within.ret fun existing hexisting => ?_⟩
  obtain ⟨-, hfound⟩ := Cluster.replying_ok hexisting
  intro proxy hproxy
  left
  change (((s.found answer).serve (ofNode (session.publicKey key) answer.cloud)
    (.get .httpProxy tunnelId)).1 .httpProxy).get? tunnelId = some proxy at hproxy
  rw [Workshop.serve_kind (by simp [writtenKind])] at hproxy
  change ((s.found answer .httpProxy).get? tunnelId).elim (.error (Cluster.notFound tunnelId)) .ok =
    Except.ok existing at hfound
  rw [hproxy] at hfound
  cases hfound
  rfl

/-- However it is done, the proxy references the node's connector afterwards. -/
theorem within_patchProxy {tunnelId endpoint name label context : String} {existing : HTTPProxy}
    {wafExemptMatches : Option (List RouteMatch)} (howned : Owned session key s name)
    (hread : s.Read (session.publicKey key) tunnelId existing) :
    Within (nodeHandle session key) (Serves session key)
      (OnOk fun t _ => t.Points (session.publicKey key) tunnelId)
      (TunnelService.patchProxy tunnelId existing label
        (desiredProxyRules endpoint name wafExemptMatches) context).run s := by
  unfold TunnelService.patchProxy
  split
  · rename_i hmatches
    refine Within.ret fun _ _ proxy hproxy => ?_
    rcases hread proxy hproxy with hsame | hnames
    · have hrules : existing.spec.rules = desiredProxyRules endpoint name wafExemptMatches := by
        simpa using (Bool.and_eq_true_iff.mp hmatches).2
      have hspec : HTTPProxy.connectorName { existing.spec with
          rules := desiredProxyRules endpoint name wafExemptMatches } = some name :=
        connectorName_desiredProxyRules rfl
      rw [← hrules] at hspec
      exact ⟨name, hsame.trans hspec, howned⟩
    · exact hnames
  · refine within_mapError (Within.call fun answer => ?_)
    have hfits : Fits (session.publicKey key) s (.patch .httpProxy tunnelId (Patch.proxy label
        (existing.spec.hostnames.getD []) (desiredProxyRules endpoint name wafExemptMatches))) :=
      fun spec => names_desired { spec with
        label := some label, hostnames := some (existing.spec.hostnames.getD []) } endpoint
          wafExemptMatches howned
    refine ⟨serves_node hfits, Within.ret fun _ hreply => ?_⟩
    apply points_of_repointed hfits
    have hlanded : answer.cloud.landed = true := (Cluster.replying_ok hreply).1
    show tunnelId ∈ if answer.cloud.landed then [tunnelId] else []
    rw [if_pos hlanded]
    exact List.mem_singleton.mpr rfl

/-- The methods' parts after the proxy has been written. -/
theorem within_rest {p : SvcE α} (h : Only (Writes [.connectorAdvertisement, .trafficProtectionPolicy])
    p.run) (s : Machine) :
    Within (nodeHandle session key) (Serves session key) (fun _ _ => True) p.run s :=
  within_writes _ h (by simp) (by simp) s

theorem within_updateProject (hs : Hosts session key s) (projectId tunnelId label endpoint : String) :
    Within (nodeHandle session key) (Serves session key)
      (OnOk fun t summary => t.Points (session.publicKey key) tunnelId ∧ summary.id = tunnelId)
      ((session.serviceFor key).updateProject projectId tunnelId label endpoint).run s := by
  refine Within.bindOk ((within_rest Writes.ofExcept s).mono fun t _ hst _ target _ => ?_)
  refine Within.bindOk ((within_ensureConnector (hst.hosts hs) projectId).mono
    fun t _ _ hr connector hconnector => ?_)
  have howned := hr connector hconnector
  refine Within.bindOk ((within_rest (Writes.client projectId) t).mono fun u _ htu _ _ _ => ?_)
  have howned := htu.owned _ howned
  refine Within.bindOk ((within_mapError (within_get tunnelId)).mono
    fun v _ huv hr existing hexisting => ?_)
  have howned := huv.owned _ howned
  refine Within.bindOk ((within_patchProxy howned (hr existing hexisting)).mono
    fun w _ _ hr _ hpatched => ?_)
  have hpoints := hr _ hpatched
  refine Within.bindOk ((within_rest (Writes.patchAdvertisement (by simp)) w).mono
    fun x _ hwx _ enabled _ => ?_)
  have hpoints := hwx.points hpoints
  refine Within.bindOk ((within_rest (Writes.lift (Writes.storeProxyState _ _)) x).mono
    fun y _ hxy _ _ _ => ?_)
  refine Within.ret ?_
  rintro summary ⟨⟩
  exact ⟨hxy.points hpoints, rfl⟩

/-- Nothing is said of what is returned. -/
theorem onOk_of_true {t : Machine} {r : Except ε α} : OnOk (fun _ _ => True) t r := fun _ _ => trivial

theorem within_createProxy {newName : NewName} {spec : ProxySpec} {name resourceType : String}
    (hname : HTTPProxy.connectorName spec = some name) (howned : Owned session key s name) :
    Within (nodeHandle session key) (Serves session key) (OnOk fun _ _ => True)
      (createOrFail .httpProxy newName spec resourceType).run s := by
  apply within_mapError
  unfold createRetried
  generalize quotaCheckDelays = delays
  have hcreate : ∀ s, Owned session key s name →
      Within (nodeHandle session key) (Serves session key) (fun _ _ => True)
        (Svc.create .httpProxy newName spec) s := by
    intro s howned
    have hfits : Fits (session.publicKey key) s (.create .httpProxy newName spec) :=
      ⟨name, hname, howned⟩
    exact Within.call fun answer => ⟨serves_node hfits, Within.ret trivial⟩
  induction delays generalizing s with
  | nil => exact (hcreate s howned).mono fun _ _ _ _ => onOk_of_true
  | cons delay delays ih =>
      refine Within.bind ((hcreate s howned).mono fun t r hst _ => ?_)
      cases r with
      | ok proxy => exact Within.ret onOk_of_true
      | error err =>
          simp only
          split
          · have hsleep : Only (Writes []) (Svc.sleep delay) := Only.perform (Writes.of_none rfl)
            refine Within.bind ((within_writes [] hsleep (by simp) (by simp) t).mono ?_)
            intro u _ htu _
            exact ih (htu.owned _ (hst.owned _ howned))
          · exact Within.ret onOk_of_true

theorem within_createProject (hs : Hosts session key s) (projectId label endpoint : String) :
    Within (nodeHandle session key) (Serves session key) (OnOk fun _ _ => True)
      ((session.serviceFor key).createProject projectId label endpoint).run s := by
  refine Within.bindOk ((within_rest Writes.ofExcept s).mono fun t _ hst _ target _ => ?_)
  refine Within.bindOk ((within_ensureConnector (hst.hosts hs) projectId).mono
    fun t _ _ hr connector hconnector => ?_)
  have howned := hr connector hconnector
  refine Within.bindOk ((within_rest (Writes.client projectId) t).mono fun u _ htu _ _ _ => ?_)
  have howned := htu.owned _ howned
  have hname : HTTPProxy.connectorName {
      label := some label
      hostnames := none
      rules := desiredProxyRules (normalizeEndpoint endpoint) connector.name
        (session.serviceFor key).wafExemptMatches } = some connector.name :=
    connectorName_desiredProxyRules rfl
  refine Within.bindOk ((within_createProxy hname howned).mono fun v _ _ _ proxy _ => ?_)
  refine (within_rest ?_ v).mono fun _ _ _ _ => onOk_of_true
  refine (Writes.mapError (Writes.create (by simp))).bindE fun _ => ?_
  refine (Writes.createPolicy _ proxy.name (by simp)).bindE fun _ => ?_
  refine (Writes.lift (Writes.spawnEdgePolicies _)).bindE fun _ => ?_
  refine Writes.ofExcept.bindE fun proxyState => ?_
  exact (Writes.lift (Only.perform (Writes.of_none rfl))).bindE fun _ => Only.ret _

theorem within_enable (hs : Hosts session key s) {projectId tunnelId endpoint label : String}
    {proxy : HTTPProxy} (hread : s.Read (session.publicKey key) tunnelId proxy) :
    Within (nodeHandle session key) (Serves session key) (OnOk fun _ _ => True)
      ((session.serviceFor key).enable projectId tunnelId proxy endpoint label).run s := by
  refine Within.bindOk ((within_ensureConnector hs projectId).mono
    fun t _ hst hr connector hconnector => ?_)
  have howned := hr connector hconnector
  refine Within.bindOk ((within_rest Writes.ofExcept t).mono fun u _ htu _ target _ => ?_)
  have howned := htu.owned _ howned
  refine Within.bindOk ((within_patchProxy howned (htu.read (hst.read hread))).mono
    fun v _ _ _ written _ => ?_)
  refine (within_rest ?_ v).mono fun _ _ _ _ => onOk_of_true
  refine (Writes.writeAdvertisement (by simp)).bindE fun _ => ?_
  exact Writes.lift (Writes.spawnEdgePolicies _)

theorem within_setEnabledProject (hs : Hosts session key s) (projectId tunnelId : String) :
    Within (nodeHandle session key) (Serves session key) (OnOk fun _ _ => True)
      ((session.serviceFor key).setEnabledProject projectId tunnelId true).run s := by
  refine Within.bindOk ((within_rest (Writes.client projectId) s).mono fun t _ hst _ _ _ => ?_)
  refine Within.bindOk ((within_mapError (within_get tunnelId)).mono
    fun u _ htu hr proxy hproxy => ?_)
  refine Within.bindOk ((within_enable (htu.hosts (hst.hosts hs)) (hr proxy hproxy)).mono
    fun v _ _ _ _ _ => ?_)
  refine (within_rest ?_ v).mono fun _ _ _ _ => onOk_of_true
  exact (Writes.lift (Writes.storeProxyState _ _)).bindE fun _ => Only.ret _

/-! ### Looking, and cleaning up -/

theorem writes_listActive : Only (Writes []) TunnelService.listActive.run := by
  refine (Writes.lift (Only.perform (Writes.of_none rfl))).bindE fun project => ?_
  cases project with
  | none => exact Only.ret _
  | some projectId =>
      refine Only.bindE ?_ fun _ => Only.ret _
      refine (Writes.client projectId).bindE fun _ => ?_
      refine (Writes.mapError (Only.perform (Writes.of_none rfl))).bindE fun proxies => ?_
      refine (Writes.mapError (Only.perform (Writes.of_none rfl))).bindE fun ads => ?_
      exact (Writes.mapError (Only.perform (Writes.of_none rfl))).bindE fun _ => Only.ret _

theorem plain_delete (kind : Kind) (name : String) :
    Only (Plain endpointId) (Svc.delete kind name) :=
  Only.perform fun _ => trivial

theorem plain_list (kind : Kind) (selector : Selector) :
    Only (Plain endpointId) (Svc.list kind selector) :=
  Only.perform fun _ => trivial

theorem plain_deleteOrphan (connectorName : String) :
    Only (Plain endpointId) (deleteOrphan connectorName) := by
  have hdeleteEach : ∀ names, Only (Plain endpointId) (deleteEach .connectorAdvertisement names) := by
    intro names
    induction names with
    | nil => exact Only.ret _
    | cons name names ih =>
        refine Only.bind ?_ fun _ => ih
        exact (plain_delete _ name).bind fun _ => Only.ret _
  refine (plain_list _ _).bind fun ads => ?_
  exact (hdeleteEach _).bind fun _ => (plain_delete _ _).bind fun _ => Only.ret _

theorem plain_cleanupOrphanedConnectors :
    Only (Plain endpointId) cleanupOrphanedConnectors.run := by
  have hdelete : ∀ names, Only (Plain endpointId) (deleteOrphans names) := by
    intro names
    induction names with
    | nil => exact Only.ret _
    | cons name names ih =>
        refine (plain_deleteOrphan name).bind fun _ => ?_
        exact ih.bind fun _ => Only.ret _
  have hproject : Only (Plain endpointId) (SvcE.lift Svc.selectedContext).run :=
    Only.bind (Only.perform fun _ => trivial) fun _ => Only.ret _
  refine hproject.bindE fun project => ?_
  cases project with
  | none => exact Only.ret _
  | some projectId =>
      have hclient : Only (Plain endpointId) (SvcE.projectControlPlaneClient projectId).run :=
        Only.perform fun _ => trivial
      refine hclient.bindE fun _ => ?_
      refine Only.bindE ((plain_list _ _).bind fun _ => Only.ret _) fun proxies => ?_
      refine Only.bindE ((plain_list _ _).bind fun _ => Only.ret _) fun connectors => ?_
      exact (hdelete _).bind fun _ => Only.ret _

theorem within_refreshConnectionDetails (hs : Hosts session key s) :
    Within (nodeHandle session key) (Serves session key) (OnOk fun _ _ => True)
      ((session.serviceFor key).refreshConnectionDetails).run s := by
  have hproject : Only (Writes []) (SvcE.lift Svc.selectedContext).run :=
    Writes.lift (Only.perform (Writes.of_none rfl))
  refine Within.bindOk ((within_writes [] hproject (by simp) (by simp) s).mono
    fun t _ hst _ project _ => ?_)
  cases project with
  | none => exact Within.ret onOk_of_true
  | some projectId =>
      refine Within.bindOk ((within_findConnector (hst.hosts hs) projectId).mono
        fun u _ _ hr found hfound => ?_)
      have hfound := hr found hfound
      cases found with
      | none => exact Within.ret onOk_of_true
      | some connector =>
          refine Within.bindOk ((within_rest (Writes.client projectId) u).mono
            fun v _ huv _ _ _ => ?_)
          have howned := huv.owned _ (hfound connector rfl)
          exact within_lift ((within_publishConnectionDetails howned).mono fun _ _ _ _ => trivial)

/-- A method in the selected project. -/
theorem within_inSelectedProject {post : Machine → α → Prop} {op : String → SvcE α}
    (hop : ∀ t projectId, Serves session key s t →
      Within (nodeHandle session key) (Serves session key) (OnOk post) (op projectId).run t) :
    Within (nodeHandle session key) (Serves session key) (OnOk post) (inSelectedProject op).run s := by
  have hproject : Only (Writes []) (SvcE.lift Svc.selectedContext).run :=
    Writes.lift (Only.perform (Writes.of_none rfl))
  refine Within.bindOk ((within_writes [] hproject (by simp) (by simp) s).mono
    fun t _ hst _ project _ => ?_)
  cases project with
  | none => exact Within.ret fun _ h => nomatch h
  | some projectId => exact hop t projectId hst

end Machine

end DatumConnect.Cli
