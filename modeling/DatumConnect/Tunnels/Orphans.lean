import DatumConnect.Cloud.Server
import DatumConnect.Tunnels.Service
/-!
# Orphaned connectors

`list_project_with_orphans` and `cleanup_orphaned_connectors` each work out which
connectors are referenced.  Both look at the first connector that a proxy names: one of
the tunnels' proxies, the other of all proxies that are not being deleted.
-/

namespace DatumConnect.Tunnels

open DatumConnect.Lib
open DatumConnect.Lib.Prog (SafeWhen OnOk)
open DatumConnect.Cloud

namespace Orphans

/-- The server carries the call out, and nothing else changes. -/
def Calm (answer : Answer) : Prop := answer.outcome = .done ∧ answer.finalized = []

instance (answer : Answer) : Decidable (Calm answer) := by
  unfold Calm
  infer_instance

/-- A backend of a proxy that is not being deleted references the connector. -/
def Referenced (s : Cluster) (connectorName : String) : Prop :=
  ∃ proxy ∈ (s .httpProxy).objects,
    proxy.deleting = false ∧ connectorName ∈ HTTPProxy.connectors proxy.spec

/-- It is the first that a tunnel's proxy references. -/
def FirstOfTunnel (s : Cluster) (connectorName : String) : Prop :=
  ∃ proxy ∈ (s .httpProxy).objects, "tunnel-".toList.isPrefixOf proxy.name.toList = true ∧
    HTTPProxy.connectorName proxy.spec = some connectorName

/-- It is the first that a proxy which is not being deleted references. -/
def FirstOfLive (s : Cluster) (connectorName : String) : Prop :=
  ∃ proxy ∈ (s .httpProxy).objects, proxy.deleting = false ∧
    HTTPProxy.connectorName proxy.spec = some connectorName

/-- Of each connector: if it is the first reference of a tunnel's proxy, it is of one that
is not being deleted, and the other way about; and if such a proxy references it at all, it
is the first reference of one. -/
def Consistent (s : Cluster) : Prop :=
  ∀ connector ∈ (s .connector).objects,
    (FirstOfTunnel s connector.name ↔ FirstOfLive s connector.name) ∧
      (Referenced s connector.name → FirstOfLive s connector.name)

/-- What a computation comes to where every call is carried out. -/
abbrev Calmly {α : Type} (post : Cluster → α → Prop) (p : Svc α) (s : Cluster) : Prop :=
  SafeWhen Cluster.handle (fun _ _ answer => Calm answer) (fun _ => True) post p s

variable {s : Cluster} {α ε : Type}

/-! ## Calls that are carried out -/

theorem finalize_nil (s : Cluster) : s.finalize [] = s := by
  funext kind
  show (s kind).finalize [] = s kind
  unfold Table.finalize Table.filter
  congr 1
  rw [List.filter_eq_self]
  intro o _
  simp

theorem calm_call {c : Call} {post : Cluster → c.Reply → Prop}
    (h : ∀ answer : Answer, answer.outcome = .done →
      post (s.serve answer c).1 (s.serve answer c).2) :
    Calmly post (Prog.perform c) s := by
  refine ⟨trivial, fun answer hcalm => ⟨trivial, ?_⟩⟩
  have hserve : s.handle c answer = s.serve answer c := by
    rw [Cluster.handle, hcalm.2, finalize_nil]
  rw [hserve]
  exact h answer hcalm.1

theorem calm_list {kind : Kind} {selector : Selector}
    {post : Cluster → Except KubeError (List (Object kind.Spec)) → Prop}
    (h : post s (.ok ((s kind).objects.filter fun o => selector.matches kind o.spec))) :
    Calmly post (Svc.list kind selector) s := by
  refine calm_call fun answer hdone => ?_
  simpa only [Cluster.serve, hdone, Cluster.replying] using h

theorem calm_delete {kind : Kind} {name : String}
    {post : Cluster → Except KubeError Unit → Prop}
    (h : ∀ mark, post (s.delete kind name mark).1 (s.delete kind name mark).2) :
    Calmly post (Svc.delete kind name) s := by
  refine calm_call fun answer hdone => ?_
  simpa only [Cluster.serve, hdone, Cluster.replying] using h answer.mark

theorem calm_client {projectId : String} {post : Cluster → Except Error Unit → Prop}
    (h : post s (.ok ())) : Calmly post (SvcE.projectControlPlaneClient projectId).run s := by
  refine calm_call (c := .projectControlPlaneClient projectId) fun answer hdone => ?_
  simpa only [Cluster.serve, hdone, Cluster.elsewhere] using h

theorem calm_mapError {f : ε → Error} {p : Svc (Except ε α)} {post : Cluster → α → Prop}
    (h : Calmly (fun t r => ∃ a, r = .ok a ∧ post t a) p s) :
    Calmly (fun t r => ∃ a, r = .ok a ∧ post t a) (SvcE.mapError f p).run s := by
  refine SafeWhen.bind (h.mono fun t r _ hr => ?_)
  obtain ⟨a, rfl, ha⟩ := hr
  exact ⟨trivial, a, rfl, ha⟩

theorem calm_lift {p : Svc α} {post : Cluster → α → Prop} (h : Calmly post p s) :
    Calmly (fun t r => ∃ a, r = .ok a ∧ post t a) (SvcE.lift p).run s :=
  SafeWhen.bind (h.mono fun _ a _ ha => ⟨trivial, a, rfl, ha⟩)

/-- The rule for a computation that does not fail here. -/
theorem calm_bind {β : Type} {p : SvcE α} {f : α → SvcE β} {post : Cluster → Except Error β → Prop}
    (h : Calmly (fun t r => ∃ a, r = .ok a ∧ Calmly post (f a).run t) p.run s) :
    Calmly post (p >>= f).run s := by
  refine SafeWhen.bindE (h.mono fun t r _ hr => ?_)
  obtain ⟨a, rfl, ha⟩ := hr
  exact ha

theorem calm_listAll {kind : Kind} {context : String}
    {post : Cluster → List (Object kind.Spec) → Prop} (h : post s (s kind).objects) :
    Calmly (fun t r => ∃ a, r = .ok a ∧ post t a)
      (SvcE.orElseContext (Svc.list kind .everything) context).run s := by
  refine calm_mapError (calm_list ⟨_, rfl, ?_⟩)
  have hall : (s kind).objects.filter (fun o => Selector.everything.matches kind o.spec) =
      (s kind).objects := by
    rw [List.filter_eq_self]
    intro o _
    cases kind <;> rfl
  rwa [hall]

/-! ## What is reported -/

theorem calm_listProjectWithOrphans (s : Cluster) (projectId : String) :
    Calmly (fun _ r => ∃ tunnels, r = .ok (tunnels,
        TunnelService.orphansOf (s .httpProxy).objects (s .connector).objects))
      (TunnelService.listProjectWithOrphans projectId).run s := by
  refine calm_bind (calm_client ⟨_, rfl, ?_⟩)
  refine calm_bind (calm_listAll ?_)
  refine calm_bind (calm_listAll ?_)
  refine calm_bind (calm_listAll ?_)
  exact ⟨trivial, _, rfl⟩

theorem mem_orphans {name : String} :
    name ∈ (TunnelService.orphansOf (s .httpProxy).objects (s .connector).objects).map
        OrphanedConnector.name ↔
      (∃ connector ∈ (s .connector).objects, connector.name = name) ∧ ¬ FirstOfTunnel s name := by
  have hreferenced : name ∈ (TunnelService.tunnelProxies (s .httpProxy).objects).filterMap
      (fun proxy => HTTPProxy.connectorName proxy.spec) ↔ FirstOfTunnel s name := by
    simp [TunnelService.tunnelProxies, FirstOfTunnel, and_assoc]
  rw [← hreferenced]
  constructor
  · intro h
    obtain ⟨orphan, horphan, rfl⟩ := List.mem_map.mp h
    obtain ⟨connector, hconnector, rfl⟩ := List.mem_map.mp horphan
    obtain ⟨hmem, hfree⟩ := List.mem_filter.mp hconnector
    exact ⟨⟨connector, hmem, rfl⟩, of_decide_eq_true hfree⟩
  · rintro ⟨⟨connector, hmem, rfl⟩, hfree⟩
    apply List.mem_map.mpr
    refine ⟨_, List.mem_map_of_mem (List.mem_filter.mpr ⟨hmem, decide_eq_true hfree⟩), rfl⟩

/-! ## What is deleted -/

/-- Only the advertisements of a connector go before it does. -/
theorem calm_deleteEach (names : List String) {post : Cluster → Unit → Prop}
    (h : ∀ t : Cluster, t .connector = s .connector → post t ()) :
    Calmly post (deleteEach .connectorAdvertisement names) s := by
  unfold deleteEach
  induction names generalizing s with
  | nil => exact ⟨trivial, h s rfl⟩
  | cons name names ih =>
      refine SafeWhen.bind (SafeWhen.bind (calm_delete fun mark => ?_))
      refine ⟨trivial, ih fun t ht => h t (ht.trans ?_)⟩
      unfold Cluster.delete
      split
      · rfl
      · have hkind : Kind.connector ≠ .connectorAdvertisement := by decide
        exact Cluster.set_of_ne s ((s .connectorAdvertisement).delete name mark) hkind

/-- The connectors of these names are gone or being deleted, and no other is touched. -/
structure Deleted (s t : Cluster) (names : List String) : Prop where
  gone : ∀ name ∈ names, (t .connector).Gone name
  others : ∀ name, name ∉ names → (t .connector).get? name = (s .connector).get? name

theorem Deleted.nil (s : Cluster) : Deleted s s [] := ⟨nofun, fun _ _ => rfl⟩

theorem Deleted.cons {t u : Cluster} {name : String} {names : List String}
    (h : Deleted s t [name]) (h' : Deleted t u names) : Deleted s u (name :: names) where
  gone m hm := by
    by_cases hrest : m ∈ names
    · exact h'.gone m hrest
    · obtain rfl := (List.mem_cons.mp hm).resolve_right hrest
      intro o ho
      rw [h'.others m hrest] at ho
      exact h.gone m (List.mem_singleton.mpr rfl) o ho
  others m hm := by
    obtain ⟨hne, hrest⟩ := not_or.mp (fun h => hm (List.mem_cons.mpr h))
    rw [h'.others m hrest, h.others m (fun hmem => hne (List.mem_singleton.mp hmem))]

/-- A connector that is there is deleted, and no other. -/
theorem calm_deleteOrphan {connectorName : String} {connector : Connector}
    (hconnector : (s .connector).get? connectorName = some connector) :
    Calmly (fun t deleted => deleted = true ∧ Deleted s t [connectorName])
      (deleteOrphan connectorName) s := by
  refine SafeWhen.bind (calm_list ?_)
  refine SafeWhen.bind (calm_deleteEach _ fun t ht => ?_)
  refine SafeWhen.bind (calm_delete fun mark => ?_)
  refine ⟨trivial, ?_, fun name hname => ?_, fun name hname => ?_⟩
  · rw [Cluster.delete, ht, hconnector]
    rfl
  · rw [List.mem_singleton.mp hname]
    exact Cluster.gone_delete _ _ _ _
  · rw [Cluster.get?_delete, if_neg fun heq => hname (List.mem_singleton.mpr heq), ht]

/-- So are all of several. -/
theorem calm_deleteOrphans (names : List String) (hnames : names.Nodup)
    (hthere : ∀ name ∈ names, ((s .connector).get? name).isSome = true) :
    Calmly (fun t deleted => deleted = names ∧ Deleted s t names) (deleteOrphans names) s := by
  induction names generalizing s with
  | nil => exact ⟨trivial, rfl, .nil s⟩
  | cons name names ih =>
      obtain ⟨hfresh, hnodup⟩ := List.nodup_cons.mp hnames
      obtain ⟨connector, hconnector⟩ :=
        Option.isSome_iff_exists.mp (hthere name List.mem_cons_self)
      refine SafeWhen.bind ((calm_deleteOrphan hconnector).mono fun t deleted _ h => ?_)
      obtain ⟨rfl, hdeleted⟩ := h
      have hrest : ∀ n ∈ names, ((t .connector).get? n).isSome = true := by
        intro n hn
        rw [hdeleted.others n fun heq => hfresh (List.mem_singleton.mp heq ▸ hn)]
        exact hthere n (List.mem_cons_of_mem name hn)
      refine SafeWhen.bind ((ih hnodup hrest).mono fun u more _ hmore => ?_)
      exact ⟨trivial, by rw [hmore.1]; rfl, hdeleted.cons hmore.2⟩

/-- The connectors that no first reference of a live proxy names. -/
def unreferenced (s : Cluster) : List String :=
  ((s .connector).objects.filter fun connector =>
    connector.name ∉ (s .httpProxy).objects.filterMap liveConnectorName).map Object.name

theorem calm_cleanup (s : Cluster) (projectId : String) :
    Calmly (fun t r => r = .ok (unreferenced s) ∧ Deleted s t (unreferenced s))
      (cleanupOrphanedConnectorsProject projectId).run s := by
  refine calm_bind (calm_client ⟨_, rfl, ?_⟩)
  refine calm_bind (calm_listAll ?_)
  refine calm_bind (calm_listAll ?_)
  refine (calm_lift (calm_deleteOrphans _ ?_ ?_)).mono fun t r _ hr => ?_
  · exact (s .connector).unique.sublist (List.filter_sublist.map _)
  · intro name hname
    obtain ⟨connector, hconnector, rfl⟩ := List.mem_map.mp hname
    rw [Table.mem_iff.mp (List.mem_of_mem_filter hconnector)]
    rfl
  · obtain ⟨names, rfl, rfl, hdeleted⟩ := hr
    exact ⟨rfl, hdeleted⟩

theorem mem_unreferenced {name : String} :
    name ∈ unreferenced s ↔
      (∃ connector ∈ (s .connector).objects, connector.name = name) ∧ ¬ FirstOfLive s name := by
  have hreferenced : name ∈ (s .httpProxy).objects.filterMap liveConnectorName ↔
      FirstOfLive s name := by
    rw [List.mem_filterMap]
    constructor
    · rintro ⟨proxy, hproxy, hlive⟩
      unfold liveConnectorName at hlive
      split at hlive
      · cases hlive
      · exact ⟨proxy, hproxy, Bool.eq_false_iff.mpr ‹_›, hlive⟩
    · rintro ⟨proxy, hproxy, hlive, hname⟩
      refine ⟨proxy, hproxy, ?_⟩
      rw [liveConnectorName, hlive]
      exact hname
  rw [← hreferenced]
  constructor
  · intro h
    obtain ⟨connector, hconnector, rfl⟩ := List.mem_map.mp h
    obtain ⟨hmem, hfree⟩ := List.mem_filter.mp hconnector
    exact ⟨⟨connector, hmem, rfl⟩, of_decide_eq_true hfree⟩
  · rintro ⟨⟨connector, hmem, rfl⟩, hfree⟩
    exact List.mem_map_of_mem (List.mem_filter.mpr ⟨hmem, decide_eq_true hfree⟩)

/-! ## What both say -/

/-- The two agree, and leave alone what is in use, exactly on the consistent projects; and what the
cleanup says it has deleted is gone or being deleted, and all that is. -/
theorem orphans_agree_iff (s : Cluster) (projectId : String) (answers answers' : List Answer)
    (hcalm : ∀ answer ∈ answers ++ answers', Calm answer) {t t' : Cluster}
    {reported : Except Error (List TunnelSummary × List OrphanedConnector)}
    {deleted : Except Error (List String)}
    (hlist : Prog.exec Cluster.handle s answers
      (TunnelService.listProjectWithOrphans projectId).run = (t, some reported))
    (hcleanup : Prog.exec Cluster.handle s answers'
      (cleanupOrphanedConnectorsProject projectId).run = (t', some deleted)) :
    ((∃ tunnels orphans names, reported = .ok (tunnels, orphans) ∧ deleted = .ok names ∧
      (∀ name, name ∈ orphans.map OrphanedConnector.name ↔ name ∈ names) ∧
      ∀ name ∈ names, ¬ Referenced s name) ↔ Consistent s) ∧
      ∃ names, deleted = .ok names ∧ Deleted s t' names := by
  have hreported := ((calm_listProjectWithOrphans s projectId).exec
    (Prog.Answered.of_mem fun a ha => hcalm a (List.mem_append_left _ ha))).2 reported
    (by rw [hlist])
  obtain ⟨hdeleted, hgone⟩ := ((calm_cleanup s projectId).exec
    (Prog.Answered.of_mem fun a ha => hcalm a (List.mem_append_right _ ha))).2 deleted
    (by rw [hcleanup])
  rw [hcleanup] at hgone
  obtain ⟨tunnels, rfl⟩ := hreported
  refine ⟨?_, _, hdeleted, hgone⟩
  constructor
  · rintro ⟨tunnels', orphans, names, hr, hd, hsame, hunused⟩ connector hconnector
    cases hr
    cases hd.symm.trans hdeleted
    have hthere : ∃ c ∈ (s .connector).objects, c.name = connector.name :=
      ⟨connector, hconnector, rfl⟩
    have hiff := hsame connector.name
    rw [mem_orphans, mem_unreferenced] at hiff
    refine ⟨?_, fun hreferenced => ?_⟩
    · simpa [hthere, not_iff_not] using hiff
    · by_contra hfirst
      exact hunused connector.name (mem_unreferenced.mpr ⟨hthere, hfirst⟩) hreferenced
  · intro h
    refine ⟨_, _, _, rfl, hdeleted, fun name => ?_, fun name hname hreferenced => ?_⟩
    · rw [mem_orphans, mem_unreferenced]
      refine and_congr_right ?_
      rintro ⟨connector, hconnector, rfl⟩
      exact not_congr (h connector hconnector).1
    · obtain ⟨⟨connector, hconnector, rfl⟩, hfirst⟩ := mem_unreferenced.mp hname
      exact hfirst ((h connector hconnector).2 hreferenced)

/-- A proxy with one rule, with a backend for each of the connectors. -/
def proxied (connectors : List String) : ProxySpec where
  label := none
  hostnames := none
  rules := [{
    name := none
    routes := []
    filters := none
    backends := some (connectors.map fun name =>
      { endpoint := "http://h:1", connector := some name }) }]

def connectorOf : ConnectorSpec where
  className := "iroh-quic-tunnel"
  deviceName := none
  deviceOs := none
  status := none

/-- A tunnel, and a connector that is left over. -/
def tidy : Cluster :=
  let s := (Cluster.empty.create .httpProxy "tunnel-a" (proxied ["a"])).1
  let s := (s.create .connector "a" connectorOf).1
  (s.create .connector "b" connectorOf).1

theorem orphans_agree_iff_tidy :
    ∃ reported deleted,
      (Prog.exec Cluster.handle tidy (List.replicate 4 {})
        (TunnelService.listProjectWithOrphans "p").run).2 = some reported ∧
      (Prog.exec Cluster.handle tidy (List.replicate 5 {})
        (cleanupOrphanedConnectorsProject "p").run).2 = some deleted ∧
      ((∃ tunnels orphans names, reported = .ok (tunnels, orphans) ∧ deleted = .ok names ∧
        (∀ name, name ∈ orphans.map OrphanedConnector.name ↔ name ∈ names) ∧
        ∀ name ∈ names, ¬ Referenced tidy name) ↔ Consistent tidy) ∧
      ∃ names, deleted = .ok names ∧ Deleted tidy (Prog.exec Cluster.handle tidy
        (List.replicate 5 {}) (cleanupOrphanedConnectorsProject "p").run).1 names :=
  ⟨_, _, rfl, rfl, orphans_agree_iff tidy "p" (List.replicate 4 {}) (List.replicate 5 {})
    (by decide) rfl rfl⟩

/-- Beside the tunnel a proxy of another name, and one with two backends. -/
def untidy : Cluster :=
  let s := (tidy.create .httpProxy "other" (proxied ["b"])).1
  let s := (s.create .httpProxy "tunnel-c" (proxied ["a", "c"])).1
  (s.create .connector "c" connectorOf).1

/-- The connector of the other proxy is reported and not deleted, and that of the second
backend is both. -/
theorem orphans_disagree :
    ∃ tunnels orphans,
      (Prog.exec Cluster.handle untidy (List.replicate 4 {})
        (TunnelService.listProjectWithOrphans "p").run).2 = some (.ok (tunnels, orphans)) ∧
      orphans.map OrphanedConnector.name = ["b", "c"] ∧
      (Prog.exec Cluster.handle untidy (List.replicate 5 {})
        (cleanupOrphanedConnectorsProject "p").run).2 = some (.ok ["c"]) ∧
      Referenced untidy "c" :=
  ⟨_, _, rfl, rfl, rfl, { name := "tunnel-c", spec := proxied ["a", "c"] }, by decide, by decide⟩

end Orphans

end DatumConnect.Tunnels
