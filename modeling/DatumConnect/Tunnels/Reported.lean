import DatumConnect.Tunnels.Stored
/-!
# What is reported of a write

The summary that an operation returns is put together from what it read before it wrote and
what it wrote; the list is read afresh.
-/

namespace DatumConnect.Tunnels

open DatumConnect.Lib
open DatumConnect.Lib.Prog (Only SafeWhen OnOk)
open DatumConnect.Cloud

/-- What a summary and an entry of the list have to agree in. -/
structure TunnelSummary.Agrees (summary entry : TunnelSummary) : Prop where
  id : summary.id = entry.id
  label : summary.label = entry.label
  endpoint : summary.endpoint = entry.endpoint
  enabled : summary.enabled = entry.enabled
  connectorName : summary.connectorName = entry.connectorName

namespace Ledger

variable {svc : TunnelService} {l t u : Ledger} {projectId tunnelId label endpoint : String}

/-- The operation is on what the list shows as a tunnel. -/
def Write.OnTunnel : Write → Prop
  | .create _ _ => True
  | .update tunnelId _ _ | .retarget tunnelId _ | .setEnabled tunnelId _ =>
      "tunnel-".toList.isPrefixOf tunnelId.toList = true

/-- The connector that the tunnel's proxy references first. -/
def firstConnector (s : Cluster) (tunnelId : String) : Option String :=
  ((s .httpProxy).get? tunnelId).bind fun proxy => HTTPProxy.connectorName proxy.spec

/-- The proxy referenced the connector already that the operation points it at; a retarget
found one; an advertisement that is deleted is gone. -/
def Reports (endpointId : String) (s : Cluster) (t : Ledger) : Write → Prop
  | .create _ _ => True
  | .update tunnelId _ _ | .setEnabled tunnelId true =>
      firstConnector s tunnelId = (owned endpointId s).or t.latest
  | .retarget tunnelId _ => firstConnector s tunnelId ≠ none
  | .setEnabled _ false => t.held = false

/-! ## The list -/

theorem alone_listProject {endpointId : String} :
    Alone endpointId (OnOk fun u tunnels => u = l ∧
        tunnels = (TunnelService.tunnelProxies (l.cluster .httpProxy).objects).map
          (TunnelService.summarize (l.cluster .connectorAdvertisement).objects
            (l.cluster .connector).objects))
      (TunnelService.listProject projectId).run l := by
  refine SafeWhen.bindOk (SafeWhen.bindOk (alone_client.mono fun t r _ hr _ hok => ?_))
  rw [hr _ hok]
  refine SafeWhen.bindOk (alone_listAll.mono fun t r _ hr proxies hok => ?_)
  obtain ⟨rfl, rfl⟩ := hr proxies hok
  refine SafeWhen.bindOk (alone_listAll.mono fun t r _ hr ads hok => ?_)
  obtain ⟨rfl, rfl⟩ := hr ads hok
  refine SafeWhen.bindOk (alone_listAll.mono fun t r _ hr connectors hok => ?_)
  obtain ⟨rfl, rfl⟩ := hr connectors hok
  exact alone_pure (alone_pure ⟨rfl, rfl⟩)

/-- The one entry of a tunnel. -/
theorem entry_iff (ads : List ConnectorAdvertisement) (connectors : List Connector)
    (P : TunnelSummary → Prop) {proxy : HTTPProxy}
    (hproxy : (t.cluster .httpProxy).get? tunnelId = some proxy)
    (htunnel : "tunnel-".toList.isPrefixOf tunnelId.toList = true) :
    (∃ entry ∈ (TunnelService.tunnelProxies (t.cluster .httpProxy).objects).map
        (TunnelService.summarize ads connectors), tunnelId = entry.id ∧ P entry) ↔
      P (TunnelService.summarize ads connectors proxy) := by
  have hname := Table.name_of_get? hproxy
  constructor
  · rintro ⟨entry, hentry, hid, hP⟩
    obtain ⟨proxy', hmem, rfl⟩ := List.mem_map.mp hentry
    have hget := Table.mem_iff.mp (List.mem_of_mem_filter hmem)
    have hid' : tunnelId = proxy'.name := hid
    rw [← hid', hproxy] at hget
    cases hget
    exact hP
  · intro hP
    have hmem : proxy ∈ (t.cluster .httpProxy).objects := by
      rw [Table.mem_iff, hname]
      exact hproxy
    refine ⟨_, List.mem_map_of_mem (List.mem_filter.mpr ⟨hmem, ?_⟩), hname.symm, hP⟩
    rw [hname]
    exact htunnel

theorem any_name {kind : Kind} {name : String} :
    ((t.cluster kind).objects.any fun o => o.name = name) =
      ((t.cluster kind).get? name).isSome := by
  rw [Table.get?, List.isSome_find?]

theorem Connects.name_eq {endpointId connectorName : String}
    (h : Connects endpointId l t connectorName) :
    (owned endpointId l.cluster).or t.latest = some connectorName := by
  cases h with
  | found before after => rw [before, Option.some_or]
  | made before latest fresh there after => rw [before, Option.none_or, latest]

/-! ## The summaries -/

/-- The summary of a tunnel whose proxy is wired agrees with the list in all but the
connector, which the list takes from the proxy. -/
theorem agrees_iff {connectorName : String} {spec : ProxySpec} {enabled : Bool}
    {device name : Option String}
    (hwired : Wired svc t tunnelId label (normalizeEndpoint endpoint) connectorName)
    (hadvertised : ((t.cluster .connectorAdvertisement).get? tunnelId).isSome = enabled)
    (htunnel : "tunnel-".toList.isPrefixOf tunnelId.toList = true) :
    (∃ entry ∈ (TunnelService.tunnelProxies (t.cluster .httpProxy).objects).map
        (TunnelService.summarize (t.cluster .connectorAdvertisement).objects
          (t.cluster .connector).objects),
      (summaryOf spec tunnelId label (normalizeEndpoint endpoint) enabled name device).Agrees
        entry) ↔ name = some connectorName := by
  obtain ⟨proxy, hproxy, hlabel, hrules⟩ := hwired.proxy
  have hname := Table.name_of_get? hproxy
  have hentry := entry_iff (t.cluster .connectorAdvertisement).objects
    (t.cluster .connector).objects (fun entry =>
      (summaryOf spec tunnelId label (normalizeEndpoint endpoint) enabled name device).Agrees
        entry) hproxy htunnel
  constructor
  · rintro ⟨entry, hmem, hagrees⟩
    have h := hentry.mp ⟨entry, hmem, hagrees.id, hagrees⟩
    exact h.connectorName.trans (connectorName_desiredProxyRules hrules)
  · rintro rfl
    have hlabelled : label = HTTPProxy.labelOr proxy.spec proxy.name := by
      rw [HTTPProxy.labelOr, hlabel]
      rfl
    have hendpoint : normalizeEndpoint endpoint =
        normalizeEndpoint ((HTTPProxy.backendEndpoint proxy.spec).getD "") := by
      rw [backendEndpoint_desiredProxyRules hrules, Option.getD_some, normalizeEndpoint_idem]
    have henabled : enabled = (t.cluster .connectorAdvertisement).objects.any
        fun ad => ad.name = proxy.name := by
      rw [← hadvertised, ← any_name, hname]
    obtain ⟨entry, hmem, _, hagrees⟩ := hentry.mpr ⟨hname.symm, hlabelled, hendpoint, henabled,
      (connectorName_desiredProxyRules hrules).symm⟩
    exact ⟨entry, hmem, hagrees⟩

/-- The summary of a tunnel that has been turned off agrees with the list unless the
advertisement is listed still. -/
theorem disabled_agrees_iff {existing : HTTPProxy}
    (hproxy : (t.cluster .httpProxy).get? tunnelId = some existing)
    (htunnel : "tunnel-".toList.isPrefixOf tunnelId.toList = true) :
    (∃ entry ∈ (TunnelService.tunnelProxies (t.cluster .httpProxy).objects).map
        (TunnelService.summarize (t.cluster .connectorAdvertisement).objects
          (t.cluster .connector).objects),
      (summaryOf existing.spec tunnelId (HTTPProxy.labelOr existing.spec tunnelId)
        (normalizeEndpoint ((HTTPProxy.backendEndpoint existing.spec).getD "")) false
        (HTTPProxy.connectorName existing.spec) none).Agrees entry) ↔
      ((t.cluster .connectorAdvertisement).get? tunnelId).isSome = false := by
  have hname := Table.name_of_get? hproxy
  have hentry := entry_iff (t.cluster .connectorAdvertisement).objects
    (t.cluster .connector).objects (fun entry =>
      (summaryOf existing.spec tunnelId (HTTPProxy.labelOr existing.spec tunnelId)
        (normalizeEndpoint ((HTTPProxy.backendEndpoint existing.spec).getD "")) false
        (HTTPProxy.connectorName existing.spec) none).Agrees entry) hproxy htunnel
  have hany : ((t.cluster .connectorAdvertisement).objects.any fun ad => ad.name = existing.name) =
      ((t.cluster .connectorAdvertisement).get? tunnelId).isSome := by
    rw [hname, any_name]
  constructor
  · rintro ⟨entry, hmem, hagrees⟩
    have h := hentry.mp ⟨entry, hmem, hagrees.id, hagrees⟩
    have henabled : false = (t.cluster .connectorAdvertisement).objects.any
        fun ad => ad.name = existing.name := h.enabled
    rw [← hany]
    exact henabled.symm
  · intro hgone
    have hlabelled : HTTPProxy.labelOr existing.spec tunnelId =
        HTTPProxy.labelOr existing.spec existing.name := by
      rw [hname]
    obtain ⟨entry, hmem, _, hagrees⟩ :=
      hentry.mpr ⟨hname.symm, hlabelled, rfl, (hany.trans hgone).symm, rfl⟩
    exact ⟨entry, hmem, hagrees⟩

theorem updated_reports_iff {connectorName : String} {existing : HTTPProxy} {enabled : Bool}
    {summary : TunnelSummary}
    (h : Updated svc l t tunnelId label (normalizeEndpoint endpoint) connectorName existing
      enabled summary)
    (htunnel : "tunnel-".toList.isPrefixOf tunnelId.toList = true) :
    (∃ entry ∈ (TunnelService.tunnelProxies (t.cluster .httpProxy).objects).map
        (TunnelService.summarize (t.cluster .connectorAdvertisement).objects
          (t.cluster .connector).objects), summary.Agrees entry) ↔
      firstConnector l.cluster tunnelId = (owned svc.endpointId l.cluster).or t.latest := by
  rw [h.reported, agrees_iff h.wired h.advertised htunnel, h.connects.name_eq, firstConnector,
    h.was]
  rfl

/-- A summary agrees with the entry of the list exactly where what was read before the write
says the same of the connector, and of the advertisement, as what is there after it. -/
theorem reports_iff (svc : TunnelService) (projectId : String) {write : Write} {s : Cluster}
    {t u : Ledger} {answers answers' : List Answer} {summary : TunnelSummary}
    {tunnels : List TunnelSummary} (htunnel : write.OnTunnel)
    (hanswers : ∀ answer ∈ answers ++ answers', answer.finalized = [])
    (hwrite : Prog.exec (handle svc.endpointId) { cluster := s } answers
      (write.run svc projectId).run = (t, some (.ok summary)))
    (hlist : Prog.exec (handle svc.endpointId) t answers'
      (TunnelService.listProject projectId).run = (u, some (.ok tunnels))) :
    (∃ entry ∈ tunnels, summary.Agrees entry) ↔ Reports svc.endpointId s t write := by
  have hanswers₁ : ∀ answer ∈ answers, answer.finalized = [] :=
    fun answer ha => hanswers answer (List.mem_append_left _ ha)
  have hanswers₂ : ∀ answer ∈ answers', answer.finalized = [] :=
    fun answer ha => hanswers answer (List.mem_append_right _ ha)
  obtain ⟨_, rfl⟩ := exec_alone alone_listProject hanswers₂ hlist
  cases write with
  | create label endpoint =>
      obtain ⟨tunnelId, connectorName, spec, device, h, rfl⟩ :=
        exec_alone (alone_createProject svc projectId label endpoint) hanswers₁ hwrite
      rw [agrees_iff h.wired h.advertised h.tunnel]
      exact iff_of_true rfl trivial
  | update tunnelId label endpoint =>
      obtain ⟨connectorName, existing, enabled, h⟩ :=
        exec_alone (alone_updateProject svc projectId tunnelId label endpoint) hanswers₁ hwrite
      exact updated_reports_iff h htunnel
  | retarget tunnelId endpoint =>
      obtain ⟨connectorName, existing, enabled, h⟩ :=
        exec_alone (alone_retargetProject svc projectId tunnelId endpoint) hanswers₁ hwrite
      rcases h with h | ⟨hnone, h⟩
      · have hfirst : firstConnector s tunnelId = some connectorName := by
          rw [firstConnector, show (s .httpProxy).get? tunnelId = some existing from h.was]
          exact h.keeps
        rw [h.reported, agrees_iff h.wired h.advertised htunnel]
        exact iff_of_true h.keeps (by simp [Reports, hfirst])
      · have hfirst : firstConnector s tunnelId = none := by
          rw [firstConnector, show (s .httpProxy).get? tunnelId = some existing from h.was]
          exact hnone
        rw [h.reported, agrees_iff h.wired h.advertised htunnel, hnone]
        exact iff_of_false (by simp) (by simp [Reports, hfirst])
  | setEnabled tunnelId enabled =>
      cases enabled with
      | true =>
          obtain ⟨connectorName, existing, h, _⟩ :=
            exec_alone (alone_setEnabled_true svc projectId tunnelId) hanswers₁ hwrite
          exact updated_reports_iff h htunnel
      | false =>
          obtain ⟨existing, hwas, hsame, hgone, rfl⟩ :=
            exec_alone (alone_setEnabled_false svc projectId tunnelId rfl) hanswers₁ hwrite
          have hproxy : (t.cluster .httpProxy).get? tunnelId = some existing := by
            rw [hsame.others .httpProxy (by decide)]
            exact hwas
          rw [disabled_agrees_iff hproxy htunnel, hgone]
          rfl

theorem reports_iff_create :
    let written := Prog.exec (handle "key") { cluster := Cluster.empty } (List.replicate 12 {})
      ((Write.create "web" "h:1").run Workshop.nodeService "p").run
    let listed := Prog.exec (handle "key") written.1 (List.replicate 4 {})
      (TunnelService.listProject "p").run
    ∃ summary tunnels, written.2 = some (.ok summary) ∧ listed.2 = some (.ok tunnels) ∧
      ((∃ entry ∈ tunnels, summary.Agrees entry) ↔
        Reports "key" Cluster.empty written.1 (.create "web" "h:1")) :=
  have hanswers : ∀ answer ∈ List.replicate 12 ({} : Answer) ++ List.replicate 4 ({} : Answer),
      answer.finalized = [] := by decide
  have htunnel : (Write.create "web" "h:1").OnTunnel := trivial
  ⟨_, _, rfl, rfl, reports_iff Workshop.nodeService "p" htunnel hanswers (Prod.ext rfl rfl)
    (Prod.ext rfl rfl)⟩

/-- The proxy references the connector once it is updated, and the summary says it references
none. -/
theorem update_reports_none :
    let written := Prog.exec (handle "key") { cluster := bareProject } (List.replicate 10 {})
      ((Write.update "tunnel-a" "web" "h:1").run Workshop.nodeService "p").run
    let listed := Prog.exec (handle "key") written.1 (List.replicate 4 {})
      (TunnelService.listProject "p").run
    (written.2.bind Except.toOption).map (fun summary => (summary.id, summary.connectorName)) =
        some ("tunnel-a", none) ∧
      (listed.2.bind Except.toOption).map (List.map fun entry => (entry.id, entry.connectorName)) =
        some [("tunnel-a", some "c")] := by
  decide +kernel

end Ledger

end DatumConnect.Tunnels
