import DatumConnect.Tunnels.Footprint
import DatumConnect.Tunnels.Stored
/-!
# Retargeting keeps the connector

`retarget_project` changes where a tunnel leads to, on a project that nothing else changes: what it
leaves of the proxy, the advertisement and the connectors, and which calls it makes.
-/

namespace DatumConnect.Tunnels

open DatumConnect.Lib
open DatumConnect.Lib.Prog (Only SafeWhen OnOk)
open DatumConnect.Cloud

/-- A ledger, and the calls that have been made. -/
structure Audited where
  ledger : Ledger
  calls : List Call := []

namespace Audited

variable {α : Type} {endpointId : String} {w : Audited}

def handle (endpointId : String) (w : Audited) (c : Call) (answer : Answer) : Audited × c.Reply :=
  ({ ledger := (w.ledger.handle endpointId c answer).1, calls := w.calls ++ [c] },
    (w.ledger.handle endpointId c answer).2)

/-- What a computation comes to where nothing else changes the project. -/
abbrev Alone (endpointId : String) (post : Audited → α → Prop) (p : Svc α) (w : Audited) : Prop :=
  SafeWhen (handle endpointId) (fun _ _ answer => answer.finalized = []) (fun _ => True) post p w

/-- The calls made since are all of this kind. -/
def Made (K : Call → Prop) (w t : Audited) : Prop :=
  ∃ more, t.calls = w.calls ++ more ∧ ∀ c ∈ more, K c

theorem Made.refl (K : Call → Prop) (w : Audited) : Made K w w :=
  ⟨[], (List.append_nil _).symm, nofun⟩

theorem Made.trans {K : Call → Prop} {t u : Audited} (h : Made K w t) (h' : Made K t u) :
    Made K w u := by
  obtain ⟨more, hmore, hall⟩ := h
  obtain ⟨more', hmore', hall'⟩ := h'
  refine ⟨more ++ more', ?_, List.forall_mem_append.mpr ⟨hall, hall'⟩⟩
  rw [hmore', hmore, List.append_assoc]

/-- What is known of the ledger, and of the calls. -/
theorem alone_of {K : Call → Prop} {post : Ledger → α → Prop} {p : Svc α}
    (h : Ledger.Alone endpointId post p w.ledger) (hcalls : Only K p) :
    Alone endpointId (fun t a => post t.ledger a ∧ Made K w t) p w := by
  induction p generalizing w with
  | ret a => exact ⟨trivial, h.2, Made.refl K w⟩
  | call c k ih =>
      refine ⟨trivial, fun answer hfinalized => ?_⟩
      have hafter : Made K w (handle endpointId w c answer).1 :=
        ⟨[c], rfl, List.forall_mem_singleton.mpr hcalls.1⟩
      refine (ih _ (h.2 answer hfinalized) (hcalls.2 _)).mono fun t a _ ht => ?_
      exact ⟨ht.1, hafter.trans ht.2⟩

/-- The same for a part that can fail, where it does not. -/
theorem aloneOk_of {ε : Type} {K : Call → Prop} {post : Ledger → α → Prop} {p : Svc (Except ε α)}
    (h : Ledger.Alone endpointId (OnOk post) p w.ledger) (hcalls : Only K p) :
    Alone endpointId (OnOk fun t a => post t.ledger a ∧ Made K w t) p w :=
  (alone_of h hcalls).mono fun _ _ _ ht a ha => ⟨ht.1 a ha, ht.2⟩

end Audited

/-! ## What is left -/

/-- The backends of the rules a service writes all lead to the one place. -/
theorem backends_desiredProxyRules {endpoint connectorName : String}
    {wafExemptMatches : Option (List RouteMatch)} {rule : ProxyRule} {backend : Backend}
    (hrule : rule ∈ desiredProxyRules endpoint connectorName wafExemptMatches)
    (hbackend : backend ∈ rule.backends.getD []) :
    backend.endpoint = endpoint ∧ backend.connector = some connectorName := by
  have hone : ∀ b ∈ (rule.backends.getD []), b = { endpoint, connector := some connectorName } := by
    unfold desiredProxyRules at hrule
    split at hrule
    · simp only [List.mem_cons, List.not_mem_nil, or_false] at hrule
      rcases hrule with rfl | rfl | rfl <;> simp [httpsRedirectRule, proxyRule]
    · simp only [List.mem_cons, List.not_mem_nil, or_false] at hrule
      rcases hrule with rfl | rfl <;> simp [httpsRedirectRule, proxyRule]
  rw [hone backend hbackend]
  exact ⟨rfl, rfl⟩

namespace Ledger

variable {endpointId tunnelId label context : String} {l : Ledger}

/-- A patch of a proxy writes the hostnames that it was read with. -/
theorem alone_patchProxy_hostnames {existing : HTTPProxy} {rules : List ProxyRule}
    (hthere : (l.cluster .httpProxy).get? tunnelId = some existing) :
    Alone endpointId (OnOk fun t written => ProxyWritten l t tunnelId label rules existing written ∧
        written.spec.hostnames.getD [] = existing.spec.hostnames.getD [])
      (TunnelService.patchProxy tunnelId existing label rules context).run l := by
  have hhostnames : Alone endpointId (OnOk fun _ written =>
        written.spec.hostnames.getD [] = existing.spec.hostnames.getD [])
      (TunnelService.patchProxy tunnelId existing label rules context).run l := by
    unfold TunnelService.patchProxy
    split
    · exact alone_pure rfl
    · refine alone_mapError (alone_call (c := .patch .httpProxy tunnelId
        (.proxy label (existing.spec.hostnames.getD []) rules)) fun answer written hreply => ?_)
      have hpatched := (Cluster.replying_ok hreply).2
      unfold Cluster.patch at hpatched
      rw [hthere] at hpatched
      cases hpatched
      rfl
  refine (((alone_patchProxy hthere).both hhostnames).weaken fun _ _ => trivial).mono ?_
  intro t r _ hr written hok
  exact ⟨hr.1 written hok, hr.2 written hok⟩

end Ledger

/-- The proxy leads to the endpoint, by the connectors that it named. -/
structure KeepsProxy (tunnelId endpoint : String) (before after : ProxySpec) : Prop where
  endpoints : ∀ rule ∈ after.rules, ∀ backend ∈ rule.backends.getD [], backend.endpoint = endpoint
  connected : ∀ rule ∈ after.rules, ∀ backend ∈ rule.backends.getD [],
    backend.connector.isSome = true
  connectors : ∀ name, name ∈ HTTPProxy.connectors after ↔ name ∈ HTTPProxy.connectors before
  label : HTTPProxy.labelOr after tunnelId = HTTPProxy.labelOr before tunnelId
  hostnames : after.hostnames.getD [] = before.hostnames.getD []

/-- The advertisement names the connector that it named, if it is there, and no connector was
written. -/
structure KeepsOthers (tunnelId : String) (l : Ledger) (t : Audited) : Prop where
  advertisement : ((t.ledger.cluster .connectorAdvertisement).get? tunnelId).map
      (fun ad => ad.spec.connectorRef) =
    ((l.cluster .connectorAdvertisement).get? tunnelId).map fun ad => ad.spec.connectorRef
  connectors : t.ledger.cluster .connector = l.cluster .connector
  calls : ∀ c ∈ t.calls, writtenKind c ≠ some .connector

/-- The tunnel leads to another place by the same connectors. -/
def KeepsConnector (tunnelId endpoint : String) (l : Ledger) (t : Audited) : Prop :=
  (∃ before after, (l.cluster .httpProxy).get? tunnelId = some before ∧
    (t.ledger.cluster .httpProxy).get? tunnelId = some after ∧
    KeepsProxy tunnelId endpoint before.spec after.spec) ∧
  KeepsOthers tunnelId l t

/-- What is written of a proxy that names a connector: the rules lead there by the first one. -/
structure Rewired (svc : TunnelService) (tunnelId endpoint connectorName : String)
    (before after : ProxySpec) : Prop where
  rules : after.rules = desiredProxyRules endpoint connectorName svc.wafExemptMatches
  label : after.label = some (HTTPProxy.labelOr before tunnelId)
  hostnames : after.hostnames.getD [] = before.hostnames.getD []

theorem Rewired.keeps_iff {svc : TunnelService} {tunnelId endpoint connectorName : String}
    {before after : ProxySpec} (h : Rewired svc tunnelId endpoint connectorName before after)
    (hname : HTTPProxy.connectorName before = some connectorName) :
    KeepsProxy tunnelId endpoint before after ↔
      ∀ name ∈ HTTPProxy.connectors before, name = connectorName := by
  have hbackends : ∀ rule ∈ after.rules, ∀ backend ∈ rule.backends.getD [],
      backend.endpoint = endpoint ∧ backend.connector = some connectorName := by
    rw [h.rules]
    exact fun rule hrule backend hbackend => backends_desiredProxyRules hrule hbackend
  have hafter : ∀ name, name ∈ HTTPProxy.connectors after ↔ name = connectorName := by
    intro name
    have hthere := connectorName_desiredProxyRules h.rules
    rw [HTTPProxy.connectorName_eq_head?] at hthere
    refine ⟨fun hmem => ?_, ?_⟩
    · rw [HTTPProxy.connectors, h.rules] at hmem
      exact connectorsOf_desiredProxyRules name hmem
    · rintro rfl
      exact List.mem_of_mem_head? hthere
  have hbefore : connectorName ∈ HTTPProxy.connectors before := by
    rw [HTTPProxy.connectorName_eq_head?] at hname
    exact List.mem_of_mem_head? hname
  refine ⟨fun hkeeps name hmem => (hafter name).mp ((hkeeps.connectors name).mpr hmem),
    fun hone => ⟨?_, ?_, fun name => ?_, ?_, h.hostnames⟩⟩
  · exact fun rule hrule backend hbackend => (hbackends rule hrule backend hbackend).1
  · intro rule hrule backend hbackend
    rw [(hbackends rule hrule backend hbackend).2]
    rfl
  · rw [hafter]
    exact ⟨fun heq => heq ▸ hbefore, hone name⟩
  · rw [HTTPProxy.labelOr, h.label]
    rfl

/-! ## A run -/

/-- No connector is written. -/
abbrev LeavesConnectors (c : Call) : Prop := writtenKind c ≠ some .connector

theorem leaves_of {α : Type} {p : Svc α} (kinds : List Kind) (h : Only (Writes kinds) p)
    (hkinds : .connector ∉ kinds) : Only LeavesConnectors p := by
  apply h.mono
  intro c hc hwritten
  exact hkinds (hc .connector hwritten)

/-- Where it succeeds, the proxy is rewired, and the rest is kept. -/
def Retargets (svc : TunnelService) (tunnelId endpoint connectorName : String)
    (existing : HTTPProxy) (l : Ledger) (t : Audited) : Prop :=
  (∃ after, (t.ledger.cluster .httpProxy).get? tunnelId = some after ∧
    Rewired svc tunnelId endpoint connectorName existing.spec after.spec) ∧
  KeepsOthers tunnelId l t

namespace Audited

variable {svc : TunnelService} {projectId tunnelId endpoint connectorName : String} {l : Ledger}
  {existing : HTTPProxy}

theorem alone_retargetProject (hthere : (l.cluster .httpProxy).get? tunnelId = some existing)
    (hname : HTTPProxy.connectorName existing.spec = some connectorName) :
    Alone svc.endpointId (OnOk fun t _ =>
        Retargets svc tunnelId (normalizeEndpoint endpoint) connectorName existing l t)
      (svc.retargetProject projectId tunnelId endpoint).run { ledger := l } := by
  refine SafeWhen.bindOk ((aloneOk_of Ledger.alone_ofExcept
    (leaves_of [] Writes.ofExcept List.not_mem_nil)).mono fun t₁ r _ hr target hok => ?_)
  obtain ⟨⟨hledger₁, _⟩, hmade₁⟩ := hr target hok
  refine SafeWhen.bindOk ((aloneOk_of Ledger.alone_client
    (leaves_of [] (Writes.client projectId) List.not_mem_nil)).mono fun t₂ r _ hr _ hok => ?_)
  obtain ⟨hledger₂, hmade₂⟩ := hr _ hok
  refine SafeWhen.bindOk ((aloneOk_of Ledger.alone_get (leaves_of []
    (Writes.mapError (Only.perform (Writes.of_none rfl))) List.not_mem_nil)).mono
      fun t₃ r _ hr found hok => ?_)
  obtain ⟨⟨hledger₃, hfound⟩, hmade₃⟩ := hr found hok
  have hledger : t₃.ledger = l := hledger₃.trans (hledger₂.trans hledger₁)
  have hexisting : found = existing := by
    rw [hledger₂, hledger₁, hthere] at hfound
    exact (Option.some.inj hfound).symm
  rw [hexisting]
  simp only [retargetProxyRules, hname, Option.map_some]
  rw [← hledger] at hthere
  refine SafeWhen.bindOk ((aloneOk_of (Ledger.alone_patchProxy_hostnames hthere)
    (leaves_of [.httpProxy] (Writes.patchProxy (List.mem_singleton_self _)) (by decide))).mono
      fun t₄ r _ hr written hok => ?_)
  obtain ⟨⟨hproxy, hhostnames⟩, hmade₄⟩ := hr written hok
  refine SafeWhen.bindOk ((aloneOk_of Ledger.alone_patchAdvertisement
    (leaves_of [.connectorAdvertisement] (Writes.patchAdvertisement (List.mem_singleton_self _))
      (by decide))).mono fun t₅ r _ hr enabled hok => ?_)
  obtain ⟨⟨had, _⟩, hmade₅⟩ := hr enabled hok
  refine SafeWhen.bindOk ((aloneOk_of (Ledger.alone_lift (Ledger.alone_only
    (Ledger.only_storeProxyState svc _))) (leaves_of [] (Writes.lift (Writes.storeProxyState svc _))
      List.not_mem_nil)).mono fun t₆ r _ hr _ hok => ?_)
  obtain ⟨hledger₆, hmade₆⟩ := hr _ hok
  have hkept : t₆.ledger.cluster .httpProxy = t₄.ledger.cluster .httpProxy := by
    rw [hledger₆]
    exact had.same.others .httpProxy (by decide)
  have hads : t₄.ledger.cluster .connectorAdvertisement = l.cluster .connectorAdvertisement := by
    rw [hproxy.same.others .connectorAdvertisement (by decide), hledger]
  have hmade := hmade₁.trans (hmade₂.trans (hmade₃.trans (hmade₄.trans (hmade₅.trans hmade₆))))
  refine ⟨trivial, fun _ hsummary => ?_⟩
  cases hsummary
  refine ⟨⟨written, ?_, hproxy.ruled, hproxy.labelled, hhostnames⟩, ?_, ?_, ?_⟩
  · rw [hkept]
    exact hproxy.there
  · rw [hledger₆, had.there, hads, Option.map_map]
    rfl
  · rw [hledger₆, had.same.others .connector (by decide),
      hproxy.same.others .connector (by decide), hledger]
  · obtain ⟨more, hmore, hall⟩ := hmade
    intro c hc
    rw [hmore] at hc
    exact hall c hc

end Audited

/-- A retarget that succeeds keeps the connectors exactly where the proxy named one only. -/
theorem retargetProject_keeps_iff (svc : TunnelService) (projectId tunnelId endpoint : String)
    {l : Ledger} {t : Audited} {before : HTTPProxy} {answers : List Answer}
    {summary : TunnelSummary}
    (hthere : (l.cluster .httpProxy).get? tunnelId = some before)
    (hreferences : HTTPProxy.connectors before.spec ≠ [])
    (hanswers : ∀ answer ∈ answers, answer.finalized = [])
    (hrun : Prog.exec (Audited.handle svc.endpointId) { ledger := l } answers
      (svc.retargetProject projectId tunnelId endpoint).run = (t, some (.ok summary))) :
    KeepsConnector tunnelId (normalizeEndpoint endpoint) l t ↔
      ∀ name ∈ HTTPProxy.connectors before.spec,
        ∀ name' ∈ HTTPProxy.connectors before.spec, name = name' := by
  obtain ⟨first, hfirst⟩ := Option.ne_none_iff_exists'.mp (mt List.head?_eq_none_iff.mp hreferences)
  have hname : HTTPProxy.connectorName before.spec = some first := by
    rw [HTTPProxy.connectorName_eq_head?]
    exact hfirst
  have hmem : first ∈ HTTPProxy.connectors before.spec := List.mem_of_mem_head? hfirst
  have halone : Audited.Alone svc.endpointId (OnOk fun t _ =>
        Retargets svc tunnelId (normalizeEndpoint endpoint) first before l t)
      (svc.retargetProject projectId tunnelId endpoint).run { ledger := l } :=
    Audited.alone_retargetProject hthere hname
  have hpost := (halone.exec (Prog.Answered.of_mem hanswers)).2 (.ok summary) (by rw [hrun])
  rw [hrun] at hpost
  obtain ⟨⟨after, hafter, hrewired⟩, hothers⟩ := hpost summary rfl
  constructor
  · rintro ⟨⟨before', after', hbefore', hafter', hkeeps⟩, _⟩ name hmem₁ name' hmem₂
    cases hthere.symm.trans hbefore'
    cases hafter.symm.trans hafter'
    have hone := (hrewired.keeps_iff hname).mp hkeeps
    exact (hone name hmem₁).trans (hone name' hmem₂).symm
  · intro hsame
    refine ⟨⟨before, after, hthere, hafter, (hrewired.keeps_iff hname).mpr ?_⟩, hothers⟩
    exact fun name hmem₁ => hsame name hmem₁ first hmem

/-- A proxy whose two backends go by these connectors. -/
def forkedProxy (left right : String) : ProxySpec where
  label := some "web"
  hostnames := some ["web.example"]
  rules := [{
    name := none
    routes := []
    filters := none
    backends := some [
      { endpoint := "http://h:1", connector := some left },
      { endpoint := "http://h:2", connector := some right }] }]

def forkedProject (left right : String) : Ledger where
  cluster := (Cluster.empty.create .httpProxy "tunnel-a" (forkedProxy left right)).1

def forkedRun (left right : String) : Audited × Option (Except Error TunnelSummary) :=
  Prog.exec (Audited.handle "key") { ledger := forkedProject left right } (List.replicate 8 {})
    (Workshop.nodeService.retargetProject "p" "tunnel-a" "h:3").run

theorem retargetProject_keeps_joined :
    KeepsConnector "tunnel-a" (normalizeEndpoint "h:3") (forkedProject "c" "c")
        (forkedRun "c" "c").1 ↔
      ∀ name ∈ HTTPProxy.connectors (forkedProxy "c" "c"),
        ∀ name' ∈ HTTPProxy.connectors (forkedProxy "c" "c"), name = name' :=
  have hthere : ((forkedProject "c" "c").cluster .httpProxy).get? "tunnel-a" =
      some { name := "tunnel-a", spec := forkedProxy "c" "c" } := rfl
  have hreferences : HTTPProxy.connectors (forkedProxy "c" "c") ≠ [] := by decide
  have hanswers : ∀ answer ∈ List.replicate 8 ({} : Answer), answer.finalized = [] := by decide
  retargetProject_keeps_iff Workshop.nodeService "p" "tunnel-a" "h:3" hthere hreferences hanswers
    (Prod.ext rfl rfl)

/-- The second backend moves to the connector of the first. -/
theorem retarget_moves_backend :
    (forkedRun "c" "d").2.any Except.isOk = true ∧
      ((forkedProject "c" "d").cluster .httpProxy).objects.map
        (fun proxy => HTTPProxy.connectors proxy.spec) = [["c", "d"]] ∧
      ((forkedRun "c" "d").1.ledger.cluster .httpProxy).objects.map
        (fun proxy => HTTPProxy.connectors proxy.spec) = [["c"]] := by
  decide +kernel

end DatumConnect.Tunnels
