import DatumConnect.Tunnels.Ledger
/-!
# What a write leaves of a tunnel

Each operation that writes a tunnel, on a project that nothing else changes: the proxy and
the advertisement it leaves, the connector it went by, and what it returns.
-/

namespace DatumConnect.Tunnels

open DatumConnect.Lib
open DatumConnect.Lib.Prog (Only SafeWhen OnOk)
open DatumConnect.Cloud

namespace Ledger

variable {svc : TunnelService} {l t u : Ledger} {α : Type}
  {projectId tunnelId label endpoint connectorName : String} {target : ParsedTarget}

/-- The same but for the objects of one kind. -/
structure Same (kind : Kind) (l t : Ledger) : Prop where
  others : ∀ kind', kind' ≠ kind → t.cluster kind' = l.cluster kind'
  latest : t.latest = l.latest

theorem Same.refl (kind : Kind) (l : Ledger) : Same kind l l := ⟨fun _ _ => rfl, rfl⟩

theorem same_patch {kind : Kind} {name : String} {patch : Patch kind} {answer : Answer}
    {endpointId : String} (hkind : kind ≠ .connector) :
    Same kind l (serve endpointId l answer (.patch kind name patch)).1 := by
  constructor
  · intro kind' hkind'
    show (l.cluster.serve (Workshop.ofNode endpointId answer) (.patch kind name patch)).1 kind' =
      l.cluster kind'
    apply Workshop.serve_kind
    intro heq
    exact hkind' (Option.some.inj heq).symm
  · show l.latestAfter answer (.patch kind name patch) = l.latest
    apply latestAfter_of_kind
    intro heq
    exact hkind (Option.some.inj heq)

/-- A connector is connected as long as the connectors and the last of them stay. -/
theorem Connects.after {endpointId : String} {kind : Kind}
    (h : Connects endpointId l t connectorName) (hsame : Same kind t u)
    (hkind : kind ≠ .connector) : Connects endpointId l u connectorName := by
  have hconnectors := hsame.others .connector (Ne.symm hkind)
  have howned : owned endpointId u.cluster = owned endpointId t.cluster := by
    unfold owned
    rw [hconnectors]
  cases h with
  | found before after => exact .found before (howned.trans after)
  | made before latest fresh there after =>
      refine .made before (hsame.latest.trans latest) fresh ?_ ?_
      · rw [hconnectors]
        exact there
      · rw [howned]
        exact after

/-! ## The proxy -/

structure ProxyWritten (l t : Ledger) (tunnelId label : String) (rules : List ProxyRule)
    (existing written : HTTPProxy) : Prop where
  same : Same .httpProxy l t
  there : (t.cluster .httpProxy).get? tunnelId = some written
  labelled : written.spec.label = some label
  ruled : written.spec.rules = rules
  writes : l.writes ≤ t.writes
  patched : HTTPProxy.specMatches existing.spec label rules = false → l.writes < t.writes

theorem alone_patchProxy {endpointId context : String} {existing : HTTPProxy}
    {rules : List ProxyRule} (hthere : (l.cluster .httpProxy).get? tunnelId = some existing) :
    Alone endpointId (OnOk fun t written =>
        ProxyWritten l t tunnelId label rules existing written)
      (TunnelService.patchProxy tunnelId existing label rules context).run l := by
  unfold TunnelService.patchProxy
  split
  · rename_i hmatches
    have hspec : existing.spec.label = some label ∧ existing.spec.rules = rules := by
      simpa [HTTPProxy.specMatches] using hmatches
    refine alone_pure ⟨.refl _ _, hthere, hspec.1, hspec.2, Nat.le_refl _, fun hno => ?_⟩
    rw [hmatches] at hno
    cases hno
  · let patch := Patch.proxy label (existing.spec.hostnames.getD []) rules
    refine alone_mapError (alone_call (c := .patch .httpProxy tunnelId patch)
      fun answer written hreply => ?_)
    obtain ⟨hlanded, hpatched⟩ := Cluster.replying_ok hreply
    have hwritten : written = { existing with spec := patch.merge existing.spec } := by
      have hpatched' : (l.cluster.patch .httpProxy tunnelId patch).2 = .ok written := hpatched
      unfold Cluster.patch at hpatched'
      rw [hthere] at hpatched'
      cases hpatched'
      rfl
    have hlanded' : answer.landed = true := hlanded
    refine ⟨same_patch (by decide), ?_, ?_, ?_, ?_, fun _ => ?_⟩
    · rw [serve_patch_cluster, if_pos hlanded', Cluster.get?_patch, if_pos rfl, hthere, hwritten]
      rfl
    · rw [hwritten]
      rfl
    · rw [hwritten]
      rfl
    · exact Nat.le_succ _
    · exact Nat.lt_succ_self _

/-! ## The advertisement -/

structure AdWritten (desired : AdvertisementSpec → AdvertisementSpec) (l t : Ledger)
    (tunnelId : String) : Prop where
  same : Same .connectorAdvertisement l t
  there : (t.cluster .connectorAdvertisement).get? tunnelId =
    ((l.cluster .connectorAdvertisement).get? tunnelId).map fun ad =>
      { ad with spec := desired ad.spec }
  writes : l.writes ≤ t.writes

theorem alone_patchAdvertisement {endpointId context : String}
    {desired : AdvertisementSpec → AdvertisementSpec} :
    Alone endpointId (OnOk fun t enabled => AdWritten desired l t tunnelId ∧
        enabled = ((l.cluster .connectorAdvertisement).get? tunnelId).isSome)
      (TunnelService.patchAdvertisement tunnelId desired context).run l := by
  refine SafeWhen.bindOk (alone_getOpt.mono fun t r _ hr existing hexisting => ?_)
  obtain ⟨rfl, hget⟩ := hr existing hexisting
  cases existing with
  | none =>
      refine alone_pure ⟨⟨.refl _ _, ?_, Nat.le_refl _⟩, ?_⟩
      · rw [← hget]
        rfl
      · rw [← hget]
        rfl
  | some ad =>
      simp only
      split
      · rename_i hsame
        refine alone_pure ⟨⟨.refl _ _, ?_, Nat.le_refl _⟩, ?_⟩
        · rw [← hget, Option.map_some, ← hsame]
        · rw [← hget]
          rfl
      · let patch := Patch.advertisement (desired ad.spec)
        refine SafeWhen.bindOk (alone_mapError (alone_call
          (c := .patch .connectorAdvertisement tunnelId patch) fun answer written hreply => ?_))
        have hlanded : answer.landed = true := (Cluster.replying_ok hreply).1
        refine alone_pure ⟨⟨same_patch (by decide), ?_, Nat.le_succ _⟩, ?_⟩
        · rw [serve_patch_cluster, if_pos hlanded, Cluster.get?_patch, if_pos rfl, ← hget]
          rfl
        · rw [← hget]
          rfl

theorem alone_writeAdvertisement {endpointId : String} {adSpec : AdvertisementSpec} :
    Alone endpointId (OnOk fun t _ => Same .connectorAdvertisement l t ∧
        (∃ ad, (t.cluster .connectorAdvertisement).get? tunnelId = some ad ∧ ad.spec = adSpec) ∧
        l.writes < t.writes)
      (TunnelService.writeAdvertisement tunnelId adSpec).run l := by
  refine SafeWhen.bindOk (alone_getOpt.mono fun t r _ hr existing hexisting => ?_)
  obtain ⟨rfl, hget⟩ := hr existing hexisting
  cases existing with
  | none =>
      refine SafeWhen.bindOk (alone_mapError (alone_createRetried.mono fun u r _ hr ad had => ?_))
      have hmade := hr ad had
      obtain ⟨suffix, hname⟩ := hmade.named
      have hname' : ad.name = tunnelId := hname
      refine alone_pure ⟨⟨hmade.grown.others, hmade.grown.latest (by decide)⟩, ⟨ad, ?_, ?_⟩, ?_⟩
      · rw [← hname']
        exact hmade.there
      · exact hmade.specified
      · exact hmade.written rfl
  | some ad =>
      let patch := Patch.advertisement adSpec
      refine SafeWhen.bindOk (alone_mapError (alone_call
        (c := .patch .connectorAdvertisement tunnelId patch) fun answer written hreply => ?_))
      have hlanded : answer.landed = true := (Cluster.replying_ok hreply).1
      refine alone_pure ⟨same_patch (by decide), ⟨{ ad with spec := adSpec }, ?_, rfl⟩,
        Nat.lt_succ_self _⟩
      rw [serve_patch_cluster, if_pos hlanded, Cluster.get?_patch, if_pos rfl, ← hget]
      rfl

/-- Where every delete removes, the advertisement is gone; where one is held back, it was
this one. -/
theorem alone_deleteAdvertisement {endpointId : String} (hheld : l.held = false) :
    Alone endpointId (OnOk fun t _ => Same .connectorAdvertisement l t ∧
        ((t.cluster .connectorAdvertisement).get? tunnelId).isSome = t.held)
      (deleteAdvertisement tunnelId).run l := by
  refine SafeWhen.bindOk (alone_getOpt.mono fun t r _ hr existing hexisting => ?_)
  obtain ⟨rfl, hget⟩ := hr existing hexisting
  cases existing with
  | none =>
      refine alone_pure ⟨.refl _ _, ?_⟩
      rw [← hget, hheld]
      rfl
  | some ad =>
      refine SafeWhen.bindOk (alone_mapError (alone_call
        (c := .delete .connectorAdvertisement tunnelId) fun answer gone hreply => ?_))
      have hlanded : answer.landed = true := (Cluster.replying_ok hreply).1
      have hcluster : (serve endpointId t answer
          (.delete .connectorAdvertisement tunnelId)).1.cluster =
            (t.cluster.delete .connectorAdvertisement tunnelId answer.mark).1 := by
        show (t.cluster.replying answer.outcome _).1 = _
        rw [Cluster.replying_landed, if_pos hlanded]
        rfl
      refine alone_pure ⟨⟨fun kind hkind => ?_, ?_⟩, ?_⟩
      · rw [hcluster]
        unfold Cluster.delete
        split
        · rfl
        · exact Cluster.set_of_ne _ _ hkind
      · show t.latestAfter answer (.delete .connectorAdvertisement tunnelId) = t.latest
        exact latestAfter_of_kind (by simp [writtenKind])
      · show _ = (t.held || (answer.landed && answer.mark))
        rw [hcluster, Cluster.get?_delete, if_pos rfl, ← hget, hheld, hlanded]
        cases answer.mark <;> rfl

/-! ## Whole operations -/

/-- The proxy has the rules of the connector, and the advertisement the target. -/
structure Wired (svc : TunnelService) (t : Ledger)
    (tunnelId label endpoint connectorName : String) : Prop where
  proxy : ∃ proxy, (t.cluster .httpProxy).get? tunnelId = some proxy ∧
    proxy.spec.label = some label ∧
    proxy.spec.rules = desiredProxyRules endpoint connectorName svc.wafExemptMatches
  ad : ∀ ad, (t.cluster .connectorAdvertisement).get? tunnelId = some ad →
    ∃ target, parseTarget svc.parseUrl endpoint = .ok target ∧
      ad.spec = advertisementSpec ad.spec.connectorRef target

/-- What `update_project` leaves, and `set_enabled_project` where it enables. -/
structure Updated (svc : TunnelService) (l t : Ledger)
    (tunnelId label endpoint connectorName : String) (existing : HTTPProxy) (enabled : Bool)
    (summary : TunnelSummary) : Prop where
  connects : Connects svc.endpointId l t connectorName
  was : (l.cluster .httpProxy).get? tunnelId = some existing
  wired : Wired svc t tunnelId label endpoint connectorName
  named : ∀ ad, (t.cluster .connectorAdvertisement).get? tunnelId = some ad →
    ad.spec.connectorRef = connectorName
  advertised : ((t.cluster .connectorAdvertisement).get? tunnelId).isSome = enabled
  patched : HTTPProxy.specMatches existing.spec label
    (desiredProxyRules endpoint connectorName svc.wafExemptMatches) = false → l.writes < t.writes
  reported : summary = summaryOf existing.spec tunnelId label endpoint enabled
    (HTTPProxy.connectorName existing.spec) none

theorem only_storeProxyState (svc : TunnelService) (summary : TunnelSummary) :
    Only (fun c => writtenKind c = none) (svc.storeProxyState summary) := by
  unfold TunnelService.storeProxyState
  split
  · exact Only.ret _
  · split
    · exact Only.ret _
    · exact Only.bind (Only.perform rfl) fun _ => Only.ret _

theorem alone_ensured (svc : TunnelService) (projectId : String) :
    Alone svc.endpointId (OnOk fun t connector =>
        Alike l t ∧ Connects svc.endpointId l t connector.name)
      (svc.ensureConnector projectId).run l := by
  have halike : Only OfConnector (svc.ensureConnector projectId).run :=
    Makes.ensureConnector svc projectId connecting_ofConnector
  refine (((alike_only halike).both (alone_ensureConnector svc projectId)).weaken
    fun _ _ => trivial).mono fun t r _ hr connector hconnector => ?_
  exact ⟨hr.1, hr.2 connector hconnector⟩

theorem alone_updateProject (svc : TunnelService) (projectId tunnelId label endpoint : String) :
    Alone svc.endpointId (OnOk fun t summary => ∃ connectorName existing enabled,
        Updated svc l t tunnelId label (normalizeEndpoint endpoint) connectorName existing enabled
          summary)
      (svc.updateProject projectId tunnelId label endpoint).run l := by
  refine SafeWhen.bindOk (alone_ofExcept.mono fun t r _ hr target htarget => ?_)
  obtain ⟨rfl, hparsed⟩ := hr target htarget
  refine SafeWhen.bindOk ((alone_ensured svc projectId).mono fun u r _ hr connector hok => ?_)
  obtain ⟨halike, hconnects⟩ := hr connector hok
  refine SafeWhen.bindOk (alone_client.mono fun v r _ hr _ hok => ?_)
  rw [hr _ hok]
  refine SafeWhen.bindOk (alone_get.mono fun v r _ hr existing hok => ?_)
  obtain ⟨rfl, hexisting⟩ := hr existing hok
  refine SafeWhen.bindOk ((alone_patchProxy hexisting).mono fun w r _ hr written hok => ?_)
  have hproxy := hr written hok
  refine SafeWhen.bindOk (alone_patchAdvertisement.mono fun x r _ hr enabled hok => ?_)
  obtain ⟨had, henabled⟩ := hr enabled hok
  refine SafeWhen.bindOk (alone_lift ((alone_only (only_storeProxyState svc _)).mono
    fun y _ _ hy => ?_))
  rw [hy]
  have hwas : (t.cluster .httpProxy).get? tunnelId = some existing := by
    rw [← halike.others .httpProxy (by decide)]
    exact hexisting
  have hkept : (x.cluster .httpProxy) = w.cluster .httpProxy :=
    had.same.others .httpProxy (by decide)
  have hspec : ∀ ad, (x.cluster .connectorAdvertisement).get? tunnelId = some ad →
      ad.spec = advertisementSpec connector.name target := by
    intro ad hget
    rw [had.there] at hget
    obtain ⟨old, _, rfl⟩ := Option.map_eq_some_iff.mp hget
    rfl
  refine alone_pure ⟨connector.name, existing, enabled, ?_, hwas, ⟨⟨written, ?_, ?_, ?_⟩, ?_⟩,
    ?_, ?_, ?_, rfl⟩
  · exact (hconnects.after hproxy.same (by decide)).after had.same (by decide)
  · rw [hkept]
    exact hproxy.there
  · exact hproxy.labelled
  · exact hproxy.ruled
  · intro ad hget
    refine ⟨target, hparsed, ?_⟩
    rw [hspec ad hget]
    rfl
  · intro ad hget
    rw [hspec ad hget]
    rfl
  · rw [had.there, Option.isSome_map, henabled]
  · intro hno
    have hpatched := hproxy.patched hno
    have hwrites := had.writes
    rw [halike.writes] at hpatched
    omega

/-- What `retarget_project` leaves of a proxy that references a connector. -/
structure Retargeted (svc : TunnelService) (l t : Ledger)
    (tunnelId endpoint connectorName : String) (existing : HTTPProxy) (enabled : Bool)
    (summary : TunnelSummary) : Prop where
  was : (l.cluster .httpProxy).get? tunnelId = some existing
  keeps : HTTPProxy.connectorName existing.spec = some connectorName
  wired : Wired svc t tunnelId (HTTPProxy.labelOr existing.spec tunnelId) endpoint connectorName
  advertised : ((t.cluster .connectorAdvertisement).get? tunnelId).isSome = enabled
  reported : summary = summaryOf existing.spec tunnelId
    (HTTPProxy.labelOr existing.spec tunnelId) endpoint enabled
    (HTTPProxy.connectorName existing.spec) none

theorem alone_retargetProject (svc : TunnelService) (projectId tunnelId endpoint : String) :
    Alone svc.endpointId (OnOk fun t summary => ∃ connectorName existing enabled,
        Retargeted svc l t tunnelId (normalizeEndpoint endpoint) connectorName existing enabled
          summary ∨
        HTTPProxy.connectorName existing.spec = none ∧
          Updated svc l t tunnelId (HTTPProxy.labelOr existing.spec tunnelId)
            (normalizeEndpoint endpoint) connectorName existing enabled summary)
      (svc.retargetProject projectId tunnelId endpoint).run l := by
  refine SafeWhen.bindOk (alone_ofExcept.mono fun t r _ hr target htarget => ?_)
  obtain ⟨rfl, hparsed⟩ := hr target htarget
  refine SafeWhen.bindOk (alone_client.mono fun v r _ hr _ hok => ?_)
  rw [hr _ hok]
  refine SafeWhen.bindOk (alone_get.mono fun v r _ hr existing hok => ?_)
  obtain ⟨rfl, hexisting⟩ := hr existing hok
  cases hkeeps : HTTPProxy.connectorName existing.spec with
  | none =>
      simp only [retargetProxyRules, hkeeps, Option.map_none]
      refine (alone_updateProject svc projectId tunnelId _ _).mono fun t r _ hr summary hok => ?_
      obtain ⟨connectorName, existing', enabled, hupdated⟩ := hr summary hok
      have hsame : existing' = existing :=
        Option.some.inj (hupdated.was.symm.trans hexisting)
      rw [normalizeEndpoint_idem, hsame] at hupdated
      exact ⟨connectorName, existing, enabled, Or.inr ⟨hkeeps, hupdated⟩⟩
  | some connectorName =>
      simp only [retargetProxyRules, hkeeps, Option.map_some]
      refine SafeWhen.bindOk ((alone_patchProxy hexisting).mono fun w r _ hr written hok => ?_)
      have hproxy := hr written hok
      refine SafeWhen.bindOk (alone_patchAdvertisement.mono fun x r _ hr enabled hok => ?_)
      obtain ⟨had, henabled⟩ := hr enabled hok
      refine SafeWhen.bindOk (alone_lift ((alone_only (only_storeProxyState svc _)).mono
        fun y _ _ hy => ?_))
      rw [hy]
      have hkept : x.cluster .httpProxy = w.cluster .httpProxy :=
        had.same.others .httpProxy (by decide)
      refine alone_pure ⟨connectorName, existing, enabled,
        Or.inl ⟨hexisting, hkeeps, ⟨⟨written, ?_, ?_, ?_⟩, ?_⟩, ?_, ?_⟩⟩
      · rw [hkept]
        exact hproxy.there
      · exact hproxy.labelled
      · exact hproxy.ruled
      · intro ad hget
        rw [had.there] at hget
        obtain ⟨old, _, rfl⟩ := Option.map_eq_some_iff.mp hget
        exact ⟨target, hparsed, rfl⟩
      · rw [had.there, Option.isSome_map, henabled]
      · rw [hkeeps]

theorem alone_enable (svc : TunnelService) (projectId tunnelId : String) {existing : HTTPProxy}
    (hexisting : (l.cluster .httpProxy).get? tunnelId = some existing) :
    Alone svc.endpointId (OnOk fun t _ => ∃ connectorName,
        Updated svc l t tunnelId label endpoint connectorName existing true
          (summaryOf existing.spec tunnelId label endpoint true
            (HTTPProxy.connectorName existing.spec) none) ∧ l.writes < t.writes)
      (svc.enable projectId tunnelId existing endpoint label).run l := by
  refine SafeWhen.bindOk ((alone_ensured svc projectId).mono fun u r _ hr connector hok => ?_)
  obtain ⟨halike, hconnects⟩ := hr connector hok
  refine SafeWhen.bindOk (alone_ofExcept.mono fun t r _ hr target htarget => ?_)
  obtain ⟨rfl, hparsed⟩ := hr target htarget
  have hthere : (t.cluster .httpProxy).get? tunnelId = some existing := by
    rw [halike.others .httpProxy (by decide)]
    exact hexisting
  refine SafeWhen.bindOk ((alone_patchProxy hthere).mono fun w r _ hr written hok => ?_)
  have hproxy := hr written hok
  refine SafeWhen.bindOk (alone_writeAdvertisement.mono fun x r _ hr _ hok => ?_)
  obtain ⟨hsame, ⟨ad, had, hspec⟩, hwritten⟩ := hr _ hok
  have hspawn : Only (fun c => writtenKind c = none)
      (svc.spawnEdgePolicies projectId tunnelId label written.spec.rules) := by
    unfold TunnelService.spawnEdgePolicies
    split
    · exact Only.perform rfl
    · exact Only.ret _
  refine alone_lift ((alone_only hspawn).mono fun y _ _ hy => ?_)
  rw [hy]
  have hkept : x.cluster .httpProxy = w.cluster .httpProxy := hsame.others .httpProxy (by decide)
  have hads : ∀ ad', (x.cluster .connectorAdvertisement).get? tunnelId = some ad' →
      ad'.spec = advertisementSpec connector.name target := by
    intro ad' hget
    rw [had] at hget
    cases hget
    exact hspec
  have hgrown : l.writes < x.writes := by
    have hwrites := hproxy.writes
    rw [halike.writes] at hwrites
    omega
  refine ⟨connector.name, ⟨?_, hexisting, ⟨⟨written, ?_, ?_, ?_⟩, ?_⟩, ?_, ?_, ?_, rfl⟩, hgrown⟩
  · exact (hconnects.after hproxy.same (by decide)).after hsame (by decide)
  · rw [hkept]
    exact hproxy.there
  · exact hproxy.labelled
  · exact hproxy.ruled
  · intro ad' hget
    refine ⟨target, hparsed, ?_⟩
    rw [hads ad' hget]
    rfl
  · intro ad' hget
    rw [hads ad' hget]
    rfl
  · rw [had]
    rfl
  · exact fun _ => hgrown

/-- Turning a tunnel on. -/
theorem alone_setEnabled_true (svc : TunnelService) (projectId tunnelId : String) :
    Alone svc.endpointId (OnOk fun t summary => ∃ connectorName existing,
        Updated svc l t tunnelId (HTTPProxy.labelOr existing.spec tunnelId)
          (normalizeEndpoint ((HTTPProxy.backendEndpoint existing.spec).getD "")) connectorName
          existing true summary ∧ l.writes < t.writes)
      (svc.setEnabledProject projectId tunnelId true).run l := by
  refine SafeWhen.bindOk (alone_client.mono fun v r _ hr _ hok => ?_)
  rw [hr _ hok]
  refine SafeWhen.bindOk (alone_get.mono fun v r _ hr existing hok => ?_)
  obtain ⟨rfl, hexisting⟩ := hr existing hok
  refine SafeWhen.bindOk ((alone_enable svc projectId tunnelId hexisting).mono
    fun t r _ hr _ hok => ?_)
  obtain ⟨connectorName, hupdated⟩ := hr _ hok
  refine SafeWhen.bindOk (alone_lift ((alone_only (only_storeProxyState svc _)).mono
    fun y _ _ hy => ?_))
  rw [hy]
  exact alone_pure ⟨connectorName, existing, hupdated⟩

/-- Turning it off. -/
theorem alone_setEnabled_false (svc : TunnelService) (projectId tunnelId : String)
    (hheld : l.held = false) :
    Alone svc.endpointId (OnOk fun t summary => ∃ existing,
        (l.cluster .httpProxy).get? tunnelId = some existing ∧
        Same .connectorAdvertisement l t ∧
        ((t.cluster .connectorAdvertisement).get? tunnelId).isSome = t.held ∧
        summary = summaryOf existing.spec tunnelId (HTTPProxy.labelOr existing.spec tunnelId)
          (normalizeEndpoint ((HTTPProxy.backendEndpoint existing.spec).getD "")) false
          (HTTPProxy.connectorName existing.spec) none)
      (svc.setEnabledProject projectId tunnelId false).run l := by
  refine SafeWhen.bindOk (alone_client.mono fun v r _ hr _ hok => ?_)
  rw [hr _ hok]
  refine SafeWhen.bindOk (alone_get.mono fun v r _ hr existing hok => ?_)
  obtain ⟨rfl, hexisting⟩ := hr existing hok
  refine SafeWhen.bindOk (SafeWhen.bindOk ((alone_deleteAdvertisement hheld).mono
    fun t r _ hr gone hok => ?_))
  obtain ⟨hsame, hgone⟩ := hr gone hok
  refine alone_pure ?_
  refine SafeWhen.bindOk (alone_lift ((alone_only (only_storeProxyState svc _)).mono
    fun y _ _ hy => ?_))
  rw [hy]
  exact alone_pure ⟨existing, hexisting, hsame, hgone, rfl⟩

/-- Calls that write objects of one kind only. -/
theorem alone_others {endpointId : String} {kind : Kind} {p : Svc α}
    (h : Only (fun c => ∀ kind' ∈ writtenKind c, kind' = kind) p) :
    Alone endpointId (fun t _ => ∀ kind', kind' ≠ kind → t.cluster kind' = l.cluster kind') p
      l := by
  refine h.safeWhen
    (J := fun t : Ledger => ∀ kind', kind' ≠ kind → t.cluster kind' = l.cluster kind')
    (fun s c answer hc hs hfinalized kind' hkind => ?_) (fun _ _ => trivial) fun _ _ => rfl
  rw [handle, hfinalized, finalize_nil, ← hs kind' hkind]
  exact Workshop.serve_kind fun hwritten => hkind (hc kind' hwritten)

/-- A new tunnel. -/
structure Created (svc : TunnelService) (t : Ledger)
    (tunnelId label endpoint connectorName : String) : Prop where
  wired : Wired svc t tunnelId label endpoint connectorName
  tunnel : "tunnel-".toList.isPrefixOf tunnelId.toList = true
  advertised : ((t.cluster .connectorAdvertisement).get? tunnelId).isSome = true

theorem alone_createProject (svc : TunnelService) (projectId label endpoint : String) :
    Alone svc.endpointId (OnOk fun t summary => ∃ tunnelId connectorName spec device,
        Created svc t tunnelId label (normalizeEndpoint endpoint) connectorName ∧
        summary = summaryOf spec tunnelId label (normalizeEndpoint endpoint) true
          (some connectorName) device)
      (svc.createProject projectId label endpoint).run l := by
  refine SafeWhen.bindOk (alone_ofExcept.mono fun t r _ hr target htarget => ?_)
  obtain ⟨rfl, hparsed⟩ := hr target htarget
  refine SafeWhen.bindOk ((alone_ensured svc projectId).mono fun u r _ hr connector hok => ?_)
  refine SafeWhen.bindOk (alone_client.mono fun v r _ hr _ hok => ?_)
  rw [hr _ hok]
  refine SafeWhen.bindOk (alone_mapError (alone_createRetried.mono fun v r _ hr proxy hok => ?_))
  have hproxy := hr proxy hok
  refine SafeWhen.bindOk (alone_mapError (alone_createRetried.mono fun w r _ hr ad hok => ?_))
  have had := hr ad hok
  have hpolicy : Only (fun c => ∀ kind ∈ writtenKind c, kind = .trafficProtectionPolicy)
      (svc.createPolicy proxy.name).run := by
    apply Makes.createPolicy
    · intro c hc kind hkind
      cases c <;> cases hkind <;> cases hc
    · intro spec kind hkind
      cases hkind
      rfl
  refine SafeWhen.bindOk ((alone_others hpolicy).mono fun x r _ hothers _ _ => ?_)
  have hrest : Only (fun c => writtenKind c = none)
      (SvcE.lift (svc.spawnEdgePolicies projectId proxy.name label proxy.spec.rules)).run := by
    unfold TunnelService.spawnEdgePolicies
    split
    · exact Makes.lift (Only.perform rfl)
    · exact Makes.lift (Only.ret _)
  refine SafeWhen.bindOk ((alone_only hrest).mono fun y r _ hy _ _ => ?_)
  rw [hy]
  refine SafeWhen.bindOk (alone_ofExcept.mono fun y r _ hr state hok => ?_)
  obtain ⟨rfl, _⟩ := hr state hok
  refine SafeWhen.bindOk (alone_lift (alone_plain (c := .updateProxies (.setProxy state)) rfl
    fun answer => ?_))
  obtain ⟨suffix, hname⟩ := hproxy.named
  obtain ⟨_, hadName⟩ := had.named
  have hadName' : ad.name = proxy.name := hadName
  have hads : (y.cluster .connectorAdvertisement).get? proxy.name = some ad := by
    rw [hothers .connectorAdvertisement (by decide), ← hadName']
    exact had.there
  have hproxies : (y.cluster .httpProxy).get? proxy.name = some proxy := by
    rw [hothers .httpProxy (by decide), had.grown.others .httpProxy (by decide)]
    exact hproxy.there
  refine alone_pure ⟨proxy.name, connector.name, proxy.spec, svc.friendlyDeviceName,
    ⟨⟨⟨proxy, hproxies, ?_, ?_⟩, ?_⟩, ?_, ?_⟩, rfl⟩
  · rw [hproxy.specified]
  · rw [hproxy.specified]
  · intro ad' hget
    rw [hads] at hget
    cases hget
    refine ⟨target, hparsed, ?_⟩
    rw [had.specified]
    rfl
  · rw [hname]
    show "tunnel-".toList.isPrefixOf ("tunnel-" ++ suffix).toList = true
    rw [String.toList_append, List.isPrefixOf_iff_prefix]
    exact List.prefix_append _ _
  · rw [hads]
    rfl

/-! ## The operations that write a tunnel -/

inductive Write where
  | create (label endpoint : String)
  | update (tunnelId label endpoint : String)
  | retarget (tunnelId endpoint : String)
  | setEnabled (tunnelId : String) (enabled : Bool)
  deriving DecidableEq, Repr

def Write.run (svc : TunnelService) (projectId : String) : Write → SvcE TunnelSummary
  | .create label endpoint => svc.createProject projectId label endpoint
  | .update tunnelId label endpoint => svc.updateProject projectId tunnelId label endpoint
  | .retarget tunnelId endpoint => svc.retargetProject projectId tunnelId endpoint
  | .setEnabled tunnelId enabled => svc.setEnabledProject projectId tunnelId enabled

/-- A proxy without rules, and the connector of the node. -/
def bareProject : Cluster :=
  let s := (Cluster.empty.create .httpProxy "tunnel-a"
    { label := none, hostnames := none, rules := [] }).1
  (s.create .connector "c" {
    className := "iroh-quic-tunnel"
    deviceName := none
    deviceOs := none
    status := some {
      conditions := none
      connectionDetails := some { publicKeyId := "key", homeRelay := "", addresses := [] } } }).1

end Ledger

end DatumConnect.Tunnels
