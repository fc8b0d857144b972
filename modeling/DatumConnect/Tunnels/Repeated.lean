import DatumConnect.Tunnels.Stored
/-!
# Writing what is there already

A write that is repeated, on a project that nothing else has changed, is to send nothing:
each PATCH of a proxy or an advertisement makes the edge program the tunnel again.
-/

namespace DatumConnect.Tunnels

open DatumConnect.Lib
open DatumConnect.Lib.Prog (Only SafeWhen OnOk)
open DatumConnect.Cloud

namespace Ledger

variable {svc : TunnelService} {l t u : Ledger} {α : Type}
  {projectId tunnelId label endpoint connectorName : String} {endpointId : String}

/-- After the first write: the same one again, turning the tunnel on once it is up to date,
or retargeting it to the endpoint it has. -/
inductive Repeats (t : Ledger) : Write → Write → Prop
  | update (tunnelId label endpoint : String) :
      Repeats t (.update tunnelId label endpoint) (.update tunnelId label endpoint)
  | retarget (tunnelId endpoint : String) :
      Repeats t (.retarget tunnelId endpoint) (.retarget tunnelId endpoint)
  | enable (tunnelId : String) :
      Repeats t (.setEnabled tunnelId true) (.setEnabled tunnelId true)
  | enableUpdated (tunnelId label endpoint : String) :
      Repeats t (.update tunnelId label endpoint) (.setEnabled tunnelId true)
  | retargetUpdated {first : Write} {tunnelId endpoint : String}
      (hfirst : (∃ label endpoint, first = .update tunnelId label endpoint) ∨
        first = .setEnabled tunnelId true)
      (hset : ∀ proxy, (t.cluster .httpProxy).get? tunnelId = some proxy →
        HTTPProxy.backendEndpoint proxy.spec = some (normalizeEndpoint endpoint)) :
      Repeats t first (.retarget tunnelId endpoint)

/-- Retargeting sends nothing the second time; an update as long as the service's connector
is found again; turning a tunnel on never does without. -/
def Silent (endpointId : String) (t : Ledger) : Write → Prop
  | .retarget _ _ => True
  | .update _ _ _ => owned endpointId t.cluster ≠ none
  | _ => False

/-- Nothing is sent, as far as the computation gets. -/
abbrev Quiet (endpointId : String) (post : Ledger → α → Prop) (p : Svc α) (w : Nat)
    (t : Ledger) : Prop :=
  SafeWhen (handle endpointId) (fun _ _ answer => answer.finalized = [])
    (fun u => u.writes = w) post p t

/-- A computation that writes nothing at all leaves the ledger as it is, all along. -/
theorem still_only {p : Svc α} (h : Only (fun c => writtenKind c = none) p) :
    SafeWhen (handle endpointId) (fun _ _ answer => answer.finalized = []) (fun u => u = t)
      (fun u _ => u = t) p t := by
  refine h.safeWhen (J := fun u => u = t) (fun s c answer hc hs hfinalized => ?_)
    (fun _ h => h) rfl
  subst hs
  rw [handle, hfinalized, finalize_nil]
  exact serve_of_plain hc

theorem quiet_still {p : Svc α} {post : Ledger → α → Prop}
    (hp : Only (fun c => writtenKind c = none) p) (h : Alone endpointId post p t) :
    Quiet endpointId (fun u a => u = t ∧ post u a) p t.writes t :=
  ((still_only hp).both h).weaken fun u hu => by rw [hu.1]

theorem quiet_rest {p : Svc (Except Error α)} (h : Only (fun c => writtenKind c = none) p) :
    Quiet endpointId (OnOk fun _ _ => True) p t.writes t :=
  ((still_only h).weaken fun u hu => by rw [hu]).mono fun _ _ _ _ _ _ => trivial

theorem quiet_ofExcept {r : Except String α} :
    Quiet endpointId (OnOk fun u a => u = t ∧ r = .ok a) (SvcE.ofExcept r).run t.writes t :=
  (quiet_still Makes.ofExcept alone_ofExcept).mono fun _ _ _ h a ha => h.2 a ha

theorem quiet_client :
    Quiet endpointId (OnOk fun u _ => u = t) (SvcE.projectControlPlaneClient projectId).run
      t.writes t :=
  (quiet_still (Only.perform (c := .projectControlPlaneClient projectId) rfl)
    alone_client).mono fun _ _ _ h _ _ => h.1

theorem quiet_get {kind : Kind} {name context : String} :
    Quiet endpointId (OnOk fun u o => u = t ∧ (t.cluster kind).get? name = some o)
      (SvcE.orElseContext (Svc.get kind name) context).run t.writes t :=
  (quiet_still (Makes.mapError (Only.perform (c := Call.get kind name) rfl)) alone_get).mono
    fun _ _ _ h a ha => h.2 a ha

/-- An advertisement that has the spec already is not patched. -/
theorem quiet_patchAdvertisement {context : String}
    {desired : AdvertisementSpec → AdvertisementSpec}
    (h : ∀ ad, (t.cluster .connectorAdvertisement).get? tunnelId = some ad →
      ad.spec = desired ad.spec) :
    Quiet endpointId (OnOk fun u _ => u = t)
      (TunnelService.patchAdvertisement tunnelId desired context).run t.writes t := by
  have hgetOpt : Only (fun c => writtenKind c = none)
      (SvcE.orElseContext (Svc.getOpt .connectorAdvertisement tunnelId)
        "Failed to fetch ConnectorAdvertisement").run :=
    Makes.mapError (Only.perform (c := Call.getOpt .connectorAdvertisement tunnelId) rfl)
  refine SafeWhen.bindOk ((quiet_still hgetOpt alone_getOpt).mono fun u r _ hr existing hok => ?_)
  obtain ⟨rfl, hr⟩ := hr
  have hget := (hr existing hok).2
  cases existing with
  | none => exact ⟨rfl, fun _ _ => rfl⟩
  | some ad =>
      simp only
      rw [if_pos (h ad hget.symm)]
      exact ⟨rfl, fun _ _ => rfl⟩

/-- Nor is a proxy. -/
theorem quiet_patchProxy {existing : HTTPProxy} {rules : List ProxyRule} {context : String}
    (hlabel : existing.spec.label = some label) (hrules : existing.spec.rules = rules) :
    Quiet endpointId (OnOk fun u _ => u = t)
      (TunnelService.patchProxy tunnelId existing label rules context).run t.writes t := by
  have hmatches : HTTPProxy.specMatches existing.spec label rules = true := by
    simp [HTTPProxy.specMatches, hlabel, hrules]
  unfold TunnelService.patchProxy
  rw [if_pos hmatches]
  exact ⟨rfl, fun _ _ => rfl⟩

theorem Wired.has {proxy : HTTPProxy}
    (h : Wired svc t tunnelId label endpoint connectorName)
    (hproxy : (t.cluster .httpProxy).get? tunnelId = some proxy) :
    proxy.spec.label = some label ∧
      proxy.spec.rules = desiredProxyRules endpoint connectorName svc.wafExemptMatches := by
  obtain ⟨proxy', hthere, hlabel, hrules⟩ := h.proxy
  rw [hproxy] at hthere
  cases hthere
  exact ⟨hlabel, hrules⟩

theorem Wired.endpoint_eq {endpoint' : String}
    (h : Wired svc t tunnelId label endpoint connectorName)
    (hset : ∀ proxy, (t.cluster .httpProxy).get? tunnelId = some proxy →
      HTTPProxy.backendEndpoint proxy.spec = some endpoint') : endpoint = endpoint' := by
  obtain ⟨proxy, hthere, _, hrules⟩ := h.proxy
  have hendpoint := hset proxy hthere
  rw [backendEndpoint_desiredProxyRules hrules] at hendpoint
  exact Option.some.inj hendpoint

/-! ## What is repeated -/

/-- A retarget to the endpoint that is there. -/
theorem quiet_retarget
    (h : Wired svc t tunnelId label (normalizeEndpoint endpoint) connectorName) :
    Quiet svc.endpointId (OnOk fun _ _ => True)
      (svc.retargetProject projectId tunnelId endpoint).run t.writes t := by
  refine SafeWhen.bindOk (quiet_ofExcept.mono fun u r _ hr target hok => ?_)
  obtain ⟨rfl, hparsed⟩ := hr target hok
  refine SafeWhen.bindOk (quiet_client.mono fun u r _ hr _ hok => ?_)
  rw [hr _ hok]
  refine SafeWhen.bindOk (quiet_get.mono fun u r _ hr existing hok => ?_)
  obtain ⟨rfl, hexisting⟩ := hr existing hok
  obtain ⟨hlabel, hrules⟩ := h.has hexisting
  have hname : HTTPProxy.labelOr existing.spec tunnelId = label := by
    rw [HTTPProxy.labelOr, hlabel]
    rfl
  simp only [retargetProxyRules, connectorName_desiredProxyRules hrules, Option.map_some,
    hname]
  refine SafeWhen.bindOk ((quiet_patchProxy hlabel hrules).mono fun v r _ hr written hok => ?_)
  rw [hr written hok]
  have had : ∀ ad, (u.cluster .connectorAdvertisement).get? tunnelId = some ad →
      ad.spec = retargetAdvertisementSpec ad.spec target := by
    intro ad hget
    obtain ⟨target', hparsed', hspec⟩ := h.ad ad hget
    rw [hparsed] at hparsed'
    cases hparsed'
    exact hspec
  refine SafeWhen.bindOk ((quiet_patchAdvertisement had).mono fun v r _ hr _ hok => ?_)
  rw [hr _ hok]
  refine quiet_rest ?_
  exact Only.bindE (Makes.lift (only_storeProxyState svc _)) fun _ => Only.ret _

/-- An update to what is there, by a service that finds its connector. -/
theorem quiet_update
    (h : Wired svc t tunnelId label (normalizeEndpoint endpoint) connectorName)
    (hnamed : ∀ ad, (t.cluster .connectorAdvertisement).get? tunnelId = some ad →
      ad.spec.connectorRef = connectorName)
    (howned : owned svc.endpointId t.cluster = some connectorName) :
    Quiet svc.endpointId (OnOk fun _ _ => True)
      (svc.updateProject projectId tunnelId label endpoint).run t.writes t := by
  refine SafeWhen.bindOk (quiet_ofExcept.mono fun u r _ hr target hok => ?_)
  obtain ⟨rfl, hparsed⟩ := hr target hok
  have halike : Only OfConnector (svc.ensureConnector projectId).run :=
    Makes.ensureConnector svc projectId connecting_ofConnector
  refine SafeWhen.bindOk ((((alike_only halike).both
    (alone_ensureConnector svc projectId)).weaken fun u hu => hu.1.writes).mono
      fun u r _ hr connector hok => ?_)
  have hsame := hr.1
  have hconnector : connector.name = connectorName := by
    cases hr.2 connector hok with
    | found before after =>
        rw [howned] at before
        exact (Option.some.inj before).symm
    | made before _ _ _ _ =>
        rw [howned] at before
        cases before
  rw [← hsame.writes]
  refine SafeWhen.bindOk (quiet_client.mono fun v r _ hr _ hok => ?_)
  rw [hr _ hok]
  refine SafeWhen.bindOk (quiet_get.mono fun v r _ hr existing hok => ?_)
  obtain ⟨rfl, hexisting⟩ := hr existing hok
  rw [hsame.others .httpProxy (by decide)] at hexisting
  obtain ⟨hlabel, hrules⟩ := h.has hexisting
  rw [hconnector]
  refine SafeWhen.bindOk ((quiet_patchProxy hlabel hrules).mono fun w r _ hr written hok => ?_)
  rw [hr written hok]
  have had : ∀ ad, (v.cluster .connectorAdvertisement).get? tunnelId = some ad →
      ad.spec = advertisementSpec connectorName target := by
    intro ad hget
    rw [hsame.others .connectorAdvertisement (by decide)] at hget
    obtain ⟨target', hparsed', hspec⟩ := h.ad ad hget
    rw [hparsed] at hparsed'
    cases hparsed'
    rw [hspec, hnamed ad hget]
  refine SafeWhen.bindOk ((quiet_patchAdvertisement had).mono fun w r _ hr _ hok => ?_)
  rw [hr _ hok]
  refine quiet_rest ?_
  exact Only.bindE (Makes.lift (only_storeProxyState svc _)) fun _ => Only.ret _

theorem exec_quiet {p : Svc α} {post : Ledger → α → Prop} {answers : List Answer} {w : Nat}
    {r : Option α} (h : Quiet endpointId post p w t)
    (hanswers : ∀ answer ∈ answers, answer.finalized = [])
    (hrun : Prog.exec (handle endpointId) t answers p = (u, r)) : u.writes = w := by
  have hI := (h.exec (Prog.Answered.of_mem hanswers)).1
  rw [hrun] at hI
  exact hI

/-! ## What is sent again -/

/-- An update by a service that does not find its connector makes another, and points the
proxy at it. -/
theorem updated_again {existing : HTTPProxy} {enabled : Bool} {summary : TunnelSummary}
    {connectorName' : String} {existing' : HTTPProxy} {enabled' : Bool}
    {summary' : TunnelSummary}
    (h : Updated svc l t tunnelId label endpoint connectorName existing enabled summary)
    (h' : Updated svc t u tunnelId label endpoint connectorName' existing' enabled' summary')
    (hlost : owned svc.endpointId t.cluster = none) : t.writes < u.writes := by
  apply h'.patched
  have hne : connectorName ≠ connectorName' := by
    rintro rfl
    cases h.connects with
    | found before after =>
        rw [hlost] at after
        cases after
    | made before latest fresh there after =>
        cases h'.connects with
        | found before' after' =>
            rw [hlost] at before'
            cases before'
        | made before' latest' fresh' there' after' =>
            rw [fresh'] at there
            cases there
  obtain ⟨_, hrules⟩ := h.wired.has h'.was
  have hrules_ne : existing'.spec.rules ≠
      desiredProxyRules endpoint connectorName' svc.wafExemptMatches := by
    intro hrules'
    have hname := connectorName_desiredProxyRules hrules
    rw [connectorName_desiredProxyRules hrules'] at hname
    exact hne (Option.some.inj hname).symm
  simp [HTTPProxy.specMatches, hrules_ne]

theorem Connects.owned_eq (h : Connects endpointId l t connectorName)
    (howned : owned endpointId t.cluster ≠ none) :
    owned endpointId t.cluster = some connectorName := by
  cases h with
  | found before after => exact after
  | made before latest fresh there after =>
      obtain ⟨name, hname⟩ := Option.ne_none_iff_exists'.mp howned
      rw [hname, after name hname]

/-- What was written stays the same under a second write exactly where that is a silent
one. -/
theorem repeat_silent_iff (svc : TunnelService) (projectId : String) {first second : Write}
    {l t u : Ledger} {answers answers' : List Answer} {summary : TunnelSummary}
    {r : Option (Except Error TunnelSummary)}
    (hanswers : ∀ answer ∈ answers ++ answers', answer.finalized = [])
    (hfirst : Prog.exec (handle svc.endpointId) l answers (first.run svc projectId).run =
      (t, some (.ok summary)))
    (hrepeats : Repeats t first second)
    (hsecond : Prog.exec (handle svc.endpointId) t answers' (second.run svc projectId).run =
      (u, r)) :
    (Silent svc.endpointId t second → u.writes = t.writes) ∧
      ∀ summary', r = some (.ok summary') → u.writes = t.writes →
        Silent svc.endpointId t second := by
  have hanswers₁ : ∀ answer ∈ answers, answer.finalized = [] :=
    fun answer ha => hanswers answer (List.mem_append_left _ ha)
  have hanswers₂ : ∀ answer ∈ answers', answer.finalized = [] :=
    fun answer ha => hanswers answer (List.mem_append_right _ ha)
  cases hrepeats with
  | update tunnelId label endpoint =>
      obtain ⟨connectorName, existing, enabled, h⟩ :=
        exec_alone (alone_updateProject svc projectId tunnelId label endpoint) hanswers₁ hfirst
      constructor
      · intro hsilent
        have howned := h.connects.owned_eq hsilent
        exact exec_quiet (quiet_update h.wired h.named howned) hanswers₂ hsecond
      · rintro summary' rfl hwrites hlost
        obtain ⟨connectorName', existing', enabled', h'⟩ :=
          exec_alone (alone_updateProject svc projectId tunnelId label endpoint) hanswers₂ hsecond
        have hsent := updated_again h h' hlost
        omega
  | retarget tunnelId endpoint =>
      obtain ⟨connectorName, existing, enabled, h⟩ :=
        exec_alone (alone_retargetProject svc projectId tunnelId endpoint) hanswers₁ hfirst
      have hquiet : Quiet svc.endpointId (OnOk fun _ _ => True)
          (svc.retargetProject projectId tunnelId endpoint).run t.writes t := by
        rcases h with h | ⟨_, h⟩
        · exact quiet_retarget h.wired
        · exact quiet_retarget h.wired
      exact ⟨fun _ => exec_quiet hquiet hanswers₂ hsecond, fun _ _ _ => trivial⟩
  | enable tunnelId =>
      refine ⟨False.elim, ?_⟩
      rintro summary' rfl hwrites
      obtain ⟨connectorName, existing, _, hsent⟩ :=
        exec_alone (alone_setEnabled_true svc projectId tunnelId) hanswers₂ hsecond
      omega
  | enableUpdated tunnelId label endpoint =>
      refine ⟨False.elim, ?_⟩
      rintro summary' rfl hwrites
      obtain ⟨connectorName, existing, _, hsent⟩ :=
        exec_alone (alone_setEnabled_true svc projectId tunnelId) hanswers₂ hsecond
      omega
  | @retargetUpdated _ tunnelId endpoint hwas hset =>
      have hwired : ∃ label connectorName,
          Wired svc t tunnelId label (normalizeEndpoint endpoint) connectorName := by
        rcases hwas with ⟨label, endpoint', rfl⟩ | rfl
        · obtain ⟨connectorName, existing, enabled, h⟩ :=
            exec_alone (alone_updateProject svc projectId tunnelId label endpoint') hanswers₁ hfirst
          exact ⟨label, connectorName, h.wired.endpoint_eq hset ▸ h.wired⟩
        · obtain ⟨connectorName, existing, h, _⟩ :=
            exec_alone (alone_setEnabled_true svc projectId tunnelId) hanswers₁ hfirst
          exact ⟨_, connectorName, h.wired.endpoint_eq hset ▸ h.wired⟩
      obtain ⟨label, connectorName, h⟩ := hwired
      exact ⟨fun _ => exec_quiet (quiet_retarget h) hanswers₂ hsecond, fun _ _ _ => trivial⟩

theorem repeat_silent_iff_updateTwice :
    let first := Prog.exec (handle "key") { cluster := bareProject } (List.replicate 10 {})
      ((Write.update "tunnel-a" "web" "h:1").run Workshop.nodeService "p").run
    let second := Prog.exec (handle "key") first.1 (List.replicate 10 {})
      ((Write.update "tunnel-a" "web" "h:1").run Workshop.nodeService "p").run
    (Silent "key" first.1 (.update "tunnel-a" "web" "h:1") →
        second.1.writes = first.1.writes) ∧
      ∀ summary, second.2 = some (.ok summary) → second.1.writes = first.1.writes →
        Silent "key" first.1 (.update "tunnel-a" "web" "h:1") :=
  have hanswers : ∀ answer ∈ List.replicate 10 ({} : Answer) ++ List.replicate 10 ({} : Answer),
      answer.finalized = [] := by decide
  repeat_silent_iff Workshop.nodeService "p" hanswers (Prod.ext rfl rfl)
    (.update "tunnel-a" "web" "h:1") rfl

/-- Turning a tunnel on that is on sends its advertisement again, as it is. -/
theorem enable_sends_again :
    let first := Prog.exec (handle "key") { cluster := bareProject } (List.replicate 12 {})
      ((Write.setEnabled "tunnel-a" true).run Workshop.nodeService "p").run
    let second := Prog.exec (handle "key") first.1 (List.replicate 12 {})
      ((Write.setEnabled "tunnel-a" true).run Workshop.nodeService "p").run
    first.2.any Except.isOk = true ∧ second.2.any Except.isOk = true ∧
      first.1.writes = 2 ∧ second.1.writes = 3 ∧
      (first.1.cluster .connectorAdvertisement).objects =
        (second.1.cluster .connectorAdvertisement).objects := by
  decide +kernel

end Ledger

end DatumConnect.Tunnels
