import DatumConnect.Tunnels.Made
/-!
# What a failed create leaves

Creating a tunnel makes its objects one after the other and takes none of them back.
-/

namespace DatumConnect.Tunnels

open DatumConnect.Lib
open DatumConnect.Lib.Prog (Only Within OnOk)
open DatumConnect.Cloud

namespace Creating

/-- Which object has been made before an object of the kind is. -/
def Belongs (w : Workshop) (kind : Kind) (name : String) : Prop :=
  match kind with
  | .connectorAdvertisement => (Kind.httpProxy, name) ∈ w.made
  | .trafficProtectionPolicy => (Kind.connectorAdvertisement, name) ∈ w.made
  | .backendTrafficPolicy => False
  | _ => True

/-- What has been made of a tunnel is there, each object with the one it belongs to. -/
structure Kept (w : Workshop) : Prop where
  live : ∀ kind name, (kind, name) ∈ w.made → kind ≠ .connector → w.Live kind name
  belongs : ∀ kind name, (kind, name) ∈ w.made → Belongs w kind name

/-- The whole tunnel is there, and the node's store has been offered it. -/
structure Complete (svc : TunnelService) (summary : TunnelSummary) (w : Workshop) : Prop where
  proxy : w.Live .httpProxy summary.id
  advertisement : w.Live .connectorAdvertisement summary.id
  policy : svc.createTrafficProtectionPolicies = true → w.Live .trafficProtectionPolicy summary.id
  offered : ∃ proxyState,
    proxyStateFromSummary svc.parseUrl summary.id summary.endpoint summary.label true =
      .ok proxyState ∧ Proxies.Update.setProxy proxyState ∈ w.offered

/-! ## Calls -/

variable {endpointId : String} {w t : Workshop} {c : Call} {answer : Answer}

theorem Belongs.mono {kind : Kind} {name : String} (h : Belongs w kind name)
    (hmade : w.made ⊆ t.made) : Belongs t kind name := by
  cases kind with
  | connectorAdvertisement => exact hmade h
  | trafficProtectionPolicy => exact hmade h
  | backendTrafficPolicy => exact h
  | _ => trivial

/-- From the first to the second nothing made is lost, and what is there stays in order. -/
def Grows (w t : Workshop) : Prop := (Kept w → Kept t) ∧ w.made ⊆ t.made

instance : Std.Refl Grows := ⟨fun _ => ⟨id, List.Subset.refl _⟩⟩

instance : IsTrans Workshop Grows :=
  ⟨fun _ _ _ h h' => ⟨h'.1 ∘ h.1, List.Subset.trans h.2 h'.2⟩⟩

/-- A call that leaves the tunnel's objects, or makes one that belongs to another. -/
theorem grows_call
    (hcall : (∀ kind, writtenKind c = some kind → kind = .connector) ∨
      ∀ kind name, c ≠ .delete kind name)
    (hbelongs : ∀ kind name,
      Workshop.creates (w.cluster.finalize answer.finalized) answer c = some (kind, name) →
        Belongs w kind name) :
    Grows w (Workshop.handle endpointId w c answer).1 := by
  have hmade : w.made ⊆ (Workshop.handle endpointId w c answer).1.made :=
    fun _ h => Workshop.made_kept h
  refine ⟨fun hw => ⟨fun kind name h hkind => ?_, fun kind name h => ?_⟩, hmade⟩
  · rcases Workshop.mem_made h with hcreates | h
    · exact Workshop.live_of_creates hcreates
    · have hlive := hw.live kind name h hkind
      rcases hcall with hconnector | hdelete
      · exact hlive.other fun hwritten => hkind (hconnector kind hwritten)
      · exact hlive.handle hdelete
  · rcases Workshop.mem_made h with hcreates | h
    · exact (hbelongs kind name hcreates).mono hmade
    · exact (hw.belongs kind name h).mono hmade

theorem within_of_writes {α : Type} {p : Svc α} (h : Only (Writes [.connector]) p) :
    Within (Workshop.handle endpointId) Grows (fun _ _ => True) p w := by
  induction p generalizing w with
  | ret a => exact Within.ret trivial
  | call c k ih =>
      refine Within.call fun answer => ⟨grows_call ?_ ?_, ih _ (h.2 _)⟩
      · left
        intro kind hkind
        simpa using h.1 kind hkind
      · intro kind name hcreates
        have hkind := h.1 kind (Workshop.creates_kind hcreates)
        rw [List.mem_singleton] at hkind
        rw [hkind]
        trivial

/-! ## The parts -/

theorem within_create {kind : Kind} {newName : NewName} {spec : kind.Spec}
    (hbelongs : ∀ suffix, Belongs w kind (Cluster.newName newName suffix)) :
    Within (Workshop.handle endpointId) Grows
      (fun t r => ∀ o, r = .ok o →
        (kind, o.name) ∈ t.made ∧ ∃ suffix, o.name = Cluster.newName newName suffix)
      (Svc.create kind newName spec) w := by
  refine Within.call fun answer => ⟨grows_call ?_ ?_, Within.ret fun o ho => ⟨?_, ?_⟩⟩
  · right
    intro kind name h
    cases h
  · intro kind' name hcreates
    rw [Workshop.creates, Option.ite_none_right_eq_some] at hcreates
    obtain ⟨-, heq⟩ := hcreates
    cases heq
    exact hbelongs answer.suffix
  · exact Workshop.made_of_create ho
  · obtain ⟨-, hname, -⟩ := Cluster.create_ok ho
    exact ⟨answer.suffix, hname⟩

/-- However often it is tried, what a create makes belongs to what was there. -/
theorem within_createRetried {kind : Kind} {newName : NewName} {spec : kind.Spec}
    (hbelongs : ∀ suffix, Belongs w kind (Cluster.newName newName suffix)) :
    Within (Workshop.handle endpointId) Grows
      (fun t r => ∀ o, r = .ok o →
        (kind, o.name) ∈ t.made ∧ ∃ suffix, o.name = Cluster.newName newName suffix)
      (createRetried kind newName spec) w := by
  unfold createRetried
  generalize quotaCheckDelays = delays
  induction delays generalizing w with
  | nil => exact within_create hbelongs
  | cons delay delays ih =>
      refine Within.bind ((within_create hbelongs).mono fun t r hwt hr => ?_)
      cases r with
      | ok o => exact Within.ret hr
      | error err =>
          simp only
          split
          · have hsleep : Only (Writes [.connector]) (Svc.sleep delay) :=
              Only.perform (Writes.of_none rfl)
            refine Within.bind ((within_of_writes hsleep).mono fun u _ htu _ => ?_)
            apply ih
            intro suffix
            exact (hbelongs suffix).mono (List.Subset.trans hwt.2 htu.2)
          · exact Within.ret fun o ho => nomatch ho

theorem within_createOrFail {kind : Kind} {newName : NewName} {spec : kind.Spec}
    {resourceType : String} (hbelongs : ∀ suffix, Belongs w kind (Cluster.newName newName suffix)) :
    Within (Workshop.handle endpointId) Grows
      (OnOk fun t o => (kind, o.name) ∈ t.made ∧ ∃ suffix, o.name = Cluster.newName newName suffix)
      (createOrFail kind newName spec resourceType).run w := by
  refine Within.bind ((within_createRetried hbelongs).mono fun t r _ hr => ?_)
  refine Within.ret fun o ho => ?_
  cases r with
  | ok o' =>
      cases ho
      exact hr o rfl
  | error err => cases ho

theorem within_createPolicy (svc : TunnelService) {proxyName : String}
    (had : (Kind.connectorAdvertisement, proxyName) ∈ w.made) :
    Within (Workshop.handle endpointId) Grows
      (OnOk fun t _ => svc.createTrafficProtectionPolicies = true →
        (Kind.trafficProtectionPolicy, proxyName) ∈ t.made)
      (svc.createPolicy proxyName).run w := by
  unfold TunnelService.createPolicy
  split
  · have hbelongs : ∀ suffix, Belongs w .trafficProtectionPolicy
        (Cluster.newName (.exactly proxyName) suffix) := fun _ => had
    refine Within.bindOk ((within_createOrFail hbelongs).mono fun t r _ hr o ho => ?_)
    obtain ⟨hmade, suffix, hname⟩ := hr o ho
    have hname : o.name = proxyName := hname
    rw [hname] at hmade
    exact Within.ret fun _ _ _ => hmade
  · rename_i hno
    exact Within.ret fun _ _ h => absurd h hno

/-- What the store is offered has been offered after it. -/
theorem within_updateProxies (update : Proxies.Update) :
    Within (Workshop.handle endpointId) Grows (OnOk fun t _ => update ∈ t.offered)
      (SvcE.lift (Svc.updateProxies update)).run w := by
  refine Within.call fun answer => ⟨grows_call ?_ ?_, Within.ret fun _ _ => ?_⟩
  · right
    intro kind name h
    cases h
  · intro kind name hcreates
    cases hcreates
  · exact List.mem_append_right _ (List.mem_singleton.mpr rfl)

/-! ## The whole create -/

theorem within_createProject (svc : TunnelService) (projectId label endpoint : String) :
    Within (Workshop.handle svc.endpointId) Grows
      (OnOk fun t summary => Kept t → Complete svc summary t)
      (svc.createProject projectId label endpoint).run w := by
  refine Within.bindOk ((within_of_writes Writes.ofExcept).mono fun w _ _ _ target _ => ?_)
  refine Within.bindOk ((within_of_writes
    (Writes.ensureConnector svc projectId List.mem_cons_self)).mono fun w _ _ _ connector _ => ?_)
  refine Within.bindOk ((within_of_writes (Writes.client projectId)).mono fun w _ _ _ _ _ => ?_)
  have hbelongs : ∀ suffix, Belongs w .httpProxy (Cluster.newName (.generate "tunnel-") suffix) :=
    fun _ => trivial
  refine Within.bindOk ((within_createOrFail hbelongs).mono fun w _ _ hproxy proxy hp => ?_)
  obtain ⟨hproxy, -⟩ := hproxy proxy hp
  have hbelongs : ∀ suffix, Belongs w .connectorAdvertisement
      (Cluster.newName (.exactly proxy.name) suffix) := fun _ => hproxy
  refine Within.bindOk ((within_createOrFail hbelongs).mono fun t _ hwt had ad hr => ?_)
  obtain ⟨had, suffix, hname⟩ := had ad hr
  have hname : ad.name = proxy.name := hname
  rw [hname] at had
  refine Within.bindOk ((within_createPolicy svc had).mono fun u _ htu hpolicy _ hok => ?_)
  have hpolicy := hpolicy _ hok
  refine Within.bindOk ((within_of_writes
    (Writes.lift (Writes.spawnEdgePolicies svc))).mono fun v _ huv _ _ _ => ?_)
  cases hstate : proxyStateFromSummary svc.parseUrl proxy.name (normalizeEndpoint endpoint) label
      true with
  | error message => exact Within.ret fun _ h => nomatch h
  | ok proxyState =>
      refine Within.bindOk (Within.ret fun proxyState' hsame => ?_)
      cases hsame
      refine Within.bindOk ((within_updateProxies _).mono fun x _ hvx hoffered r hdone => ?_)
      refine Within.ret fun summary hsummary hkept => ?_
      cases hsummary
      have hux := List.Subset.trans huv.2 hvx.2
      have htx := List.Subset.trans htu.2 hux
      exact {
        proxy := hkept.live _ _ (htx (hwt.2 hproxy)) (by decide)
        advertisement := hkept.live _ _ (htx had) (by decide)
        policy := fun h => hkept.live _ _ (hux (hpolicy h)) (by decide)
        offered := ⟨proxyState, hstate, hoffered r hdone⟩ }

/-- Whichever calls fail, and wherever it ends: what a create has made is there, an
advertisement with its proxy and a policy with its advertisement; and where it succeeds
the tunnel is complete. -/
theorem create_keeps (svc : TunnelService) (projectId label endpoint : String) (cluster : Cluster)
    (answers : List Answer) :
    Kept (Prog.exec (Workshop.handle svc.endpointId) { cluster } answers
        (svc.createProject projectId label endpoint).run).1 ∧
      ∀ summary, (Prog.exec (Workshop.handle svc.endpointId) { cluster } answers
          (svc.createProject projectId label endpoint).run).2 = some (.ok summary) →
        Complete svc summary (Prog.exec (Workshop.handle svc.endpointId) { cluster } answers
          (svc.createProject projectId label endpoint).run).1 := by
  have hrun := (within_createProject (w := { cluster }) svc projectId label endpoint).exec answers
  have hinit : Kept { cluster } := by
    constructor
    · intro kind name h
      cases h
    · intro kind name h
      cases h
  have hkept := hrun.1.1 hinit
  exact ⟨hkept, fun summary hresult => hrun.2 _ hresult summary rfl hkept⟩

open Workshop (nodeService)

/-- The advertisement cannot be made. -/
def advertisementFails : List Answer :=
  [{}, {}, {}, {}, { suffix := "x" }, {}, {}, { suffix := "y" },
    { outcome := .failed (.api 500 "no") }]

/-- The proxy stays. -/
theorem proxy_left :
    ∃ w err, Prog.exec (Workshop.handle nodeService.endpointId) { cluster := Cluster.empty }
        advertisementFails (nodeService.createProject "p" "a" "h:1").run = (w, some (.error err)) ∧
      (Kind.httpProxy, "tunnel-y") ∈ w.made ∧ w.Live .httpProxy "tunnel-y" :=
  ⟨_, _, rfl, by decide, ⟨_, rfl, rfl⟩⟩

end Creating

end DatumConnect.Tunnels
