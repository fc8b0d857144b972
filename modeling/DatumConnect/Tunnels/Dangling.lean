import DatumConnect.Tunnels.Connectors
/-!
# Live proxies and deleted connectors

The operations run side by side, by any number of services in one project.  Kept
beside the project: the connectors that an operation has deleted, and for each
operation the connectors deleted since it looked its own up, and those that a
proxy was pointed at since it listed the proxies.
-/

namespace DatumConnect.Tunnels

open DatumConnect.Lib
open DatumConnect.Lib.Pool
open DatumConnect.Lib.Prog (Follows OnOk)
open DatumConnect.Cloud

namespace Connectors

inductive ServiceOp where
  | create (svc : TunnelService) (label endpoint : String)
  | update (svc : TunnelService) (tunnelId label endpoint : String)
  | setEnabled (svc : TunnelService) (tunnelId : String) (enabled : Bool)
  | delete (svc : TunnelService) (tunnelId : String)
  | cleanup

def ServiceOp.run (projectId : String) : ServiceOp → SvcE Unit
  | .create svc label endpoint => do let _ ← svc.createProject projectId label endpoint
  | .update svc tunnelId label endpoint => do
      let _ ← svc.updateProject projectId tunnelId label endpoint
  | .setEnabled svc tunnelId enabled => do let _ ← svc.setEnabledProject projectId tunnelId enabled
  | .delete svc tunnelId => do let _ ← svc.deleteProject projectId tunnelId
  | .cleanup => do let _ ← cleanupOrphanedConnectorsProject projectId

/-- A project, with the connectors that were deleted and not created again. -/
structure Project where
  cluster : Cluster
  deleted : List String := []

/-! ## What a call does -/

/-- The connectors that a proxy names after the call because of it, unless that
proxy is being deleted. -/
def pointedAt (s : Cluster) (answer : Answer) : Call → List String
  | .create .httpProxy name spec =>
      if answer.landed ∧ (s .httpProxy).get? (Cluster.newName name answer.suffix) = none then
        connectorsOf spec.rules
      else []
  | .patch .httpProxy name (.proxy _ _ rules) =>
      if answer.landed ∧ ((s .httpProxy).get? name).any fun proxy => !proxy.deleting then
        connectorsOf rules
      else []
  | _ => []

/-- The connector that the call deletes. -/
def connectorDeleted (s : Cluster) (answer : Answer) (c : Call) : Option String :=
  (deletedBy c).filter fun name => answer.landed && ((s .connector).get? name).isSome

/-- The connector that the call creates. -/
def connectorCreated (s : Cluster) (answer : Answer) : Call → Option String
  | .create .connector name _ =>
      let name := Cluster.newName name answer.suffix
      if answer.landed ∧ (s .connector).get? name = none then some name else none
  | _ => none

/-- Keep a list of deleted connectors. -/
def noteDeleted (s : Cluster) (answer : Answer) (c : Call) (names : List String) : List String :=
  (connectorDeleted s answer c).toList ++
    names.filter fun name => connectorCreated s answer c ≠ some name

def Project.handle (p : Project) (c : Call) (answer : Answer) : Project × c.Reply :=
  let (cluster, reply) := p.cluster.handle c answer
  ({ cluster, deleted := noteDeleted (p.cluster.finalize answer.finalized) answer c p.deleted },
    reply)

/-- What an operation does not know: the connectors that were being deleted when
it looked its own up or have been deleted since, and those that a proxy has been
pointed at since it listed the proxies. -/
structure Missed where
  dying : List String := []
  named : List String := []

/-- The connectors that a lookup by identity returns while they are being
deleted. -/
def foundDying (s : Cluster) (answer : Answer) : Call → Option (List String)
  | .list .connector (.field path value) =>
      if answer.outcome = .done then
        some ((((s .connector).objects.filter fun o =>
          Selector.matches (.field path value) .connector o.spec).filter fun o =>
            o.deleting).map Object.name)
      else none
  | _ => none

def listsProxies (answer : Answer) : Call → Bool
  | .list .httpProxy .everything => answer.outcome = .done
  | _ => false

def Missed.notice (mine : Bool) (missed : Missed) (p : Project) (c : Call) (answer : Answer) :
    Missed :=
  let s := p.cluster.finalize answer.finalized
  let since := if mine then (foundDying s answer c).getD missed.dying else missed.dying
  { dying := noteDeleted s answer c since
    named := if mine && listsProxies answer c then []
      else pointedAt s answer c ++ missed.named }

def system (projectId : String) :
    System ServiceOp Call Call.Reply (Except Error Unit) Project Answer Seen Missed where
  code op := (op.run projectId).run
  handle := Project.handle
  protocol := protocol
  start _ := {}
  fresh := {}
  notice := Missed.notice
  abandon p _ := p

abbrev Operation := Client ServiceOp Call Call.Reply (Except Error Unit) Seen Missed

abbrev Operations := World ServiceOp Call Call.Reply (Except Error Unit) Project Seen Missed

/-- An operation points a proxy only at a connector that was not being deleted when
it looked it up and has not been deleted since; and it deletes a connector only
while no proxy names it that was pointed at it since the operation listed them. -/
def InTime (p : Project) (client : Operation) (c : Call) (answer : Answer) : Prop :=
  let s := p.cluster.finalize answer.finalized
  (∀ name ∈ pointedAt s answer c, name ∉ client.notes.dying) ∧
    ∀ name ∈ connectorDeleted s answer c, ∀ proxy ∈ (s .httpProxy).objects,
      proxy.deleting = false → name ∈ HTTPProxy.connectors proxy.spec → name ∉ client.notes.named

/-- No live proxy references a connector that an operation has deleted. -/
def NoneDangling (p : Project) : Prop :=
  ∀ proxy ∈ (p.cluster .httpProxy).objects, proxy.deleting = false →
    ∀ name ∈ HTTPProxy.connectors proxy.spec, name ∉ p.deleted

/-! ## One call -/

/-- The proxy was there before, alive and with the same rules. -/
def Before (s : Cluster) (name : String) (proxy : HTTPProxy) : Prop :=
  ∃ old, (s .httpProxy).get? name = some old ∧ old.deleting = false ∧
    old.spec.rules = proxy.spec.rules

variable {s : Cluster} {c : Call} {answer : Answer} {name : String} {proxy : HTTPProxy}

theorem live_after_create {newName : NewName} {spec : ProxySpec} (hlanded : answer.landed = true)
    (h : ((s.serve answer (.create .httpProxy newName spec)).1 .httpProxy).get? name = some proxy)
    (hlive : proxy.deleting = false) :
    Before s name proxy ∨ spec.rules = proxy.spec.rules ∧
      pointedAt s answer (.create .httpProxy newName spec) = connectorsOf proxy.spec.rules := by
  simp only [Cluster.serve, Cluster.replying_landed, hlanded, if_true] at h
  replace h := (Cluster.get?_create s .httpProxy _ name spec).symm.trans h
  split at h
  · rename_i hname
    cases hold : (s .httpProxy).get? (Cluster.newName newName answer.suffix) with
    | some old =>
        rw [hold] at h
        cases h
        exact .inl ⟨old, hname ▸ hold, hlive, rfl⟩
    | none =>
        rw [hold] at h
        cases h
        exact .inr ⟨rfl, by simp [pointedAt, hlanded, hold]⟩
  · exact .inl ⟨proxy, h, hlive, rfl⟩

theorem live_after_patch {target label : String} {hostnames : List String} {rules : List ProxyRule}
    (hlanded : answer.landed = true)
    (h : ((s.serve answer (.patch .httpProxy target (.proxy label hostnames rules))).1
      .httpProxy).get? name = some proxy) (hlive : proxy.deleting = false) :
    Before s name proxy ∨ rules = proxy.spec.rules ∧
      pointedAt s answer (.patch .httpProxy target (.proxy label hostnames rules)) =
        connectorsOf proxy.spec.rules := by
  simp only [Cluster.serve, Cluster.replying_landed, hlanded, if_true] at h
  replace h := (Cluster.get?_patch s .httpProxy _ name _).symm.trans h
  split at h
  · rename_i hname
    obtain ⟨old, hold, rfl⟩ := Option.map_eq_some_iff.mp h
    refine .inr ⟨rfl, ?_⟩
    simp only [pointedAt, hlanded, hold, Option.any_some, true_and]
    exact if_pos (by simpa using hlive)
  · exact .inl ⟨proxy, h, hlive, rfl⟩

theorem live_after_delete {target : String}
    (h : ((s.serve answer (.delete .httpProxy target)).1 .httpProxy).get? name = some proxy)
    (hlive : proxy.deleting = false) : Before s name proxy := by
  cases hlanded : answer.landed with
  | false =>
      rw [Cluster.serve_not_landed hlanded] at h
      exact ⟨proxy, h, hlive, rfl⟩
  | true =>
      simp only [Cluster.serve, Cluster.replying_landed, hlanded, if_true] at h
      replace h := (Cluster.get?_delete s .httpProxy _ name _).symm.trans h
      split at h
      · split at h
        · obtain ⟨old, _, rfl⟩ := Option.map_eq_some_iff.mp h
          cases hlive
        · cases h
      · exact ⟨proxy, h, hlive, rfl⟩

/-- A live proxy was there before with the same rules, or the call has written
them. -/
theorem live_after (h : ((s.serve answer c).1 .httpProxy).get? name = some proxy)
    (hlive : proxy.deleting = false) :
    Before s name proxy ∨ rulesOf c = some proxy.spec.rules ∧
      pointedAt s answer c = connectorsOf proxy.spec.rules := by
  cases hlanded : answer.landed with
  | false =>
      rw [Cluster.serve_not_landed hlanded] at h
      exact .inl ⟨proxy, h, hlive, rfl⟩
  | true =>
      have hother (hc : (s.serve answer c).1 .httpProxy = s .httpProxy) : Before s name proxy :=
        ⟨proxy, hc ▸ h, hlive, rfl⟩
      cases c with
      | create kind newName spec =>
          cases kind with
          | httpProxy =>
              refine (live_after_create hlanded h hlive).imp_right fun ⟨hrules, hpointed⟩ => ?_
              exact ⟨congrArg some hrules, hpointed⟩
          | _ => exact .inl (hother (Cluster.serve_other (by simp) (by simp) (by simp)))
      | patch kind target patch =>
          cases patch with
          | proxy label hostnames rules =>
              refine (live_after_patch hlanded h hlive).imp_right fun ⟨hrules, hpointed⟩ => ?_
              exact ⟨congrArg some hrules, hpointed⟩
          | _ => exact .inl (hother (Cluster.serve_other (by simp) (by simp) (by simp)))
      | delete kind target =>
          cases kind with
          | httpProxy => exact .inl (live_after_delete h hlive)
          | _ => exact .inl (hother (Cluster.serve_other (by simp) (by simp) (by simp)))
      | _ => exact .inl (hother (Cluster.serve_other (by simp) (by simp) (by simp)))

/-- A connector that is gone stays so until it is created again. -/
theorem gone_serve (hgone : (s .connector).Gone name)
    (hcreated : connectorCreated s answer c ≠ some name) :
    ((s.serve answer c).1 .connector).Gone name := by
  cases hlanded : answer.landed with
  | false => rwa [Cluster.serve_not_landed hlanded]
  | true =>
      have hother (hc : (s.serve answer c).1 .connector = s .connector) :
          ((s.serve answer c).1 .connector).Gone name := hc ▸ hgone
      cases c with
      | create kind newName spec =>
          cases kind with
          | connector =>
              intro o ho
              simp only [Cluster.serve, Cluster.replying_landed, hlanded, if_true] at ho
              replace ho := (Cluster.get?_create s .connector _ name spec).symm.trans ho
              split at ho
              · rename_i hname
                cases hold : (s .connector).get? name with
                | some old =>
                    rw [← hname, hold] at ho
                    cases ho
                    exact hgone _ hold
                | none => exact absurd (by simp [connectorCreated, hlanded, ← hname, hold]) hcreated
              · exact hgone o ho
          | _ => exact hother (Cluster.serve_other (by simp) (by simp) (by simp))
      | patch kind target patch =>
          by_cases hk : kind = .connector
          · subst hk
            intro o ho
            simp only [Cluster.serve, Cluster.replying_landed, hlanded, if_true] at ho
            replace ho := (Cluster.get?_patch s .connector _ name patch).symm.trans ho
            split at ho
            · rename_i hname
              obtain ⟨old, hold, rfl⟩ := Option.map_eq_some_iff.mp ho
              exact hgone old (hname ▸ hold)
            · exact hgone o ho
          · refine hother (Cluster.serve_other (by simp) ?_ (by simp))
            rintro target' patch' heq
            cases heq
            exact hk rfl
      | delete kind target =>
          cases kind with
          | connector =>
              intro o ho
              simp only [Cluster.serve, Cluster.replying_landed, hlanded, if_true] at ho
              replace ho := (Cluster.get?_delete s .connector _ name _).symm.trans ho
              split at ho
              · split at ho
                · obtain ⟨old, _, rfl⟩ := Option.map_eq_some_iff.mp ho
                  rfl
                · cases ho
              · exact hgone o ho
          | _ => exact hother (Cluster.serve_other (by simp) (by simp) (by simp))
      | _ => exact hother (Cluster.serve_other (by simp) (by simp) (by simp))

/-- A deleted connector is gone, or on its way out. -/
theorem gone_after {names : List String} (hgone : ∀ name ∈ names, (s .connector).Gone name) :
    ∀ name ∈ noteDeleted s answer c names, ((s.serve answer c).1 .connector).Gone name := by
  intro name hname
  rw [noteDeleted, List.mem_append, Option.mem_toList, List.mem_filter, decide_eq_true_eq] at hname
  rcases hname with hdeleted | ⟨hmem, hcreated⟩
  · obtain ⟨hby, hlanded⟩ := Option.filter_eq_some_iff.mp hdeleted
    rw [Bool.and_eq_true] at hlanded
    unfold deletedBy at hby
    split at hby
    · cases hby
      simp only [Cluster.serve, Cluster.replying_landed, hlanded.1, if_true]
      exact Cluster.gone_delete _ _ _ _
    · cases hby
  · exact gone_serve (hgone name hmem) hcreated

/-! ## The invariant -/

/-- The proxies an operation goes by account for the live ones. -/
def Accounts (s : Cluster) (proxies : List HTTPProxy) (named : List String) : Prop :=
  ∀ name proxy, (s .httpProxy).get? name = some proxy → proxy.deleting = false →
    ∀ connector ∈ connectorsOf proxy.spec.rules, connector ∉ named →
      ∃ listed ∈ proxies, liveConnectorName listed = some connector

/-- What an operation goes by is right, but for what it has missed: a connector it
has found is not deleted, and a connector that a live proxy names was referenced
by a proxy it has listed. -/
structure Aware (p : Project) (client : Operation) : Prop where
  found : ∀ name ∈ client.place.found, name ∉ client.notes.dying → name ∉ p.deleted
  listed : ∀ proxies, client.place.listed = some proxies →
    Accounts p.cluster proxies client.notes.named

/-- Every live proxy names one connector at most, and none that is deleted. -/
structure Project.Sound (p : Project) : Prop where
  one : ∀ name proxy, (p.cluster .httpProxy).get? name = some proxy → proxy.deleting = false →
    OneConnector proxy.spec.rules
  standing : ∀ name proxy, (p.cluster .httpProxy).get? name = some proxy →
    proxy.deleting = false → ∀ connector ∈ connectorsOf proxy.spec.rules, connector ∉ p.deleted
  gone : ∀ name ∈ p.deleted, (p.cluster .connector).Gone name

theorem mem_noteDeleted {names : List String} :
    name ∈ noteDeleted s answer c names ↔
      connectorDeleted s answer c = some name ∨
        name ∈ names ∧ connectorCreated s answer c ≠ some name := by
  rw [noteDeleted, List.mem_append, Option.mem_toList, List.mem_filter, decide_eq_true_eq]

/-- What was right of the connectors deleted before a call is right after it. -/
theorem not_mem_noteDeleted {dying deleted : List String} (h : name ∉ dying → name ∉ deleted)
    (hname : name ∉ noteDeleted s answer c dying) : name ∉ noteDeleted s answer c deleted := by
  rw [mem_noteDeleted] at hname ⊢
  rintro (hdel | ⟨hmem, hcreated⟩)
  · exact hname (.inl hdel)
  · exact h (fun hdying => hname (.inr ⟨hdying, hcreated⟩)) hmem

theorem deletedBy_eq_none {rules : List ProxyRule} (h : rulesOf c = some rules) :
    deletedBy c = none := by
  unfold rulesOf at h
  split at h
  · rfl
  · rfl
  · cases h

variable {g : Seen} {dying deleted : List String}

theorem found_after (hgone : ∀ name ∈ deleted, (s .connector).Gone name) (hallowed : g.Allowed c)
    (hfound : ∀ name ∈ g.found, name ∉ dying → name ∉ deleted) :
    ∀ name ∈ (g.advance c (s.serve answer c).2).found,
      name ∉ noteDeleted s answer c ((foundDying s answer c).getD dying) →
        name ∉ noteDeleted s answer c deleted := by
  intro name hname hmissed
  have hstays (hplace : (g.advance c (s.serve answer c).2).found = g.found)
      (hnone : foundDying s answer c = none) : name ∉ noteDeleted s answer c deleted := by
    rw [hplace] at hname
    rw [hnone] at hmissed
    exact not_mem_noteDeleted (hfound name hname) hmissed
  cases c with
  | list kind selector =>
      cases kind with
      | connector =>
          cases selector with
          | everything => exact hstays rfl rfl
          | field path value =>
              cases hout : answer.outcome with
              | done =>
                  -- what the lookup returned is alive, or known to be dying
                  simp only [Cluster.serve, Cluster.replying, hout, Seen.advance, List.mem_map] at hname
                  obtain ⟨o, ho, rfl⟩ := hname
                  refine not_mem_noteDeleted (fun hdying hdeleted => ?_) hmissed
                  have hlive : o.deleting = true :=
                    hgone _ hdeleted o (Table.mem_iff.mp (List.mem_of_mem_filter ho))
                  refine hdying ?_
                  simp only [foundDying, hout, if_true, Option.getD_some, List.mem_map]
                  exact ⟨o, List.mem_filter.mpr ⟨ho, hlive⟩, rfl⟩
              | failed err honest =>
                  exact hstays (by simp [Cluster.serve, Cluster.replying, hout, Seen.advance])
                    (by simp [foundDying, hout])
              | lost err honest =>
                  exact hstays (by simp [Cluster.serve, Cluster.replying, hout, Seen.advance])
                    (by simp [foundDying, hout])
      | httpProxy =>
          have hplace : ∀ r, (g.advance (.list .httpProxy selector) r).found = g.found := by
            intro r
            cases selector <;> cases r <;> rfl
          exact hstays (hplace _) rfl
      | _ => exact hstays rfl rfl
  | create kind newName spec =>
      cases kind with
      | connector =>
          cases hr : (s.serve answer (.create .connector newName spec)).2 with
          | error err => exact hstays (by rw [hr]; rfl) rfl
          | ok o =>
              obtain ⟨hlanded, honame, hfree⟩ := Cluster.create_ok hr
              rw [hr] at hname
              obtain rfl : name = o.name := List.mem_singleton.mp hname
              have hcreated : connectorCreated s answer (.create .connector newName spec) =
                  some o.name := by
                simp [connectorCreated, hlanded, hfree, honame]
              rw [mem_noteDeleted]
              rintro (hdel | ⟨_, hne⟩)
              · cases hdel
              · exact hne hcreated
      | _ => exact hstays rfl rfl
  | patch kind target patch =>
      by_cases hk : kind = .connector
      · subst hk
        cases hr : (s.serve answer (.patch .connector target patch)).2 with
        | error err => exact hstays (by rw [hr]; rfl) rfl
        | ok o =>
            have honame := Cluster.patch_ok hr
            rw [hr] at hname
            have hmem : name ∈ g.found := by
              rcases List.mem_cons.mp hname with rfl | hmem
              · rw [honame]
                exact hallowed.patches target rfl
              · exact hmem
            exact not_mem_noteDeleted (hfound name hmem) hmissed
      · have hplace : ∀ r, g.advance (.patch kind target patch) r = g := by
          intro r
          cases kind <;> first | rfl | exact absurd rfl hk
        exact hstays (by rw [hplace]) rfl
  | _ => exact hstays rfl rfl

/-- A live proxy that names one connector references it. -/
theorem liveConnectorName_of_mem {connector : String} (hlive : proxy.deleting = false)
    (hone : OneConnector proxy.spec.rules) (hmem : connector ∈ connectorsOf proxy.spec.rules) :
    liveConnectorName proxy = some connector := by
  rw [liveConnectorName, hlive, if_neg (by simp), HTTPProxy.connectorName_eq_head?,
    HTTPProxy.connectors]
  cases hc : connectorsOf proxy.spec.rules with
  | nil =>
      rw [hc] at hmem
      cases hmem
  | cons first rest =>
      have hfirst : first ∈ connectorsOf proxy.spec.rules := hc ▸ List.mem_cons_self
      rw [List.head?_cons, hone first hfirst connector hmem]

/-- They do so after a call too, when what it points proxies at is noted. -/
theorem Accounts.serve {proxies : List HTTPProxy} {named : List String}
    (h : Accounts s proxies named) :
    Accounts (s.serve answer c).1 proxies (pointedAt s answer c ++ named) := by
  intro name proxy hproxy hlive connector hmem hmissed
  rw [List.mem_append, not_or] at hmissed
  rcases live_after hproxy hlive with ⟨old, hold, holdlive, hrules⟩ | ⟨_, hpointed⟩
  · exact h name old hold holdlive connector (hrules ▸ hmem) hmissed.2
  · rw [hpointed] at hmissed
    exact absurd hmem hmissed.1

/-- Only a list of all proxies is gone by. -/
theorem advance_listed (h : ¬ listsProxies answer c = true) :
    (g.advance c (s.serve answer c).2).listed = g.listed := by
  generalize hr : (s.serve answer c).2 = r
  cases c with
  | list kind selector =>
      cases kind with
      | httpProxy =>
          cases selector with
          | everything =>
              cases hout : answer.outcome with
              | done => exact absurd (by simp [listsProxies, hout]) h
              | failed err honest =>
                  simp only [Cluster.serve, Cluster.replying, hout] at hr
                  subst hr
                  rfl
              | lost err honest =>
                  simp only [Cluster.serve, Cluster.replying, hout] at hr
                  subst hr
                  rfl
          | field path value => rfl
      | connector => cases selector <;> cases r <;> rfl
      | _ => rfl
  | create kind newName spec =>
      cases kind with
      | connector => cases r <;> rfl
      | _ => rfl
  | patch kind target patch =>
      cases kind with
      | connector => cases r <;> rfl
      | _ => rfl
  | _ => rfl

theorem listed_after {named : List String}
    (hone : ∀ name proxy, (s .httpProxy).get? name = some proxy → proxy.deleting = false →
      OneConnector proxy.spec.rules)
    (hlisted : ∀ proxies, g.listed = some proxies → Accounts s proxies named) :
    ∀ proxies, (g.advance c (s.serve answer c).2).listed = some proxies →
      Accounts (s.serve answer c).1 proxies
        (if listsProxies answer c then [] else pointedAt s answer c ++ named) := by
  intro proxies hproxies
  by_cases hlists : listsProxies answer c = true
  · rw [if_pos hlists]
    unfold listsProxies at hlists
    split at hlists
    · rw [decide_eq_true_eq] at hlists
      simp only [Cluster.serve, Cluster.replying, hlists, Seen.advance, Option.some.injEq] at hproxies
      subst hproxies
      rw [Cluster.serve_fst s answer (by simp) (by simp) (by simp)]
      intro name proxy hproxy hlive connector hmem _
      refine ⟨proxy, ?_, liveConnectorName_of_mem hlive (hone name proxy hproxy hlive) hmem⟩
      exact List.mem_filter.mpr ⟨List.mem_of_find?_eq_some hproxy, rfl⟩
    · cases hlists
  · rw [if_neg hlists]
    rw [advance_listed hlists] at hproxies
    exact (hlisted proxies hproxies).serve

/-! ## Runs -/

variable {projectId : String} {w w' : Operations}

theorem ServiceOp.follows (op : ServiceOp) :
    Follows protocol (fun _ _ => True) (op.run projectId).run {} := by
  have hunit {α : Type} {p : SvcE α} (h : Keeps p {}) :
      Follows protocol (fun _ _ => True) (do let _ ← p : SvcE Unit).run {} :=
    Follows.bind (h.mono fun _ r _ => by cases r <;> exact trivial)
  cases op with
  | create svc label endpoint => exact hunit (keeps_createProject svc projectId label endpoint)
  | update svc tunnelId label endpoint =>
      exact hunit (keeps_updateProject svc projectId tunnelId label endpoint)
  | setEnabled svc tunnelId enabled =>
      exact hunit (keeps_setEnabledProject svc projectId tunnelId enabled)
  | delete svc tunnelId => exact hunit (keeps_deleteProject svc projectId tunnelId)
  | cleanup => exact hunit (keeps_cleanupOrphanedConnectorsProject projectId)

/-! ### Finalizers -/

/-- The project when a call gets to it. -/
def Project.settle (p : Project) (answer : Answer) : Project :=
  { p with cluster := p.cluster.finalize answer.finalized }

theorem Project.get?_of_settle {p : Project}
    (h : ((p.settle answer).cluster .httpProxy).get? name = some proxy) :
    (p.cluster .httpProxy).get? name = some proxy :=
  (Option.filter_eq_some_iff.mp ((Table.get?_finalize _ _ _).symm.trans h)).1

theorem Project.Sound.settle {p : Project} (h : p.Sound) (answer : Answer) :
    (p.settle answer).Sound where
  one name proxy hproxy := h.one name proxy (Project.get?_of_settle hproxy)
  standing name proxy hproxy := h.standing name proxy (Project.get?_of_settle hproxy)
  gone name hname := (Table.shrinks_finalize (R := Eq) _ _).gone (h.gone name hname)

theorem Aware.settle {p : Project} {client : Operation} (h : Aware p client) (answer : Answer) :
    Aware (p.settle answer) client where
  found := h.found
  listed proxies hproxies name proxy hproxy :=
    h.listed proxies hproxies name proxy (Project.get?_of_settle hproxy)

/-! ### One call -/

variable {p : Project} {client : Operation}

theorem Project.Sound.call (hsound : p.Sound) (haware : Aware p client)
    (hallowed : client.place.Allowed c) (hintime : InTime p client c answer) :
    (p.handle c answer).1.Sound := by
  have hsettled := hsound.settle answer
  have haware := haware.settle answer
  obtain ⟨hpoints, hdeletes⟩ := hintime
  refine ⟨fun name proxy hproxy hlive => ?_, fun name proxy hproxy hlive => ?_,
    gone_after hsettled.gone⟩
  · rcases live_after hproxy hlive with ⟨old, hold, holdlive, hrules⟩ | ⟨hrules, _⟩
    · exact hrules ▸ hsettled.one name old hold holdlive
    · exact (hallowed.names _ hrules).1
  · intro connector hmem hdeleted
    rw [show (p.handle c answer).1.deleted =
      noteDeleted (p.settle answer).cluster answer c p.deleted from rfl, mem_noteDeleted] at hdeleted
    rcases live_after hproxy hlive with ⟨old, hold, holdlive, hrules⟩ | ⟨hrules, hpointed⟩
    · rw [← hrules] at hmem
      rcases hdeleted with hnow | ⟨hbefore, _⟩
      · -- whoever deletes the connector has listed a proxy that references it
        obtain ⟨proxies, hlisted, hunused⟩ :=
          hallowed.deletes connector (Option.filter_eq_some_iff.mp hnow).1
        have hnamed := hdeletes connector hnow old (List.mem_of_find?_eq_some hold) holdlive hmem
        obtain ⟨listed, hin, href⟩ :=
          haware.listed proxies hlisted name old hold holdlive connector hmem hnamed
        exact hunused listed hin href
      · exact hsettled.standing name old hold holdlive connector hmem hbefore
    · have hfound := (hallowed.names _ hrules).2 connector hmem
      have hdying := hpoints connector (hpointed ▸ hmem)
      rcases hdeleted with hnow | ⟨hbefore, _⟩
      · rw [connectorDeleted, deletedBy_eq_none hrules] at hnow
        cases hnow
      · exact haware.found connector hfound hdying hbefore

theorem Aware.moved {k : c.Reply → Svc (Except Error Unit)} (hsound : p.Sound)
    (haware : Aware p client) (hallowed : client.place.Allowed c) :
    Aware (p.handle c answer).1 (client.moved (system projectId) p c k answer) := by
  have hsettled := hsound.settle answer
  have haware := haware.settle answer
  refine ⟨?_, ?_⟩
  · exact found_after hsettled.gone hallowed haware.found
  · exact listed_after hsettled.one haware.listed

theorem Aware.noticing (haware : Aware p client) :
    Aware (p.handle c answer).1 (client.noticing (system projectId) false p c answer) := by
  have haware := haware.settle answer
  refine ⟨fun name hname hmissed => ?_, fun proxies hproxies => ?_⟩
  · exact not_mem_noteDeleted (haware.found name hname) hmissed
  · exact (haware.listed proxies hproxies).serve

/-! ### One step, and a run -/

structure Standing (projectId : String) (w : Operations) : Prop where
  sound : w.state.Sound
  aware : ∀ (i : Nat) (client : Operation), w.clients[i]? = some client → Aware w.state client
  faithful : (system projectId).Faithful (fun _ _ _ => True) w

theorem Standing.step {act : Act ServiceOp Answer} (h : Standing projectId w)
    (hcond : System.OnCall InTime w act) (hstep : (system projectId).step w act = some w') :
    Standing projectId w' := by
  have hfaithful := h.faithful.step ServiceOp.follows hstep
  cases act with
  | spawn op =>
      obtain rfl := System.step_spawn hstep
      refine ⟨h.sound, fun i client hclient => ?_, hfaithful⟩
      rcases System.client_of_spawn hclient with hold | ⟨_, rfl⟩
      · exact h.aware i client hold
      · exact ⟨fun _ h => (nomatch h), fun _ h => (nomatch h)⟩
  | step i answer =>
      obtain ⟨client, c, k, hclient, hprog, rfl⟩ := System.step_call hstep
      have hallowed := h.faithful.allowed hclient hprog
      have haware := h.aware i client hclient
      have hintime := hcond client hclient c (by simp [Client.next, hprog])
      refine ⟨h.sound.call haware hallowed hintime, fun j cl hcl => ?_, hfaithful⟩
      rcases System.client_of_call hcl with ⟨_, rfl⟩ | ⟨_, other, hother, rfl⟩
      · exact haware.moved h.sound hallowed
      · exact (h.aware j other hother).noticing
  | drop i =>
      obtain ⟨client, c, k, hclient, hprog, rfl⟩ := System.step_drop hstep
      refine ⟨h.sound, fun j cl hcl => ?_, hfaithful⟩
      rcases System.client_of_drop hcl with ⟨_, rfl⟩ | ⟨_, hold⟩
      · exact ⟨(h.aware i client hclient).found, (h.aware i client hclient).listed⟩
      · exact h.aware j cl hold

/-- From a project whose live proxies each name one connector at most, in every run
of operations that are in time, no live proxy comes to reference a connector that
one of them has deleted. -/
theorem none_dangling (projectId : String) (s : Cluster)
    (hone : ∀ proxy ∈ (s .httpProxy).objects, proxy.deleting = false →
      OneConnector proxy.spec.rules)
    (acts : List (Act ServiceOp Answer)) (w : Operations)
    (hrun : Runs.run (system projectId).step { state := { cluster := s } } acts = some w)
    (hintime : Runs.Meets (system projectId).step (System.OnCall InTime)
      { state := { cluster := s } } acts) :
    NoneDangling w.state := by
  have hinit : Standing projectId { state := { cluster := s } } :=
    { sound := {
        one := fun name proxy hproxy hlive => hone proxy (List.mem_of_find?_eq_some hproxy) hlive
        standing := fun _ _ _ _ _ _ h => nomatch h
        gone := fun _ h => nomatch h }
      aware := fun i client hclient => by simp at hclient
      faithful := fun i client p hclient => by simp at hclient }
  have hstanding := Runs.invariant (fun w act w' h hcond hstep => h.step hcond hstep)
    hinit hintime hrun
  intro proxy hproxy hlive
  exact hstanding.sound.standing proxy.name proxy (Table.mem_iff.mp hproxy) hlive

/-! ### A create and a cleanup -/

instance (p : Project) (client : Operation) (c : Call) (answer : Answer) :
    Decidable (InTime p client c answer) := by
  unfold InTime
  infer_instance

instance (p : Project) : Decidable (NoneDangling p) := by
  unfold NoneDangling
  infer_instance

/-- A service with no connector yet. -/
def newService : TunnelService where
  endpointId := "key"
  publishTickets := false
  createTrafficProtectionPolicies := false
  wafExemptMatches := none
  edgePolicies := false
  friendlyDeviceName := "box"
  os := "linux"
  parseUrl _ := some { hostStr := some "h", port := some 1 }

/-- A create, up to where its connector is there and its proxy is not. -/
def connectorMade : List (Act ServiceOp Answer) :=
  .spawn (.create newService "a" "h:1") :: List.replicate 4 (.step 0 {}) ++
    [.step 0 { suffix := "x" }, .step 0 {}, .step 0 {}]

def cleanupAfter : List (Act ServiceOp Answer) :=
  connectorMade ++ [.step 0 { suffix := "y" }, .spawn .cleanup] ++ List.replicate 3 (.step 1 {})

/-- The cleanup lists the proxies and the connectors before the create makes its
proxy, and deletes the connector after that. -/
def cleanupAround : List (Act ServiceOp Answer) :=
  connectorMade ++ [.spawn .cleanup] ++ List.replicate 3 (.step 1 {}) ++
    [.step 0 { suffix := "y" }] ++ List.replicate 2 (.step 1 {})

theorem none_dangling_cleanupAfter :
    ∃ w, Runs.run (system "p").step { state := { cluster := Cluster.empty } } cleanupAfter =
      some w ∧ NoneDangling w.state :=
  ⟨_, rfl, none_dangling "p" Cluster.empty (fun _ h => nomatch h) cleanupAfter _ rfl (by decide)⟩

theorem none_dangling_cleanupAround :
    ∃ w, Runs.run (system "p").step { state := { cluster := Cluster.empty } } cleanupAround =
      some w ∧ ¬ NoneDangling w.state :=
  ⟨_, rfl, by decide⟩

end Connectors

end DatumConnect.Tunnels
