import DatumConnect.Daemon.Operations
import DatumConnect.Tunnels.Footprint
import DatumConnect.Lib.Pool
/-!
# Where an operation stands

What the calls an operation has made have led it to: the tunnel it has reserved,
the tunnel it has seen to be there, whether it owes its tunnel an entry in
`running`.  Which calls an operation makes depends on that alone.
-/

namespace DatumConnect.Daemon

open DatumConnect.Lib
open DatumConnect.Lib.Prog (Protocol Follows Stays Only OnOk)
open DatumConnect.Cloud (Error SvcE Kind)
open DatumConnect.Tunnels

/-- What the daemon keeps of a tunnel. -/
inductive Store where
  | running
  | inspectors
  | targets
  | notes
  | tokens
  deriving DecidableEq, Repr

structure Place where
  /-- It may change something: it is no start that has reserved nothing yet. -/
  writes : Bool := true
  /-- The tunnel it has reserved. -/
  held : Option String := none
  /-- The tunnel it has seen to be there, and may still write something of. -/
  seen : Option String := none
  /-- Its tunnel may be on at the server and is not in `running`, and nothing has
  failed since. -/
  owing : Bool := false
  /-- The tunnels it is to stop, and those it has tried to reserve. -/
  due : List String := []
  attempted : List String := []
  /-- The tunnel it deletes, and what it has removed of it. -/
  deletes : Option String := none
  wiped : List Store := []

/-- The calls that only read. -/
def reads : Cloud.Call → Bool
  | .selectedContext | .projectControlPlaneClient _ | .list _ _ => true
  | _ => false

/-- The call may change something, other than by a claim. -/
def Call.writes : Call → Bool
  | .claimBusy _ | .runningContains _ | .runningGet _ | .runningExpired _ => false
  | .inspectorsContains _ | .loadInspectorTarget _ => false
  | .service (.getActive _) c => !reads c
  | _ => true

/-- The reply makes the method fail, or may do so. -/
def fails (method : Method) : (c : Cloud.Call) → c.Reply → Bool
  | .selectedContext, none => (method matches .setEnabled _ _)
  | .projectControlPlaneClient _, .error _ => true
  | .get _ _, .error _ => true
  | .getOpt _ _, .error _ => true
  | .list _ _, .error _ => true
  | .create _ _ _, .error _ => true
  | .patch _ _ _, .error _ => true
  | .delete _ _, .error _ => true
  | _, _ => false

/-- The tunnel is among the proxies that are listed. -/
def finds (id : String) : (c : Cloud.Call) → c.Reply → Bool
  | .list .httpProxy _, .ok proxies => proxies.any fun proxy => proxy.name = id
  | _, _ => false

/-- The tunnel that a create has made. -/
def makes : (c : Cloud.Call) → c.Reply → Option String
  | .create .httpProxy _ _, .ok proxy => some proxy.name
  | _, _ => none

namespace Place

/-- What a call that goes with the place is bound to: what is entered for a tunnel
is entered by an operation that has seen it, and `running` by one that has reserved
it. -/
def Binds (g : Place) : Call → Prop
  | .claimBusy _ => g.held = none
  | .releaseBusy id => g.held = some id ∧ g.owing = false
  | .runningInsert id _ _ => g.held = some id ∧ g.seen = some id
  | .runningRemove id => g.deletes = some id ∨ g.deletes = none ∧ g.held = some id
  | .inspectorsInsert id _ | .saveInspectorTarget id _ => g.seen = some id
  | .saveNote id _ | .createTokensDir id | .writeToken id _ => g.seen = some id
  | .inspectorsRemove id | .removeInspectorTarget id | .deleteTokens id => g.deletes = some id
  | .removeNote id => g.deletes = some id ∨ g.deletes = none
  | .service (.setEnabled id _) _ => g.held = some id
  | _ => True

structure Allowed (g : Place) (c : Call) : Prop where
  binds : g.Binds c
  writes : c.writes = true → g.writes = true

def advance (g : Place) : (c : Call) → c.Reply → Place
  | .claimBusy id, claimed => { g with
      writes := claimed || g.writes
      held := if claimed then some id else g.held
      attempted := id :: g.attempted }
  | .releaseBusy _, _ => { g with held := none }
  | .runningInsert _ _ _, _ => { g with owing := false, seen := none }
  | .runningRemove _, removed =>
      { g with owing := removed.isSome || g.owing, wiped := .running :: g.wiped }
  | .runningExpired _, ids => { g with due := ids }
  | .inspectorsInsert _ _, _ => { g with seen := if g.held = none then none else g.seen }
  | .inspectorsRemove _, _ => { g with wiped := .inspectors :: g.wiped }
  | .removeInspectorTarget _, _ => { g with wiped := .targets :: g.wiped }
  | .removeNote _, _ => { g with wiped := .notes :: g.wiped }
  | .saveNote _ _, _ => { g with seen := none }
  | .writeToken _ _, _ => { g with seen := none }
  | .deleteTokens _, _ => { g with wiped := .tokens :: g.wiped }
  | .service (.getActive id) c, r => { g with
      seen := if finds id c r then some id else g.seen
      owing := !fails (.getActive id) c r && g.owing }
  | .service .create c, r => { g with seen := (makes c r).or g.seen }
  | .service (.setEnabled id true) c, r => { g with
      owing := !fails (.setEnabled id true) c r && (writesAdvertisement c || g.owing) }
  | .service (.setEnabled id false) c, r => { g with
      owing := !fails (.setEnabled id false) c r && !seesNoAdvertisement c r && g.owing }
  | _, _ => g

end Place

def protocol : Protocol Call Call.Reply Place where
  allowed := Place.Allowed
  advance := Place.advance

/-! ## Methods of a service -/

variable {α : Type} {g : Place} {id : String}

/-- The protocol within a method. -/
abbrev within (method : Method) : Protocol Cloud.Call Cloud.Call.Reply Place :=
  protocol.comap (Call.service method)

theorem follows_service {method : Method} {p : SvcE α} {post : Place → Except Error α → Prop}
    (h : Follows (within method) post p.run g) :
    Follows protocol post (Task.service method p) g :=
  Follows.embed h

theorem follows_orInternal {p : Task (Except Error α)} {post : Place → Except Rejection α → Prop}
    (h : Follows protocol (fun g r => post g (r.mapError .internal)) p g) :
    Follows protocol post (TaskE.orInternal p).run g :=
  Follows.bind (h.mono fun _ _ hr => hr)

theorem follows_lift {p : Task α} {post : Place → Except Rejection α → Prop}
    (h : Follows protocol (fun g a => post g (.ok a)) p g) :
    Follows protocol post (TaskE.lift p).run g :=
  Follows.bind (h.mono fun _ _ ha => ha)

theorem stays_orInternal {p : Task (Except Error α)} (h : Stays protocol g p) :
    Stays protocol g (TaskE.orInternal p).run :=
  h.bind fun _ => Stays.ret _

theorem stays_lift {p : Task α} (h : Stays protocol g p) :
    Stays protocol g (TaskE.lift p).run :=
  h.bind fun _ => Stays.ret _

/-- A call that leads nowhere. -/
theorem stays_perform {c : Call} (hbinds : g.Binds c) (hwrites : g.writes = true)
    (hadvance : ∀ r, g.advance c r = g) : Stays protocol g (Task.perform c) :=
  Stays.perform ⟨hbinds, fun _ => hwrites⟩ hadvance

/-- A method whose calls lead nowhere. -/
theorem stays_service {method : Method} (p : SvcE α)
    (hbinds : ∀ c, g.Binds (.service method c)) (hwrites : g.writes = true)
    (hadvance : ∀ c r, g.advance (.service method c) r = g) :
    Stays protocol g (Task.service method p) := by
  refine follows_service ?_
  generalize p.run = q
  induction q with
  | ret a => rfl
  | call c k ih =>
      refine ⟨⟨hbinds c, fun _ => hwrites⟩, fun r => ?_⟩
      rw [show (within method).advance g c r = g from hadvance c r]
      exact ih r

/-! ### Looking a tunnel up -/

/-- The place after a look at a tunnel. -/
def Place.looked (g : Place) (id : String) (found failed : Bool) : Place :=
  { g with seen := if found then some id else g.seen, owing := !failed && g.owing }

/-- A failure fails the look, and a tunnel that it returns has been seen. -/
def Looked (id : String) (g : Place) {ε : Type} (g' : Place)
    (r : Except ε (Option TunnelSummary)) : Prop :=
  ∃ found failed, g' = g.looked id found failed ∧ (∀ err, r = .error err → failed = true) ∧
    ∀ tunnel, r = .ok (some tunnel) → found = true

theorem follows_listActive (id : String) (g : Place) :
    Follows (within (.getActive id))
      (fun g' r => ∃ found failed, g' = g.looked id found failed ∧
        (∀ err, r = .error err → failed = true) ∧
        ∀ tunnels, r = .ok tunnels → (∃ tunnel ∈ tunnels, tunnel.id = id) → found = true)
      TunnelService.listActive.run g := by
  refine ⟨⟨trivial, fun h => nomatch h⟩, fun project => ?_⟩
  cases project with
  | none =>
      refine ⟨false, false, rfl, fun _ h => (nomatch h), ?_⟩
      rintro tunnels htunnels ⟨tunnel, hmem, _⟩
      cases htunnels
      cases hmem
  | some projectId =>
      refine ⟨⟨trivial, fun h => nomatch h⟩, fun client => ?_⟩
      cases client with
      | error err => exact ⟨false, true, rfl, fun _ _ => rfl, fun _ h => nomatch h⟩
      | ok _ =>
          refine ⟨⟨trivial, fun h => nomatch h⟩, fun proxies => ?_⟩
          cases proxies with
          | error err => exact ⟨false, true, rfl, fun _ _ => rfl, fun _ h => nomatch h⟩
          | ok proxies =>
              refine ⟨⟨trivial, fun h => nomatch h⟩, fun ads => ?_⟩
              cases ads with
              | error err => exact ⟨_, true, rfl, fun _ _ => rfl, fun _ h => nomatch h⟩
              | ok ads =>
                  refine ⟨⟨trivial, fun h => nomatch h⟩, fun connectors => ?_⟩
                  cases connectors with
                  | error err => exact ⟨_, true, rfl, fun _ _ => rfl, fun _ h => nomatch h⟩
                  | ok connectors =>
                      refine ⟨_, false, rfl, fun _ h => (nomatch h), ?_⟩
                      rintro tunnels htunnels ⟨tunnel, hmem, hid⟩
                      cases htunnels
                      obtain ⟨proxy, hproxy, rfl⟩ := List.mem_map.mp hmem
                      have hin := (List.mem_filter.mp hproxy).1
                      exact List.any_eq_true.mpr ⟨proxy, hin, decide_eq_true hid⟩

theorem follows_getActive (id : String) (g : Place) :
    Follows (within (.getActive id)) (Looked id g) (TunnelService.getActive id).run g := by
  refine Follows.bindE ((follows_listActive id g).mono ?_)
  rintro g' r ⟨found, failed, rfl, hfailed, hfound⟩
  cases r with
  | error err => exact ⟨found, failed, rfl, fun _ _ => hfailed err rfl, fun _ h => nomatch h⟩
  | ok tunnels =>
      refine ⟨found, failed, rfl, fun _ h => (nomatch h), fun tunnel htunnel => ?_⟩
      have htunnel := Except.ok.inj htunnel
      exact hfound tunnels rfl ⟨tunnel, List.mem_of_find?_eq_some htunnel,
        by simpa using List.find?_some htunnel⟩

/-! ### Turning a tunnel on and off -/

theorem follows_mapError {method : Method} {β ε : Type} {f : ε → Error}
    {p : Cloud.Svc (Except ε β)} {post : Place → Except Error β → Prop}
    (h : Follows (within method) (fun g r => post g (r.mapError f)) p g) :
    Follows (within method) post (SvcE.mapError f p).run g :=
  Follows.bind (h.mono fun _ _ hr => hr)

/-- The operation owes its tunnel nothing. -/
def Place.paid (g : Place) : Place := { g with owing := false }

theorem not_writesAdvertisement {kinds : List Kind} {c : Cloud.Call} (h : Writes kinds c)
    (hkinds : .connectorAdvertisement ∉ kinds) : writesAdvertisement c = false := by
  cases hw : writesAdvertisement c with
  | false => rfl
  | true =>
      refine absurd (h .connectorAdvertisement ?_) hkinds
      unfold writesAdvertisement at hw
      split at hw
      · rfl
      · rfl
      · cases hw

/-- What a method that turns its tunnel on or off leads to. -/
theorem follows_switching {β : Type} (on : Bool) (p : Cloud.Svc β) (hheld : g.held = some id)
    (hwrites : g.writes = true) :
    Follows (within (.setEnabled id on)) (fun g' _ => ∃ owing, g' = { g with owing := owing }) p
      g := by
  suffices hgen : ∀ owing, Follows (within (.setEnabled id on))
      (fun g' _ => ∃ owing, g' = { g with owing := owing }) p { g with owing := owing } from
    hgen g.owing
  induction p with
  | ret a => exact fun owing => ⟨owing, rfl⟩
  | call c k ih =>
      intro owing
      refine ⟨⟨hheld, fun _ => hwrites⟩, fun r => ?_⟩
      cases on <;> exact ih r _

/-- A part of turning a tunnel on that comes before its advertisement is written. -/
theorem stays_enabling {β : Type} (kinds : List Kind) {p : Cloud.Svc β}
    (hp : Only (Writes kinds) p) (hkinds : .connectorAdvertisement ∉ kinds)
    (hheld : g.held = some id) (hwrites : g.writes = true) (howing : g.owing = false) :
    Stays (within (.setEnabled id true)) g p := by
  refine Stays.of_only hp (fun c _ => ⟨hheld, fun _ => hwrites⟩) fun c r hc => ?_
  have hadvance : g.advance (.service (.setEnabled id true) c) r = { g with
      owing := !fails (.setEnabled id true) c r && (writesAdvertisement c || g.owing) } := rfl
  refine Eq.trans hadvance ?_
  rw [not_writesAdvertisement hc hkinds, howing, Bool.or_false, Bool.and_false, ← howing]

/-- Where turning the tunnel on fails, nothing is owed. -/
def Enabled (g : Place) {β : Type} (g' : Place) (r : Except Error β) : Prop :=
  ∃ owing, g' = { g with owing := owing } ∧ ∀ err, r = .error err → owing = false

theorem Enabled.failed (howing : g.owing = false) {β : Type} (err : Error) :
    Enabled g g (.error err : Except Error β) :=
  ⟨g.owing, rfl, fun _ _ => howing⟩

theorem Enabled.passed {β γ : Type} {g' : Place} {err : Error}
    (h : Enabled g g' (.error err : Except Error β)) :
    Enabled g g' (.error err : Except Error γ) := by
  obtain ⟨owing, hg', hfailed⟩ := h
  exact ⟨owing, hg', fun _ _ => hfailed err rfl⟩

theorem follows_createRetried {name : Cloud.NewName} {adSpec : Cloud.AdvertisementSpec}
    {context : String} (hheld : g.held = some id) (hwrites : g.writes = true) :
    Follows (within (.setEnabled id true)) (Enabled g)
      (SvcE.orElseContext (createRetried .connectorAdvertisement name adSpec) context).run g := by
  refine follows_mapError ?_
  unfold createRetried
  suffices hgen : ∀ owing, Follows (within (.setEnabled id true))
      (fun g' r => Enabled g g' (Except.mapError (Error.kube context) r))
      (withQuotaCheckRetry (Cloud.Svc.create .connectorAdvertisement name adSpec) quotaCheckDelays)
      { g with owing := owing } from hgen g.owing
  generalize quotaCheckDelays = delays
  induction delays with
  | nil =>
      intro owing
      refine ⟨⟨hheld, fun _ => hwrites⟩, fun r => ?_⟩
      cases r with
      | ok ad => exact ⟨true, rfl, fun _ h => nomatch h⟩
      | error err => exact ⟨false, rfl, fun _ _ => rfl⟩
  | cons delay delays ih =>
      intro owing
      refine Follows.bind ⟨⟨hheld, fun _ => hwrites⟩, fun r => ?_⟩
      cases r with
      | ok ad => exact ⟨true, rfl, fun _ h => nomatch h⟩
      | error err =>
          simp only [Follows]
          split
          · exact Follows.bind ⟨⟨hheld, fun _ => hwrites⟩, fun _ => ih _⟩
          · exact ⟨false, rfl, fun _ _ => rfl⟩

theorem follows_writeAdvertisement {adSpec : Cloud.AdvertisementSpec} (hheld : g.held = some id)
    (hwrites : g.writes = true) (howing : g.owing = false) :
    Follows (within (.setEnabled id true)) (Enabled g)
      (TunnelService.writeAdvertisement id adSpec).run g := by
  have hget : Stays (within (.setEnabled id true)) g
      (SvcE.orElseContext (Cloud.Svc.getOpt .connectorAdvertisement id)
        "Failed to load ConnectorAdvertisement").run :=
    stays_enabling [] (Writes.mapError (Only.perform (Writes.of_none rfl)))
      List.not_mem_nil hheld hwrites howing
  refine hget.andThenE (fun existing => ?_) (Enabled.failed howing)
  cases existing with
  | some ad =>
      refine Follows.bindE (follows_mapError ⟨⟨hheld, fun _ => hwrites⟩, fun r => ?_⟩)
      cases r with
      | ok written => exact ⟨true, rfl, fun _ h => nomatch h⟩
      | error err => exact ⟨false, rfl, fun _ _ => rfl⟩
  | none =>
      refine Follows.bindE ((follows_createRetried hheld hwrites).mono fun g' r hr => ?_)
      cases r with
      | ok written =>
          obtain ⟨owing, rfl, _⟩ := hr
          exact ⟨owing, rfl, fun _ h => nomatch h⟩
      | error err => exact hr.passed

theorem follows_enable (svc : TunnelService) {projectId endpoint label : String}
    {proxy : Cloud.HTTPProxy} (hheld : g.held = some id) (hwrites : g.writes = true)
    (howing : g.owing = false) :
    Follows (within (.setEnabled id true)) (Enabled g)
      (svc.enable projectId id proxy endpoint label).run g := by
  refine (stays_enabling [.connector]
    (Writes.ensureConnector svc projectId List.mem_cons_self) (by decide)
    hheld hwrites howing).andThenE (fun connector => ?_) (Enabled.failed howing)
  refine (stays_enabling [] Writes.ofExcept List.not_mem_nil
    hheld hwrites howing).andThenE (fun target => ?_) (Enabled.failed howing)
  refine (stays_enabling [.httpProxy] (Writes.patchProxy List.mem_cons_self) (by decide)
    hheld hwrites howing).andThenE (fun written => ?_) (Enabled.failed howing)
  refine Follows.bindE ((follows_writeAdvertisement hheld hwrites howing).mono fun g' r hr => ?_)
  cases r with
  | error err => exact hr
  | ok _ =>
      obtain ⟨owing, rfl, _⟩ := hr
      refine Follows.bind ((follows_switching (g := { g with owing := owing }) true _ hheld
        hwrites).mono ?_)
      rintro g' _ ⟨owing', rfl⟩
      exact ⟨owing', rfl, fun _ h => nomatch h⟩

theorem follows_setEnabledActive_true (svc : TunnelService) (hheld : g.held = some id)
    (hwrites : g.writes = true) (howing : g.owing = false) :
    Follows (within (.setEnabled id true)) (Enabled g) (svc.setEnabledActive id true).run g := by
  have hstays {β : Type} {p : SvcE β} (hp : Only (Writes []) p.run) :
      Stays (within (.setEnabled id true)) g p.run :=
    stays_enabling [] hp List.not_mem_nil hheld hwrites howing
  refine (hstays (Writes.lift (Only.perform (Writes.of_none rfl)))).andThenE (fun project => ?_)
    (Enabled.failed howing)
  cases project with
  | none => exact Enabled.failed howing _
  | some projectId =>
      refine (hstays (Writes.client projectId)).andThenE (fun _ => ?_) (Enabled.failed howing)
      refine (hstays (Writes.mapError (Only.perform (Writes.of_none rfl)))).andThenE
        (fun proxy => ?_) (Enabled.failed howing)
      refine Follows.bindE ((follows_enable svc hheld hwrites howing).mono fun g' r hr => ?_)
      cases r with
      | error err => exact hr.passed
      | ok _ =>
          obtain ⟨owing, rfl, _⟩ := hr
          refine Follows.bind (Follows.bind ((follows_switching (g := { g with owing := owing })
            true _ hheld hwrites).mono ?_))
          rintro g' _ ⟨owing', rfl⟩
          exact ⟨owing', rfl, fun _ h => nomatch h⟩

/-- What comes of turning a tunnel off once nothing is owed. -/
theorem stays_disabled {β : Type} (p : Cloud.Svc β) (hheld : g.held = some id)
    (hwrites : g.writes = true) (howing : g.owing = false) :
    Stays (within (.setEnabled id false)) g p := by
  induction p with
  | ret a => rfl
  | call c k ih =>
      refine ⟨⟨hheld, fun _ => hwrites⟩, fun r => ?_⟩
      have hadvance : (within (.setEnabled id false)).advance g c r = g := by
        refine Eq.trans (b := { g with
          owing := (!fails (.setEnabled id false) c r && !seesNoAdvertisement c r) && g.owing })
          rfl ?_
        rw [howing, Bool.and_false, ← howing]
      rw [hadvance]
      exact ih r

/-- Whichever way turning the tunnel off ends, nothing is owed. -/
theorem follows_setEnabledActive_false (svc : TunnelService) (hheld : g.held = some id)
    (hwrites : g.writes = true) :
    Follows (within (.setEnabled id false)) (fun g' _ => g' = g.paid)
      (svc.setEnabledActive id false).run g := by
  refine ⟨⟨hheld, fun _ => hwrites⟩, fun project => ?_⟩
  cases project with
  | none => rfl
  | some projectId =>
      refine ⟨⟨hheld, fun _ => hwrites⟩, fun client => ?_⟩
      cases client with
      | error err => rfl
      | ok _ =>
          refine ⟨⟨hheld, fun _ => hwrites⟩, fun proxy => ?_⟩
          cases proxy with
          | error err => rfl
          | ok proxy =>
              have hdelete : Follows (within (.setEnabled id false)) (fun g' _ => g' = g.paid)
                  (deleteAdvertisement id).run g := by
                refine ⟨⟨hheld, fun _ => hwrites⟩, fun existing => ?_⟩
                cases existing with
                | error err => rfl
                | ok existing =>
                    cases existing with
                    | none => rfl
                    | some ad =>
                        refine ⟨⟨hheld, fun _ => hwrites⟩, fun deleted => ?_⟩
                        cases deleted <;> rfl
              refine Follows.bindE (Follows.bindE (hdelete.mono ?_))
              rintro g' r rfl
              cases r with
              | error err => rfl
              | ok _ =>
                  refine Follows.bind (Follows.bind (Follows.mono
                    (stays_disabled (g := g.paid) _ hheld hwrites rfl) ?_))
                  rintro g' _ rfl
                  rfl

/-! ### Making a tunnel -/

/-- A part of a create that makes no proxy. -/
theorem stays_creating {β : Type} (kinds : List Kind) {p : Cloud.Svc β}
    (hp : Only (Writes kinds) p) (hkinds : .httpProxy ∉ kinds) (hwrites : g.writes = true) :
    Stays (within .create) g p := by
  refine Stays.of_only hp (fun c _ => ⟨trivial, fun _ => hwrites⟩) fun c r hc => ?_
  refine Eq.trans (b := { g with seen := (makes c r).or g.seen }) rfl ?_
  have hnone : makes c r = none := by
    unfold makes
    split
    · exact absurd (hc .httpProxy rfl) hkinds
    · rfl
  rw [hnone, Option.none_or]

/-- A create that succeeds has seen the tunnel it returns. -/
def Created (g g' : Place) (r : Except Error TunnelSummary) : Prop :=
  ∃ seen, g' = { g with seen := seen } ∧ ∀ tunnel, r = .ok tunnel → seen = some tunnel.id

theorem Created.failed (err : Error) : Created g g (.error err) :=
  ⟨g.seen, rfl, fun _ h => nomatch h⟩

theorem follows_createProxy {name : Cloud.NewName} {spec : Cloud.ProxySpec} {what : String}
    (hwrites : g.writes = true) :
    Follows (within .create)
      (fun g' r => ∃ seen, g' = { g with seen := seen } ∧
        ∀ proxy, r = .ok proxy → seen = some proxy.name)
      (createOrFail .httpProxy name spec what).run g := by
  refine follows_mapError ?_
  unfold createRetried
  generalize quotaCheckDelays = delays
  induction delays with
  | nil =>
      refine ⟨⟨trivial, fun _ => hwrites⟩, fun r => ?_⟩
      cases r with
      | ok proxy =>
          refine ⟨_, rfl, fun o ho => ?_⟩
          cases ho
          rfl
      | error err => exact ⟨_, rfl, fun _ h => nomatch h⟩
  | cons delay delays ih =>
      refine Follows.bind ⟨⟨trivial, fun _ => hwrites⟩, fun r => ?_⟩
      cases r with
      | ok proxy =>
          refine ⟨_, rfl, fun o ho => ?_⟩
          cases ho
          rfl
      | error err =>
          simp only [Follows]
          split
          · exact Follows.bind ⟨⟨trivial, fun _ => hwrites⟩, fun _ => ih⟩
          · exact ⟨_, rfl, fun _ h => nomatch h⟩

theorem follows_createActive (svc : TunnelService) (label endpoint : String)
    (hwrites : g.writes = true) :
    Follows (within .create) (Created g) (svc.createActive label endpoint).run g := by
  refine ⟨⟨trivial, fun _ => hwrites⟩, fun project => ?_⟩
  cases project with
  | none => exact Created.failed _
  | some projectId =>
      refine (stays_creating [] Writes.ofExcept List.not_mem_nil hwrites).andThenE
        (fun target => ?_) Created.failed
      refine (stays_creating [.connector]
        (Writes.ensureConnector svc projectId List.mem_cons_self) (by decide) hwrites).andThenE
        (fun connector => ?_) Created.failed
      refine (stays_creating [] (Writes.client projectId) List.not_mem_nil
        hwrites).andThenE (fun _ => ?_) Created.failed
      refine Follows.bindE ((follows_createProxy hwrites).mono ?_)
      rintro g' r ⟨seen, rfl, hseen⟩
      cases r with
      | error err => exact ⟨seen, rfl, fun _ h => nomatch h⟩
      | ok proxy =>
          have hwrites : ({ g with seen := seen } : Place).writes = true := hwrites
          have hfailed : ∀ err, Created g { g with seen := seen } (.error err) :=
            fun _ => ⟨seen, rfl, fun _ h => nomatch h⟩
          refine (stays_creating [.connectorAdvertisement]
            (Writes.mapError (Writes.create List.mem_cons_self)) (by decide) hwrites).andThenE
            (fun _ => ?_) hfailed
          refine (stays_creating [.trafficProtectionPolicy]
            (Writes.createPolicy svc _ List.mem_cons_self) (by decide) hwrites).andThenE
            (fun _ => ?_) hfailed
          refine (stays_creating [] (Writes.lift (Writes.spawnEdgePolicies svc))
            List.not_mem_nil hwrites).andThenE (fun _ => ?_) hfailed
          refine (stays_creating [] Writes.ofExcept List.not_mem_nil hwrites).andThenE
            (fun _ => ?_) hfailed
          refine (stays_creating []
            (Writes.lift (Only.perform (Writes.of_none rfl))) List.not_mem_nil hwrites).andThenE
            (fun _ => ?_) hfailed
          refine ⟨seen, rfl, fun tunnel htunnel => ?_⟩
          cases htunnel
          exact hseen proxy rfl

end DatumConnect.Daemon
