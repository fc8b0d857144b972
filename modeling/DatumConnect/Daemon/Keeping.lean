import DatumConnect.Daemon.Places
/-!
# The operations keep to their places

Every operation, whatever it is answered, enters what it enters for a tunnel it has
seen, and reserves and releases as it should.
-/

namespace DatumConnect.Daemon

open DatumConnect.Lib
open DatumConnect.Lib.Prog (Protocol Follows Stays Only OnOk)
open DatumConnect.Cloud (Error SvcE Kind)
open DatumConnect.Tunnels

variable {app : AppState} {α β : Type} {g : Place} {id actor : String}

/-! ## Calls that lead nowhere -/

theorem stays_appendAudit {event : String} (hwrites : g.writes = true) :
    Stays protocol g (Task.appendAudit event id actor) :=
  stays_perform trivial hwrites fun _ => rfl

theorem stays_spawnInspector {target : RealTarget} (hwrites : g.writes = true) :
    Stays protocol g (spawnInspector target).run :=
  stays_orInternal (stays_perform trivial hwrites fun _ => rfl)

theorem stays_ofOption {err : Rejection} {a : Option α} :
    Stays protocol g (TaskE.ofOption err a).run := by
  cases a <;> exact Stays.ret _

theorem stays_deregister {projectId : String} (hwrites : g.writes = true)
    (running : Option RunningTunnel) : Stays protocol g (deregister projectId running) := by
  cases running with
  | none => exact Stays.ret _
  | some running => exact stays_perform trivial hwrites fun _ => rfl

theorem stays_repointTo (target : Option RealTarget) : Stays protocol g (repointTo id target) := by
  cases target with
  | none => exact Stays.ret _
  | some target =>
      refine Stays.bind ⟨⟨trivial, fun h => nomatch h⟩, fun _ => rfl⟩ fun hasInspector => ?_
      exact Stays.bind ⟨⟨trivial, fun h => nomatch h⟩, fun _ => rfl⟩ fun _ => Stays.ret _

theorem stays_alreadyRunning (repoint : Option RealTarget) :
    Stays protocol g (alreadyRunning id repoint) := by
  cases repoint with
  | none => exact ⟨⟨trivial, fun h => nomatch h⟩, fun _ => rfl⟩
  | some _ => exact Stays.ret _

theorem stays_awaitRelay {key : String} (hwrites : g.writes = true) (tries : Nat) :
    Stays protocol g (awaitRelay key tries) := by
  induction tries with
  | zero => exact Stays.ret _
  | succ tries ih =>
      refine Stays.bind (stays_perform trivial hwrites fun _ => rfl) fun hasRelay => ?_
      cases hasRelay with
      | true => exact Stays.ret _
      | false => exact Stays.bind (stays_perform trivial hwrites fun _ => rfl) fun _ => ih

theorem stays_startHeartbeat {projectId key : String} (hwrites : g.writes = true) :
    Stays protocol g (startHeartbeat projectId key) := by
  refine Stays.bind (stays_perform trivial hwrites fun _ => rfl) fun _ => ?_
  refine Stays.bind (stays_perform trivial hwrites fun _ => rfl) fun _ => ?_
  exact stays_awaitRelay hwrites 40

theorem stays_resolveListenKey {projectId : String} (hwrites : g.writes = true) :
    Stays protocol g (resolveListenKey projectId id).run := by
  refine Stays.bindE (stays_orInternal (stays_perform trivial hwrites fun _ => rfl)) fun key => ?_
  cases key with
  | some key => exact Stays.ret _
  | none =>
      exact Stays.bindE (stays_lift (stays_perform trivial hwrites fun _ => rfl)) fun _ =>
        Stays.ret _

theorem stays_saveListenKeyIf {shouldRewire : Bool} {projectId key : String}
    (hwrites : g.writes = true) :
    Stays protocol g (saveListenKeyIf shouldRewire projectId id key).run := by
  cases shouldRewire with
  | true => exact stays_orInternal (stays_perform trivial hwrites fun _ => rfl)
  | false => exact Stays.ret _

theorem stays_rewire {service : TunnelService} {label endpoint : String}
    {shouldRewire hasInspector : Bool} (hwrites : g.writes = true) :
    Stays protocol g (rewire service id label endpoint shouldRewire hasInspector).run := by
  cases shouldRewire with
  | true =>
      refine Stays.bindE (stays_orInternal
        (stays_service _ (fun _ => trivial) hwrites fun _ _ => rfl)) fun _ => ?_
      exact Stays.bindE (stays_lift (stays_service _ (fun _ => trivial) hwrites fun _ _ => rfl))
        fun _ => Stays.ret _
  | false =>
      cases hasInspector with
      | true =>
          exact Stays.bindE (stays_orInternal
            (stays_service _ (fun _ => trivial) hwrites fun _ _ => rfl)) fun _ => Stays.ret _
      | false => exact Stays.ret _

/-! ## A tunnel that has been reserved -/

/-- The place after a claim. -/
def Place.claimed (g : Place) (id : String) : Place :=
  { g with writes := true, held := some id, attempted := id :: g.attempted }

/-- An operation that has reserved the tunnel can release it. -/
structure Reserved (id : String) (g : Place) : Prop where
  held : g.held = some id
  writes : g.writes = true
  owing : g.owing = false

theorem Reserved.of_claimed (howing : g.owing = false) : Reserved id (g.claimed id) :=
  ⟨rfl, rfl, howing⟩

theorem Reserved.seeing (h : Reserved id g) (seen : Option String) :
    Reserved id { g with seen := seen } :=
  ⟨h.held, h.writes, h.owing⟩

theorem follows_withBusy {body : TaskE α} {post : Place → Except Rejection α → Prop}
    (hheld : g.held = none)
    (hbody : Follows protocol (fun g' r => Reserved id g' ∧ post { g' with held := none } r)
      body.run (g.claimed id))
    (hrefused : post { g with attempted := id :: g.attempted } (.error (isBusy id))) :
    Follows protocol post (withBusy id body).run g := by
  refine ⟨⟨hheld, fun h => nomatch h⟩, fun claimed => ?_⟩
  cases claimed with
  | false => exact hrefused
  | true =>
      refine Follows.bind (p := body.run) (hbody.mono fun g' r hr => ?_)
      obtain ⟨hreserved, hpost⟩ := hr
      exact ⟨⟨⟨hreserved.held, hreserved.owing⟩, fun _ => hreserved.writes⟩, fun _ => hpost⟩

/-- Looking a tunnel up while nothing is owed. -/
theorem follows_findTunnel (howing : g.owing = false) :
    Follows protocol (fun g' r => ∃ seen, g' = { g with seen := seen } ∧
      ∀ tunnel, r = .ok tunnel → seen = some id) (findTunnel id).run g := by
  refine Follows.bindE (follows_orInternal (follows_service ((follows_getActive id g).mono ?_)))
  rintro g' r ⟨found, failed, rfl, _, hfound⟩
  have hlooked : g.looked id found failed =
      { g with seen := if found then some id else g.seen } := by
    simp [Place.looked, howing]
  rw [hlooked]
  cases r with
  | error err => exact ⟨_, rfl, fun _ h => nomatch h⟩
  | ok tunnel =>
      cases tunnel with
      | none => exact ⟨_, rfl, fun _ h => nomatch h⟩
      | some tunnel => exact ⟨_, rfl, fun _ _ => if_pos (hfound tunnel rfl)⟩

theorem stays_installInspector {target : RealTarget} {endpoint : String} (h : Reserved id g)
    (hseen : g.seen = some id) : Stays protocol g (installInspector id target endpoint) := by
  refine Stays.bind (stays_perform hseen h.writes fun _ => rfl) fun _ => ?_
  refine stays_perform hseen h.writes fun _ => ?_
  refine Eq.trans (b := { g with seen := if g.held = none then none else g.seen }) rfl ?_
  rw [if_neg (by rw [h.held]; exact Option.some_ne_none id)]

theorem follows_repointRunning {service : TunnelService} {target : RealTarget}
    (h : Reserved id g) (hseen : g.seen = some id) :
    Stays protocol g (repointRunning id actor service target).run := by
  refine (stays_spawnInspector h.writes).bindE fun endpoint => ?_
  refine Stays.bindE (stays_orInternal
    (stays_service _ (fun _ => trivial) h.writes fun _ _ => rfl)) fun updated => ?_
  refine (stays_lift (stays_installInspector h hseen)).bindE fun _ => ?_
  exact (stays_lift (stays_appendAudit h.writes)).bindE fun _ => Stays.ret _

theorem stays_installNew {inspector : Option (RealTarget × String)} (h : Reserved id g)
    (hseen : g.seen = some id) : Stays protocol g (installNew id actor inspector) := by
  cases inspector with
  | none => exact Stays.ret _
  | some inspector =>
      exact (stays_installInspector h hseen).bind fun _ => stays_appendAudit h.writes

theorem follows_bringUp {tunnel : TunnelSummary} {repoint : Option RealTarget}
    (h : Reserved id g) (hseen : g.seen = some id) :
    Follows protocol (fun g' _ => Reserved id g') (bringUp app id actor tunnel repoint).run g := by
  have hspawn : Stays protocol g (spawnInspectorFor repoint).run := by
    cases repoint with
    | none => exact Stays.ret _
    | some target => exact (stays_spawnInspector h.writes).bindE fun _ => Stays.ret _
  refine hspawn.andThenE (fun inspector => ?_) fun _ => h
  refine (stays_resolveListenKey h.writes).andThenE (fun keyAndRewire => ?_) fun _ => h
  refine Stays.andThenE (stays_orInternal (stays_perform trivial h.writes fun _ => rfl))
    (fun _ => ?_) fun _ => h
  refine (stays_saveListenKeyIf h.writes).andThenE (fun _ => ?_) fun _ => h
  refine (stays_lift (stays_startHeartbeat h.writes)).andThenE (fun _ => ?_) fun _ => h
  refine (stays_rewire h.writes).andThenE (fun _ => ?_) fun _ => h
  refine (stays_lift (stays_installNew h hseen)).andThenE (fun _ => ?_) fun _ => h
  refine Follows.bindE (follows_orInternal (follows_service
    ((follows_setEnabledActive_true _ h.held h.writes h.owing).mono ?_)))
  rintro g' r ⟨owing, rfl, hfailed⟩
  cases r with
  | error err => exact ⟨h.held, h.writes, hfailed err rfl⟩
  | ok enabled =>
      refine Follows.bindE (follows_orInternal (follows_service
        ((follows_getActive id _).mono ?_)))
      rintro g' r ⟨found, failed, rfl, hlook, _⟩
      cases r with
      | error err => exact ⟨h.held, h.writes, by simp [Place.looked, hlook err rfl]⟩
      | ok current =>
          have hstill : (if found then some id else g.seen) = some id := by
            rw [hseen, ite_self]
          refine Follows.bindE (follows_lift ⟨⟨⟨h.held, hstill⟩, fun _ => h.writes⟩, fun _ => ?_⟩)
          have hreserved : Reserved id (({ g with owing := owing } : Place).looked id found failed
              |>.advance (.runningInsert id keyAndRewire.1 (app.serviceFor keyAndRewire.1)) ()) :=
            ⟨h.held, h.writes, rfl⟩
          refine (stays_lift (stays_appendAudit hreserved.writes)).andThenE (fun _ => ?_)
            fun _ => hreserved
          exact stays_ofOption.mono fun _ _ hg => hg ▸ hreserved

theorem follows_startReserved {repoint : Option RealTarget} (h : Reserved id g) :
    Follows protocol (fun g' _ => Reserved id g') (startReserved app id actor repoint).run g := by
  refine Follows.bindE ((follows_findTunnel h.owing).mono ?_)
  rintro g' r ⟨seen, rfl, hfound⟩
  cases r with
  | error err => exact h.seeing seen
  | ok tunnel =>
      have hseen := hfound tunnel rfl
      refine Stays.andThenE (stays_lift (Stays.perform ⟨trivial, fun h => nomatch h⟩ fun _ => rfl))
        (fun running => ?_) fun _ => h.seeing seen
      cases running with
      | none => exact follows_bringUp (h.seeing seen) hseen
      | some service =>
          cases repoint with
          | none => exact h.seeing seen
          | some target =>
              exact (follows_repointRunning (h.seeing seen) hseen).mono fun _ _ hg =>
                hg ▸ h.seeing seen

/-- Turning the tunnel off owes it nothing, however the stop goes on. -/
theorem follows_stopReserved {reason : StopReason} (h : Reserved id g) (hdeletes : g.deletes = none) :
    Follows protocol (fun g' _ => ∃ wiped, g' = { g with owing := false, wiped := wiped })
      (stopReserved app id reason actor).run g := by
  refine Follows.bindE (follows_lift ⟨⟨.inr ⟨hdeletes, h.held⟩, fun _ => h.writes⟩,
    fun removed => ?_⟩)
  refine Follows.bindE (follows_lift (follows_service
    ((follows_setEnabledActive_false (g := g.advance (.runningRemove id) removed) _ h.held
      h.writes).mono ?_)))
  rintro g' disabled rfl
  have hpost : ∃ wiped, (g.advance (.runningRemove id) removed).paid =
      { g with owing := false, wiped := wiped } := ⟨_, rfl⟩
  have hwrites : (g.advance (.runningRemove id) removed).paid.writes = true := h.writes
  refine (stays_lift (stays_deregister hwrites removed)).andThenE (fun _ => ?_) fun _ => hpost
  have hresult : Stays protocol (g.advance (.runningRemove id) removed).paid
      (TaskE.orInternal (pure disabled)).run := stays_orInternal (Stays.ret _)
  refine hresult.andThenE (fun summary => ?_) fun _ => hpost
  refine (stays_lift (stays_appendAudit hwrites)).andThenE (fun _ => ?_) fun _ => hpost
  exact hpost

/-! ## The operations -/

theorem follows_startTunnelInternal {target : Option RealTarget} (hheld : g.held = none)
    (howing : g.owing = false) :
    Follows protocol (fun g' _ => g'.held = none)
      (startTunnelInternal app id actor target).run g := by
  refine (stays_lift (stays_repointTo target)).andThenE (fun repoint => ?_) fun _ => hheld
  refine (stays_lift (stays_alreadyRunning repoint)).andThenE (fun running => ?_) fun _ => hheld
  cases running with
  | true =>
      refine (follows_findTunnel howing).mono ?_
      rintro g' r ⟨seen, rfl, _⟩
      exact hheld
  | false =>
      refine follows_withBusy hheld ?_ hheld
      exact (follows_startReserved (.of_claimed howing)).mono fun g' r hr => ⟨hr, rfl⟩

/-- A stop leaves its errand as it is, but for the attempt. -/
theorem follows_stopTunnelInternal {reason : StopReason} (hheld : g.held = none)
    (hdeletes : g.deletes = none) (howing : g.owing = false) :
    Follows protocol (fun g' _ => ∃ writes wiped, g' = { g with
        writes := writes, attempted := id :: g.attempted, wiped := wiped })
      (stopTunnelInternal app id reason actor).run g := by
  refine follows_withBusy hheld ?_ ⟨g.writes, g.wiped, rfl⟩
  refine (follows_stopReserved (.of_claimed howing) hdeletes).mono ?_
  rintro g' r ⟨wiped, rfl⟩
  exact ⟨⟨rfl, rfl, rfl⟩, true, wiped, by simp [Place.claimed, hheld, howing]⟩

/-- An operation between two of its errands. -/
structure Idle (g : Place) : Prop where
  held : g.held = none
  deletes : g.deletes = none
  owing : g.owing = false

theorem follows_stopEach (ids : List String) (h : Idle g) :
    Follows protocol (fun g' _ => Idle g' ∧ g'.due = g.due ∧
      ∀ id, id ∈ ids ∨ id ∈ g.attempted → id ∈ g'.attempted) (stopEach app ids) g := by
  induction ids generalizing g with
  | nil => exact ⟨h, rfl, fun id hid => hid.resolve_left List.not_mem_nil⟩
  | cons id ids ih =>
      refine Follows.bind (Follows.bind
        ((follows_stopTunnelInternal h.held h.deletes h.owing).mono ?_))
      rintro g' r ⟨writes, wiped, rfl⟩
      refine Follows.mono (p := stopEach app ids) (ih ⟨h.held, h.deletes, h.owing⟩) ?_
      rintro g' _ ⟨hidle, hdue, hattempted⟩
      refine ⟨hidle, hdue, fun id' hid' => hattempted id' ?_⟩
      rcases hid' with hid' | hid'
      · rcases List.mem_cons.mp hid' with rfl | hid'
        · exact .inr List.mem_cons_self
        · exact .inl hid'
      · exact .inr (List.mem_cons_of_mem id hid')

theorem follows_sweepTick (h : Idle g) :
    Follows protocol (fun g' _ => g'.held = none ∧ ∀ id ∈ g'.due, id ∈ g'.attempted)
      (sweepTick app) g := by
  refine Follows.bind ⟨⟨trivial, fun h => nomatch h⟩, fun ids => ?_⟩
  refine (follows_stopEach (g := { g with due := ids }) ids ⟨h.held, h.deletes, h.owing⟩).mono ?_
  rintro g' _ ⟨hidle, hdue, hattempted⟩
  refine ⟨hidle.held, fun id hid => hattempted id (.inl ?_)⟩
  rw [hdue] at hid
  exact hid

theorem follows_createTunnel {label endpoint : String} (hheld : g.held = none)
    (hwrites : g.writes = true) :
    Follows protocol (fun g' _ => g'.held = none) (createTunnel app label endpoint).run g := by
  unfold createTunnel
  cases app.parseRealTarget endpoint with
  | error err => exact hheld
  | ok target =>
      refine (stays_spawnInspector hwrites).andThenE (fun inspector => ?_) fun _ => hheld
      refine Follows.bindE (follows_orInternal (follows_service
        ((follows_createActive _ label inspector hwrites).mono ?_)))
      rintro g' r ⟨seen, rfl, hseen⟩
      cases r with
      | error err => exact hheld
      | ok tunnel =>
          have hseen := hseen tunnel rfl
          refine Follows.bindE (follows_lift (Follows.bind
            ⟨⟨hseen, fun _ => hwrites⟩, fun _ => ⟨⟨hseen, fun _ => hwrites⟩, fun _ => ?_⟩⟩))
          refine Stays.andThenE (stays_lift (stays_appendAudit hwrites)) (fun _ => hheld)
            fun _ => hheld

theorem follows_setTunnelNote {note : String} (hheld : g.held = none) (hdeletes : g.deletes = none)
    (hwrites : g.writes = true) (howing : g.owing = false) :
    Follows protocol (fun g' _ => g'.held = none) (setTunnelNote id note).run g := by
  refine Follows.bindE ((follows_findTunnel howing).mono ?_)
  rintro g' r ⟨seen, rfl, hseen⟩
  cases r with
  | error err => exact hheld
  | ok tunnel =>
      simp only
      split
      · exact hheld
      · unfold saveNote
        split
        · exact follows_orInternal ⟨⟨.inr hdeletes, fun _ => hwrites⟩, fun _ => hheld⟩
        · exact follows_orInternal ⟨⟨hseen tunnel rfl, fun _ => hwrites⟩, fun _ => hheld⟩

theorem follows_createToken {ttlSeconds : Option Nat} (hheld : g.held = none)
    (hwrites : g.writes = true) (howing : g.owing = false) :
    Follows protocol (fun g' _ => g'.held = none) (createToken id ttlSeconds).run g := by
  refine Follows.bindE ((follows_findTunnel howing).mono ?_)
  rintro g' r ⟨seen, rfl, hseen⟩
  cases r with
  | error err => exact hheld
  | ok tunnel =>
      have hseen := hseen tunnel rfl
      refine Follows.bindE (Stays.andThenE (stays_orInternal
        (stays_perform hseen hwrites fun _ => rfl)) (fun _ => ?_) fun _ => hheld)
      refine follows_orInternal ⟨⟨hseen, fun _ => hwrites⟩, fun written => ?_⟩
      cases written with
      | error err => exact hheld
      | ok token =>
          exact Stays.andThenE (stays_lift (stays_appendAudit hwrites)) (fun _ => hheld)
            fun _ => hheld

theorem follows_forgetTunnel (hheld : g.held = none) (hdeletes : g.deletes = some id)
    (hwrites : g.writes = true) :
    Follows protocol (fun g' _ => g'.held = none ∧ g'.writes = true ∧ ∀ store, store ∈ g'.wiped)
      (forgetTunnel app id) g := by
  refine Follows.bind ⟨⟨.inl hdeletes, fun _ => hwrites⟩, fun removed => ?_⟩
  refine Stays.andThen (stays_deregister (g := g.advance (.runningRemove id) removed) hwrites
    removed) fun _ => ?_
  refine Follows.bind ⟨⟨hdeletes, fun _ => hwrites⟩, fun _ => ?_⟩
  refine Follows.bind ⟨⟨hdeletes, fun _ => hwrites⟩, fun _ => ?_⟩
  refine Follows.bind ⟨⟨.inl hdeletes, fun _ => hwrites⟩, fun _ => ?_⟩
  refine ⟨⟨hdeletes, fun _ => hwrites⟩, fun _ => ⟨hheld, hwrites, fun store => ?_⟩⟩
  cases store <;> simp [protocol, Place.advance]

theorem follows_deleteTunnelInternal (hheld : g.held = none) (hdeletes : g.deletes = some id)
    (hwrites : g.writes = true) :
    Follows protocol (fun g' r => g'.held = none ∧ (r.isOk = true → ∀ store, store ∈ g'.wiped))
      (deleteTunnelInternal app id actor).run g := by
  refine Stays.andThenE (stays_orInternal
    (stays_service _ (fun _ => trivial) hwrites fun _ _ => rfl)) (fun outcome => ?_)
    fun _ => ⟨hheld, fun h => nomatch h⟩
  refine Follows.bindE (follows_lift ((follows_forgetTunnel hheld hdeletes hwrites).mono ?_))
  rintro g' _ ⟨hheld, hwrites, hwiped⟩
  exact Stays.andThenE (stays_lift (stays_appendAudit hwrites)) (fun _ => ⟨hheld, fun _ => hwiped⟩)
    fun _ => ⟨hheld, fun _ => hwiped⟩

/-! ## Every operation -/

/-- Where an operation begins. -/
def Op.begins : Op → Place
  | .start _ _ _ => { writes := false }
  | .delete id _ => { deletes := some id }
  | _ => {}

/-- Where an operation ends. -/
structure Ended (op : Op) (g : Place) (r : Except Rejection Unit) : Prop where
  held : g.held = none
  attempted : op = .sweep → ∀ id ∈ g.due, id ∈ g.attempted
  wiped : ∀ id actor, op = .delete id actor → r.isOk = true → ∀ store, store ∈ g.wiped

theorem Op.follows (app : AppState) (op : Op) :
    Follows protocol (Ended op) (op.code app) op.begins := by
  have hunit {α : Type} {p : TaskE α} (post : Place → Bool → Prop)
      (h : Follows protocol (fun g r => post g r.isOk) p.run op.begins) :
      Follows protocol (fun g r => post g r.isOk) (do let _ ← p : TaskE Unit).run op.begins :=
    Follows.bind (h.mono fun _ r hr => by cases r <;> exact hr)
  cases op with
  | create label endpoint =>
      refine (hunit (fun g _ => g.held = none) (follows_createTunnel rfl rfl)).mono ?_
      exact fun _ _ hheld => ⟨hheld, fun h => (nomatch h), fun _ _ h => nomatch h⟩
  | start id actor target =>
      refine (hunit (fun g _ => g.held = none) (follows_startTunnelInternal rfl rfl)).mono ?_
      exact fun _ _ hheld => ⟨hheld, fun h => (nomatch h), fun _ _ h => nomatch h⟩
  | stop id actor =>
      refine (hunit (fun g _ => g.held = none)
        ((follows_stopTunnelInternal rfl rfl rfl).mono ?_)).mono ?_
      · rintro g' _ ⟨writes, wiped, rfl⟩
        rfl
      · exact fun _ _ hheld => ⟨hheld, fun h => (nomatch h), fun _ _ h => nomatch h⟩
  | sweep =>
      refine follows_lift ((follows_sweepTick ⟨rfl, rfl, rfl⟩).mono ?_)
      exact fun _ _ h => ⟨h.1, fun _ => h.2, fun _ _ h => nomatch h⟩
  | setNote id note =>
      refine (follows_setTunnelNote rfl rfl rfl rfl).mono ?_
      exact fun _ _ hheld => ⟨hheld, fun h => (nomatch h), fun _ _ h => nomatch h⟩
  | createToken id ttlSeconds =>
      refine (hunit (fun g _ => g.held = none) (follows_createToken rfl rfl rfl)).mono ?_
      exact fun _ _ hheld => ⟨hheld, fun h => (nomatch h), fun _ _ h => nomatch h⟩
  | delete id actor =>
      refine (hunit (fun g ok => g.held = none ∧ (ok = true → ∀ store, store ∈ g.wiped))
        (follows_deleteTunnelInternal rfl rfl rfl)).mono ?_
      exact fun _ _ h => ⟨h.1, fun h => (nomatch h), fun _ _ _ => h.2⟩

end DatumConnect.Daemon
