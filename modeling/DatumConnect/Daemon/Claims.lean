import DatumConnect.Daemon.Keeping
/-!
# From a claim to its end

A start and a stop reserve their tunnel once, and what they do after that they do before they
release it: the release is the last of their calls.  A sweep is a sequence of stops.
-/

namespace DatumConnect.Daemon

open DatumConnect.Lib
open DatumConnect.Lib.Prog (Protocol Follows Stays Only)
open DatumConnect.Cloud (Error SvcE)
open DatumConnect.Tunnels

/-- The call neither reserves nor releases. -/
def Call.keepsBusy : Call → Bool
  | .claimBusy _ | .releaseBusy _ => false
  | _ => true

/-! ## The bodies -/

section Bodies

variable {app : AppState} {α β : Type} {id actor : String}

/-- The computation neither reserves nor releases. -/
abbrev KeepsBusy (p : Task α) : Prop := Only (fun c : Call => c.keepsBusy = true) p

theorem keepsBusy_perform {c : Call} (h : c.keepsBusy = true) : KeepsBusy (Task.perform c) :=
  Only.perform h

theorem keepsBusy_service (method : Method) (p : SvcE α) : KeepsBusy (Task.service method p) :=
  Only.embed (Only.of_forall p.run fun _ => rfl)

theorem keepsBusy_orInternal {p : Task (Except Error α)} (h : KeepsBusy p) :
    KeepsBusy (TaskE.orInternal p).run :=
  h.bind fun _ => Only.ret _

theorem keepsBusy_lift {p : Task α} (h : KeepsBusy p) : KeepsBusy (TaskE.lift p).run :=
  h.bind fun _ => Only.ret _

theorem keepsBusy_serviceE (method : Method) (p : SvcE α) :
    KeepsBusy (TaskE.service method p).run :=
  keepsBusy_orInternal (keepsBusy_service method p)

theorem keepsBusy_ofOption {err : Rejection} (a : Option α) :
    KeepsBusy (TaskE.ofOption err a).run := by
  cases a <;> exact Only.ret _

theorem keepsBusy_audit (event id actor : String) : KeepsBusy (Task.appendAudit event id actor) :=
  keepsBusy_perform rfl

theorem keepsBusy_findTunnel (id : String) : KeepsBusy (findTunnel id).run :=
  (keepsBusy_serviceE _ _).bindE keepsBusy_ofOption

theorem keepsBusy_spawnInspector (target : RealTarget) : KeepsBusy (spawnInspector target).run :=
  keepsBusy_orInternal (keepsBusy_perform rfl)

theorem keepsBusy_installInspector (id : String) (target : RealTarget) (endpoint : String) :
    KeepsBusy (installInspector id target endpoint) :=
  (keepsBusy_perform rfl).bind fun _ => keepsBusy_perform rfl

theorem keepsBusy_installNew (id actor : String) (inspector : Option (RealTarget × String)) :
    KeepsBusy (installNew id actor inspector) := by
  cases inspector with
  | none => exact Only.ret _
  | some inspector =>
      exact (keepsBusy_installInspector _ _ _).bind fun _ => keepsBusy_audit _ _ _

theorem keepsBusy_resolveListenKey (projectId id : String) :
    KeepsBusy (resolveListenKey projectId id).run := by
  refine Only.bindE (keepsBusy_orInternal (keepsBusy_perform rfl)) fun key => ?_
  cases key with
  | some key => exact Only.ret _
  | none => exact Only.bindE (keepsBusy_lift (keepsBusy_perform rfl)) fun _ => Only.ret _

theorem keepsBusy_saveListenKeyIf (shouldRewire : Bool) (projectId id key : String) :
    KeepsBusy (saveListenKeyIf shouldRewire projectId id key).run := by
  cases shouldRewire with
  | true => exact keepsBusy_orInternal (keepsBusy_perform rfl)
  | false => exact Only.ret _

theorem keepsBusy_awaitRelay (key : String) (tries : Nat) : KeepsBusy (awaitRelay key tries) := by
  induction tries with
  | zero => exact Only.ret _
  | succ tries ih =>
      refine (keepsBusy_perform rfl).bind fun hasRelay => ?_
      cases hasRelay with
      | true => exact Only.ret _
      | false => exact (keepsBusy_perform rfl).bind fun _ => ih

theorem keepsBusy_startHeartbeat (projectId key : String) :
    KeepsBusy (startHeartbeat projectId key) := by
  refine (keepsBusy_perform rfl).bind fun _ => ?_
  exact (keepsBusy_perform rfl).bind fun _ => keepsBusy_awaitRelay key 40

theorem keepsBusy_rewire (service : TunnelService) (id label endpoint : String)
    (shouldRewire hasInspector : Bool) :
    KeepsBusy (rewire service id label endpoint shouldRewire hasInspector).run := by
  cases shouldRewire with
  | true =>
      refine (keepsBusy_serviceE _ _).bindE fun _ => ?_
      exact Only.bindE (keepsBusy_lift (keepsBusy_service _ _)) fun _ => Only.ret _
  | false =>
      cases hasInspector with
      | true => exact (keepsBusy_serviceE _ _).bindE fun _ => Only.ret _
      | false => exact Only.ret _

theorem keepsBusy_deregister (projectId : String) (running : Option RunningTunnel) :
    KeepsBusy (deregister projectId running) := by
  cases running with
  | none => exact Only.ret _
  | some running => exact keepsBusy_perform rfl

theorem keepsBusy_bringUp (tunnel : TunnelSummary) (repoint : Option RealTarget) :
    KeepsBusy (bringUp app id actor tunnel repoint).run := by
  have hspawn : KeepsBusy (spawnInspectorFor repoint).run := by
    cases repoint with
    | none => exact Only.ret _
    | some target => exact (keepsBusy_spawnInspector target).bindE fun _ => Only.ret _
  refine hspawn.bindE fun inspector => ?_
  refine (keepsBusy_resolveListenKey _ _).bindE fun keyAndRewire => ?_
  refine Only.bindE (keepsBusy_orInternal (keepsBusy_perform rfl)) fun _ => ?_
  refine (keepsBusy_saveListenKeyIf _ _ _ _).bindE fun _ => ?_
  refine Only.bindE (keepsBusy_lift (keepsBusy_startHeartbeat _ _)) fun _ => ?_
  refine (keepsBusy_rewire _ _ _ _ _ _).bindE fun _ => ?_
  refine Only.bindE (keepsBusy_lift (keepsBusy_installNew _ _ _)) fun _ => ?_
  refine (keepsBusy_serviceE _ _).bindE fun _ => ?_
  refine (keepsBusy_serviceE _ _).bindE fun current => ?_
  refine Only.bindE (keepsBusy_lift (keepsBusy_perform rfl)) fun _ => ?_
  exact Only.bindE (keepsBusy_lift (keepsBusy_audit _ _ _)) fun _ => keepsBusy_ofOption _

theorem keepsBusy_repointRunning (service : TunnelService) (target : RealTarget) :
    KeepsBusy (repointRunning id actor service target).run := by
  refine (keepsBusy_spawnInspector target).bindE fun endpoint => ?_
  refine (keepsBusy_serviceE _ _).bindE fun updated => ?_
  refine Only.bindE (keepsBusy_lift (keepsBusy_installInspector _ _ _)) fun _ => ?_
  exact Only.bindE (keepsBusy_lift (keepsBusy_audit _ _ _)) fun _ => Only.ret _

theorem keepsBusy_startReserved (repoint : Option RealTarget) :
    KeepsBusy (startReserved app id actor repoint).run := by
  refine (keepsBusy_findTunnel id).bindE fun tunnel => ?_
  refine Only.bindE (keepsBusy_lift (keepsBusy_perform rfl)) fun running => ?_
  cases running with
  | none => exact keepsBusy_bringUp tunnel repoint
  | some service =>
      cases repoint with
      | none => exact Only.ret _
      | some target => exact keepsBusy_repointRunning service target

theorem keepsBusy_stopReserved (reason : StopReason) :
    KeepsBusy (stopReserved app id reason actor).run := by
  refine Only.bindE (keepsBusy_lift (keepsBusy_perform rfl)) fun running => ?_
  refine Only.bindE (keepsBusy_lift (keepsBusy_service _ _)) fun disabled => ?_
  refine Only.bindE (keepsBusy_lift (keepsBusy_deregister _ _)) fun _ => ?_
  refine Only.bindE (keepsBusy_orInternal (Only.ret _)) fun summary => ?_
  exact Only.bindE (keepsBusy_lift (keepsBusy_audit _ _ _)) fun _ => Only.ret _

/-! ### The other operations -/

theorem keepsBusy_createTunnel (label endpoint : String) :
    KeepsBusy (createTunnel app label endpoint).run := by
  unfold createTunnel
  cases app.parseRealTarget endpoint with
  | error err => exact Only.throw _
  | ok target =>
      refine (keepsBusy_spawnInspector target).bindE fun inspector => ?_
      refine (keepsBusy_serviceE _ _).bindE fun tunnel => ?_
      refine Only.bindE (keepsBusy_lift (keepsBusy_installInspector _ _ _)) fun _ => ?_
      exact Only.bindE (keepsBusy_lift (keepsBusy_audit _ _ _)) fun _ => Only.ret _

theorem keepsBusy_setTunnelNote (id note : String) : KeepsBusy (setTunnelNote id note).run := by
  refine (keepsBusy_findTunnel id).bindE fun tunnel => ?_
  split
  · exact Only.throw _
  · unfold saveNote
    split <;> exact keepsBusy_orInternal (keepsBusy_perform rfl)

theorem keepsBusy_createToken (id : String) (ttlSeconds : Option Nat) :
    KeepsBusy (createToken id ttlSeconds).run := by
  have hmint : KeepsBusy (mintOperateToken id ttlSeconds).run :=
    Only.bindE (keepsBusy_orInternal (keepsBusy_perform rfl)) fun _ =>
      keepsBusy_orInternal (keepsBusy_perform rfl)
  refine (keepsBusy_findTunnel id).bindE fun tunnel => hmint.bindE fun minted => ?_
  exact Only.bindE (keepsBusy_lift (keepsBusy_audit _ _ _)) fun _ => Only.ret _

theorem keepsBusy_deleteTunnelInternal (id actor : String) :
    KeepsBusy (deleteTunnelInternal app id actor).run := by
  have hforget : KeepsBusy (forgetTunnel app id) := by
    refine (keepsBusy_perform rfl).bind fun running => ?_
    refine (keepsBusy_deregister _ _).bind fun _ => (keepsBusy_perform rfl).bind fun _ => ?_
    refine (keepsBusy_perform rfl).bind fun _ => (keepsBusy_perform rfl).bind fun _ => ?_
    exact keepsBusy_perform rfl
  refine (keepsBusy_serviceE _ _).bindE fun outcome => ?_
  refine Only.bindE (keepsBusy_lift hforget) fun _ => ?_
  exact Only.bindE (keepsBusy_lift (keepsBusy_audit _ _ _)) fun _ => Only.ret _

end Bodies

/-! ## Claims -/

/-- How far a start or a stop is with its claim: once it is over no call is left of it. -/
inductive Claim where
  | before
  | holds (id : String)
  | finished
  deriving DecidableEq, Repr

namespace Claim

def held : Claim → Option String
  | .holds id => some id
  | _ => none

/-- `again`: another one may follow, and it begins with a claim. -/
def Allows (again : Bool) : Claim → Call → Prop
  | .before, c => c.keepsBusy = true ∨ ∃ id, c = .claimBusy id
  | .holds id, c => c.keepsBusy = true ∨ c = .releaseBusy id
  | .finished, c => again = true ∧ ∃ id, c = .claimBusy id

def advance (claim : Claim) : (c : Call) → c.Reply → Claim
  | .claimBusy id, claimed => if claimed then .holds id else .finished
  | .releaseBusy _, _ => .finished
  | _, _ => claim

theorem before_claims (again : Bool) (id : String) : Claim.before.Allows again (.claimBusy id) :=
  .inr ⟨id, rfl⟩

theorem advance_of_keepsBusy {claim : Claim} {c : Call} (h : c.keepsBusy = true) (r : c.Reply) :
    claim.advance c r = claim := by
  cases c <;> first | rfl | cases h

end Claim

def claiming (again : Bool) : Protocol Call Call.Reply Claim where
  allowed := Claim.Allows again
  advance := Claim.advance

section Claiming

variable {again : Bool} {app : AppState} {α : Type} {id actor : String} {claim : Claim}

theorem KeepsBusy.stays {p : Task α} (h : KeepsBusy p) (hclaim : claim ≠ .finished) :
    Stays (claiming again) claim p := by
  refine Stays.of_only h (fun c hc => ?_) fun c r hc => Claim.advance_of_keepsBusy hc r
  cases claim with
  | before => exact .inl hc
  | holds id => exact .inl hc
  | finished => exact absurd rfl hclaim

/-- The release is the last call. -/
theorem claiming_withBusy {body : TaskE α} (hbody : KeepsBusy body.run)
    (hclaim : claim.Allows again (.claimBusy id)) :
    Follows (claiming again) (fun g _ => g = .finished) (withBusy id body).run claim := by
  refine ⟨hclaim, fun claimed => ?_⟩
  cases claimed with
  | false => rfl
  | true =>
      have hstays : Stays (claiming again) (.holds id) body.run := hbody.stays nofun
      exact hstays.andThen fun result => ⟨.inr rfl, fun _ => rfl⟩

theorem claiming_startTunnelInternal (target : Option RealTarget) :
    Follows (claiming again) (fun g _ => g.held = none)
      (startTunnelInternal app id actor target).run .before := by
  have hrepoint : KeepsBusy (repointTo id target) := by
    cases target with
    | none => exact Only.ret _
    | some target =>
        refine (keepsBusy_perform rfl).bind fun _ => (keepsBusy_perform rfl).bind fun _ => ?_
        exact Only.ret _
  refine Stays.andThenE ((keepsBusy_lift hrepoint).stays (by decide)) (fun repoint => ?_)
    fun _ => rfl
  have hrunning : KeepsBusy (alreadyRunning id repoint) := by
    cases repoint with
    | none => exact keepsBusy_perform rfl
    | some _ => exact Only.ret _
  refine Stays.andThenE ((keepsBusy_lift hrunning).stays (by decide)) (fun running => ?_)
    fun _ => rfl
  cases running with
  | true =>
      refine Follows.mono ((keepsBusy_findTunnel id).stays (by decide)) ?_
      rintro g r rfl
      rfl
  | false =>
      refine (claiming_withBusy (keepsBusy_startReserved repoint) (Claim.before_claims _ id)).mono ?_
      rintro g r rfl
      rfl

theorem claiming_stopTunnelInternal (reason : StopReason)
    (hclaim : claim.Allows again (.claimBusy id)) :
    Follows (claiming again) (fun g _ => g = .finished)
      (stopTunnelInternal app id reason actor).run claim :=
  claiming_withBusy (keepsBusy_stopReserved reason) hclaim

theorem claiming_sweepTick :
    Follows (claiming true) (fun g _ => g.held = none) (sweepTick app) .before := by
  refine ⟨.inl rfl, fun ids => ?_⟩
  have hloop : Follows (claiming true) (fun g _ => g = .before ∨ g = .finished) (stopEach app ids)
      .before := by
    refine Follows.forM (fun g : Claim => g = .before ∨ g = .finished) (fun id _ g hg => ?_) (.inl rfl)
    have hclaim : g.Allows true (.claimBusy id) := by
      rcases hg with rfl | rfl
      · exact Claim.before_claims true id
      · exact ⟨rfl, id, rfl⟩
    exact Follows.bind ((claiming_stopTunnelInternal .autoExpired hclaim).mono fun g _ h => .inr h)
  refine hloop.mono ?_
  rintro g _ (rfl | rfl) <;> rfl

end Claiming

/-- It makes one stop after the other. -/
def Op.again : Op → Bool
  | .sweep => true
  | _ => false

theorem Op.claims (app : AppState) (op : Op) :
    Follows (claiming op.again) (fun g _ => g.held = none) (op.code app) .before := by
  have hplain {p : Task (Except Rejection Unit)} (again : Bool) (h : KeepsBusy p) :
      Follows (claiming again) (fun g _ => g.held = none) p .before := by
    refine Follows.mono (h.stays (by decide)) ?_
    rintro g _ rfl
    rfl
  cases op with
  | create label endpoint =>
      exact hplain false ((keepsBusy_createTunnel label endpoint).bindE fun _ => Only.ret _)
  | start id actor target =>
      refine Follows.bindE ((claiming_startTunnelInternal target).mono fun g r hg => ?_)
      cases r <;> exact hg
  | stop id actor =>
      refine Follows.bindE ((claiming_stopTunnelInternal .manual (Claim.before_claims _ id)).mono ?_)
      rintro g r rfl
      cases r <;> rfl
  | sweep =>
      exact Follows.bind (claiming_sweepTick.mono fun g _ hg => hg)
  | setNote id note => exact hplain false (keepsBusy_setTunnelNote id note)
  | createToken id ttlSeconds =>
      exact hplain false ((keepsBusy_createToken id ttlSeconds).bindE fun _ => Only.ret _)
  | delete id actor =>
      exact hplain false ((keepsBusy_deleteTunnelInternal id actor).bindE fun _ => Only.ret _)

end DatumConnect.Daemon
