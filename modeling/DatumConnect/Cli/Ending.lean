import DatumConnect.Lib.Runs
import DatumConnect.Cli.Waiting
/-!
# How the listen command ends

The process with the signals that reach it.  Until the command waits for an interrupt
the system's own handling is in place, which ends the process; nothing of it handles
SIGTERM.
-/

namespace DatumConnect.Cli

open DatumConnect.Lib
open DatumConnect.Lib.Prog (Protocol Follows Stays Only OnOk)
open DatumConnect.Cloud (Cluster Error SvcE)
open DatumConnect.Tunnels
open Session (ExitReason exitReason)

inductive Signal where
  | sigint
  | sigterm
  deriving DecidableEq, Repr

inductive Event where
  | reply (answer : Answer)
  | signal (signal : Signal)

inductive Exit where
  | code (status : Nat)
  | killed (signal : Signal)
  deriving DecidableEq, Repr

/-- A call that has been answered. -/
structure Entry where
  call : Call
  reply : call.Reply

namespace Call

def isWatch : Call → Bool
  | .watch => true
  | _ => false

/-- The call is one of the clean-up. -/
def isDelete : Call → Bool
  | .service _ (.delete _) _ => true
  | _ => false

/-- What the call returns when the command is interrupted, if it waits for that. -/
def interrupted : (c : Call) → Option c.Reply
  | .watch => some none
  | _ => none

end Call

/-- Why the reply ends the watching, if it does. -/
def Entry.endsWatch : Entry → Option ExitReason
  | ⟨.watch, none⟩ => some .ctrlC
  | ⟨.activeProgress _, reply⟩ => exitReason reply
  | _ => none

/-- How far a run has come: whether it has begun to watch its tunnel, why it has
stopped, and whether the clean-up has begun. -/
structure Stage where
  watching : Bool := false
  left : Option ExitReason := none
  cleaning : Bool := false
  deriving DecidableEq, Repr

def Stage.after (g : Stage) (e : Entry) : Stage where
  watching := g.watching || e.call.isWatch
  left := g.left.or (if g.watching || e.call.isWatch then e.endsWatch else none)
  cleaning := g.cleaning || e.call.isDelete

theorem after_watch {g : Stage} (woken : Option Woken) (hleft : g.left = none) :
    g.after ⟨.watch, woken⟩ =
      { g with watching := true, left := if woken = none then some .ctrlC else none } := by
  cases woken <;> simp [Stage.after, hleft, Call.isWatch, Call.isDelete, Entry.endsWatch]

theorem after_activeProgress {g : Stage} {tunnelId : String}
    (reply : Except Error (Option TunnelProgress)) (hleft : g.left = none) (hwatching : g.watching = true) :
    g.after ⟨.activeProgress tunnelId, reply⟩ = { g with left := exitReason reply } := by
  simp [Stage.after, hleft, hwatching, Call.isWatch, Call.isDelete, Entry.endsWatch]

def stage (log : List Entry) : Stage := log.foldl Stage.after {}

structure Process where
  machine : Machine
  prog : Task (Except Failure Unit)
  log : List Entry := []
  killed : Option Signal := none

namespace Process

/-- The call it is waiting for. -/
def next (p : Process) : Option Call :=
  match p.prog with
  | .call c _ => some c
  | .ret _ => none

def exit (p : Process) : Option Exit :=
  match p.killed, p.prog with
  | some signal, _ => some (.killed signal)
  | none, .ret (.ok _) => some (.code 0)
  | none, .ret (.error (.error _)) => some (.code 1)
  | none, _ => none

/-- The deletion of the tunnel has been begun. -/
def cleansUp (p : Process) : Bool :=
  (stage p.log).cleaning || p.next.any Call.isDelete

/-- Interrupted while it watched its tunnel. -/
def interrupted (p : Process) : Prop := (stage p.log).left = some .ctrlC

def begin (session : Session) (machine : Machine) (label endpoint id : Option String)
    (rounds : Nat) : Process where
  machine
  prog := (session.listen label endpoint id rounds).run

/-- An interrupt that comes while nothing waits for it is lost, once something has. -/
def step (session : Session) (p : Process) (event : Event) : Option Process :=
  match p.killed, p.prog, event with
  | none, .call c k, .reply answer =>
      let (machine, reply) := p.machine.serve session answer c
      some { p with machine, prog := k reply, log := p.log ++ [⟨c, reply⟩] }
  | none, .call c k, .signal .sigint =>
      match c.interrupted with
      | some reply => some { p with prog := k reply, log := p.log ++ [⟨c, reply⟩] }
      | none => if (stage p.log).watching then some p else some { p with killed := some .sigint }
  | none, .call _ _, .signal .sigterm => some { p with killed := some .sigterm }
  | _, _, _ => none

end Process

/-! ## Keeping to the stages -/

theorem stage_append (log : List Entry) (e : Entry) : stage (log ++ [e]) = (stage log).after e := by
  rw [stage, List.foldl_append]
  rfl

/-- The tunnel is deleted by the calls made after the watching, and by no others. -/
def protocol : Protocol Call Call.Reply Stage where
  allowed g c := c.isDelete = true ↔ g.left.isSome = true
  advance g c r := g.after ⟨c, r⟩

/-- Where a command ends. -/
def EndsAt (g : Stage) (r : Except Failure Unit) : Prop :=
  (g.left.isSome = true → g.cleaning = true) ∧ (r = .ok () → g.left = some .ctrlC)

/-- A call of the setup. -/
def Preparing (c : Call) : Prop := c.isWatch = false ∧ c.isDelete = false

section Setup

variable {α : Type} {session : Session}

theorem only_perform {c : Call} (hwatch : c.isWatch = false) (hdelete : c.isDelete = false) :
    Only Preparing (Task.perform c) :=
  Only.perform ⟨hwatch, hdelete⟩

theorem preparing_of_waits {c : Call} (h : Waits c) : Preparing c := by
  cases c with
  | watch => cases h
  | service key method c => cases h
  | _ => exact ⟨rfl, rfl⟩

/-- A method of the service that is not the deletion. -/
theorem only_service {key : String} {method : Method} {p : SvcE α}
    (h : ∀ tunnelId, method ≠ .delete tunnelId) : Only Preparing (Task.service key method p) := by
  refine Only.embed (Only.of_forall p.run fun c => ?_)
  constructor
  · rfl
  · cases method with
    | delete tunnelId => exact absurd rfl (h tunnelId)
    | _ => rfl

theorem only_newNode : Only Preparing Session.newNode.run := by
  refine (only_orFail (only_perform rfl rfl)).bindE fun key => ?_
  exact (only_orFail (only_perform rfl rfl)).bindE fun _ => Only.ret _

theorem only_getActive {key tunnelId : String} :
    Only Preparing (Session.getActive key tunnelId).run :=
  only_orFail (only_service (by simp))

theorem only_resolveListenKey (tunnelId : String) :
    Only Preparing (session.resolveListenKey tunnelId).run := by
  refine (only_orFail (only_perform rfl rfl)).bindE fun key => ?_
  cases key with
  | some key => exact Only.ret _
  | none => exact (only_lift (only_perform rfl rfl)).bindE fun _ => Only.ret _

theorem only_saveListenKey (inMemoryKey : Option String) (tunnelId : String) :
    Only Preparing (session.saveListenKey inMemoryKey tunnelId).run := by
  cases inMemoryKey with
  | some key => exact only_orFail (only_perform rfl rfl)
  | none => exact Only.ret _

theorem only_resolveId (tunnelId : String) (endpoint : Option String) :
    Only Preparing (session.resolveId tunnelId endpoint).run := by
  refine only_newNode.bindE fun key => ?_
  refine only_getActive.bindE fun found => ?_
  cases found with
  | none => exact only_fail
  | some tunnel =>
      simp only
      split
      · exact only_fail
      · refine (only_resolveListenKey _).bindE fun keyAndRewire => ?_
        exact (only_orFail (only_perform rfl rfl)).bindE fun _ => Only.ret _

theorem only_pick (tunnels : List TunnelSummary) : Only Preparing (session.pick tunnels).run := by
  match tunnels with
  | [] => exact only_fail
  | [tunnel] => exact Only.ret _
  | first :: second :: more =>
      exact (only_orFail (only_perform rfl rfl)).bindE fun _ => Only.ret _

theorem only_resolvePicked : Only Preparing session.resolvePicked.run := by
  refine only_newNode.bindE fun key => ?_
  refine (only_orFail (only_service (by simp))).bindE fun tunnels => ?_
  refine (only_pick tunnels).bindE fun picked => ?_
  refine (only_orFail (only_perform rfl rfl)).bindE fun stored => ?_
  cases stored with
  | none => exact only_fail
  | some key => exact (only_orFail (only_perform rfl rfl)).bindE fun _ => Only.ret _

theorem only_resolve (endpoint id : Option String) :
    Only Preparing (session.resolve endpoint id).run := by
  cases id with
  | some tunnelId => cases endpoint <;> exact only_resolveId tunnelId _
  | none =>
      cases endpoint with
      | none => exact only_resolvePicked
      | some endpoint =>
          refine (only_lift (only_perform rfl rfl)).bindE fun key => ?_
          exact (only_orFail (only_perform rfl rfl)).bindE fun _ => Only.ret _

theorem only_selectNode (resolved : Session.Resolved) :
    Only Preparing (session.selectNode resolved).run := by
  unfold Session.selectNode
  split
  · exact Only.ret _
  · refine only_newNode.bindE fun key => ?_
    exact (only_orFail (only_service (by simp))).bindE fun _ => Only.ret _

theorem only_ensureTunnel {key : String} {label : Option String} {resolved : Session.Resolved}
    (existing : Option TunnelSummary) :
    Only Preparing (session.ensureTunnel key label resolved existing).run := by
  cases existing with
  | none =>
      refine (only_orFail (only_service (by simp))).bindE fun tunnel => ?_
      exact (only_saveListenKey _ _).bindE fun _ => Only.ret _
  | some tunnel =>
      unfold Session.ensureTunnel Session.adoptTunnel
      simp only
      split
      · refine (only_orFail (only_service (by simp))).bindE fun updated => ?_
        refine (only_saveListenKey _ _).bindE fun _ => ?_
        exact (only_orFail (only_service (by simp))).bindE fun _ => Only.ret _
      · exact Only.ret _

theorem only_awaitReady {key tunnelId endpoint : String} (rounds : Nat) :
    Only Preparing (session.awaitReady key tunnelId endpoint rounds).run := by
  refine ((waits_awaitTunnelProgress rounds).mono fun _ => preparing_of_waits).bindE
    fun progress => ?_
  refine (only_lift (only_service (by simp))).bindE fun _ => ?_
  refine (only_lift ((waits_awaitHostnames progress 20).mono fun _ => preparing_of_waits)).bindE
    fun progress => ?_
  refine ((waits_verify progress.hostnames).mono fun _ => preparing_of_waits).bindE fun _ => ?_
  refine only_getActive.bindE fun found => ?_
  cases found with
  | none => exact only_fail
  | some tunnel => exact Only.ret _

theorem only_setup {label endpoint id : Option String} (rounds : Nat) :
    Only Preparing (session.setup label endpoint id rounds).run := by
  refine (only_resolve endpoint id).bindE fun resolved => ?_
  refine (only_selectNode resolved).bindE fun keyAndExisting => ?_
  refine (only_lift (waits_startHeartbeat.mono fun _ => preparing_of_waits)).bindE fun _ => ?_
  refine (only_ensureTunnel _).bindE fun tunnelId => ?_
  refine (only_lift (only_service (by simp))).bindE fun _ => ?_
  exact (only_awaitReady rounds).bindE fun _ => Only.ret _

end Setup

/-! ## The command keeps to the stages -/

variable {session : Session} {g : Stage}

/-- The setup is over before the watching begins. -/
theorem stays_setup {label endpoint id : Option String} (rounds : Nat) :
    Stays protocol {} (session.setup label endpoint id rounds).run := by
  refine Stays.of_only (only_setup rounds) (fun c hc => ?_) fun c r hc => ?_
  · constructor
    · intro hdelete
      rw [hc.2] at hdelete
      cases hdelete
    · intro hleft
      cases hleft
  · show Stage.after {} ⟨c, r⟩ = {}
    unfold Stage.after
    rw [hc.1, hc.2]
    rfl

/-- Where the watching has ended, and the cleaning up has not begun. -/
def LeftFor (g : Stage) (r : Except Failure ExitReason) : Prop :=
  g.cleaning = false ∧ match r with
    | .ok reason => g.left = some reason
    | .error _ => g.left = none

theorem follows_watch {tunnelId : String} (rounds : Nat) (hleft : g.left = none)
    (hcleaning : g.cleaning = false) :
    Follows protocol LeftFor (Session.watch tunnelId rounds).run g := by
  have hnone {c : Call} (hc : c.isDelete = false) : protocol.allowed g c := by
    show c.isDelete = true ↔ g.left.isSome = true
    rw [hc, hleft]
    rfl
  induction rounds generalizing g with
  | zero => exact ⟨hcleaning, hleft⟩
  | succ rounds ih =>
      refine ⟨hnone rfl, fun woken => ?_⟩
      show Follows protocol LeftFor _ (g.after ⟨.watch, woken⟩)
      rw [after_watch woken hleft]
      match woken with
      | none => exact ⟨hcleaning, rfl⟩
      | some .loginState => exact ih rfl hcleaning (fun hc => by simp [protocol, hc])
      | some .poll =>
          refine ⟨by simp [protocol, Call.isDelete], fun reply => ?_⟩
          dsimp only [Prog.bind, Function.comp, ExceptT.bindCont]
          show Follows protocol LeftFor _
            (Stage.after { g with watching := true, left := none } ⟨.activeProgress tunnelId, reply⟩)
          rw [after_activeProgress reply rfl rfl]
          cases exitReason reply with
          | some reason => exact ⟨hcleaning, rfl⟩
          | none => exact ih rfl hcleaning (fun hc => by simp [protocol, hc])

/-- Every call of the deletion is one of the clean-up. -/
theorem stays_deleting {α : Type} {key tunnelId : String} (p : Cloud.Svc α)
    (hleft : g.left.isSome = true) (hcleaning : g.cleaning = true) :
    Stays protocol g (Prog.embed (Call.service key (.delete tunnelId)) p) := by
  have hdelete : Only (fun c => c.isDelete = true ∧ c.isWatch = false)
      (Prog.embed (Call.service key (.delete tunnelId)) p : Task α) := by
    exact Only.embed (Only.of_forall p fun c => ⟨rfl, rfl⟩)
  refine Stays.of_only hdelete (fun c hc => ?_) fun c r hc => ?_
  · show c.isDelete = true ↔ g.left.isSome = true
    rw [hc.1, hleft]
  · obtain ⟨reason, hreason⟩ := Option.isSome_iff_exists.mp hleft
    show g.after ⟨c, r⟩ = g
    cases g
    simp_all [Stage.after]

/-- The deletion makes a call at least. -/
theorem follows_delete {key tunnelId : String} (hleft : g.left.isSome = true) :
    Follows protocol (fun g' _ => g'.left = g.left ∧ g'.cleaning = true)
      (Task.service key (.delete tunnelId) ((session.serviceFor key).deleteActive tunnelId)) g := by
  refine ⟨⟨fun _ => hleft, fun _ => rfl⟩, fun project => ?_⟩
  obtain ⟨reason, hreason⟩ := Option.isSome_iff_exists.mp hleft
  have hstage : g.after ⟨.service key (.delete tunnelId) .selectedContext, project⟩ =
      { g with cleaning := true } := by
    simp [Stage.after, hreason, Call.isWatch, Call.isDelete]
  show Follows protocol _ (Prog.embed (Call.service key (.delete tunnelId)) _)
    (g.after ⟨.service key (.delete tunnelId) .selectedContext, project⟩)
  rw [hstage]
  refine (stays_deleting (g := { g with cleaning := true }) _ hleft rfl).mono fun g' _ hg => ?_
  rw [hg]
  exact ⟨rfl, rfl⟩

theorem follows_listen {label endpoint id : Option String} (rounds : Nat) :
    Follows protocol EndsAt (session.listen label endpoint id rounds).run {} := by
  have hfailed : ∀ e : Failure, EndsAt {} (.error e) := by
    intro e
    constructor
    · intro h
      cases h
    · intro h
      cases h
  refine (stays_setup rounds).andThenE (fun keyAndTunnel => ?_) hfailed
  refine Follows.bindE ((follows_watch rounds rfl rfl).mono fun g r hr => ?_)
  obtain ⟨hcleaning, hleft⟩ := hr
  cases r with
  | error e =>
      constructor
      · intro h
        rw [hleft] at h
        cases h
      · intro h
        cases h
  | ok reason =>
      have hsome : g.left.isSome = true := by rw [hleft]; rfl
      refine Follows.bindE (Follows.bind ((follows_delete hsome).mono ?_))
      rintro g' deleted ⟨hsame, hcleaned⟩
      have hleft' : g'.left = some reason := hsame.trans hleft
      cases reason with
      | ctrlC => exact ⟨fun _ => hcleaned, fun _ => hleft'⟩
      | terminalFailure => exact ⟨fun _ => hcleaned, fun h => nomatch h⟩
      | deletedUpstream => exact ⟨fun _ => hcleaned, fun h => nomatch h⟩

/-! ## The process -/

namespace Process

variable {p q : Process}

/-- What is left of the command keeps to the stages, and it cleans up after the watching
only. -/
structure Kept (p : Process) : Prop where
  follows : Follows protocol EndsAt p.prog (stage p.log)
  cleaning : (stage p.log).cleaning = true → (stage p.log).left.isSome = true

theorem Kept.answered {c : Call} {k : c.Reply → Task (Except Failure Unit)} (h : p.Kept)
    (hprog : p.prog = .call c k) (machine : Machine) (reply : c.Reply) :
    Kept { p with machine, prog := k reply, log := p.log ++ [⟨c, reply⟩] } := by
  have hfollows := h.follows
  rw [hprog] at hfollows
  constructor
  · rw [stage_append]
    exact hfollows.2 reply
  · rw [stage_append]
    intro hcleaning
    have hleft : (stage p.log).left.isSome = true := by
      rcases Bool.or_eq_true_iff.mp hcleaning with hold | hdelete
      · exact h.cleaning hold
      · exact hfollows.1.mp hdelete
    obtain ⟨reason, hreason⟩ := Option.isSome_iff_exists.mp hleft
    simp [Stage.after, hreason]

theorem Kept.step {session : Session} {event : Event} (h : p.Kept)
    (hstep : p.step session event = some q) : q.Kept := by
  unfold Process.step at hstep
  split at hstep
  · rename_i c k answer _ hprog
    cases hstep
    exact h.answered hprog _ _
  · rename_i c k _ hprog
    split at hstep
    · cases hstep
      exact h.answered hprog p.machine _
    · split at hstep
      · cases hstep
        exact h
      · cases hstep
        exact ⟨h.follows, h.cleaning⟩
  · cases hstep
    exact ⟨h.follows, h.cleaning⟩
  · cases hstep

/-- The clean-up is begun by the commands that have stopped watching. -/
theorem Kept.cleansUp_iff (h : p.Kept) :
    p.cleansUp = true ↔ (stage p.log).left.isSome = true := by
  have hfollows := h.follows
  unfold cleansUp next
  cases hprog : p.prog with
  | ret r =>
      rw [hprog] at hfollows
      constructor
      · intro hcleans
        exact h.cleaning (by simpa using hcleans)
      · intro hleft
        simpa using hfollows.1 hleft
  | call c k =>
      rw [hprog] at hfollows
      have hallowed : c.isDelete = true ↔ (stage p.log).left.isSome = true := hfollows.1
      constructor
      · intro hcleans
        rcases Bool.or_eq_true_iff.mp hcleans with hcleaning | hdelete
        · exact h.cleaning hcleaning
        · exact hallowed.mp hdelete
      · intro hleft
        simp [hallowed.mpr hleft]

theorem Kept.interrupted (h : p.Kept) (hexit : p.exit = some (.code 0)) : p.interrupted := by
  have hfollows := h.follows
  unfold exit at hexit
  split at hexit
  · cases hexit
  · rename_i hprog
    rw [hprog] at hfollows
    exact hfollows.2 rfl
  · cases hexit
  · cases hexit

/-- However a command ends: it takes its tunnel down, and has succeeded only if it was
interrupted while it watched, if and only if it has stopped watching, for an interrupt,
a failure for good or the tunnel's deletion by others. -/
theorem cleansUp_iff_left (session : Session) (machine : Machine) (label endpoint id : Option String)
    (rounds : Nat) (events : List Event) (p : Process)
    (hrun : Runs.run (step session) (begin session machine label endpoint id rounds) events =
      some p) :
    (p.cleansUp = true ∧ (p.exit = some (.code 0) → p.interrupted)) ↔
      (stage p.log).left.isSome = true := by
  have hinit : (begin session machine label endpoint id rounds).Kept :=
    ⟨follows_listen rounds, fun h => nomatch h⟩
  have hkept := Runs.invariant_always (fun _ _ _ h hstep => Kept.step h hstep) hinit hrun
  constructor
  · intro h
    exact hkept.cleansUp_iff.mp h.1
  · intro hleft
    exact ⟨hkept.cleansUp_iff.mpr hleft, hkept.interrupted⟩

/-- A call goes as it should, and the tunnel is up at once. -/
def well : Event := .reply {
  cloud := {
    details := some { publicKeyId := "k", homeRelay := "r", addresses := [] }
    suffix := "x" }
  text := "k"
  progress := some { hostnames := ["tunnel-x.example"], steps := [] } }

def listening : Process := begin .plain { cluster := Cluster.empty } none (some "h:1") none 3

/-- Up to where it watches the tunnel that it has made. -/
def made : List Event := List.replicate 50 well

set_option maxRecDepth 8000 in
theorem cleansUp_interrupted :
    ∃ p, Runs.run (step .plain) listening (made ++ [.signal .sigint] ++ List.replicate 15 well) =
        some p ∧ p.exit = some (.code 0) ∧
      ((p.cleansUp = true ∧ (p.exit = some (.code 0) → p.interrupted)) ↔
        (stage p.log).left.isSome = true) :=
  ⟨_, rfl, rfl, cleansUp_iff_left .plain { cluster := Cluster.empty } none (some "h:1") none 3
    (made ++ [.signal .sigint] ++ List.replicate 15 well) _ rfl⟩

set_option maxRecDepth 8000 in
/-- A command that is told to stop by SIGTERM leaves its tunnel. -/
theorem tunnel_left :
    ∃ p, Runs.run (step .plain) listening (made ++ [.signal .sigterm]) = some p ∧
      p.exit = some (.killed .sigterm) ∧ p.cleansUp = false ∧
      ((p.machine.cluster .httpProxy).get? "tunnel-x").isSome = true :=
  ⟨_, rfl, rfl, by decide, by decide⟩

end Process

end DatumConnect.Cli
