import DatumConnect.AddonPage.Requests
/-!
# Where requests and tasks are

Who holds the lock of the cache, which automatic confirmation has been found due, and
which task has taken up its Allow.  The lock is waited for; a request may be dropped only
where it waits for something.
-/

namespace DatumConnect.AddonPage

open DatumConnect.Lib
open DatumConnect.Lib.Prog (Only Follows Protocol Stays)
open DatumConnect.Lib.Pool
open DatumConnect.HomeAssistant

structure Place where
  holds : Bool := false
  /-- It has found the automatic confirmation due and has not started it yet. -/
  due : Bool := false
  /-- It is the task of an Allow that has not ended. -/
  allowing : Bool := false
  /-- The job's version as last read, unless it has changed the job since. -/
  version : Option Nat := none
  deriving DecidableEq, Repr

namespace Place

def Allowed (g : Place) : Call → Prop
  | .lockCache => g.holds = false
  | .clearCache | .jobSnapshot | .beginRead | .storeReading _ => g.holds = true
  | .cacheServes version _ | .fillCache version _ _ => g.holds = true ∧ g.version = some version
  | .autoConfirmDue _ => g.due = false
  | .startAllow auto => auto = true → g.due = true
  | .takeAllow _ => g.allowing = false
  | .allow (.step _) => g.allowing = true
  | .allowEnds _ => g.allowing = true ∧ g.holds = false
  | _ => True

def advance (g : Place) : (c : Call) → c.Reply → Place
  | .lockCache, _ => { g with holds := true, version := none }
  | .clearCache, _ | .fillCache _ _ _, _ => { g with holds := false }
  | .cacheServes _ _, found => { g with holds := g.holds && found.isNone }
  | .jobVersion, version => { g with version := some version }
  | .autoConfirmDue _, due => { g with due }
  | .activeTarget, .error _ => { g with due := false }
  | .startAllow auto, _ => { g with due := g.due && !auto, version := none }
  | .takeAllow _, taken => { g with allowing := taken }
  | .allowEnds _, _ => { g with allowing := false, version := none }
  | .finish, _ | .skipClear, _ | .allow (.step _), _ => { g with version := none }
  | _, _ => g

end Place

def protocol : Protocol Call Call.Reply Place where
  allowed := Place.Allowed
  advance := Place.advance

def Call.waits : Call → Bool
  | .lockCache | .runningIds | .listActive | .activeTarget | .sleep _ => true
  | .allow (.step _) => false
  | .allow _ => true
  | _ => false

section

variable (supervisor : Bool) (parseRfc3339 : String → Option Int)

def system : System Op Call Call.Reply Result DaemonPaired Answer Place Unit where
  code := Op.code supervisor parseRfc3339
  handle := handle
  protocol := protocol
  start _ := {}
  fresh := ()
  notice _ _ _ _ _ := ()
  abandon p g :=
    if g.holds then { p with held := false, history := { p.history with build := none } } else p

abbrev Clients := World Op Call Call.Reply Result DaemonPaired Place Unit

abbrev PageClient := Client Op Call Call.Reply Result Place Unit

/-- Tasks are not dropped, nor is the confirmation at the daemon's start. -/
def Op.droppable : Op → Bool
  | .confirmOurs _ | .allowTask _ _ => false
  | _ => true

/-- The lock of the cache is waited for; a request is dropped only while it waits. -/
def ready (w : Clients) : Act Op Answer → Bool
  | .spawn _ => true
  | .step i _ =>
      match w.clients[i]?.bind Client.next with
      | some .lockCache => !w.state.held
      | _ => true
  | .drop i =>
      match w.clients[i]? with
      | some client => client.op.droppable && client.next.any Call.waits
      | none => false

def step : Clients → Act Op Answer → Option Clients :=
  (system supervisor parseRfc3339).stepWhen ready

end

def start (marker : Bool) : Clients := { state := { marker } }

/-! ## The operations keep to the protocol -/

/-- Whether the lock is held and an Allow under way; no confirmation is due. -/
structure Place.At (g : Place) (holds allowing : Bool) : Prop where
  holds : g.holds = holds
  allowing : g.allowing = allowing
  due : g.due = false

variable {holds allowing supervisor : Bool} {g : Place}

theorem stays_asking {α : Type} {p : AllowProg α} (h : Only (fun c => ∀ s, c ≠ .step s) p) :
    Stays protocol g (PageProg.asking p) := by
  have hcalls : Only (fun c => ∃ c', c = Call.allow c' ∧ ∀ s, c' ≠ .step s) (PageProg.asking p) :=
    Only.embed (h.mono fun c hc => ⟨c, rfl, hc⟩)
  refine Stays.of_only hcalls ?_ ?_
  · rintro _ ⟨c, rfl, hc⟩
    cases c with
    | step s => exact absurd rfl (hc s)
    | _ => trivial
  · rintro _ r ⟨c, rfl, hc⟩
    cases c with
    | step s => exact absurd rfl (hc s)
    | _ => rfl

theorem only_readHttpConfig (timeout : Nat) :
    Only (fun c => ∀ s, c ≠ .step s) (readHttpConfig timeout) := by
  refine (Only.perform nofun).bind fun r => ?_
  cases r with
  | error e => exact Only.ret _
  | ok _ =>
      refine (Only.perform nofun).bind fun result => ?_
      exact (Only.perform nofun).bind fun _ => Only.ret _

theorem follows_finishStep (hg : g.At holds allowing) :
    Follows protocol (fun g' _ => g'.At holds allowing) finishStep g := by
  refine Follows.performThen trivial fun _ => ?_
  exact ⟨trivial, fun _ => ⟨hg.holds, hg.allowing, hg.due⟩⟩

/-- Allow, from a place where it is due if it is automatic; afterwards it is not. -/
theorem follows_allowInner {auto : Bool} (hholds : g.holds = holds) (hallowing : g.allowing = allowing)
    (hdue : g.due = auto) (hsupervisor : auto = true → supervisor = true) :
    Follows protocol (fun g' _ => g'.At holds allowing) (allowInner supervisor auto) g := by
  unfold allowInner
  split
  · refine Follows.performThen trivial fun r => ?_
    cases r with
    | error e => exact ⟨hholds, hallowing, rfl⟩
    | ok _ =>
        refine Follows.performThen (fun hauto => hdue.trans hauto) fun started => ?_
        have hat : (protocol.advance (protocol.advance g .activeTarget (.ok ())) (.startAllow auto)
            started).At holds allowing := by
          refine ⟨hholds, hallowing, ?_⟩
          show (g.due && !auto) = false
          rw [hdue]
          cases auto <;> rfl
        split
        · exact hat
        · exact hat
  · rename_i hnone
    refine ⟨hholds, hallowing, ?_⟩
    cases auto with
    | true => exact absurd (hsupervisor rfl) hnone
    | false => exact hdue

theorem follows_settledView {setup : Option ProxySetup} {last : Option (Bool × Said)}
    (hg : g.At holds allowing) :
    Follows protocol (fun g' _ => g'.At holds allowing) (settledView setup last) g := by
  refine Follows.performThen trivial fun finished => ?_
  split
  · exact Follows.bind ((follows_finishStep (g := g) hg).mono fun g' _ h => h)
  · exact hg

theorem follows_currentSetup {cached : Option (Option ProxySetup)} (hg : g.At true allowing) :
    Follows protocol (fun g' _ => g'.At true allowing) (currentSetup cached) g := by
  cases cached with
  | some setup => exact hg
  | none =>
      have hread : Follows protocol (fun g' _ => g' = g) readSetup g := by
        refine Follows.performThen hg.holds fun _ => ?_
        refine Follows.bind ((stays_asking (only_readHttpConfig 10000)).mono fun g' r hg' => ?_)
        cases r with
        | ok c => exact hg'
        | error e => exact hg'
      refine Follows.bind (hread.mono fun g' setup hg' => ?_)
      subst hg'
      exact Follows.performThen hg.holds fun _ => hg

theorem follows_confirmIfDue {setup : Option ProxySetup} (hg : g.At holds allowing)
    (hsupervisor : supervisor = true) :
    Follows protocol (fun g' _ => g'.At holds allowing) (confirmIfDue supervisor setup) g := by
  refine Follows.performThen hg.due fun due => ?_
  cases due with
  | true =>
      have hinner : Follows protocol (fun g' _ => g'.At holds allowing)
          (allowInner supervisor true) { g with due := true } :=
        follows_allowInner hg.holds hg.allowing rfl fun _ => hsupervisor
      exact Follows.bind (hinner.mono fun _ _ h => h)
  | false => exact ⟨hg.holds, hg.allowing, rfl⟩

theorem follows_proxyStep (hg : g.At true allowing) :
    Follows protocol (fun g' _ => g'.At true allowing) (proxyStep supervisor) g := by
  unfold proxyStep
  split
  · rename_i hsupervisor
    refine Follows.performThen hg.holds fun snapshot => ?_
    obtain ⟨running, last, cached⟩ := snapshot
    refine Follows.performThen trivial fun finished => ?_
    cases running with
    | some step => exact hg
    | none =>
        refine Follows.bind ((follows_currentSetup hg).mono fun g₁ setup hg₁ => ?_)
        refine Follows.bind ((follows_confirmIfDue hg₁ hsupervisor).mono fun g₂ started hg₂ => ?_)
        cases started with
        | true => exact Follows.performThen trivial fun _ => hg₂
        | false => exact Follows.bind ((follows_settledView hg₂).mono fun _ _ h => h)
  · exact hg

theorem follows_freshStatus {running : List String} (hg : g.At true allowing) :
    Follows protocol (fun g' _ => g'.At true allowing) (freshStatus supervisor running) g := by
  refine Follows.performThen trivial fun tunnels => ?_
  exact Follows.bind ((follows_proxyStep hg).mono fun _ _ h => h)

theorem follows_status : Follows protocol (fun _ _ => True) (status supervisor) {} := by
  refine Follows.performThen rfl fun _ => ?_
  refine Follows.performThen trivial fun version => ?_
  refine Follows.performThen trivial fun running => ?_
  refine Follows.performThen ⟨rfl, rfl⟩ fun found => ?_
  cases found with
  | some status => exact trivial
  | none =>
      have hat : Place.At { holds := true, version := some version } true false := ⟨rfl, rfl, rfl⟩
      refine Follows.bind ((follows_freshStatus hat).mono fun g status hg => ?_)
      refine Follows.performThen trivial fun version => ?_
      exact Follows.performThen ⟨hg.holds, rfl⟩ fun _ => trivial

theorem follows_dropStatus (hg : g.At false allowing) :
    Follows protocol (fun _ _ => True) dropStatus g :=
  Follows.performThen hg.holds fun _ => ⟨rfl, fun _ => trivial⟩

theorem follows_skipInner (hg : g.At holds allowing) :
    Follows protocol (fun g' _ => g'.At holds allowing) (skipInner supervisor) g := by
  unfold skipInner
  split
  · refine Follows.performThen trivial fun cleared => ?_
    have hat : (protocol.advance g .skipClear cleared).At holds allowing :=
      ⟨hg.holds, hg.allowing, hg.due⟩
    cases cleared with
    | true => exact Follows.bind ((follows_finishStep hat).mono fun _ _ h => h)
    | false => exact hat
  · exact hg

theorem follows_confirmOursUntil (hsupervisor : supervisor = true) (deadline rounds : Nat)
    (hg : g.At holds allowing) :
    Follows protocol (fun _ _ => True) (confirmOursUntil supervisor deadline rounds) g := by
  induction rounds generalizing g with
  | zero => exact trivial
  | succ rounds ih =>
      have again {g : Place} (hg : g.At holds allowing) :
          Follows protocol (fun _ _ => True)
            (do PageProg.sleep 5000; confirmOursUntil supervisor deadline rounds) g :=
        Follows.performThen trivial fun _ => ih hg
      refine Follows.performThen trivial fun now => ?_
      split
      · refine Follows.bind ((stays_asking (only_readHttpConfig 10000)).mono fun g' r hg' => ?_)
        subst hg'
        cases r with
        | error e => exact again hg
        | ok c =>
            simp only
            cases assess c with
            | error e => exact again hg
            | ok setup =>
                refine Follows.performThen hg.due fun due => ?_
                cases due with
                | false => exact trivial
                | true =>
                    have hinner : Follows protocol (fun g' _ => g'.At holds allowing)
                        (allowInner supervisor true) { g' with due := true } :=
                      follows_allowInner hg.holds hg.allowing rfl fun _ => hsupervisor
                    refine Follows.bind (hinner.mono fun g'' r hg'' => ?_)
                    cases r with
                    | ok _ => exact trivial
                    | error e => exact again hg''
      · exact trivial

theorem follows_allowTask (parseRfc3339 : String → Option Int) (auto : Bool) (rounds : Nat) :
    Follows protocol (fun _ _ => True) (allowTask parseRfc3339 auto rounds) {} := by
  refine Follows.performThen rfl fun taken => ?_
  cases taken with
  | false => exact trivial
  | true =>
      have hstays : Stays protocol { allowing := true }
          (PageProg.asking (allowOutcome parseRfc3339 auto rounds)) := by
        have hcalls : Only (fun c => ∃ c', c = Call.allow c')
            (PageProg.asking (allowOutcome parseRfc3339 auto rounds)) :=
          Only.embed (Only.of_forall _ fun c => ⟨c, rfl⟩)
        refine Stays.of_only hcalls ?_ ?_
        · rintro _ ⟨c, rfl⟩
          cases c <;> first | rfl | trivial
        · rintro _ r ⟨c, rfl⟩
          cases c <;> rfl
      refine Follows.bind (hstays.mono fun g outcome hg => ?_)
      subst hg
      cases outcome with
      | none => exact ⟨⟨rfl, rfl⟩, fun _ => trivial⟩
      | some outcome =>
          simp only
          split
          · have hat : Place.At { allowing := true } false true := ⟨rfl, rfl, rfl⟩
            refine Follows.bind ((follows_finishStep hat).mono fun g' _ hg' => ?_)
            exact ⟨⟨hg'.allowing, hg'.holds⟩, fun _ => trivial⟩
          · exact ⟨⟨rfl, rfl⟩, fun _ => trivial⟩

theorem follows_code (parseRfc3339 : String → Option Int) (op : Op) :
    Follows protocol (fun _ _ => True) (op.code supervisor parseRfc3339) {} := by
  have hat : Place.At {} false false := ⟨rfl, rfl, rfl⟩
  cases op with
  | status => exact Follows.bind (follows_status.mono fun _ _ _ => trivial)
  | allowProxies =>
      have hinner : Follows protocol (fun g' _ => g'.At false false)
          (allowInner supervisor false) {} := follows_allowInner rfl rfl rfl nofun
      refine Follows.bind (Follows.bind (hinner.mono fun g r hg => ?_))
      exact Follows.bind ((follows_dropStatus hg).mono fun _ _ _ => trivial)
  | skipProxies =>
      refine Follows.bind (Follows.bind ((follows_skipInner hat).mono fun g r hg => ?_))
      exact Follows.bind ((follows_dropStatus hg).mono fun _ _ _ => trivial)
  | dropStatus => exact Follows.bind ((follows_dropStatus hat).mono fun _ _ _ => trivial)
  | confirmOurs rounds =>
      refine Follows.bind ?_
      unfold confirmOurs
      split
      · rename_i hsupervisor
        refine Follows.performThen trivial fun now => ?_
        exact (follows_confirmOursUntil hsupervisor _ rounds hat).mono fun _ _ _ => trivial
      · exact trivial
  | allowTask auto rounds =>
      exact Follows.bind ((follows_allowTask parseRfc3339 auto rounds).mono fun _ _ _ => trivial)

end DatumConnect.AddonPage
