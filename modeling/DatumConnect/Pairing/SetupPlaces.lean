import DatumConnect.Pairing.Parts
/-!
# How far a run of the page is

A run asks for approval, lists the projects, sleeps before it reads the source of the choice, and
asks for a service account, a binding and a key only in the project it has said it has selected.
-/

namespace DatumConnect.Pairing.Setup

open DatumConnect.Lib
open DatumConnect.Lib.Prog (Only Follows Protocol Stays)
open PairPart

inductive Place where
  /-- Nobody has approved. -/
  | asking
  | approved
  /-- The list is shown; the source is not read before there was a sleep. -/
  | listed (projects : List ProjectChoice)
  | slept (projects : List ProjectChoice)
  | selected (p : ProjectChoice)
  | working (p : ProjectChoice)
  deriving DecidableEq, Repr

/-- The call makes or reads something of this project, or leaves Datum alone. -/
def isIn (p : ProjectChoice) : PairCall → Bool
  | .api _ (.getServiceAccount project _) | .api _ (.createServiceAccount project _ _)
  | .api _ (.createServiceAccountKey project _ _ _) => project = p.id
  | .api _ (.createPolicyBinding project _) | .api _ (.getPolicyBinding project _) =>
      project.choice = p
  | .sleep _ | .keyExpiry | .randomSuffix _ => true
  | .readPending | .writePending _ | .removePending | .writeKey _ => true
  | .event (.serviceAccountCreated _ _) | .event (.serviceAccountReused _ _) => true
  | .event .accessGranted | .event (.accessNotConfirmed _ _) | .event .keySaved => true
  | _ => false

/-- The calls before the approval. -/
def isAsking : PairCall → Bool
  | .keyOutExists | .event (.approved _) | .event (.resumed _) => true
  | call => call.isLogin || call.isKeeping

def findChoice (projects : List ProjectChoice) (id : String) : Option ProjectChoice :=
  projects.find? fun p => eqIgnoreAsciiCase p.id id

namespace Place

def Allowed : Place → PairCall → Prop
  | selected p, .event (.projectSelected project organization) =>
      project = p.id ∧ organization = p.organization
  | selected _, _ => False
  | _, .now | _, .removeSession | _, .event (.sessionDropped _) => True
  | asking, call => isAsking call = true
  | approved, .event (.chooseProject _ _ _) => True
  | approved, call => (call.isListing || call.isKeeping) = true
  | listed projects, .event (.chooseProject choices _ _) => choices = projects
  | listed _, .sleep _ | slept _, .sleep _ | slept _, .project => True
  | working p, call => isIn p call = true
  | _, _ => False

def advance (g : Place) : (call : PairCall) → call.Reply → Place
  | .event e, _ =>
      match e, g with
      | .approved _, _ | .resumed _, _ => approved
      | .sessionDropped _, _ => asking
      | .chooseProject projects _ _, approved => listed projects
      | .projectSelected _ _, selected p => working p
      | _, _ => g
  | .sleep _, _ =>
      match g with
      | listed projects => slept projects
      | _ => g
  | .project, r =>
      match g, r with
      | slept projects, .ok value =>
          ((value.bind normalizeProject).bind (findChoice projects)).elim (listed projects) selected
      | slept projects, .error _ => listed projects
      | _, _ => g
  | _, _ => g

end Place

def protocol : Protocol PairCall PairCall.Reply Place where
  allowed := Place.Allowed
  advance := Place.advance

/-- What comes right after the selection of a project does not fail. -/
def Place.MayFail (g : Place) : Prop := ∀ p, g ≠ .selected p

/-- Where a run that has ended has got to. -/
def Ended (g : Place) : Except PairingError PairedKey → Prop
  | .ok key => ∃ p, g = .working p ∧ key.project = p.id ∧ key.organization = p.organization
  | .error _ => g.MayFail

/-! ## The approval -/

theorem stays_asking {α : Type} {p : PairPart α} {K : PairCall → Prop} (h : Only K p.run)
    (hallowed : ∀ call, K call → (call.isLogin || call.isKeeping) = true) :
    Stays protocol .asking p.run := by
  refine Stays.of_only h (fun call hK => ?_) fun call r hK => ?_
  · specialize hallowed call hK
    cases call with
    | event e =>
        cases e <;> first | exact hallowed | trivial
    | _ => first | exact hallowed | trivial
  · specialize hallowed call hK
    cases call with
    | event e =>
        cases e <;> first | rfl | cases hallowed
    | _ => rfl

theorem deviceLogin_stays (cfg : PairingConfig) (rounds : Nat) :
    Stays protocol .asking (deviceLogin cfg rounds).run := by
  apply stays_asking (deviceLogin_only cfg rounds)
  intro call h
  rw [h]
  rfl

theorem loadSession_stays : Stays protocol .asking loadSession.run := by
  apply stays_asking loadSession_only
  intro call h
  rw [h, Bool.or_true]

/-! ## The project -/

theorem stays_approved {α : Type} {p : PairPart α} {K : PairCall → Prop} (h : Only K p.run)
    (hallowed : ∀ call, K call → (call.isListing || call.isKeeping) = true) :
    Stays protocol .approved p.run := by
  refine Stays.of_only h (fun call hK => ?_) fun call r hK => ?_
  · specialize hallowed call hK
    cases call with
    | event e => cases hallowed
    | _ => first | exact hallowed | trivial
  · specialize hallowed call hK
    cases call with
    | event e => cases hallowed
    | _ => rfl

theorem chooseProject_nil (wanted : Option String) : ∃ e, chooseProject [] wanted = .error e := by
  unfold chooseProject
  generalize wanted.bind normalizeProject = wanted
  cases wanted with
  | none => exact ⟨_, rfl⟩
  | some wanted => exact ⟨_, rfl⟩

theorem findChoice_map (projects : List ProjectRef) (id : String) :
    findChoice (projects.map (·.choice)) id = (findProject projects id).map (·.choice) := by
  rw [findChoice, findProject, List.find?_map]
  rfl

/-- A project that has been chosen is where the run has got to. -/
def AtSelected (g : Place) : Except PairingError ProjectRef → Prop
  | .ok p => g = .selected p.choice
  | .error _ => g.MayFail

theorem waitRounds_follows (wait : ProjectWait) (projects : List ProjectRef)
    (deadline total rounds : Nat) {seen : Option String} {g : Place}
    (hseen : seen.bind (findProject projects) = none)
    (hg : g = .listed (projects.map (·.choice)) ∨ g = .slept (projects.map (·.choice))) :
    Follows protocol AtSelected
      (waitRounds wait projects deadline total rounds seen).run g := by
  have hmayFail : g.MayFail := by
    intro p hp
    rcases hg with rfl | rfl <;> cases hp
  induction rounds generalizing seen g with
  | zero => exact hmayFail
  | succ rounds ih =>
      rw [waitRounds]
      have hnow : protocol.allowed g .now := by rcases hg with rfl | rfl <;> trivial
      refine Follows.liftThen hnow fun now => ?_
      split
      · exact hmayFail
      have hsleep : protocol.advance g (.sleep (min wait.poll (deadline - now))) () =
          .slept (projects.map (·.choice)) := by
        rcases hg with rfl | rfl <;> rfl
      refine Follows.liftThen (by rcases hg with rfl | rfl <;> trivial) fun _ => ?_
      change Follows protocol _ _ (protocol.advance g (.sleep (min wait.poll (deadline - now))) ())
      rw [hsleep]
      refine Follows.liftThen trivial fun now => ?_
      split
      · exact ih hseen (Or.inr rfl) nofun
      refine Follows.liftThen trivial fun value => ?_
      cases value with
      | error e => exact ih hseen (Or.inl rfl) nofun
      | ok value =>
          change Follows protocol _ _
            (((value.bind normalizeProject).bind (findChoice (projects.map (·.choice)))).elim
              (.listed (projects.map (·.choice))) .selected)
          have hfind : (value.bind normalizeProject).bind (findChoice (projects.map (·.choice))) =
              ((value.bind normalizeProject).bind (findProject projects)).map (·.choice) := by
            cases value.bind normalizeProject with
            | none => rfl
            | some id => exact findChoice_map projects id
          rw [hfind]
          dsimp only
          split
          · rename_i hsame
            rw [hsame, hseen]
            exact ih hseen (Or.inl rfl) nofun
          cases hfound : (value.bind normalizeProject).bind (findProject projects) with
          | some p =>
              rfl
          | none =>
              refine Follows.liftThen trivial fun now => ?_
              exact Follows.liftThen rfl fun _ => ih hfound (Or.inl rfl) nofun

theorem waitForProject_follows (cfg : PairingConfig) (wait : ProjectWait)
    (projects : List ProjectRef) (tokenExpiresAt : Option Nat) (rounds : Nat) :
    Follows protocol AtSelected
      (waitForProject cfg wait projects none tokenExpiresAt rounds).run .approved := by
  rw [waitForProject]
  refine Follows.liftThen trivial fun started => ?_
  exact Follows.liftThen trivial fun _ => waitRounds_follows wait projects _ _ _ rfl (Or.inl rfl)

variable {cfg : PairingConfig}

/-- A choice is waited for, whatever was configured. -/
theorem selectProject_follows {wait : ProjectWait} (hwait : cfg.projectWait = some wait)
    (hconfirm : cfg.confirmProject = true) (api : Api) (login : Login) (wanted : Option String)
    (known : Option (List ProjectRef)) (rounds : Nat) :
    Follows protocol AtSelected
      (selectProject cfg api login wanted known rounds).run .approved := by
  rw [selectProject]
  have hlisted : Stays protocol .approved (knownOrListed api login known).run := by
    cases known with
    | some projects => exact Stays.ret _
    | none =>
        apply stays_approved (listProjects_only api login.sub)
        intro call h
        rw [h]
        rfl
  refine hlisted.andThenE (fun projects => ?_) fun e => nofun
  have hkeep : Stays protocol .approved
      (if known.isNone && cfg.sessionFile then saveSession cfg login projects
        else pure () : PairPart Unit).run := by
    split
    · apply stays_approved (saveSession_only cfg login projects)
      intro call h
      rw [h, Bool.or_true]
    · exact Stays.ret _
  rw [hwait, hconfirm]
  cases projects with
  | nil =>
      obtain ⟨e, he⟩ := chooseProject_nil wanted
      change AtSelected _ (chooseProject [] wanted)
      rw [he]
      exact nofun
  | cons p projects =>
      exact hkeep.andThenE (fun _ => waitForProject_follows cfg wait _ _ rounds) fun e => nofun

/-! ## The service account, the binding and the key -/

section

variable {p : ProjectChoice}

theorem stays_working {α : Type} {part : PairPart α} (h : Only (fun call => isIn p call = true) part.run) :
    Stays protocol (.working p) part.run := by
  refine Stays.of_only h (fun call hin => ?_) fun call r hin => ?_
  · cases call with
    | event e => cases e <;> first | exact hin | trivial
    | _ => first | exact hin | trivial
  · cases call with
    | event e => cases e <;> first | rfl | cases hin
    | _ => rfl

theorem getServiceAccount_in (api : Api) {project : String} (name : String) (hp : project = p.id) :
    Only (fun call => isIn p call = true) (getServiceAccount api project name).run := by
  rw [getServiceAccount]
  refine Only.bindE (only_call api _ (decide_eq_true hp)) fun reply => ?_
  split
  · exact Only.ret _
  split
  · exact Only.throw _
  · exact Only.ret _

theorem settleAccount_in (api : Api) {project : String} (name createdUid : String)
    (ticksLeft : Nat) (hp : project = p.id) :
    Only (fun call => isIn p call = true)
      (settleAccount cfg api project name createdUid ticksLeft).run := by
  induction ticksLeft with
  | zero => exact Only.ret _
  | succ ticksLeft ih =>
      rw [settleAccount]
      refine Only.bindE (getServiceAccount_in api name hp) fun found => ?_
      split
      · exact Only.ret _
      · exact Only.bindE (only_ask rfl) fun _ => ih

theorem createServiceAccountNamed_in (api : Api) {project : String} (namesLeft : Nat)
    (hp : project = p.id) :
    Only (fun call => isIn p call = true)
      (createServiceAccountNamed cfg api project namesLeft).run := by
  induction namesLeft with
  | zero => exact Only.throw _
  | succ namesLeft ih =>
      rw [createServiceAccountNamed]
      refine Only.bindE (only_ask rfl) fun suffix => ?_
      refine Only.bindE (only_call api _ (decide_eq_true hp)) fun reply => ?_
      split
      · exact ih
      split
      · exact Only.throw _
      split
      · exact Only.throw _
      refine Only.bindE (settleAccount_in api _ _ _ hp) fun sa => ?_
      cases sa with
      | some sa => exact Only.ret _
      | none => exact Only.throw _

theorem earlierAccount_in (api : Api) {project : String} (hp : project = p.id) :
    Only (fun call => isIn p call = true) (earlierAccount api project).run := by
  rw [earlierAccount]
  refine Only.bindE (only_ask rfl) fun pending => ?_
  split
  · exact Only.ret _
  refine Only.bindE (getServiceAccount_in api _ hp) fun found => ?_
  cases found with
  | none => exact Only.ret _
  | some found =>
      dsimp only
      split
      · exact Only.bindE (only_ask rfl) fun _ => Only.ret _
      · exact Only.ret _

theorem ownAccount_in (api : Api) {project : String} (hp : project = p.id) :
    Only (fun call => isIn p call = true) (ownAccount cfg api project).run := by
  rw [ownAccount]
  refine Only.bindE (earlierAccount_in api hp) fun found => ?_
  cases found with
  | some found => exact Only.ret _
  | none =>
      refine Only.bindE (createServiceAccountNamed_in api 3 hp) fun sa => ?_
      exact Only.bindE (only_ask rfl) fun _ => Only.ret _

variable {project : ProjectRef}

theorem settleBinding_in (api : Api) (sa : ServiceAccountRef) (what : String) (ticksLeft : Nat)
    (last : String) (hp : project.choice = p) :
    Only (fun call => isIn p call = true)
      (settleBinding cfg api project sa what ticksLeft last).run := by
  induction ticksLeft generalizing last with
  | zero => exact Only.throw _
  | succ ticksLeft ih =>
      rw [settleBinding]
      refine Only.bindE (only_call api _ (decide_eq_true hp)) fun reply => ?_
      split
      · exact Only.throw _
      split
      · exact Only.ret _
      · exact Only.bindE (only_ask rfl) fun _ => ih _

theorem grantAccess_in (api : Api) (sa : ServiceAccountRef) (hp : project.choice = p) :
    Only (fun call => isIn p call = true) (grantAccess cfg api project sa).run := by
  rw [grantAccess]
  refine Only.bindE (only_call api _ (decide_eq_true hp)) fun reply => ?_
  split
  · exact settleBinding_in api sa _ _ _ hp
  split
  · exact Only.throw _
  · exact Only.throw _

theorem save_in (pending : Pending) : Only (fun call => isIn p call = true) pending.save.run := by
  rw [Pending.save]
  refine Only.bindE (only_ask rfl) fun r => ?_
  cases r with
  | ok u => exact Only.ret _
  | error e => exact Only.throw _

theorem obtainAccess_in (api : Api) (sa : ServiceAccountRef) (refusedBefore : Bool)
    (state : Pending) (hp : project.choice = p) :
    Only (fun call => isIn p call = true)
      (obtainAccess cfg api project sa refusedBefore state).run := by
  refine Only.bind (grantAccess_in api sa hp) fun granted => ?_
  split
  · exact only_ask rfl
  · split
    · exact only_ask rfl
    · exact Only.bindE (save_in _) fun _ => Only.throw _
  · exact Only.ret _

variable (lib : Libraries)

theorem createKeyNamed_in (api : Api) {project : String} (sa : ServiceAccountRef)
    (expires : String) (namesLeft : Nat) (hp : project = p.id) :
    Only (fun call => isIn p call = true)
      (createKeyNamed lib api project sa expires namesLeft).run := by
  induction namesLeft with
  | zero => exact Only.throw _
  | succ namesLeft ih =>
      rw [createKeyNamed]
      have hname : Only (fun call => isIn p call = true) (keyName sa (2 - namesLeft)).run := by
        rw [keyName]
        split
        · exact Only.ret _
        · exact Only.bindE (only_ask rfl) fun _ => Only.ret _
      refine Only.bindE hname fun name => ?_
      refine Only.bindE (only_call api _ (decide_eq_true hp)) fun reply => ?_
      split
      · exact ih
      split
      · exact Only.throw _
      split
      · exact Only.throw _
      split
      · exact Only.throw _
      · exact Only.ret _

/-- Once it has said which project it has selected, a run stays in it. -/
theorem provisionIn_follows (api : Api) (project : ProjectRef) :
    Follows protocol Ended (provisionIn lib cfg api project).run
      (.selected project.choice) := by
  rw [provisionIn]
  refine Follows.liftThen ⟨rfl, rfl⟩ fun _ => ?_
  change Follows protocol _ _ (.working project.choice)
  have hown : Only (fun call => isIn project.choice call = true)
      (ownAccount cfg api project.name).run := ownAccount_in api rfl
  refine (stays_working hown).andThenE (fun own => ?_) fun e => nofun
  refine (stays_working (save_in _)).andThenE (fun _ => ?_) fun e => nofun
  refine (stays_working (obtainAccess_in api _ _ _ rfl)).andThenE (fun _ => ?_) fun e => nofun
  have hkey : Only (fun call => isIn project.choice call = true)
      (createKey lib api project.name own.1).run :=
    Only.bindE (only_ask rfl) fun expires => createKeyNamed_in lib api own.1 expires 3 rfl
  refine (stays_working hkey).andThenE (fun key => ?_) fun e => nofun
  rw [saveKey]
  refine Follows.liftThen rfl fun written => ?_
  cases written with
  | error e => exact nofun
  | ok u =>
      refine Follows.liftThen rfl fun _ => Follows.liftThen rfl fun _ => ?_
      exact ⟨project.choice, rfl, rfl, rfl⟩

end

/-! ## All of it -/

variable (lib : Libraries) {wait : ProjectWait}

theorem provision_follows (hwait : cfg.projectWait = some wait)
    (hconfirm : cfg.confirmProject = true) (api : Api) (login : Login) (wanted : Option String)
    (known : Option (List ProjectRef)) (rounds : Nat) :
    Follows protocol Ended (provision lib cfg api login wanted known rounds).run
      .approved := by
  refine Follows.bindE ((selectProject_follows hwait hconfirm api login wanted known rounds).mono ?_)
  intro g r h
  cases r with
  | error e => exact h
  | ok project =>
      obtain rfl : g = .selected project.choice := h
      exact provisionIn_follows lib api project

theorem pairAnew_follows (hwait : cfg.projectWait = some wait)
    (hconfirm : cfg.confirmProject = true) (wanted : Option String) (rounds : Nat) :
    Follows protocol Ended (pairAnew lib cfg wanted rounds).run .asking := by
  refine (deviceLogin_stays cfg rounds).andThenE (fun login => ?_) fun e => nofun
  exact Follows.liftThen rfl fun _ => provision_follows lib hwait hconfirm _ login wanted none rounds

theorem dropped_follows {part : PairPart PairedKey} (reason : String) {g : Place}
    (hg : g.MayFail) (h : Follows protocol Ended part.run .asking) :
    Follows protocol Ended (do dropSession reason; part : PairPart PairedKey).run g :=
  have hallowed : protocol.allowed g .removeSession ∧
      protocol.allowed g (.event (.sessionDropped reason)) := by
    cases g with
    | selected p => exact absurd rfl (hg p)
    | _ => exact ⟨trivial, trivial⟩
  ⟨hallowed.1, fun _ => ⟨hallowed.2, fun _ => h⟩⟩

theorem pairResumed_follows (hwait : cfg.projectWait = some wait)
    (hconfirm : cfg.confirmProject = true) (wanted : Option String) (rounds : Nat) (login : Login)
    (projects : List ProjectRef) :
    Follows protocol Ended (pairResumed lib cfg wanted rounds login projects).run
      .asking := by
  have hresumed : Follows protocol Ended
      (do
        tell (.resumed (login.email.getD login.sub))
        provision lib cfg ⟨login.token, true⟩ login wanted (some projects) rounds :
        PairPart PairedKey).run .asking :=
    Follows.liftThen rfl fun _ =>
      provision_follows lib hwait hconfirm _ login wanted (some projects) rounds
  refine Follows.bind (hresumed.mono fun g r h => ?_)
  split
  · exact dropped_follows _ h (pairAnew_follows lib hwait hconfirm wanted rounds)
  · exact h

theorem pairInner_follows (hwait : cfg.projectWait = some wait)
    (hconfirm : cfg.confirmProject = true) (rounds : Nat) :
    Follows protocol Ended (pairInner lib cfg rounds).run .asking := by
  rw [pairInner]
  refine Follows.liftThen rfl fun exists_ => ?_
  split
  · exact nofun
  have hanew := pairAnew_follows lib hwait hconfirm (cfg.project.bind normalizeProject) rounds
  have hwanted : checkWanted cfg (cfg.project.bind normalizeProject) = .ok () := by
    unfold checkWanted
    rw [hwait]
    split <;> first | rfl | contradiction
  change Follows protocol _ (ExceptT.bindCont _ (checkWanted cfg _)) _
  rw [hwanted]
  change Follows protocol _ (ExceptT.run (if cfg.sessionFile = true then _ else _)) _
  split
  · refine loadSession_stays.andThenE (fun load => ?_) fun e => nofun
    cases load with
    | missing => exact hanew
    | unusable reason => exact dropped_follows reason nofun hanew
    | ready login projects => exact pairResumed_follows lib hwait hconfirm _ rounds login projects
  · exact hanew

/-- A run of the page keeps to its places, and has a key only in the project it has selected. -/
theorem pair_follows (hwait : cfg.projectWait = some wait) (hconfirm : cfg.confirmProject = true)
    (rounds : Nat) :
    Follows protocol Ended (pair lib cfg rounds) .asking := by
  refine Follows.bind ((pairInner_follows lib hwait hconfirm rounds).mono fun g r h => ?_)
  have hallowed : protocol.allowed g .removeSession := by
    cases g with
    | selected p =>
        cases r with
        | ok key =>
            obtain ⟨_, hworking, _⟩ := h
            cases hworking
        | error e => exact absurd rfl (h p)
    | _ => trivial
  split
  · exact ⟨hallowed, fun _ => h⟩
  · exact h

end DatumConnect.Pairing.Setup
