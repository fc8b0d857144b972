import DatumConnect.Pairing.Provision
/-!
# Which part makes which calls
-/

namespace DatumConnect.Pairing

open DatumConnect.Lib
open DatumConnect.Lib.Prog (Only)
open PairPart

namespace PairCall

/-- The calls of the approval. -/
def isLogin : PairCall → Bool
  | .now | .deviceAuthorization | .pollToken _ | .userinfo _ | .sleep _ => true
  | .event (.code _ _) | .event .codeExpired => true
  | _ => false

/-- The calls that keep a login. -/
def isKeeping : PairCall → Bool
  | .now | .utcNow | .readSession | .writeSession _ => true
  | _ => false

/-- The calls of listing the projects. -/
def isListing : PairCall → Bool
  | .api _ (.organizationMemberships _) | .api _ (.projects _) => true
  | _ => false

/-- The calls of waiting for a project. -/
def isWaiting : PairCall → Bool
  | .now | .sleep _ | .project | .event (.chooseProject _ _ _) => true
  | _ => false

def isBinding : PairCall → Bool
  | .api _ (.createPolicyBinding _ _) | .api _ (.getPolicyBinding _ _) | .sleep _ => true
  | _ => false

def isKeyRequest : PairCall → Bool
  | .api _ (.createServiceAccountKey _ _ _ _) | .keyExpiry | .randomSuffix _ => true
  | _ => false

/-- The calls of making an account. -/
def isAccount : PairCall → Bool
  | .api _ (.createServiceAccount _ _ _) | .api _ (.getServiceAccount _ _) => true
  | .sleep _ | .randomSuffix _ | .event (.serviceAccountCreated _ _) => true
  | _ => false

/-- The calls of selecting a project. -/
def isSelecting (c : PairCall) : Bool := c.isListing || c.isKeeping || c.isWaiting

end PairCall

section

variable {K : PairCall → Prop}

theorem only_ask {c : PairCall} (h : K c) : Only K (ask c).run := Only.lift h

theorem only_call (api : Api) (what : String) {request : ApiRequest}
    (h : K (.api api.token request)) : Only K (api.call what request).run :=
  Only.bind (Only.perform h) fun _ => Only.ret _

end

/-! ## The approval -/

variable (cfg : PairingConfig)

theorem startDeviceAuthorization_only :
    Only (fun c => c.isLogin = true) startDeviceAuthorization.run := by
  unfold startDeviceAuthorization
  refine Only.bindE (only_ask rfl) fun reply => ?_
  cases reply <;> exact trivial

theorem identity_only (token : TokenSuccess) :
    Only (fun c => c.isLogin = true) (identity token).run := by
  unfold identity
  cases token.idClaims with
  | some claims => exact trivial
  | none =>
      refine Only.bindE (only_ask rfl) fun reply => ?_
      cases reply <;> exact trivial

theorem approvedLogin_only (token : TokenSuccess) :
    Only (fun c => c.isLogin = true) (approvedLogin cfg token).run := by
  unfold approvedLogin
  refine Only.bindE (only_ask rfl) fun received => ?_
  refine Only.bindE (identity_only token) fun claims => ?_
  split <;> exact trivial

theorem pollForApproval_only (auth : DeviceAuthorization) (expiresAt deadline rounds interval : Nat) :
    Only (fun c => c.isLogin = true)
      (pollForApproval cfg auth expiresAt deadline rounds interval).run := by
  induction rounds generalizing interval with
  | zero => exact trivial
  | succ rounds ih =>
      unfold pollForApproval
      refine Only.bindE (only_ask rfl) fun _ => ?_
      refine Only.bindE (only_ask rfl) fun now => ?_
      split
      · exact trivial
      refine Only.bindE (only_ask rfl) fun reply => ?_
      cases reply with
      | unreachable => exact ih _
      | unread => exact ih _
      | serverError => exact ih _
      | unexpected => exact trivial
      | refused status body => exact trivial
      | token token => exact Only.bindE (approvedLogin_only cfg token) fun _ => trivial
      | error error description =>
          dsimp only
          split
          · exact ih _
          split
          · exact ih _
          split
          · exact trivial
          split <;> exact trivial

theorem tryCode_only (deadline rounds : Nat) :
    Only (fun c => c.isLogin = true) (tryCode cfg deadline rounds).run := by
  unfold tryCode
  refine Only.bindE startDeviceAuthorization_only fun auth => ?_
  refine Only.bindE (only_ask rfl) fun _ => ?_
  refine Only.bindE (only_ask rfl) fun started => ?_
  exact pollForApproval_only cfg auth _ _ _ _

theorem codes_only (deadline rounds codesLeft : Nat) :
    Only (fun c => c.isLogin = true) (codes cfg deadline rounds codesLeft).run := by
  induction codesLeft with
  | zero => exact trivial
  | succ codesLeft ih =>
      unfold codes
      refine Only.bindE (only_ask rfl) fun now => ?_
      split
      · exact trivial
      refine Only.bindE (tryCode_only cfg deadline rounds) fun outcome => ?_
      cases outcome with
      | approved login => exact trivial
      | expired =>
          refine Only.bindE (only_ask rfl) fun now => ?_
          split
          · exact trivial
          exact Only.bindE (only_ask rfl) fun _ => ih

theorem deviceLogin_only (rounds : Nat) :
    Only (fun c => c.isLogin = true) (deviceLogin cfg rounds).run :=
  Only.bindE (only_ask rfl) fun _ => codes_only cfg _ rounds rounds

theorem loadSession_only : Only (fun c => c.isKeeping = true) loadSession.run := by
  unfold loadSession
  refine Only.bindE (only_ask rfl) fun read => ?_
  cases read with
  | missing => exact trivial
  | unreadable => exact trivial
  | file file => exact Only.bindE (only_ask rfl) fun _ => Only.bindE (only_ask rfl) fun _ => trivial

/-! ## The project -/

theorem saveSession_only (login : Login) (projects : List ProjectRef) :
    Only (fun c => c.isKeeping = true) (saveSession cfg login projects).run := by
  unfold saveSession
  refine Only.bindE (only_ask rfl) fun now => Only.bindE (only_ask rfl) fun wall => ?_
  dsimp only
  split
  · exact trivial
  · exact Only.bindE (only_ask rfl) fun _ => trivial

theorem listProjectsOf_only (api : Api) (orgs : List String) :
    Only (fun c => c.isListing = true) (listProjectsOf api orgs).run := by
  induction orgs with
  | nil => exact trivial
  | cons org orgs ih =>
      unfold listProjectsOf
      split
      · refine Only.bindE (only_call api _ rfl) fun reply => ?_
        split
        · exact ih
        split
        · exact trivial
        · exact Only.bindE ih fun _ => trivial
      · exact ih

theorem listProjects_only (api : Api) (sub : String) :
    Only (fun c => c.isListing = true) (listProjects api sub).run := by
  unfold listProjects
  refine Only.bindE (only_call api _ rfl) fun reply => ?_
  split
  · exact trivial
  · exact listProjectsOf_only api _

theorem waitRounds_only (wait : ProjectWait) (projects : List ProjectRef)
    (deadline total rounds : Nat) (seen : Option String) :
    Only (fun c => c.isWaiting = true) (waitRounds wait projects deadline total rounds seen).run := by
  induction rounds generalizing seen with
  | zero => exact trivial
  | succ rounds ih =>
      unfold waitRounds
      refine Only.bindE (only_ask rfl) fun now => ?_
      split
      · exact trivial
      refine Only.bindE (only_ask rfl) fun _ => Only.bindE (only_ask rfl) fun now => ?_
      split
      · exact ih _
      refine Only.bindE (only_ask rfl) fun value => ?_
      cases value with
      | error e => exact ih _
      | ok value =>
          dsimp only
          split
          · exact ih _
          split
          · exact trivial
          · exact Only.bindE (only_ask rfl) fun now => Only.bindE (only_ask rfl) fun _ => ih _

theorem waitForProject_only (wait : ProjectWait) (projects : List ProjectRef)
    (configured : Option String) (tokenExpiresAt : Option Nat) (rounds : Nat) :
    Only (fun c => c.isWaiting = true)
      (waitForProject cfg wait projects configured tokenExpiresAt rounds).run := by
  unfold waitForProject
  refine Only.bindE (only_ask rfl) fun started => ?_
  exact Only.bindE (only_ask rfl) fun _ => waitRounds_only _ _ _ _ _ _

theorem selectProject_only (api : Api) (login : Login) (wanted : Option String)
    (known : Option (List ProjectRef)) (rounds : Nat) :
    Only (fun c => c.isSelecting = true)
      (selectProject cfg api login wanted known rounds).run := by
  have hlisting : ∀ {c : PairCall}, c.isListing = true → c.isSelecting = true := by
    intro c h
    simp [PairCall.isSelecting, h]
  have hkeeping : ∀ {c : PairCall}, c.isKeeping = true → c.isSelecting = true := by
    intro c h
    simp [PairCall.isSelecting, h]
  have hwaiting : ∀ {c : PairCall}, c.isWaiting = true → c.isSelecting = true := by
    intro c h
    simp [PairCall.isSelecting, h]
  unfold selectProject
  refine Only.bindE ?_ fun projects => ?_
  · cases known with
    | some projects => exact trivial
    | none => exact (listProjects_only api login.sub).mono fun c => hlisting
  · have hkeep : Only (fun c => c.isSelecting = true)
        (if known.isNone && cfg.sessionFile then saveSession cfg login projects
          else pure () : PairPart Unit).run := by
      split
      · exact (saveSession_only cfg login projects).mono fun c => hkeeping
      · exact trivial
    dsimp only
    split
    · split
      · exact Only.bindE hkeep fun _ => (waitForProject_only cfg _ _ _ _ _).mono fun c => hwaiting
      · split
        · exact trivial
        · exact Only.bindE hkeep fun _ =>
            (waitForProject_only cfg _ _ _ _ _).mono fun c => hwaiting
    · exact trivial

/-! ## The account -/

theorem getServiceAccount_only (api : Api) (project name : String) :
    Only (fun c => c.isAccount = true) (getServiceAccount api project name).run := by
  unfold getServiceAccount
  refine Only.bindE (only_call api _ rfl) fun reply => ?_
  split
  · exact trivial
  split <;> exact trivial

theorem settleAccount_only (api : Api) (project name createdUid : String) (ticksLeft : Nat) :
    Only (fun c => c.isAccount = true)
      (settleAccount cfg api project name createdUid ticksLeft).run := by
  induction ticksLeft with
  | zero => exact trivial
  | succ ticksLeft ih =>
      unfold settleAccount
      refine Only.bindE (getServiceAccount_only api project name) fun found => ?_
      split
      · exact trivial
      · exact Only.bindE (only_ask rfl) fun _ => ih

theorem createServiceAccountNamed_only (api : Api) (project : String) (namesLeft : Nat) :
    Only (fun c => c.isAccount = true)
      (createServiceAccountNamed cfg api project namesLeft).run := by
  induction namesLeft with
  | zero => exact trivial
  | succ namesLeft ih =>
      unfold createServiceAccountNamed
      refine Only.bindE (only_ask rfl) fun suffix => ?_
      refine Only.bindE (only_call api _ rfl) fun reply => ?_
      split
      · exact ih
      split
      · exact trivial
      split
      · exact trivial
      · refine Only.bindE (settleAccount_only cfg api _ _ _ _) fun sa => ?_
        cases sa <;> exact trivial

/-! ## The binding and the key -/

theorem settleBinding_only (api : Api) (project : ProjectRef) (sa : ServiceAccountRef)
    (what : String) (ticksLeft : Nat) (last : String) :
    Only (fun c => c.isBinding = true) (settleBinding cfg api project sa what ticksLeft last).run := by
  induction ticksLeft generalizing last with
  | zero => exact trivial
  | succ ticksLeft ih =>
      unfold settleBinding
      refine Only.bindE (only_call api _ rfl) fun reply => ?_
      split
      · exact trivial
      split
      · exact trivial
      · exact Only.bindE (only_ask rfl) fun _ => ih _

theorem grantAccess_only (api : Api) (project : ProjectRef) (sa : ServiceAccountRef) :
    Only (fun c => c.isBinding = true) (grantAccess cfg api project sa).run := by
  unfold grantAccess
  refine Only.bindE (only_call api _ rfl) fun reply => ?_
  split
  · exact settleBinding_only cfg api _ _ _ _ _
  split <;> exact trivial

variable (lib : Libraries)

theorem keyName_only (sa : ServiceAccountRef) (attempt : Nat) :
    Only (fun c => c.isKeyRequest = true) (keyName sa attempt).run := by
  unfold keyName
  split
  · exact trivial
  · exact Only.bindE (only_ask rfl) fun _ => trivial

theorem createKeyNamed_only (api : Api) (project : String) (sa : ServiceAccountRef)
    (expires : String) (namesLeft : Nat) :
    Only (fun c => c.isKeyRequest = true)
      (createKeyNamed lib api project sa expires namesLeft).run := by
  induction namesLeft with
  | zero => exact trivial
  | succ namesLeft ih =>
      unfold createKeyNamed
      refine Only.bindE (keyName_only sa _) fun name => ?_
      refine Only.bindE (only_call api _ rfl) fun reply => ?_
      split
      · exact ih
      split
      · exact trivial
      split
      · exact trivial
      split <;> exact trivial

theorem createKey_only (api : Api) (project : String) (sa : ServiceAccountRef) :
    Only (fun c => c.isKeyRequest = true) (createKey lib api project sa).run :=
  Only.bindE (only_ask rfl) fun _ => createKeyNamed_only lib api project sa _ 3

end DatumConnect.Pairing
