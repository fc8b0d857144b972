import DatumConnect.Pairing.Approval
/-!
# Provisioning

Steps 2 to 5 of pairing, with a login: the project, the service account, its policy
binding and its key, and the record that lets a stopped pairing go on.
-/

namespace DatumConnect.Pairing

open DatumConnect.Lib
open DatumConnect.Lib.Json
open PairPart

/-! ## Which project -/

def organizationsOf (reply : ApiReply) : List String :=
  ((items reply.body).filterMap fun item =>
    (item.pointer ["spec", "organizationRef", "name"]).bind Value.asStr).eraseDups

def projectsOf (org : String) (reply : ApiReply) : List ProjectRef :=
  (items reply.body).filterMap fun item =>
    let name := fieldOf item ["metadata", "name"]
    let uid := fieldOf item ["metadata", "uid"]
    let displayName := fieldOf item ["metadata", "annotations", "kubernetes.io/display-name"]
    if name = "" ∨ uid = "" then none
    else some { name, uid, org, displayName := if displayName = "" then name else displayName }

/-- The projects of the organizations, one after the other. -/
def listProjectsOf (api : Api) : List String → PairPart (List ProjectRef)
  | [] => return []
  | org :: orgs => do
      if (checkName "organization" org).isOk then do
        let what := s!"listing the projects in organization {org}"
        let reply ← api.call what (.projects org)
        if reply.status.code = 403 ∨ reply.status.code = 404 then listProjectsOf api orgs
        else if !reply.status.isSuccess then throw (api.failed what reply)
        else return projectsOf org reply ++ (← listProjectsOf api orgs)
      else listProjectsOf api orgs

def listProjects (api : Api) (sub : String) : PairPart (List ProjectRef) := do
  let what := "listing your Datum organizations"
  let reply ← api.call what (.organizationMemberships sub)
  if !reply.status.isSuccess then throw (api.failed what reply)
  else listProjectsOf api (organizationsOf reply)

/-- The listed project with this id. -/
def findProject (projects : List ProjectRef) (id : String) : Option ProjectRef :=
  projects.find? fun p => eqIgnoreAsciiCase p.name id

/-- The project to use, or why there is none. -/
def chooseProject (projects : List ProjectRef) (wanted : Option String) :
    Except PairingError ProjectRef :=
  let listing := "\n".intercalate
    (projects.map fun p => s!"  {p.name} ({p.displayName}, organization {p.org})")
  match wanted.bind normalizeProject, projects with
  | some wanted, projects =>
      match findProject projects wanted with
      | some p => .ok p
      | none =>
          if projects = [] then
            .error (.project (s!"Project {wanted} was not found: your Datum login can't see any " ++
              "projects. Check that you approved with the right account."))
          else
            .error (.project (s!"Project {wanted} was not found among the projects your Datum " ++
              "login can see. Set 'project' on the Configuration tab to one of these (the id, " ++
              "not the display name), then restart:\n" ++ listing))
  | none, [p] => .ok p
  | none, [] =>
      .error (.project ("Your Datum login can't see any projects. Create one in the Datum " ++
        "portal, or approve with an account that has one, then restart."))
  | none, projects =>
      .error (.project (s!"Your Datum login can see {projects.length} projects. Set 'project' on " ++
        "the Configuration tab to the one to use (the id, not the display name), then " ++
        "restart:\n" ++ listing))

/-- The loop of `wait_for_project`; `seen` is the value already judged. -/
def waitRounds (wait : ProjectWait) (projects : List ProjectRef) (deadline total : Nat) :
    (rounds : Nat) → (seen : Option String) → PairPart ProjectRef
  | 0, _ => throw .stillWaiting
  | rounds + 1, seen => do
      let now ← ask .now
      if deadline ≤ now then throw (.projectNotChosen total)
      else do
        ask (.sleep (min wait.poll (deadline - now)))
        let now ← ask .now
        if deadline ≤ now then waitRounds wait projects deadline total rounds seen
        else
          match ← ask .project with
          | .error _ => waitRounds wait projects deadline total rounds seen
          | .ok value =>
              let current := value.bind normalizeProject
              if current = seen then waitRounds wait projects deadline total rounds seen
              else
                match current.bind (findProject projects) with
                | some p => return p
                | none => do
                    let now ← ask .now
                    tell (.chooseProject (projects.map (·.choice)) current (deadline - now))
                    waitRounds wait projects deadline total rounds current

def waitForProject (cfg : PairingConfig) (wait : ProjectWait) (projects : List ProjectRef)
    (configured : Option String) (tokenExpiresAt : Option Nat) (rounds : Nat) :
    PairPart ProjectRef := do
  let started ← ask .now
  let deadline := match tokenExpiresAt with
    | some expires =>
        let margin := cfg.ticks tokenMarginTicks
        let usableUntil := if margin ≤ expires then expires - margin else started
        min (started + wait.max) (max usableUntil started)
    | none => started + wait.max
  let total := deadline - started
  let seen := configured.bind normalizeProject
  tell (.chooseProject (projects.map (·.choice)) seen total)
  waitRounds wait projects deadline total rounds seen

/-- `known` is the list saved with a resumed login. -/
def knownOrListed (api : Api) (login : Login) : Option (List ProjectRef) → PairPart (List ProjectRef)
  | some projects => return projects
  | none => listProjects api login.sub

/-- The first part of `provision`.  A login that was resumed is in the session file
already. -/
def selectProject (cfg : PairingConfig) (api : Api) (login : Login) (wanted : Option String)
    (known : Option (List ProjectRef)) (rounds : Nat) : PairPart ProjectRef := do
  let projects ← knownOrListed api login known
  let keepLogin : PairPart Unit :=
    if known.isNone && cfg.sessionFile then saveSession cfg login projects else pure ()
  match cfg.projectWait, projects with
  | some wait, _ :: _ =>
      if cfg.confirmProject then do
        keepLogin
        waitForProject cfg wait projects none login.expiresAt rounds
      else
        match chooseProject projects wanted with
        | .ok p => return p
        | .error _ => do
            keepLogin
            waitForProject cfg wait projects wanted login.expiresAt rounds
  | _, _ => ExceptT.mk (pure (chooseProject projects wanted))

/-! ## The service account -/

/-- What a reply says of the service account it was asked for. -/
def serviceAccountOf (name : String) (reply : ApiReply) : ServiceAccountRef where
  name := name
  uid := fieldOf reply.body ["metadata", "uid"]
  email := fieldOf reply.body ["status", "email"]

def getServiceAccount (api : Api) (project name : String) : PairPart (Option ServiceAccountRef) := do
  let what := s!"reading service account {name}"
  let reply ← api.call what (.getServiceAccount project name)
  if reply.status.code = 404 then return none
  else if !reply.status.isSuccess then throw (api.failed what reply)
  else return some (serviceAccountOf name reply)

/-- The email is filled in a moment after creation. -/
def settleAccount (cfg : PairingConfig) (api : Api) (project name createdUid : String) :
    (ticksLeft : Nat) → PairPart (Option ServiceAccountRef)
  | 0 => return none
  | ticksLeft + 1 => do
      let found ← getServiceAccount api project name
      match found.filter (·.email ≠ "") with
      | some sa => return some { sa with uid := if sa.uid = "" then createdUid else sa.uid }
      | none => do
          ask (.sleep cfg.tick)
          settleAccount cfg api project name createdUid ticksLeft

def createServiceAccountNamed (cfg : PairingConfig) (api : Api) (project : String) :
    (namesLeft : Nat) → PairPart ServiceAccountRef
  | 0 => fail s!"creating a service account in project {project} failed: three random names in a row were taken"
  | namesLeft + 1 => do
      let what := s!"creating a service account in project {project}"
      let name := "home-assistant-" ++ (← ask (.randomSuffix 5))
      let reply ← api.call what (.createServiceAccount project name cfg.deviceName)
      if reply.status.code = 409 then createServiceAccountNamed cfg api project namesLeft
      else if reply.status.code = 403 then
        fail (redact (s!"Your Datum login may not create service accounts in project {project} " ++
          "(HTTP 403). Approve with an account that is an owner or editor of the project, or use " ++
          "your own service account key (see the add-on's documentation).") api.token)
      else if !reply.status.isSuccess then throw (api.failed what reply)
      else
        let createdUid := fieldOf reply.body ["metadata", "uid"]
        match ← settleAccount cfg api project name createdUid settleTicks with
        | some sa => return sa
        | none =>
            fail (s!"Created service account {name} in project {project}, but it was not given " ++
              "an email within a minute. Delete it in the portal and restart.")

def createServiceAccount (cfg : PairingConfig) (api : Api) (project : String) :
    PairPart ServiceAccountRef :=
  createServiceAccountNamed cfg api project 3

/-- The service account of an earlier attempt, with whether it was refused its
binding then, if it is still the one that was recorded. -/
def earlierAccount (api : Api) (project : String) : PairPart (Option (ServiceAccountRef × Bool)) := do
  match (← ask .readPending).filter (·.project = project) with
  | none => return none
  | some p =>
      match ← getServiceAccount api project p.serviceAccount with
      | none => return none
      | some found =>
          if found.uid = p.uid ∧ found.email ≠ "" then do
            tell (.serviceAccountReused found.email project)
            return some (found, p.bindingRefused)
          else return none

/-- The second part of `provision`: the service account, and whether it was refused
its binding before. -/
def ownAccount (cfg : PairingConfig) (api : Api) (project : String) :
    PairPart (ServiceAccountRef × Bool) := do
  match ← earlierAccount api project with
  | some found => return found
  | none => do
      let sa ← createServiceAccount cfg api project
      tell (.serviceAccountCreated sa.email project)
      return (sa, false)

/-! ## The policy binding -/

/-- The first condition `Ready` of a reply. -/
def readyCondition (reply : ApiReply) : Option Value :=
  (((reply.body.pointer ["status", "conditions"]).bind Value.asArray).getD []).find? fun c =>
    (c.get "type").bind Value.asStr = some "Ready"

/-- The reply shows a binding that is ready. -/
def ApiReply.ready (reply : ApiReply) : Bool :=
  reply.status.isSuccess &&
    (readyCondition reply).any fun c => (c.get "status").bind Value.asStr = some "True"

def settleBinding (cfg : PairingConfig) (api : Api) (project : ProjectRef) (sa : ServiceAccountRef)
    (what : String) : (ticksLeft : Nat) → (last : String) → PairPart Unit
  | 0, last =>
      let detail := if last = "" then "" else s!": {last}"
      let name := ApiRequest.bindingName project sa
      fail (redact (s!"Created policy binding {name}, but it did not become ready within a " ++
        s!"minute{detail}") api.token)
  | ticksLeft + 1, last => do
      let reply ← api.call what (.getPolicyBinding project sa)
      if !reply.status.isSuccess then throw (api.failed what reply)
      else if reply.ready then return ()
      else do
        let last := ((readyCondition reply).map fun c => fieldOf c ["message"]).getD last
        ask (.sleep cfg.tick)
        settleBinding cfg api project sa what ticksLeft last

def grantAccess (cfg : PairingConfig) (api : Api) (project : ProjectRef) (sa : ServiceAccountRef) :
    PairPart Unit := do
  let what := s!"granting {sa.email} access to project {project.name}"
  let reply ← api.call what (.createPolicyBinding project sa)
  if reply.status.isSuccess || reply.status.code = 409 then
    settleBinding cfg api project sa what settleTicks ""
  else if reply.status.code = 403 then throw (.bindingForbidden sa.email project.name)
  else throw (api.failed what reply)

/-! ## The key -/

def keyType : String := "datum_service_account"

variable (lib : Libraries)

/-- `ServiceAccount::from_json`. -/
def checkServiceAccount (raw : String) : Except String Unit :=
  match lib.parseKeyFile raw with
  | .error e =>
      .error ("not a Datum service account key (expected JSON with type, client_id, " ++
        s!"private_key_id, private_key and scope): {e}")
  | .ok key =>
      if key.keyType ≠ keyType then .error s!"key type is {repr key.keyType}, expected {repr keyType}"
      else (lib.rsaKeyFromPem key.privateKey).mapError fun e => s!"private_key: {e}"

def validateKey (raw : String) : Except PairingError Unit :=
  let bad (why : String) : Except PairingError Unit :=
    .error (.failed s!"Datum returned a key that is not usable: {why}")
  match lib.parseJson raw with
  | none => bad "not JSON"
  | some v =>
      if (v.get "type").bind Value.asStr ≠ some keyType then bad "wrong type"
      else
        match ["client_id", "private_key_id", "private_key", "scope"].find? fun field =>
          fieldOf v [field] = "" with
        | some field => bad s!"no {field}"
        | none =>
            match checkServiceAccount lib raw with
            | .error e => bad e
            | .ok () => .ok ()

/-- The first name is tried as it is. -/
def keyName (sa : ServiceAccountRef) (attempt : Nat) : PairPart String := do
  if attempt = 0 then return s!"{sa.name}-key"
  else return s!"{sa.name}-key-{← ask (.randomSuffix 5)}"

def createKeyNamed (api : Api) (project : String) (sa : ServiceAccountRef) (expires : String) :
    (namesLeft : Nat) → PairPart String
  | 0 => fail s!"creating a key for {sa.email} failed: three key names in a row were taken"
  | namesLeft + 1 => do
      let what := s!"creating a key for {sa.email}"
      let name ← keyName sa (2 - namesLeft)
      let reply ← api.call what (.createServiceAccountKey project name sa expires)
      if reply.status.code = 409 then createKeyNamed api project sa expires namesLeft
      else if !reply.status.isSuccess then throw (api.failed what reply)
      else
        match (reply.body.pointer ["status", "privateKey"]).bind Value.asStr with
        | none =>
            fail (s!"Created key {name} for {sa.email}, but Datum did not return it. Delete the " ++
              "key in the portal and restart.")
        | some key =>
            match validateKey lib key with
            | .error e => throw e
            | .ok () => return key

def createKey (api : Api) (project : String) (sa : ServiceAccountRef) : PairPart String := do
  createKeyNamed lib api project sa (← ask .keyExpiry) 3

/-! ## All of it -/

/-- `Pending::save`. -/
def Pending.save (pending : Pending) : PairPart Unit := do
  match ← ask (.writePending pending) with
  | .ok () => return ()
  | .error e => fail s!"cannot save pairing progress to {e}"

/-- The third part of `provision`: the access, refused before or not. -/
def obtainAccess (cfg : PairingConfig) (api : Api) (project : ProjectRef) (sa : ServiceAccountRef)
    (refusedBefore : Bool) (state : Pending) : PairPart Unit := ExceptT.mk do
  match ← (grantAccess cfg api project sa).run with
  | .ok () => (tell .accessGranted).run
  | .error (.bindingForbidden email name) =>
      if refusedBefore then (tell (.accessNotConfirmed sa.email project.name)).run
      else (do
        Pending.save { state with bindingRefused := true }
        throw (.bindingForbidden email name) : PairPart Unit).run
  | .error e => return .error e

/-- The last part of `provision`. -/
def saveKey (project : ProjectRef) (sa : ServiceAccountRef) (key : String) : PairPart PairedKey := do
  match ← ask (.writeKey key) with
  | .error e => fail s!"cannot save the key to {e}"
  | .ok () => do
      let _ ← ask .removePending
      tell .keySaved
      return {
        serviceAccountEmail := sa.email, project := project.name, organization := project.org }

/-- `provision`, once the project is selected. -/
def provisionIn (cfg : PairingConfig) (api : Api) (project : ProjectRef) : PairPart PairedKey := do
  tell (.projectSelected project.name project.org)
  let (sa, refusedBefore) ← ownAccount cfg api project.name
  let state : Pending := {
    project := project.name, serviceAccount := sa.name, uid := sa.uid, email := sa.email,
    bindingRefused := refusedBefore }
  state.save
  obtainAccess cfg api project sa refusedBefore state
  let key ← createKey lib api project.name sa
  saveKey project sa key

def provision (cfg : PairingConfig) (api : Api) (login : Login) (wanted : Option String)
    (known : Option (List ProjectRef)) (rounds : Nat) : PairPart PairedKey := do
  let project ← selectProject cfg api login wanted known rounds
  provisionIn lib cfg api project

/-- The end of `pair_inner`: a login is asked for. -/
def pairAnew (cfg : PairingConfig) (wanted : Option String) (rounds : Nat) : PairPart PairedKey := do
  let login ← deviceLogin cfg rounds
  tell (.approved (login.email.getD login.sub))
  provision lib cfg ⟨login.token, false⟩ login wanted none rounds

def dropSession (reason : String) : PairPart Unit := do
  ask .removeSession
  tell (.sessionDropped reason)

/-- `pair_inner` with a saved login. -/
def pairResumed (cfg : PairingConfig) (wanted : Option String) (rounds : Nat) (login : Login)
    (projects : List ProjectRef) : PairPart PairedKey := ExceptT.mk do
  let resumed : PairPart PairedKey := do
    tell (.resumed (login.email.getD login.sub))
    provision lib cfg ⟨login.token, true⟩ login wanted (some projects) rounds
  match ← resumed.run with
  | .error .savedLoginRejected =>
      (do
        dropSession "Datum no longer accepts its saved login (HTTP 401)"
        pairAnew lib cfg wanted rounds : PairPart PairedKey).run
  | result => return result

/-- Without a wait, the configured project must be a name. -/
def checkWanted (cfg : PairingConfig) (wanted : Option String) : Except PairingError Unit :=
  match wanted, cfg.projectWait with
  | some p, none => checkName "project" p
  | _, _ => .ok ()

def pairInner (cfg : PairingConfig) (rounds : Nat) : PairPart PairedKey := do
  if ← ask .keyOutExists then throw .keyExists
  else
    let wanted := cfg.project.bind normalizeProject
    ExceptT.mk (pure (checkWanted cfg wanted))
    if cfg.sessionFile then
      match ← loadSession with
      | .missing => pairAnew lib cfg wanted rounds
      | .unusable reason => do
          dropSession reason
          pairAnew lib cfg wanted rounds
      | .ready login projects => pairResumed lib cfg wanted rounds login projects
    else pairAnew lib cfg wanted rounds

/-- The saved login is deleted whichever way pairing ends. -/
def pair (cfg : PairingConfig) (rounds : Nat) : PairProg (Except PairingError PairedKey) := do
  let result ← (pairInner lib cfg rounds).run
  if cfg.sessionFile then do
    Prog.perform PairCall.removeSession
    return result
  else return result

end DatumConnect.Pairing
