import DatumConnect.Lib.Secrets
import DatumConnect.Lib.Traces
import DatumConnect.Pairing.Parts
/-!
# The messages of errors

What `pair` says when it fails, and what of the person's token can be in it.  Texts of replies are
cut to 300 characters and only then is the token taken out of them, where it stands as a whole;
names and the texts of the login service are said as they are.
-/

namespace DatumConnect.Pairing

open DatumConnect.Lib
open DatumConnect.Lib.Json
open DatumConnect.Lib.Prog (Only OnlyWhen EndsWhen Traces)
open PairPart

/-! ## What is said -/

/-- A character of a text with `{:?}`; what is not `printable` is escaped by its number. -/
def debugChar (printable : Char → Bool) (c : Char) : List Char :=
  if c.toNat = 0 then ['\\', '0']
  else if c = '\t' then ['\\', 't']
  else if c = '\r' then ['\\', 'r']
  else if c = '\n' then ['\\', 'n']
  else if c = '"' then ['\\', '"']
  else if c = '\\' then ['\\', '\\']
  else if printable c then [c]
  else '\\' :: 'u' :: Char.ofNat 123 :: (Nat.toDigits 16 c.toNat ++ [Char.ofNat 125])

def debugText (printable : Char → Bool) (s : String) : String :=
  String.ofList ('"' :: (s.toList.flatMap (debugChar printable) ++ ['"']))

/-- `duration_words`, of milliseconds. -/
def durationWords (d : Nat) : String :=
  let secs := d / 1000
  if secs < 60 then s!"{secs} seconds"
  else
    let m := (secs + 59) / 60
    if m = 1 then "1 minute" else s!"{m} minutes"

/-- The `Display` of an error. -/
def PairingError.message (printable : Char → Bool) (keyOut : String) : PairingError → String
  | .denied => "The request was declined on the approval screen. Restart to get a new code."
  | .timedOut minutes =>
      s!"Nobody approved a code within {minutes} minutes. Restart to get a new code."
  | .projectNotChosen waited =>
      s!"Choosing a project took too long: none of yours was set within {durationWords waited}" ++
        ", and the approval is no longer good. Restart to try again."
  | .bindingForbidden email name =>
      "Your Datum login can create the service account but can't grant it access. Ask an " ++
        s!"organization owner or editor to grant role 'editor' to service account {email} on " ++
        s!"project {name}, then restart"
  | .keyExists => s!"{keyOut} already exists. Delete it to pair again."
  | .project message => message
  | .invalidName what name => s!"{what} {debugText printable name} is not a valid name"
  | .failed message => message
  | .savedLoginRejected => "Datum no longer accepts the saved login. Restart to try again."
  | .stillWaiting => ""

/-! ## What it may say -/

/-- A character of a bearer token. -/
def isTokenChar (c : Char) : Bool := c.isAlphanum || ['-', '.', '_', '~', '+', '/', '='].contains c

def Bearer (token : List Char) : Prop := ∀ c ∈ token, isTokenChar c = true

section

variable (secret : List Char)

/-- Not sixteen characters of the secret in a row. -/
abbrev Silent (s : String) : Prop := Secret.Quiet 16 secret s.toList

/-- What the text says of the secret is whole tokens, nothing cut. -/
abbrev Echoes (token s : String) : Prop := Secret.Echoes 16 secret token.toList s.toList

/-- The character with which an escape goes on as a token could. -/
def escapeLetter (c : Char) : Option Char :=
  if c.toNat = 0 then some '0'
  else if c = '\t' then some 't'
  else if c = '\r' then some 'r'
  else if c = '\n' then some 'n'
  else none

/-- A name that is said with `{:?}`, where an escape may add one character to what follows it. -/
def QuietName (name : String) : Prop :=
  Silent secret name ∧ ∀ c letter run, escapeLetter c = some letter → run.length = 15 →
    letter :: run <:+: secret → ¬ c :: run <:+: name.toList

end

/-- A character that `excerpt` writes as a blank, or that it trims. -/
def isBlank (c : Char) : Bool :=
  c.toNat < 32 || 127 ≤ c.toNat && c.toNat < 160 || Text.isWhitespace c

/-- What is quoted of a text: its first 300 characters from the first that is not blank. -/
def opening (text : String) : String :=
  String.ofList ((text.toList.dropWhile isBlank).take 300)

namespace ApiRequest

/-- What a request is for, as its errors say. -/
def what : ApiRequest → String
  | organizationMemberships _ => "listing your Datum organizations"
  | projects org => s!"listing the projects in organization {org}"
  | getServiceAccount _ name => s!"reading service account {name}"
  | createServiceAccount project _ _ => s!"creating a service account in project {project}"
  | createPolicyBinding project sa => s!"granting {sa.email} access to project {project.name}"
  | getPolicyBinding project sa => s!"granting {sa.email} access to project {project.name}"
  | createServiceAccountKey _ _ sa _ => s!"creating a key for {sa.email}"

/-- The names that are said then. -/
def names : ApiRequest → List String
  | organizationMemberships _ => []
  | projects org => [org]
  | getServiceAccount _ name => [name]
  | createServiceAccount project _ _ => [project]
  | createPolicyBinding project sa => [sa.email, project.name]
  | getPolicyBinding project sa => [sa.email, project.name]
  | createServiceAccountKey _ _ sa _ => [sa.email]

/-- Replies that an error does not quote. -/
def unquoted : ApiRequest → Status → Bool
  | projects _, status => status.isSuccess || status.code = 403 || status.code = 404
  | getServiceAccount _ _, status => status.isSuccess || status.code = 404
  | createServiceAccount _ _ _, status =>
      status.isSuccess || status.code = 403 || status.code = 409
  | createPolicyBinding _ _, status => status.isSuccess || status.code = 403 || status.code = 409
  | createServiceAccountKey _ _ _ _, status => status.isSuccess || status.code = 409
  | _, status => status.isSuccess

end ApiRequest

/-- The text of a reply that an error quotes: its message, or how its text begins. -/
def ApiReply.quotes (reply : ApiReply) : String :=
  ((reply.body.get "message").bind Value.asStr).getD (opening reply.text)

/-- What the error says of it. -/
def ApiReply.detail (reply : ApiReply) : String :=
  ((reply.body.get "message").bind Value.asStr).getD (excerpt reply.text)

/-- The message of the condition of a reply. -/
def ApiReply.readyMessage (reply : ApiReply) : Option String :=
  (readyCondition reply).map fun c => fieldOf c ["message"]

/-- All that an error says of a project. -/
def QuietProject (secret : List Char) (p : ProjectRef) : Prop :=
  Silent secret p.name ∧ Silent secret p.displayName ∧ Silent secret p.org

/-- The texts of the configuration that errors say, and numbers. -/
structure QuietConfig (keyOut : String) (secret : List Char) (cfg : PairingConfig) : Prop where
  keyOut : Silent secret keyOut
  project : ∀ p, (cfg.project.bind normalizeProject).bind normalizeProject = some p →
    Silent secret p
  name : ∀ p, cfg.project.bind normalizeProject = some p → cfg.projectWait = none →
    QuietName secret p
  numbers : Secret.shortWords Char.isDigit 16 0 secret = true

section

variable (lib : Libraries) (secret : List Char) (cfg : PairingConfig)

/-- What the libraries say of a key that they cannot read. -/
structure QuietKey (key : String) : Prop where
  file : ∀ e, lib.parseKeyFile key = .error e → Silent secret e
  type : ∀ file, lib.parseKeyFile key = .ok file → file.keyType ≠ keyType →
    Silent secret s!"key type is {repr file.keyType}, expected {repr keyType}"
  pem : ∀ file e, lib.parseKeyFile key = .ok file → lib.rsaKeyFromPem file.privateKey = .error e →
    Silent secret e

/-- What else may be said after a reply, by the request. -/
def QuietReply : ApiRequest → ApiReply → Prop
  | .projects org, reply =>
      cfg.projectWait = none → ∀ p ∈ projectsOf org reply, QuietProject secret p
  | .createServiceAccount project name _, reply =>
      (reply.status.code = 409 → Silent secret project) ∧
        (reply.status.isSuccess = true → Silent secret name ∧ Silent secret project)
  | .createPolicyBinding project sa, reply =>
      reply.status.code = 403 → Silent secret sa.email ∧ Silent secret project.name
  | .createServiceAccountKey _ name sa _, reply =>
      (reply.status.code = 409 → Silent secret sa.email) ∧
        match (reply.body.pointer ["status", "privateKey"]).bind Value.asStr with
        | none => Silent secret name ∧ Silent secret sa.email
        | some key => QuietKey lib secret key
  | _, _ => True

/-- What is redacted and said after a reply, by the request. -/
def EchoedReply (token : String) : ApiRequest → ApiReply → Prop
  | .createServiceAccount project _ _, reply =>
      reply.status.code = 403 → Echoes secret token project
  | .getPolicyBinding project sa, reply =>
      reply.ready = false → Echoes secret token (ApiRequest.bindingName project sa) ∧
        ∀ message, reply.readyMessage = some message → Echoes secret token message
  | _, _ => True

/-- A text of a call or its reply does not hold the secret, or where the token is taken out only
whole tokens, if an error says it at this call. -/
def Discreet : (c : PairCall) → c.Reply → Prop
  | .deviceAuthorization, .unreachable e => Silent secret e
  | .deviceAuthorization, .refused status body =>
      Silent secret status.shown ∧ Silent secret (opening body)
  | .pollToken _, .token t => Bearer t.accessToken.toList ∧
      ∀ claims, t.idClaims = some claims → (checkName "user id" claims.sub).isOk = false →
        QuietName secret claims.sub
  | .pollToken _, .refused status body =>
      Silent secret status.shown ∧ Silent secret (opening body)
  | .pollToken _, .error error description =>
      error ∉ ["authorization_pending", "slow_down", "expired_token", "access_denied"] →
        Silent secret error ∧ ∀ d, description = some d → Silent secret d
  | .userinfo token, .unreachable e => Echoes secret token e
  | .userinfo token, .refused status body =>
      Echoes secret token status.shown ∧ Echoes secret token (opening body)
  | .userinfo _, .claims claims => (checkName "user id" claims.sub).isOk = false →
      QuietName secret claims.sub
  | .readSession, .file file => Bearer file.accessToken.toList ∧
      (cfg.projectWait = none → ∀ p ∈ file.projects,
        Silent secret p.id ∧ Silent secret p.displayName ∧ Silent secret p.organization)
  | .api token request, .failed e =>
      (∀ name ∈ request.names, Echoes secret token name) ∧ Echoes secret token e
  | .api token request, .unread _ e =>
      (∀ name ∈ request.names, Echoes secret token name) ∧ Echoes secret token e
  | .api token request, .reply reply =>
      (request.unquoted reply.status = false → (∀ name ∈ request.names, Echoes secret token name) ∧
        Echoes secret token reply.status.shown ∧ Echoes secret token reply.quotes) ∧
      QuietReply lib secret cfg request reply ∧ EchoedReply secret token request reply
  | .writePending _, .error e => Silent secret e
  | .writeKey _, .error e => Silent secret e
  | _, _ => True

end

/-! ## Texts with something in them -/

/-- A text, and then one that is given and the next, over and over. -/
@[simp] def say (first : String) : (nexts givens : List String) → String
  | next :: nexts, given :: givens => say (first ++ given ++ next) nexts givens
  | [], _ => first
  | _ :: _, [] => first

/-- The fixed texts keep what is given apart, and have short words. -/
def Fixed (first : String) (nexts : List String) : Bool :=
  Secret.Woven isTokenChar first.toList (nexts.map String.toList) &&
    (first :: nexts).all fun text => Secret.shortWords isTokenChar 16 0 text.toList

/-- What is fixed in an error. -/
structure Wording where
  first : String
  nexts : List String
  fixed : Fixed first nexts = true := by
    simp only [Fixed, List.map, List.all, String.toList_append]
    repeat rw [String.toList_ofList]
    decide +kernel

namespace Wording

@[simp] def savedLoginRejected : Wording where
  first := "Datum no longer accepts the saved login. Restart to try again."
  nexts := []

@[simp] def denied : Wording where
  first := "The request was declined on the approval screen. Restart to get a new code."
  nexts := []

@[simp] def timedOut : Wording where
  first := "Nobody approved a code within "
  nexts := [" minutes. Restart to get a new code."]

@[simp] def seconds : Wording where
  first := ""
  nexts := [" seconds"]

@[simp] def oneMinute : Wording where
  first := "1 minute"
  nexts := []

@[simp] def minutes : Wording where
  first := ""
  nexts := [" minutes"]

@[simp] def projectNotChosen : Wording where
  first := "Choosing a project took too long: none of yours was set within "
  nexts := [", and the approval is no longer good. Restart to try again."]

@[simp] def keyExists : Wording where
  first := ""
  nexts := [" already exists. Delete it to pair again."]

@[simp] def invalidName : Wording where
  first := ""
  nexts := [" ", " is not a valid name"]

@[simp] def userId : Wording where
  first := "user id"
  nexts := []

@[simp] def projectName : Wording where
  first := "project"
  nexts := []

@[simp] def failed : Wording where
  first := ""
  nexts := [" failed (HTTP ", "): ", ""]

@[simp] def notSent : Wording where
  first := ""
  nexts := [" failed: ", ""]

@[simp] def notRead : Wording where
  first := ""
  nexts := [" failed reading the reply: ", ""]

@[simp] def cannotReach : Wording where
  first := "cannot reach Datum's login service: "
  nexts := [""]

@[simp] def startRefused : Wording where
  first := "Datum's login service refused to start pairing (HTTP "
  nexts := ["): ", ""]

@[simp] def startUnexpected : Wording where
  first := "Datum's login service sent an unexpected reply to the pairing request"
  nexts := []

@[simp] def cannotAsk : Wording where
  first := "cannot ask who approved: "
  nexts := [""]

@[simp] def askRefused : Wording where
  first := "cannot ask who approved (HTTP "
  nexts := ["): ", ""]

@[simp] def askUnexpected : Wording where
  first := "the login service did not say who approved"
  nexts := []

@[simp] def codeError : Wording where
  first := "Datum's login service refused the code ("
  nexts := [")"]

@[simp] def codeErrorTold : Wording where
  first := "Datum's login service refused the code ("
  nexts := [": ", ")"]

@[simp] def codeUnexpected : Wording where
  first := "Datum's login service sent an unexpected reply after approval"
  nexts := []

@[simp] def codeRefused : Wording where
  first := "Datum's login service refused the code (HTTP "
  nexts := ["): ", ""]

@[simp] def listed : Wording where
  first := "  "
  nexts := [" (", ", organization ", ")"]

@[simp] def notFound : Wording where
  first := "Project "
  nexts := [" was not found: your Datum login can't see any " ++
    "projects. Check that you approved with the right account."]

@[simp] def notAmong : Wording where
  first := "Project "
  nexts := [" was not found among the projects your Datum " ++
    "login can see. Set 'project' on the Configuration tab to one of these (the id, " ++
    "not the display name), then restart:\n", ""]

def noProjects : Wording where
  first := "Your Datum login can't see any projects. Create one in the Datum " ++
    "portal, or approve with an account that has one, then restart."
  nexts := []

@[simp] def manyProjects : Wording where
  first := "Your Datum login can see "
  nexts := [" projects. Set 'project' on " ++
    "the Configuration tab to the one to use (the id, not the display name), then " ++
    "restart:\n", ""]

@[simp] def namesTaken : Wording where
  first := "creating a service account in project "
  nexts := [" failed: three random names in a row were taken"]

@[simp] def mayNotCreate : Wording where
  first := "Your Datum login may not create service accounts in project "
  nexts := [" " ++
    "(HTTP 403). Approve with an account that is an owner or editor of the project, or use " ++
    "your own service account key (see the add-on's documentation)."]

@[simp] def noEmail : Wording where
  first := "Created service account "
  nexts := [" in project ", ", but it was not given " ++
    "an email within a minute. Delete it in the portal and restart."]

@[simp] def notReady : Wording where
  first := "Created policy binding "
  nexts := [", but it did not become ready within a " ++ "minute"]

@[simp] def notReadyTold : Wording where
  first := "Created policy binding "
  nexts := [", but it did not become ready within a " ++
    ("minute" ++ ": "), ""]

@[simp] def mayNotGrant : Wording where
  first := "Your Datum login can create the service account but can't grant it access. Ask an "
  nexts := [""]

@[simp] def askToGrant : Wording where
  first := "organization owner or editor to grant role 'editor' to service account "
  nexts := [" on " ++ "project ", ", then restart"]

@[simp] def unusableKey : Wording where
  first := "Datum returned a key that is not usable: "
  nexts := [""]

@[simp] def notJson : Wording where
  first := "not JSON"
  nexts := []

@[simp] def wrongType : Wording where
  first := "wrong type"
  nexts := []

@[simp] def noField : Wording where
  first := "no "
  nexts := [""]

@[simp] def listingOrganizations : Wording where
  first := "listing your Datum organizations"
  nexts := []

@[simp] def listingProjects : Wording where
  first := "listing the projects in organization "
  nexts := [""]

@[simp] def reading : Wording where
  first := "reading service account "
  nexts := [""]

@[simp] def creating : Wording where
  first := "creating a service account in project "
  nexts := [""]

@[simp] def granting : Wording where
  first := "granting "
  nexts := [" access to project ", ""]

@[simp] def creatingKey : Wording where
  first := "creating a key for "
  nexts := [""]

def notKeyFile : Wording where
  first := "not a Datum service account key (expected JSON with type, client_id, " ++
    "private_key_id, private_key and scope): "
  nexts := [""]

@[simp] def badPem : Wording where
  first := "private_key: "
  nexts := [""]

@[simp] def keyNamesTaken : Wording where
  first := "creating a key for "
  nexts := [" failed: three key names in a row were taken"]

@[simp] def keyNotReturned : Wording where
  first := "Created key "
  nexts := [" for ", ", but Datum did not return it. Delete the " ++
    "key in the portal and restart."]

@[simp] def cannotSavePending : Wording where
  first := "cannot save pairing progress to "
  nexts := [""]

@[simp] def cannotSaveKey : Wording where
  first := "cannot save the key to "
  nexts := [""]

end Wording

@[simp] theorem toString_text (s : String) : toString s = s := rfl

theorem toList_say (first : String) (nexts givens : List String) :
    (say first nexts givens).toList =
      Secret.weave first.toList (nexts.map String.toList) (givens.map String.toList) := by
  have hweave : ∀ (x y : List Char) (nexts givens : List (List Char)),
      Secret.weave (x ++ y) nexts givens = x ++ Secret.weave y nexts givens := by
    intro x y nexts givens
    cases nexts with
    | nil => rfl
    | cons next nexts =>
      cases givens with
      | nil => rfl
      | cons given givens => exact List.append_assoc _ _ _
  induction nexts generalizing first givens with
  | nil => rfl
  | cons next nexts ih =>
    cases givens with
    | nil => rfl
    | cons given givens =>
      calc
        (say first (next :: nexts) (given :: givens)).toList =
            (say (first ++ given ++ next) nexts givens).toList := rfl
        _ = Secret.weave (first ++ given ++ next).toList (nexts.map String.toList)
            (givens.map String.toList) := ih _ _
        _ = first.toList ++ (given.toList ++ Secret.weave next.toList (nexts.map String.toList)
            (givens.map String.toList)) := by
          rw [String.toList_append, String.toList_append, List.append_assoc, hweave, hweave]

/-- The secret is not in the text even where the token that was used is taken out. -/
abbrev Redacted (secret : List Char) (token s : String) : Prop := Silent secret (redact s token)

section

variable {secret : List Char}

theorem silent_splits (hsecret : Bearer secret) :
    Secret.Splits isTokenChar (Secret.Quiet 16 secret) :=
  Secret.Quiet.splits (by decide) hsecret

theorem silent_of_short (hsecret : Bearer secret) {s : String}
    (h : Secret.shortWords isTokenChar 16 0 s.toList = true) :
    Silent secret s :=
  @Secret.quiet_of_shortWords isTokenChar 16 secret (by decide) hsecret [] s.toList h

theorem say_of_splits (hsecret : Bearer secret) {Q : List Char → Prop}
    (hQ : Secret.Splits isTokenChar Q) (hshort : ∀ s : String, Silent secret s → Q s.toList)
    (w : Wording) {givens : List String} (hgivens : ∀ given ∈ givens, Q given.toList) :
    Q (say w.first w.nexts givens).toList := by
  have hfixed := w.fixed
  unfold Fixed at hfixed
  rw [Bool.and_eq_true, List.all_eq_true] at hfixed
  have htexts : ∀ text ∈ w.first :: w.nexts, Q text.toList := fun text htext =>
    hshort text (silent_of_short hsecret (hfixed.2 text htext))
  obtain ⟨hfirst, hnexts⟩ := List.forall_mem_cons.mp htexts
  rw [toList_say]
  exact hQ.weave hfixed.1 hfirst (List.forall_mem_map.mpr hnexts) (List.forall_mem_map.mpr hgivens)

theorem silent_say (hsecret : Bearer secret) {s : String} (w : Wording) (givens : List String)
    (heq : s = say w.first w.nexts givens) (hgivens : ∀ given ∈ givens, Silent secret given) :
    Silent secret s := by
  rw [heq]
  exact say_of_splits hsecret (silent_splits hsecret) (fun _ h => h) w hgivens

theorem redacted_of_silent (hsecret : Bearer secret) {token s : String} (h : Silent secret s) :
    Redacted secret token s := by
  unfold Redacted redact
  split
  · exact h
  · unfold Silent Text.replace
    rw [String.toList_ofList]
    have hnote : Secret.Quiet 16 secret "redacted".toList := silent_of_short hsecret (by decide)
    exact @Secret.quiet_replaceFrom isTokenChar 16 secret token.toList "redacted".toList '[' ']'
      (by decide) hsecret rfl rfl hnote [] s.toList 0 h fun _ => rfl

theorem redacted_splits (hsecret : Bearer secret) {token : String} (htoken : Bearer token.toList) :
    Secret.Splits isTokenChar fun text => Redacted secret token (String.ofList text) := by
  have hsplits := silent_splits hsecret
  by_cases hempty : token = ""
  · have heq : (fun text => Redacted secret token (String.ofList text)) =
        Secret.Quiet 16 secret := by
      funext text
      unfold Redacted redact
      rw [if_pos hempty]
      unfold Silent
      rw [String.toList_ofList]
    rw [heq]
    exact hsplits
  · have heq : (fun text => Redacted secret token (String.ofList text)) =
        fun text => Secret.Quiet 16 secret
          (Text.replace token.toList "[redacted]".toList text) := by
      funext text
      unfold Redacted redact
      rw [if_neg hempty]
      unfold Silent
      simp only [String.toList_ofList]
    rw [heq]
    exact hsplits.replace (fun hnil => hempty (String.toList_eq_nil_iff.mp hnil)) htoken _

theorem redacted_say (hsecret : Bearer secret) {token s : String} (htoken : Bearer token.toList)
    (w : Wording) (givens : List String) (heq : s = say w.first w.nexts givens)
    (hgivens : ∀ given ∈ givens, Redacted secret token given) : Redacted secret token s := by
  rw [heq]
  have hsaid := say_of_splits hsecret (redacted_splits hsecret htoken)
    (fun s h => by
      rw [String.ofList_toList]
      exact redacted_of_silent hsecret h) w
    (fun given hgiven => by
      rw [String.ofList_toList]
      exact hgivens given hgiven)
  rwa [String.ofList_toList] at hsaid

end

/-! ## Texts of replies -/

section

variable {secret : List Char}

/-- What comes out silent where the token is taken out is what says whole tokens only. -/
theorem redacted_iff (hsecret : Bearer secret) {token s : String} :
    Redacted secret token s ↔ Echoes secret token s := by
  unfold Redacted redact
  split
  · rename_i hempty
    refine ⟨.quiet, fun h => ?_⟩
    rw [Echoes, String.toList_eq_nil_iff.mpr hempty] at h
    exact h.quiet_of_nil
  · rename_i hne
    unfold Silent
    rw [String.toList_ofList]
    have hnote : Secret.Quiet 16 secret "redacted".toList := silent_of_short hsecret (by decide)
    exact @Secret.quiet_replace_iff isTokenChar 16 secret token.toList "redacted".toList '[' ']'
      (by decide) hsecret rfl rfl hnote (fun hnil => hne (String.toList_eq_nil_iff.mp hnil)) s.toList

theorem isTokenChar_range {c : Char} (h : isTokenChar c = true) : 33 ≤ c.toNat ∧ c.toNat < 127 := by
  unfold isTokenChar at h
  rw [Bool.or_eq_true] at h
  rcases h with hword | hmark
  · unfold Char.isAlphanum Char.isAlpha Char.isUpper Char.isLower Char.isDigit at hword
    simp only [Bool.or_eq_true, Bool.and_eq_true, decide_eq_true_eq, ge_iff_le,
      UInt32.le_iff_toNat_le] at hword
    change (65 ≤ c.toNat ∧ c.toNat ≤ 90 ∨ 97 ≤ c.toNat ∧ c.toNat ≤ 122) ∨
      48 ≤ c.toNat ∧ c.toNat ≤ 57 at hword
    omega
  · simp only [List.contains_iff_mem, List.mem_cons, List.not_mem_nil, or_false] at hmark
    rcases hmark with rfl | rfl | rfl | rfl | rfl | rfl | rfl <;> decide

theorem isTokenChar_of_isBlank {c : Char} (h : isBlank c = true) : isTokenChar c = false := by
  rw [Bool.eq_false_iff]
  intro htoken
  obtain ⟨hlow, hhigh⟩ := isTokenChar_range htoken
  simp only [isBlank, Text.isWhitespace, Bool.or_eq_true, Bool.and_eq_true, decide_eq_true_eq,
    List.contains_iff_mem, List.mem_cons, List.not_mem_nil, or_false] at h
  omega

/-- What an excerpt gives away is what the beginning of the text does. -/
theorem excerpt_iff {Q : List Char → Prop} (hQ : Secret.Splits isTokenChar Q)
    (hnone : Q "no response body".toList) (text : String) :
    Q (excerpt text).toList ↔ Q (opening text).toList := by
  let f (c : Char) : Char := if c.toNat < 32 || 127 ≤ c.toNat && c.toNat < 160 then ' ' else c
  have hf (c : Char) : f c = c ∨ isTokenChar c = false ∧ isTokenChar (f c) = false := by
    by_cases hc : (c.toNat < 32 || 127 ≤ c.toNat && c.toNat < 160) = true
    · refine Or.inr ⟨isTokenChar_of_isBlank (by rw [isBlank, hc, Bool.true_or]), ?_⟩
      rw [show f c = ' ' from if_pos hc]
      decide
    · exact Or.inl (if_neg hc)
  have hblank : Text.isWhitespace ∘ f = isBlank := by
    funext c
    by_cases hc : (c.toNat < 32 || 127 ≤ c.toNat && c.toNat < 160) = true
    · rw [Function.comp_apply, show f c = ' ' from if_pos hc, isBlank, hc]
      rfl
    · rw [Function.comp_apply, show f c = c from if_neg hc, isBlank, Bool.eq_false_iff.mpr hc,
        Bool.false_or]
  let begun := (text.toList.dropWhile isBlank).map f
  have hbegun : (text.toList.map f).dropWhile Text.isWhitespace = begun := by
    rw [List.dropWhile_map, hblank]
  let flat := begun.rdropWhile Text.isWhitespace
  let rest := begun.rtakeWhile Text.isWhitespace
  have hparts : begun = flat ++ rest := List.rdropWhile_append_rtakeWhile.symm
  have hrest (n : Nat) : ∀ c ∈ rest.take n, isTokenChar c = false := by
    intro c hc
    apply isTokenChar_of_isBlank
    rw [isBlank, List.mem_rtakeWhile_imp (List.mem_of_mem_take hc), Bool.or_true]
  have hopening : Q (opening text).toList ↔ Q (flat.take 300) := by
    rw [opening, String.toList_ofList, ← hQ.map hf, List.map_take]
    change Q (begun.take 300) ↔ _
    rw [hparts, List.take_append]
    exact hQ.append_clear (hrest _)
  have hexcerpt : excerpt text =
      if flat = [] then "no response body" else String.ofList (flat.take 300) := by
    unfold excerpt Text.trim
    change (if List.rdropWhile Text.isWhitespace ((text.toList.map f).dropWhile _) = [] then _
      else String.ofList ((List.rdropWhile Text.isWhitespace
        ((text.toList.map f).dropWhile _)).take 300)) = _
    rw [hbegun]
  rw [hopening, hexcerpt]
  split
  · rename_i hnil
    rw [hnil, List.take_nil]
    exact iff_of_true hnone hQ.nil
  · rw [String.toList_ofList]

theorem silent_excerpt (hsecret : Bearer secret) (text : String) :
    Silent secret (excerpt text) ↔ Silent secret (opening text) :=
  excerpt_iff (silent_splits hsecret) (silent_of_short hsecret (by decide)) text

theorem redacted_excerpt (hsecret : Bearer secret) {token : String} (htoken : Bearer token.toList)
    (text : String) :
    Redacted secret token (excerpt text) ↔ Echoes secret token (opening text) := by
  have hnone : Redacted secret token "no response body" :=
    redacted_of_silent hsecret (silent_of_short hsecret (by decide))
  have hiff := excerpt_iff (redacted_splits hsecret htoken) hnone text
  rwa [String.ofList_toList, String.ofList_toList, @redacted_iff secret hsecret token (opening text)]
    at hiff

theorem redacted_detail (hsecret : Bearer secret) {token : String} (htoken : Bearer token.toList)
    {reply : ApiReply} (h : Echoes secret token reply.quotes) :
    Redacted secret token reply.detail := by
  unfold ApiReply.quotes at h
  unfold ApiReply.detail
  cases hmessage : (reply.body.get "message").bind Value.asStr with
  | none =>
    rw [hmessage] at h
    exact (redacted_excerpt hsecret htoken reply.text).mpr h
  | some message =>
    rw [hmessage] at h
    exact (redacted_iff hsecret).mpr h

theorem redacted_what (hsecret : Bearer secret) {token : String} (htoken : Bearer token.toList)
    {request : ApiRequest} (h : ∀ name ∈ request.names, Echoes secret token name) :
    Redacted secret token request.what := by
  have hnames (name : String) (hname : name ∈ request.names) : Redacted secret token name :=
    (redacted_iff hsecret).mpr (h name hname)
  cases request with
  | organizationMemberships sub =>
    exact redacted_say hsecret htoken .listingOrganizations [] rfl nofun
  | projects org =>
    refine redacted_say hsecret htoken .listingProjects [org] ?_ hnames
    change s!"listing the projects in organization {org}" = _
    simp
  | getServiceAccount project name =>
    refine redacted_say hsecret htoken .reading [name] ?_ hnames
    change s!"reading service account {name}" = _
    simp
  | createServiceAccount project name device =>
    refine redacted_say hsecret htoken .creating [project] ?_ hnames
    change s!"creating a service account in project {project}" = _
    simp
  | createPolicyBinding project sa | getPolicyBinding project sa =>
    refine redacted_say hsecret htoken .granting [sa.email, project.name] ?_ hnames
    change s!"granting {sa.email} access to project {project.name}" = _
    simp
  | createServiceAccountKey project name sa expires =>
    refine redacted_say hsecret htoken .creatingKey [sa.email] ?_ hnames
    change s!"creating a key for {sa.email}" = _
    simp

/-! ### Names in quotes -/

/-- A character as it is said: an escape with one letter, itself, or an escape that ends in what
is in no token. -/
theorem debugChar_cases (secret : List Char) (printable : Char → Bool) (c : Char) :
    (∃ letter, escapeLetter c = some letter ∧ debugChar printable c = ['\\', letter]) ∨
      debugChar printable c = [c] ∨
      ∃ middle last, debugChar printable c = '\\' :: (middle ++ [last]) ∧
        Secret.Quiet 16 secret middle ∧ isTokenChar last = false := by
  have hnil : Secret.Quiet 16 secret [] := Secret.Quiet.of_length (by decide)
  unfold debugChar escapeLetter
  split
  · exact Or.inl ⟨_, rfl, rfl⟩
  split
  · exact Or.inl ⟨_, rfl, rfl⟩
  split
  · exact Or.inl ⟨_, rfl, rfl⟩
  split
  · exact Or.inl ⟨_, rfl, rfl⟩
  split
  · exact Or.inr (Or.inr ⟨[], '"', rfl, hnil, rfl⟩)
  split
  · exact Or.inr (Or.inr ⟨[], '\\', rfl, hnil, rfl⟩)
  split
  · exact Or.inr (Or.inl rfl)
  · have hlt : c.toNat < 16 ^ 8 := c.val.toNat_lt
    have hdigits : (Nat.toDigits 16 c.toNat).length ≤ 8 :=
      (Nat.length_toDigits_le_iff (by decide) (by decide)).mpr hlt
    refine Or.inr (Or.inr ⟨'u' :: Char.ofNat 123 :: Nat.toDigits 16 c.toNat, Char.ofNat 125, rfl,
      Secret.Quiet.of_length ?_, by decide⟩)
    rw [List.length_cons, List.length_cons]
    omega

theorem silent_debugText (hsecret : Bearer secret) (printable : Char → Bool) {name : String}
    (h : QuietName secret name) : Silent secret (debugText printable name) := by
  have hsplits := silent_splits hsecret
  obtain ⟨hquiet, hletters⟩ := h
  have hall (begun text : List Char) (hquiet : Secret.Quiet 16 secret (begun ++ text))
      (hletters : ∀ c letter run, escapeLetter c = some letter → run.length = 15 →
        letter :: run <:+: secret → ¬ c :: run <:+: text) :
      Secret.Quiet 16 secret (begun ++ text.flatMap (debugChar printable)) := by
    induction text generalizing begun with
    | nil => exact hquiet
    | cons c text ih =>
      have hbegun : Secret.Quiet 16 secret begun := hquiet.of_infix ⟨[], c :: text, rfl⟩
      have htext : Secret.Quiet 16 secret text := hquiet.of_infix ⟨begun ++ [c], [], by simp⟩
      have hfewer : ∀ d letter run, escapeLetter d = some letter → run.length = 15 →
          letter :: run <:+: secret → ¬ d :: run <:+: text :=
        fun d letter run hd hlength hrun hinside =>
          hletters d letter run hd hlength hrun (hinside.trans (List.suffix_cons c text).isInfix)
      rw [List.flatMap_cons]
      rcases debugChar_cases secret printable c with ⟨letter, hletter, heq⟩ | heq |
        ⟨middle, last, heq, hmiddle, hlast⟩
      · rw [heq, List.cons_append, hsplits.cons (by decide)]
        refine ⟨hbegun, ih [letter] ?_ hfewer⟩
        -- a run that begins with the letter stands in the name after the character
        intro run hlength hrun hinside
        rcases List.infix_cons_iff.mp hinside with hpre | hinside
        · cases run with
          | nil => cases hlength
          | cons d run =>
            obtain ⟨rfl, hrest⟩ := List.cons_prefix_cons.mp hpre
            refine hletters c d run hletter (Nat.succ.inj hlength) hrun ?_
            exact (List.cons_prefix_cons.mpr ⟨rfl, hrest⟩).isInfix
        · exact htext run hlength hrun hinside
      · rw [heq, ← List.append_assoc]
        exact ih (begun ++ [c]) (by rwa [List.append_assoc]) hfewer
      · rw [heq, List.cons_append, List.append_assoc, hsplits.cons (by decide),
          List.singleton_append, hsplits.cons hlast]
        exact ⟨hbegun, hmiddle, ih [] htext hfewer⟩
  unfold Silent debugText
  rw [String.toList_ofList]
  refine (@hsplits.cons [] _ '"' (by decide)).mpr ⟨hsplits.nil, ?_⟩
  have hquote : ∀ c ∈ ['"'], isTokenChar c = false :=
    List.forall_mem_singleton.mpr (by decide)
  exact (hsplits.append_clear hquote).mpr (hall [] name.toList hquiet hletters)

end

theorem silent_intercalate {secret : List Char} (hsecret : Bearer secret) {lines : List String}
    (h : ∀ line ∈ lines, Silent secret line) : Silent secret ("\n".intercalate lines) := by
  have hsplits := silent_splits hsecret
  induction lines with
  | nil =>
    rw [String.intercalate_nil]
    exact hsplits.nil
  | cons line lines ih =>
    have hline := h line List.mem_cons_self
    have hlines := ih fun l hl => h l (List.mem_cons_of_mem line hl)
    cases lines with
    | nil =>
      rw [String.intercalate_singleton]
      exact hline
    | cons next lines =>
      rw [String.intercalate_cons_cons]
      unfold Silent
      rw [String.toList_append, String.toList_append, List.append_assoc]
      exact (hsplits.cons (by decide)).mpr ⟨hline, hlines⟩

/-! ## The parts of pairing -/

/-- A secret, with what it is not given away by. -/
structure Secrecy where
  lib : Libraries
  printable : Char → Bool
  keyOut : String
  secret : List Char
  cfg : PairingConfig
  bearer : Bearer secret
  config : QuietConfig keyOut secret cfg

namespace Secrecy

variable (s : Secrecy) {α β : Type}

/-- The error keeps the secret. -/
def Keeps (e : PairingError) : Prop := Silent s.secret (e.message s.printable s.keyOut)

abbrev Hears : (c : PairCall) → c.Reply → Prop := Discreet s.lib s.secret s.cfg

/-- A part fails with errors that keep the secret only, and `good` holds of what it returns. -/
abbrev Part (good : α → Prop) (p : PairPart α) : Prop :=
  EndsWhen s.Hears (fun _ => True) good s.Keeps p

variable {s}

/-! ### Errors -/

theorem keeps_project {message : String} (h : Silent s.secret message) :
    s.Keeps (.project message) := h

theorem keeps_say {message : String} (w : Wording) (givens : List String)
    (heq : message = say w.first w.nexts givens)
    (hgivens : ∀ given ∈ givens, Silent s.secret given) : s.Keeps (.failed message) :=
  silent_say s.bearer w givens heq hgivens

theorem keeps_redacted {token message : String} (htoken : Bearer token.toList) (w : Wording)
    (givens : List String) (heq : message = say w.first w.nexts givens)
    (hgivens : ∀ given ∈ givens, Redacted s.secret token given) :
    s.Keeps (.failed (redact message token)) :=
  redacted_say s.bearer htoken w givens heq hgivens

theorem none_given {P : String → Prop} : ∀ g ∈ ([] : List String), P g :=
  List.forall_mem_nil P

theorem one {P : String → Prop} {given : String} (h : P given) : ∀ g ∈ [given], P g :=
  List.forall_mem_singleton.mpr h

theorem two {P : String → Prop} {given given' : String} (h : P given) (h' : P given') :
    ∀ g ∈ [given, given'], P g :=
  List.forall_mem_cons.mpr ⟨h, one h'⟩

theorem three {P : String → Prop} {given given' given'' : String} (h : P given) (h' : P given')
    (h'' : P given'') : ∀ g ∈ [given, given', given''], P g :=
  List.forall_mem_cons.mpr ⟨h, two h' h''⟩

theorem silent_number (n : Nat) : Silent s.secret (toString n) := by
  intro run hlength hrun hinside
  have hdigits : ∀ c ∈ (toString n).toList, c.isDigit = true := by
    intro c hc
    rw [Nat.toString_eq_repr, Nat.toList_repr] at hc
    exact Nat.isDigit_of_mem_toDigits (by decide) (by decide) hc
  exact @Secret.quiet_of_shortWords Char.isDigit 16 _ (by decide) hdigits [] s.secret
    s.config.numbers run hlength hinside hrun

theorem keeps_savedLoginRejected : s.Keeps .savedLoginRejected :=
  silent_say s.bearer .savedLoginRejected [] rfl none_given

theorem keeps_denied : s.Keeps .denied := silent_say s.bearer .denied [] rfl none_given

theorem keeps_timedOut (cfg : PairingConfig) : s.Keeps (timedOut cfg) :=
  silent_say s.bearer .timedOut [toString (max ((cfg.maxWait / 1000 + 59) / 60) 1)] rfl
    (one (silent_number _))

theorem silent_durationWords (d : Nat) : Silent s.secret (durationWords d) := by
  unfold durationWords
  dsimp only
  split
  · exact silent_say s.bearer .seconds [toString (d / 1000)] (by simp) (one (silent_number _))
  split
  · exact silent_say s.bearer .oneMinute [] rfl none_given
  · exact silent_say s.bearer .minutes [toString ((d / 1000 + 59) / 60)] (by simp)
      (one (silent_number _))

theorem keeps_projectNotChosen (waited : Nat) : s.Keeps (.projectNotChosen waited) :=
  silent_say s.bearer .projectNotChosen [durationWords waited] rfl
    (one (silent_durationWords waited))

theorem keeps_keyExists : s.Keeps .keyExists :=
  have hsaid : Silent s.secret s!"{s.keyOut} already exists. Delete it to pair again." :=
    silent_say s.bearer .keyExists [s.keyOut] (by simp) (one s.config.keyOut)
  hsaid

theorem keeps_invalidName {what name : String} (hwhat : Silent s.secret what)
    (hname : Silent s.secret (debugText s.printable name)) : s.Keeps (.invalidName what name) :=
  have hsaid : Silent s.secret s!"{what} {debugText s.printable name} is not a valid name" :=
    silent_say s.bearer .invalidName [what, debugText s.printable name] (by simp) (two hwhat hname)
  hsaid

/-! ### Requests -/

/-- The token is one that can be sent. -/
def Sendable (api : Api) : Prop := Bearer api.token.toList

theorem keeps_failed {api : Api} (htoken : Sendable api) {what : String} {reply : ApiReply}
    (hwhat : Redacted s.secret api.token what)
    (hshown : Redacted s.secret api.token reply.status.shown)
    (hdetail : Redacted s.secret api.token reply.detail) : s.Keeps (api.failed what reply) :=
  keeps_redacted htoken .failed [what, reply.status.shown, reply.detail] (by simp [ApiReply.detail])
    (three hwhat hshown hdetail)

/-- One request, and then the rest, where the reply has been received. -/
theorem callThen {api : Api} (htoken : Sendable api) {request : ApiRequest} {what : String}
    (hwhat : what = request.what) {f : ApiReply → PairPart β} {good : β → Prop}
    (hf : ∀ reply, s.Hears (.api api.token request) (.reply reply) → s.Part good (f reply)) :
    s.Part good (api.call what request >>= f) := by
  rw [hwhat]
  refine ⟨trivial, fun sent hsent => ?_⟩
  change OnlyWhen _ _ _ (ExceptT.bindCont f (api.received request.what sent))
  cases sent with
  | failed e =>
    exact keeps_redacted htoken .notSent [request.what, e] (by simp)
      (two (redacted_what s.bearer htoken hsent.1) ((redacted_iff s.bearer).mpr hsent.2))
  | unread status e =>
    simp only [Api.received]
    split
    · exact keeps_savedLoginRejected
    · exact keeps_redacted htoken .notRead [request.what, e] (by simp)
        (two (redacted_what s.bearer htoken hsent.1) ((redacted_iff s.bearer).mpr hsent.2))
  | reply reply =>
    simp only [Api.received]
    split
    · exact keeps_savedLoginRejected
    · exact hf reply hsent

/-- A reply that is quoted. -/
theorem quoted {api : Api} (htoken : Sendable api) {request : ApiRequest} {reply : ApiReply}
    (h : s.Hears (.api api.token request) (.reply reply)) {what : String}
    (hwhat : what = request.what) (hquoted : request.unquoted reply.status = false)
    {good : α → Prop} : s.Part good (throw (api.failed what reply)) := by
  obtain ⟨hnames, hshown, hquotes⟩ := h.1 hquoted
  rw [hwhat]
  exact keeps_failed htoken (redacted_what s.bearer htoken hnames)
    ((redacted_iff s.bearer).mpr hshown) (redacted_detail s.bearer htoken hquotes)

/-! ### The login -/

theorem startDeviceAuthorization_part : s.Part (fun _ => True) startDeviceAuthorization := by
  unfold startDeviceAuthorization
  refine EndsWhen.liftThen trivial fun reply hreply => ?_
  cases reply with
  | unreachable e =>
    exact keeps_say .cannotReach [e] (by simp) (one hreply)
  | refused status body =>
    exact keeps_say .startRefused [status.shown, excerpt body] (by simp)
      (two hreply.1 ((silent_excerpt s.bearer body).mpr hreply.2))
  | unexpected => exact keeps_say .startUnexpected [] rfl none_given
  | authorization auth => exact trivial

/-- The user id can be told if it is none. -/
def Told (s : Secrecy) (claims : IdClaims) : Prop :=
  (checkName "user id" claims.sub).isOk = false → QuietName s.secret claims.sub

theorem identity_part {token : TokenSuccess} (htoken : Bearer token.accessToken.toList)
    (h : ∀ claims, token.idClaims = some claims → s.Told claims) :
    s.Part s.Told (identity token) := by
  unfold identity
  cases hclaims : token.idClaims with
  | some claims => exact h claims hclaims
  | none =>
    refine EndsWhen.liftThen trivial fun reply hreply => ?_
    cases reply with
    | unreachable e =>
      exact keeps_redacted htoken .cannotAsk [e] (by simp)
        (one ((redacted_iff s.bearer).mpr hreply))
    | refused status body =>
      exact keeps_redacted htoken .askRefused [status.shown, excerpt body] (by simp)
        (two ((redacted_iff s.bearer).mpr hreply.1)
          ((redacted_excerpt s.bearer htoken body).mpr hreply.2))
    | unexpected => exact keeps_say .askUnexpected [] rfl none_given
    | claims claims => exact hreply

def TokenSendable (login : Login) : Prop := Bearer login.token.toList

theorem approvedLogin_part (cfg : PairingConfig) {token : TokenSuccess}
    (htoken : Bearer token.accessToken.toList)
    (h : ∀ claims, token.idClaims = some claims → s.Told claims) :
    s.Part TokenSendable (approvedLogin cfg token) := by
  unfold approvedLogin
  refine EndsWhen.liftThen trivial fun received _ => EndsWhen.bind ?_
  refine (identity_part htoken h).weaken fun claims hclaims => ?_
  cases hname : checkName "user id" claims.sub with
  | ok _ => exact htoken
  | error e =>
    have hnot : (checkName "user id" claims.sub).isOk = false := by
      rw [hname]
      rfl
    have he : e = .invalidName "user id" claims.sub := by
      unfold checkName at hname
      split at hname
      · cases hname
      · exact (Except.error.inj hname).symm
    rw [he]
    exact keeps_invalidName (silent_say s.bearer .userId [] rfl none_given)
      (silent_debugText s.bearer s.printable (hclaims hnot))

def Approved (outcome : CodeOutcome) : Prop :=
  ∀ login, outcome = .approved login → TokenSendable login

theorem approved_expired : Approved .expired := nofun

theorem keeps_refused {error : String} {description : Option String}
    (herror : Silent s.secret error) (hd : ∀ d, description = some d → Silent s.secret d) :
    s.Keeps (.failed (s!"Datum's login service refused the code ({error}" ++
      (description.map fun d => s!": {d}").getD "" ++ ")")) := by
  cases description with
  | none =>
    exact keeps_say .codeError [error] (by simp) (one herror)
  | some d =>
    exact keeps_say .codeErrorTold [error, d] (by simp [String.append_assoc])
      (two herror (hd d rfl))

theorem pollForApproval_part (cfg : PairingConfig) (auth : DeviceAuthorization)
    (expiresAt deadline rounds interval : Nat) :
    s.Part Approved (pollForApproval cfg auth expiresAt deadline rounds interval) := by
  induction rounds generalizing interval with
  | zero => exact silent_of_short s.bearer rfl
  | succ rounds ih =>
    unfold pollForApproval
    refine EndsWhen.liftThen trivial fun _ _ => EndsWhen.liftThen trivial fun now _ => ?_
    split
    · exact approved_expired
    refine EndsWhen.liftThen trivial fun reply hreply => ?_
    cases reply with
    | unreachable => exact ih _
    | unread => exact ih _
    | serverError => exact ih _
    | unexpected => exact keeps_say .codeUnexpected [] rfl none_given
    | refused status body =>
      exact keeps_say .codeRefused [status.shown, excerpt body] (by simp)
        (two hreply.1 ((silent_excerpt s.bearer body).mpr hreply.2))
    | token token =>
      have hlogged := approvedLogin_part cfg hreply.1 hreply.2
      refine EndsWhen.bind (hlogged.weaken fun login hlogin => ?_)
      intro login' heq
      cases heq
      exact hlogin
    | error error description =>
      dsimp only
      split
      · exact ih _
      split
      · exact ih _
      split
      · exact approved_expired
      split
      · exact keeps_denied
      · rename_i hpending hslow hexpired hdenied
        have hnot : error ∉ ["authorization_pending", "slow_down", "expired_token",
            "access_denied"] := by
          simp only [List.mem_cons, List.not_mem_nil, or_false, not_or]
          exact ⟨hpending, hslow, hexpired, hdenied⟩
        have hsaid := hreply hnot
        exact keeps_refused hsaid.1 hsaid.2

theorem tryCode_part (cfg : PairingConfig) (deadline rounds : Nat) :
    s.Part Approved (tryCode cfg deadline rounds) := by
  unfold tryCode
  refine EndsWhen.bind (startDeviceAuthorization_part.weaken fun auth _ => ?_)
  refine EndsWhen.liftThen trivial fun _ _ => EndsWhen.liftThen trivial fun started _ => ?_
  exact pollForApproval_part cfg auth _ _ _ _

theorem codes_part (cfg : PairingConfig) (deadline rounds codesLeft : Nat) :
    s.Part TokenSendable (codes cfg deadline rounds codesLeft) := by
  induction codesLeft with
  | zero => exact silent_of_short s.bearer rfl
  | succ codesLeft ih =>
    unfold codes
    refine EndsWhen.liftThen trivial fun now _ => ?_
    split
    · exact keeps_timedOut cfg
    refine EndsWhen.bind ((tryCode_part cfg deadline rounds).weaken fun outcome houtcome => ?_)
    cases outcome with
    | approved login => exact houtcome login rfl
    | expired =>
      refine EndsWhen.liftThen trivial fun now _ => ?_
      split
      · exact keeps_timedOut cfg
      · exact EndsWhen.liftThen trivial fun _ _ => ih

theorem deviceLogin_part (cfg : PairingConfig) (rounds : Nat) :
    s.Part TokenSendable (deviceLogin cfg rounds) :=
  EndsWhen.liftThen trivial fun _ _ => codes_part cfg _ rounds rounds

/-! ### The project -/

/-- A project that may be listed in an error, where one is. -/
def Listed (s : Secrecy) (p : ProjectRef) : Prop :=
  s.cfg.projectWait = none → QuietProject s.secret p

theorem listProjectsOf_part {api : Api} (htoken : Sendable api) (orgs : List String) :
    s.Part (fun projects => ∀ p ∈ projects, s.Listed p) (listProjectsOf api orgs) := by
  induction orgs with
  | nil => exact List.forall_mem_nil _
  | cons org orgs ih =>
    unfold listProjectsOf
    split
    · refine callThen htoken rfl fun reply hreply => ?_
      split
      · exact ih
      · rename_i hcode
        rw [not_or] at hcode
        split
        · rename_i hfailed
          refine quoted htoken hreply rfl ?_
          simpa [ApiRequest.unquoted, hcode.1, hcode.2] using hfailed
        · refine EndsWhen.bind (ih.weaken fun projects hprojects => ?_)
          refine List.forall_mem_append.mpr ⟨fun p hp hwait => ?_, hprojects⟩
          exact hreply.2.1 hwait p hp
    · exact ih

theorem listProjects_part {api : Api} (htoken : Sendable api) (sub : String) :
    s.Part (fun projects => ∀ p ∈ projects, s.Listed p) (listProjects api sub) := by
  unfold listProjects
  refine callThen htoken rfl fun reply hreply => ?_
  split
  · rename_i hfailed
    refine quoted htoken hreply rfl ?_
    simpa [ApiRequest.unquoted] using hfailed
  · exact listProjectsOf_part htoken _

theorem keeps_chooseProject {projects : List ProjectRef} {e : PairingError}
    (hprojects : ∀ p ∈ projects, QuietProject s.secret p)
    (h : chooseProject projects (s.cfg.project.bind normalizeProject) = .error e) : s.Keeps e := by
  have hlisting : Silent s.secret ("\n".intercalate
      (projects.map fun p => s!"  {p.name} ({p.displayName}, organization {p.org})")) := by
    refine silent_intercalate s.bearer (List.forall_mem_map.mpr fun p hp => ?_)
    obtain ⟨hname, hdisplay, horg⟩ := hprojects p hp
    exact silent_say s.bearer .listed [p.name, p.displayName, p.org] (by simp)
      (three hname hdisplay horg)
  unfold chooseProject at h
  dsimp only at h
  split at h
  · rename_i wanted hwanted
    have hname := s.config.project wanted hwanted
    split at h
    · cases h
    split at h
    · rw [← Except.error.inj h]
      exact keeps_project (silent_say s.bearer .notFound [wanted] (by simp [String.append_assoc])
        (one hname))
    · rw [← Except.error.inj h]
      exact keeps_project (silent_say s.bearer .notAmong [wanted, _] (by simp [String.append_assoc])
        (two hname hlisting))
  · cases h
  · rw [← Except.error.inj h]
    exact keeps_project (silent_say s.bearer .noProjects [] rfl none_given)
  · rename_i projects _ _ _ _ _
    rw [← Except.error.inj h]
    exact keeps_project (silent_say s.bearer .manyProjects [toString projects.length, _]
      (by simp [String.append_assoc]) (two (silent_number _) hlisting))

theorem waitRounds_part (wait : ProjectWait) (projects : List ProjectRef)
    (deadline total rounds : Nat) (seen : Option String) :
    s.Part (fun _ => True) (waitRounds wait projects deadline total rounds seen) := by
  induction rounds generalizing seen with
  | zero => exact silent_of_short s.bearer rfl
  | succ rounds ih =>
    unfold waitRounds
    refine EndsWhen.liftThen trivial fun now _ => ?_
    split
    · exact keeps_projectNotChosen total
    refine EndsWhen.liftThen trivial fun _ _ => EndsWhen.liftThen trivial fun now _ => ?_
    split
    · exact ih _
    refine EndsWhen.liftThen trivial fun value _ => ?_
    cases value with
    | error e => exact ih _
    | ok value =>
      dsimp only
      split
      · exact ih _
      split
      · exact trivial
      · exact EndsWhen.liftThen trivial fun now _ => EndsWhen.liftThen trivial fun _ _ => ih _

theorem waitForProject_part (cfg : PairingConfig) (wait : ProjectWait) (projects : List ProjectRef)
    (configured : Option String) (tokenExpiresAt : Option Nat) (rounds : Nat) :
    s.Part (fun _ => True) (waitForProject cfg wait projects configured tokenExpiresAt rounds) := by
  unfold waitForProject
  refine EndsWhen.liftThen trivial fun started _ => EndsWhen.liftThen trivial fun _ _ => ?_
  exact waitRounds_part wait projects _ _ _ _

theorem saveSession_part (login : Login) (projects : List ProjectRef) :
    s.Part (fun _ => True) (saveSession s.cfg login projects) := by
  unfold saveSession
  refine EndsWhen.liftThen trivial fun now _ => EndsWhen.liftThen trivial fun wall _ => ?_
  dsimp only
  split
  · exact trivial
  · exact EndsWhen.liftThen trivial fun _ _ => trivial

theorem selectProject_part {api : Api} (htoken : Sendable api) (login : Login)
    {known : Option (List ProjectRef)} (rounds : Nat)
    (hknown : ∀ projects, known = some projects → ∀ p ∈ projects, s.Listed p) :
    s.Part (fun _ => True)
      (selectProject s.cfg api login (s.cfg.project.bind normalizeProject) known rounds) := by
  have hlisted : s.Part (fun projects => ∀ p ∈ projects, s.Listed p)
      (knownOrListed api login known) := by
    cases known with
    | none => exact listProjects_part htoken login.sub
    | some projects => exact hknown projects rfl
  unfold selectProject
  refine EndsWhen.bind (hlisted.weaken fun projects hprojects => ?_)
  have hwait (wait : ProjectWait) (configured : Option String) : s.Part (fun _ => True)
      (waitForProject s.cfg wait projects configured login.expiresAt rounds) :=
    waitForProject_part s.cfg wait projects configured login.expiresAt rounds
  have hkeep : s.Part (fun _ => True) (if known.isNone && s.cfg.sessionFile then
      saveSession s.cfg login projects else pure () : PairPart Unit) := by
    split
    · exact saveSession_part login projects
    · exact trivial
  dsimp only
  split
  · split
    · exact EndsWhen.bind (hkeep.weaken fun _ _ => hwait _ _)
    · split
      · exact trivial
      · exact EndsWhen.bind (hkeep.weaken fun _ _ => hwait _ _)
  · rename_i hnone
    refine EndsWhen.of_result (fun _ _ => trivial) fun e he => keeps_chooseProject ?_ he
    intro p hp
    apply hprojects p hp
    cases hcfg : s.cfg.projectWait with
    | none => rfl
    | some wait =>
      obtain ⟨q, rest, heq⟩ := List.exists_cons_of_ne_nil (List.ne_nil_of_mem hp)
      exact (hnone wait q rest hcfg heq).elim

/-! ### The service account -/

theorem getServiceAccount_part {api : Api} (htoken : Sendable api) (project name : String) :
    s.Part (fun _ => True) (getServiceAccount api project name) := by
  unfold getServiceAccount
  refine callThen htoken rfl fun reply hreply => ?_
  split
  · exact trivial
  · rename_i hcode
    split
    · rename_i hfailed
      refine quoted htoken hreply rfl ?_
      simpa [ApiRequest.unquoted, hcode] using hfailed
    · exact trivial

theorem settleAccount_part (cfg : PairingConfig) {api : Api} (htoken : Sendable api)
    (project name createdUid : String) (ticksLeft : Nat) :
    s.Part (fun _ => True) (settleAccount cfg api project name createdUid ticksLeft) := by
  induction ticksLeft with
  | zero => exact trivial
  | succ ticksLeft ih =>
    unfold settleAccount
    refine EndsWhen.bind ((getServiceAccount_part htoken project name).weaken fun found _ => ?_)
    split
    · exact trivial
    · exact EndsWhen.liftThen trivial fun _ _ => ih

theorem createServiceAccountNamed_part (cfg : PairingConfig) {api : Api} (htoken : Sendable api)
    (project : String) (namesLeft : Nat) (h : namesLeft = 0 → Silent s.secret project) :
    s.Part (fun _ => True) (createServiceAccountNamed cfg api project namesLeft) := by
  induction namesLeft with
  | zero =>
    exact keeps_say .namesTaken [project] (by simp [String.append_assoc]) (one (h rfl))
  | succ namesLeft ih =>
    unfold createServiceAccountNamed
    refine EndsWhen.liftThen trivial fun suffix _ => ?_
    refine callThen htoken rfl fun reply hreply => ?_
    have hquiet := hreply.2.1
    split
    · rename_i hconflict
      exact ih fun _ => hquiet.1 hconflict
    · rename_i hconflict
      split
      · rename_i hforbidden
        exact keeps_redacted htoken .mayNotCreate [project] (by simp [String.append_assoc])
          (one ((redacted_iff s.bearer).mpr (hreply.2.2 hforbidden)))
      · rename_i hforbidden
        split
        · rename_i hfailed
          refine quoted htoken hreply rfl ?_
          simpa [ApiRequest.unquoted, hconflict, hforbidden] using hfailed
        · rename_i hsuccess
          have hsuccess : reply.status.isSuccess = true := by simpa using hsuccess
          obtain ⟨hname, hproject⟩ := hquiet.2 hsuccess
          have hsettled := @settleAccount_part s cfg api htoken project
          refine EndsWhen.bind ((hsettled _ _ _).weaken fun found _ => ?_)
          cases found with
          | some sa => exact trivial
          | none =>
            exact keeps_say .noEmail [_, project] (by simp [String.append_assoc])
              (two hname hproject)

theorem ownAccount_part (cfg : PairingConfig) {api : Api} (htoken : Sendable api)
    (project : String) : s.Part (fun _ => True) (ownAccount cfg api project) := by
  have hearlier : s.Part (fun _ => True) (earlierAccount api project) := by
    unfold earlierAccount
    refine EndsWhen.liftThen trivial fun pending _ => ?_
    split
    · exact trivial
    · refine EndsWhen.bind ((getServiceAccount_part htoken project _).weaken fun found _ => ?_)
      cases found with
      | none => exact trivial
      | some sa =>
        dsimp only
        split
        · exact EndsWhen.liftThen trivial fun _ _ => trivial
        · exact trivial
  unfold ownAccount
  refine EndsWhen.bind (hearlier.weaken fun found _ => ?_)
  cases found with
  | some sa => exact trivial
  | none =>
    refine EndsWhen.bind ((createServiceAccountNamed_part cfg htoken project 3 nofun).weaken
      fun sa _ => ?_)
    exact EndsWhen.liftThen trivial fun _ _ => trivial

/-! ### The binding and the key -/

theorem settleBinding_part (cfg : PairingConfig) {api : Api} (htoken : Sendable api)
    {project : ProjectRef} {sa : ServiceAccountRef} {what : String}
    (hwhat : what = (ApiRequest.getPolicyBinding project sa).what) (ticksLeft : Nat) (last : String)
    (hname : ticksLeft = 0 → Redacted s.secret api.token (ApiRequest.bindingName project sa))
    (hlast : Redacted s.secret api.token last) :
    s.Part (fun _ => True) (settleBinding cfg api project sa what ticksLeft last) := by
  induction ticksLeft generalizing last with
  | zero =>
    unfold settleBinding
    by_cases hempty : last = ""
    · refine keeps_redacted htoken .notReady [_] ?_ (one (hname rfl))
      simp [hempty, String.append_assoc]
    · refine keeps_redacted htoken .notReadyTold [_, last] ?_ (two (hname rfl) hlast)
      simp [hempty, String.append_assoc, -String.reduceAppend]
  | succ ticksLeft ih =>
    unfold settleBinding
    refine callThen htoken hwhat fun reply hreply => ?_
    split
    · rename_i hfailed
      refine quoted htoken hreply hwhat ?_
      simpa [ApiRequest.unquoted] using hfailed
    split
    · exact trivial
    · rename_i hready
      have hnotReady : reply.ready = false := by simpa using hready
      obtain ⟨hechoed, hmessage⟩ := hreply.2.2 hnotReady
      have hredacted := (redacted_iff s.bearer).mpr hechoed
      refine EndsWhen.liftThen trivial fun _ _ => ih _ (fun _ => hredacted) ?_
      cases hcondition : readyCondition reply with
      | none => exact hlast
      | some c =>
        refine (redacted_iff s.bearer).mpr (hmessage _ ?_)
        rw [ApiReply.readyMessage, hcondition]
        rfl

theorem keeps_bindingForbidden {email project : String} (hemail : Silent s.secret email)
    (hproject : Silent s.secret project) : s.Keeps (.bindingForbidden email project) := by
  let account := "organization owner or editor to grant role 'editor' to service account " ++
    email ++ " on "
  let inProject := "project " ++ project ++ ", then restart"
  have hasked : Silent s.secret (account ++ inProject) :=
    silent_say s.bearer .askToGrant [email, project]
      (by simp [account, inProject, String.append_assoc, -String.reduceAppend])
      (two hemail hproject)
  have hsaid : Silent s.secret (Wording.mayNotGrant.first ++ account ++ inProject) :=
    silent_say s.bearer .mayNotGrant [account ++ inProject]
      (by simp only [Wording.mayNotGrant, say, String.append_empty, String.append_assoc])
      (one hasked)
  exact hsaid

theorem grantAccess_part (cfg : PairingConfig) {api : Api} (htoken : Sendable api)
    (project : ProjectRef) (sa : ServiceAccountRef) :
    s.Part (fun _ => True) (grantAccess cfg api project sa) := by
  unfold grantAccess
  refine callThen htoken rfl fun reply hreply => ?_
  split
  · exact settleBinding_part cfg htoken rfl settleTicks "" nofun
      (redacted_of_silent s.bearer (silent_of_short s.bearer rfl))
  · rename_i hfailed
    split
    · rename_i hforbidden
      obtain ⟨hemail, hproject⟩ := hreply.2.1 hforbidden
      exact keeps_bindingForbidden hemail hproject
    · rename_i hforbidden
      refine quoted htoken hreply rfl ?_
      simp only [Bool.or_eq_true, decide_eq_true_eq, not_or] at hfailed
      simp [ApiRequest.unquoted, hfailed.1, hfailed.2, hforbidden]

theorem fields_short : (["client_id", "private_key_id", "private_key", "scope"].all fun field =>
    Secret.shortWords isTokenChar 16 0 field.toList) = true := by
  decide +kernel

theorem silent_why {key why : String} (hkey : QuietKey s.lib s.secret key)
    (h : checkServiceAccount s.lib key = .error why) : Silent s.secret why := by
  unfold checkServiceAccount at h
  split at h
  · rename_i e he
    rw [← Except.error.inj h]
    refine silent_say s.bearer .notKeyFile [e] ?_ (one (hkey.file e he))
    change _ ++ (_ ++ e) = _ ++ _ ++ e ++ ""
    rw [String.append_empty, String.append_assoc]
    rfl
  · rename_i file hfile
    split at h
    · rename_i htype
      rw [← Except.error.inj h]
      exact hkey.type file hfile htype
    · cases hpem : s.lib.rsaKeyFromPem file.privateKey with
      | error e =>
        rw [hpem] at h
        rw [← Except.error.inj h]
        exact silent_say s.bearer .badPem [e] (by simp) (one (hkey.pem file e hfile hpem))
      | ok u =>
        rw [hpem] at h
        cases h

theorem keeps_validateKey {key : String} {e : PairingError}
    (hkey : QuietKey s.lib s.secret key) (h : validateKey s.lib key = .error e) : s.Keeps e := by
  have hbad : ∀ why, Silent s.secret why →
      s.Keeps (.failed s!"Datum returned a key that is not usable: {why}") := fun why hsilent =>
    keeps_say .unusableKey [why] (by simp) (one hsilent)
  unfold validateKey at h
  dsimp only at h
  split at h
  · rw [← Except.error.inj h]
    exact hbad _ (silent_say s.bearer .notJson [] rfl none_given)
  split at h
  · rw [← Except.error.inj h]
    exact hbad _ (silent_say s.bearer .wrongType [] rfl none_given)
  split at h
  · rename_i field hfield
    rw [← Except.error.inj h]
    have hmem := List.mem_of_find?_eq_some hfield
    have hshort : Silent s.secret field :=
      silent_of_short s.bearer (List.all_eq_true.mp fields_short field hmem)
    exact hbad _ (silent_say s.bearer .noField [field] (by simp) (one hshort))
  split at h
  · rename_i why hcheck
    rw [← Except.error.inj h]
    exact hbad why (silent_why hkey hcheck)
  · cases h

theorem createKeyNamed_part {api : Api} (htoken : Sendable api) (project : String)
    (sa : ServiceAccountRef) (expires : String) (namesLeft : Nat)
    (h : namesLeft = 0 → Silent s.secret sa.email) :
    s.Part (fun _ => True) (createKeyNamed s.lib api project sa expires namesLeft) := by
  induction namesLeft with
  | zero =>
    exact keeps_say .keyNamesTaken [sa.email] (by simp [String.append_assoc]) (one (h rfl))
  | succ namesLeft ih =>
    have hname : s.Part (fun _ => True) (keyName sa (2 - namesLeft)) := by
      unfold keyName
      split
      · exact trivial
      · exact EndsWhen.liftThen trivial fun _ _ => trivial
    unfold createKeyNamed
    refine EndsWhen.bind (hname.weaken fun name _ => ?_)
    refine callThen htoken rfl fun reply hreply => ?_
    have hquiet := hreply.2.1
    split
    · rename_i hconflict
      exact ih fun _ => hquiet.1 hconflict
    · rename_i hconflict
      split
      · rename_i hfailed
        refine quoted htoken hreply rfl ?_
        simpa [ApiRequest.unquoted, hconflict] using hfailed
      · obtain ⟨-, hkey⟩ := hquiet
        split
        · rename_i hnone
          rw [hnone] at hkey
          exact keeps_say .keyNotReturned [name, sa.email] (by simp [String.append_assoc])
            (two hkey.1 hkey.2)
        · rename_i key hsome
          rw [hsome] at hkey
          split
          · rename_i e he
            exact keeps_validateKey hkey he
          · exact trivial

/-! ### All of it -/

theorem save_part (pending : Pending) : s.Part (fun _ => True) pending.save := by
  unfold Pending.save
  refine EndsWhen.liftThen trivial fun reply hreply => ?_
  cases reply with
  | error e =>
    exact keeps_say .cannotSavePending [e] (by simp) (one hreply)
  | ok u => exact trivial

theorem obtainAccess_part (cfg : PairingConfig) {api : Api} (htoken : Sendable api)
    (project : ProjectRef) (sa : ServiceAccountRef) (refusedBefore : Bool) (state : Pending) :
    s.Part (fun _ => True) (obtainAccess cfg api project sa refusedBefore state) := by
  apply EndsWhen.runThen
  refine (grantAccess_part cfg htoken project sa).mono (fun u _ => ?_) fun e he => ?_
  · exact ⟨trivial, fun _ _ => trivial⟩
  · split
    · rename_i heq
      cases heq
    · rename_i email name heq
      obtain rfl := Except.error.inj heq
      split
      · exact ⟨trivial, fun _ _ => trivial⟩
      · exact EndsWhen.bind ((save_part _).weaken fun _ _ => he)
    · rename_i heq
      rw [← Except.error.inj heq]
      exact he

theorem saveKey_part (project : ProjectRef) (sa : ServiceAccountRef) (key : String) :
    s.Part (fun _ => True) (saveKey project sa key) := by
  unfold saveKey
  refine EndsWhen.liftThen trivial fun reply hreply => ?_
  cases reply with
  | error e => exact keeps_say .cannotSaveKey [e] (by simp) (one hreply)
  | ok u => exact EndsWhen.liftThen trivial fun _ _ => EndsWhen.liftThen trivial fun _ _ => trivial

theorem provision_part {api : Api} (htoken : Sendable api) (login : Login)
    {known : Option (List ProjectRef)} (rounds : Nat)
    (hknown : ∀ projects, known = some projects → ∀ p ∈ projects, s.Listed p) :
    s.Part (fun _ => True) (provision s.lib s.cfg api login
      (s.cfg.project.bind normalizeProject) known rounds) := by
  unfold provision
  refine EndsWhen.bind ((selectProject_part htoken login rounds hknown).weaken fun project _ => ?_)
  unfold provisionIn
  refine EndsWhen.liftThen trivial fun _ _ => ?_
  refine EndsWhen.bind ((ownAccount_part s.cfg htoken project.name).weaken fun found _ => ?_)
  refine EndsWhen.bind ((save_part _).weaken fun _ _ => ?_)
  refine EndsWhen.bind ((obtainAccess_part s.cfg htoken project _ _ _).weaken fun _ _ => ?_)
  have hkey : s.Part (fun _ => True) (createKey s.lib api project.name found.1) :=
    EndsWhen.liftThen trivial fun expires _ =>
      createKeyNamed_part htoken project.name found.1 expires 3 nofun
  exact EndsWhen.bind (hkey.weaken fun key _ => saveKey_part project _ key)

theorem pairAnew_part (rounds : Nat) : s.Part (fun _ => True)
    (pairAnew s.lib s.cfg (s.cfg.project.bind normalizeProject) rounds) := by
  unfold pairAnew
  refine EndsWhen.bind ((deviceLogin_part s.cfg rounds).weaken fun login hlogin => ?_)
  refine EndsWhen.liftThen trivial fun _ _ => ?_
  exact @provision_part s ⟨login.token, false⟩ hlogin login none rounds nofun

/-- What is read of a session file. -/
def Loaded (s : Secrecy) (load : SessionLoad) : Prop :=
  ∀ login projects, load = .ready login projects →
    TokenSendable login ∧ ∀ p ∈ projects, s.Listed p

theorem loaded_of_load {file : SessionFile} (hfile : s.Hears .readSession (.file file)) (wall : Int)
    (now : Nat) : s.Loaded (file.load wall now) := by
  intro login projects h
  unfold SessionFile.load at h
  cases hexpires : file.expiresAt with
  | none => simp [hexpires] at h
  | some expiresAt =>
    simp only [hexpires] at h
    split at h
    · simp at h
    split at h
    · simp at h
    split at h
    · simp at h
    split at h
    · simp at h
    · simp only [SessionLoad.ready.injEq] at h
      obtain ⟨rfl, rfl⟩ := h
      refine ⟨hfile.1, List.forall_mem_map.mpr fun p hp hwait => ?_⟩
      exact hfile.2 hwait p hp

theorem loadSession_part : s.Part s.Loaded loadSession := by
  unfold loadSession
  refine EndsWhen.liftThen trivial fun read hread => ?_
  cases read with
  | missing => exact nofun
  | unreadable => exact nofun
  | file file =>
    refine EndsWhen.liftThen trivial fun wall _ => EndsWhen.liftThen trivial fun now _ => ?_
    exact loaded_of_load hread wall now

theorem dropSession_part (reason : String) : s.Part (fun _ => True) (dropSession reason) :=
  EndsWhen.liftThen trivial fun _ _ => ⟨trivial, fun _ _ => trivial⟩

theorem pairResumed_part (rounds : Nat) {login : Login} (hlogin : TokenSendable login)
    {projects : List ProjectRef} (h : ∀ p ∈ projects, s.Listed p) :
    s.Part (fun _ => True) (pairResumed s.lib s.cfg (s.cfg.project.bind normalizeProject) rounds
      login projects) := by
  have hresumed : s.Part (fun _ => True) (do
      tell (.resumed (login.email.getD login.sub))
      provision s.lib s.cfg ⟨login.token, true⟩ login (s.cfg.project.bind normalizeProject)
        (some projects) rounds) := by
    refine EndsWhen.liftThen trivial fun _ _ => ?_
    apply @provision_part s ⟨login.token, true⟩ hlogin login (some projects) rounds
    rintro projects' heq
    obtain rfl := Option.some.inj heq
    exact h
  apply EndsWhen.runThen
  refine hresumed.mono (fun key _ => trivial) fun e he => ?_
  split
  · exact EndsWhen.bind ((dropSession_part _).weaken fun _ _ => pairAnew_part rounds)
  · exact he

theorem keeps_checkWanted {e : PairingError}
    (h : checkWanted s.cfg (s.cfg.project.bind normalizeProject) = .error e) : s.Keeps e := by
  unfold checkWanted at h
  split at h
  · rename_i p hp hwait
    have he : e = .invalidName "project" p := by
      unfold checkName at h
      split at h
      · cases h
      · exact (Except.error.inj h).symm
    rw [he]
    exact keeps_invalidName (silent_say s.bearer .projectName [] rfl none_given)
      (silent_debugText s.bearer s.printable (s.config.name p hp hwait))
  · cases h

theorem pairInner_part (rounds : Nat) : s.Part (fun _ => True) (pairInner s.lib s.cfg rounds) := by
  unfold pairInner
  refine EndsWhen.liftThen trivial fun there _ => ?_
  split
  · exact keeps_keyExists
  have hwanted : s.Part (fun _ => True)
      (ExceptT.mk (pure (checkWanted s.cfg (s.cfg.project.bind normalizeProject))) :
        PairPart Unit) :=
    EndsWhen.of_result (fun _ _ => trivial) fun e he => keeps_checkWanted he
  refine EndsWhen.bind (hwanted.weaken fun _ _ => ?_)
  split
  · refine EndsWhen.bind (loadSession_part.weaken fun load hload => ?_)
    cases load with
    | missing => exact pairAnew_part rounds
    | unusable reason =>
      exact EndsWhen.bind ((dropSession_part reason).weaken fun _ _ => pairAnew_part rounds)
    | ready login projects =>
      obtain ⟨hlogin, hprojects⟩ := hload login projects rfl
      exact pairResumed_part rounds hlogin hprojects
  · exact pairAnew_part rounds

/-- How `pair` may end. -/
def Ended (s : Secrecy) (result : Except PairingError PairedKey) : Prop :=
  ∀ e, result = .error e → s.Keeps e

theorem pair_ends (rounds : Nat) :
    OnlyWhen s.Hears (fun _ => True) s.Ended (pair s.lib s.cfg rounds) := by
  apply OnlyWhen.bind
  apply OnlyWhen.mono (pairInner_part rounds)
  intro result hresult
  have hended : s.Ended result := by
    rintro e rfl
    exact hresult
  split
  · exact ⟨trivial, fun _ _ => hended⟩
  · exact hended

end Secrecy

/-- Whatever has been answered, an error keeps a token of sixteen characters or more if no text that
it says of a reply holds as many of it in a row, or where the token is taken out says whole tokens
only; and a text that is quoted comes out without them just if it does so in its first 300
characters, uncut. -/
theorem errors_keep (s : Secrecy) (rounds : Nat) :
    (∀ {log : List (Σ c, PairCall.Reply c)} {e : PairingError},
      Traces s.Hears (pair s.lib s.cfg rounds) log (some (.error e)) →
        ∀ run : List Char, run.length = 16 → run <:+: s.secret →
          ¬ run <:+: (e.message s.printable s.keyOut).toList) ∧
      ∀ token text : String, Bearer token.toList →
        ((∀ run : List Char, run.length = 16 → run <:+: s.secret →
          ¬ run <:+: (redact (excerpt text) token).toList) ↔
            Echoes s.secret token (opening text)) := by
  refine ⟨fun h run hlength hrun => ?_, fun token text htoken => ?_⟩
  · exact ((Secrecy.pair_ends rounds).traces h).2 _ rfl _ rfl run hlength hrun
  · exact redacted_excerpt s.bearer htoken text

/-! ## A run -/

/-- A token that the API says again. -/
def echoed : String := "eyJhbGciOiJSUzI1NiJ9.eyJzdWIiOiIxIn0.c2ln"

/-- A login that is approved at once, and what the API says to the first request. -/
def refusedWith (text : String) : List (Σ c, PairCall.Reply c) :=
  [⟨.keyOutExists, false⟩, ⟨.now, 0⟩, ⟨.now, 0⟩,
    ⟨.deviceAuthorization, .authorization { deviceCode := "d", userCode := "U" }⟩,
    ⟨.event (.code "U" 300), ()⟩, ⟨.now, 0⟩, ⟨.sleep 5000, ()⟩, ⟨.now, 0⟩,
    ⟨.pollToken "d", .token ⟨echoed, none, some ⟨"1", none⟩, none⟩⟩,
    ⟨.now, 0⟩, ⟨.event (.approved "1"), ()⟩,
    ⟨.api echoed (.organizationMemberships "1"), .reply ⟨⟨500, "500"⟩, .null, text⟩⟩]

theorem refusedWith_traces (lib : Libraries) {genuine : (c : PairCall) → c.Reply → Prop}
    {text : String} (h : ∀ event ∈ refusedWith text, genuine event.1 event.2) :
    Traces genuine (pair lib {} 1) (refusedWith text) (some (.error
      (Api.failed ⟨echoed, false⟩ "listing your Datum organizations"
        ⟨⟨500, "500"⟩, .null, text⟩))) := by
  have hall : Traces (fun _ _ => True) (pair lib {} 1) (refusedWith text) (some (.error
      (Api.failed ⟨echoed, false⟩ "listing your Datum organizations"
        ⟨⟨500, "500"⟩, .null, text⟩))) :=
    Or.inr ⟨_, _, trivial, rfl, Or.inr ⟨_, _, trivial, rfl, Or.inr ⟨_, _, trivial, rfl,
      Or.inr ⟨_, _, trivial, rfl, Or.inr ⟨_, _, trivial, rfl, Or.inr ⟨_, _, trivial, rfl,
      Or.inr ⟨_, _, trivial, rfl, Or.inr ⟨_, _, trivial, rfl, Or.inr ⟨_, _, trivial, rfl,
      Or.inr ⟨_, _, trivial, rfl, Or.inr ⟨_, _, trivial, rfl, Or.inr ⟨_, _, trivial, rfl,
      rfl, rfl⟩⟩⟩⟩⟩⟩⟩⟩⟩⟩⟩⟩
  exact hall.strengthen h

theorem echoed_bearer : Bearer echoed.toList := by
  have hall : echoed.toList.all isTokenChar = true := by decide +kernel
  exact List.all_eq_true.mp hall

/-- Nothing says that token, but what a reply echoes. -/
def echoSecrecy : Secrecy where
  lib := ⟨fun _ => none, fun _ => .error "no JSON", fun _ => .error "no PEM"⟩
  printable _ := true
  keyOut := "key.json"
  secret := echoed.toList
  cfg := {}
  bearer := echoed_bearer
  config := {
    keyOut := silent_of_short echoed_bearer (by decide +kernel)
    project := nofun
    name := nofun
    numbers := by decide +kernel }

/-- Where a reply says all of the token it is taken out. -/
theorem errors_keep_one :
    ¬ echoed.toList.take 16 <:+: (PairingError.message (fun _ => true) "key.json"
      (Api.failed ⟨echoed, false⟩ "listing your Datum organizations"
        ⟨⟨500, "500"⟩, .null, "no login: " ++ echoed⟩)).toList := by
  have hopening : (opening ("no login: " ++ echoed)).toList =
      "no login: ".toList ++ (echoed.toList ++ []) := by
    rw [opening, String.toList_ofList, String.toList_append]
    decide +kernel
  have hechoes : Echoes echoSecrecy.secret echoed (opening ("no login: " ++ echoed)) := by
    rw [Echoes, hopening]
    exact .whole (by decide +kernel) (silent_of_short echoed_bearer (by decide +kernel))
      (by decide +kernel) (.quiet (Secret.Quiet.of_length (by decide)))
  have hheard : ∀ event ∈ refusedWith ("no login: " ++ echoed),
      echoSecrecy.Hears event.1 event.2 := by
    have htold : ∀ claims, some (IdClaims.mk "1" none) = some claims →
        (checkName "user id" claims.sub).isOk = false → QuietName echoed.toList claims.sub := by
      rintro claims heq hnot
      rw [← Option.some.inj heq] at hnot
      exact absurd hnot (by decide +kernel)
    have hstatus : Echoes echoSecrecy.secret echoed "500" :=
      .quiet (silent_of_short echoed_bearer (by decide +kernel))
    simp only [refusedWith, List.forall_mem_cons]
    exact ⟨trivial, trivial, trivial, trivial, trivial, trivial, trivial, trivial,
      ⟨echoed_bearer, htold⟩, trivial, trivial,
      ⟨fun _ => ⟨List.forall_mem_nil _, hstatus, hechoes⟩, trivial, trivial⟩,
      List.forall_mem_nil _⟩
  exact (errors_keep echoSecrecy 1).1 (refusedWith_traces echoSecrecy.lib hheard) _
    (by decide +kernel) (List.take_prefix _ _).isInfix

/-- The API says the token again where the excerpt ends. -/
def overlong : List Char := List.replicate 280 'x' ++ echoed.toList

theorem excerpt_overlong :
    excerpt (String.ofList overlong) =
      String.ofList (List.replicate 280 'x' ++ echoed.toList.take 20) := by
  have hflat : Text.trim (overlong.map fun c =>
      if (decide (c.toNat < 32) || decide (127 ≤ c.toNat) && decide (c.toNat < 160)) then ' '
      else c) = overlong := by
    decide +kernel
  have htake : overlong.take 300 = List.replicate 280 'x' ++ echoed.toList.take 20 := by
    decide +kernel
  have hne : overlong ≠ [] := by
    decide +kernel
  unfold excerpt
  dsimp only
  rw [String.toList_ofList, hflat, if_neg hne, htake]

theorem redact_of_replace {message token : String} {text : List Char}
    (htext : message.toList = text)
    (h : Text.replace token.toList "[redacted]".toList text = text) :
    redact message token = message := by
  unfold redact
  split
  · rfl
  · rw [htext, h, ← htext, String.ofList_toList]

/-- The first twenty characters of the token stay in the error. -/
theorem toList_echo : (PairingError.message (fun _ => true) "key.json"
    (Api.failed ⟨echoed, false⟩ "listing your Datum organizations"
      ⟨⟨500, "500"⟩, .null, String.ofList overlong⟩)).toList =
    "listing your Datum organizations failed (HTTP 500): ".toList ++
      (List.replicate 280 'x' ++ echoed.toList.take 20) := by
  have hsaid (detail : String) (hdetail : detail = excerpt (String.ofList overlong)) :
      (redact ("listing your Datum organizations" ++ " failed (HTTP " ++ "500" ++ "): " ++ detail)
        echoed).toList = "listing your Datum organizations failed (HTTP 500): ".toList ++
          (List.replicate 280 'x' ++ echoed.toList.take 20) := by
    have htext : ("listing your Datum organizations" ++ " failed (HTTP " ++ "500" ++ "): " ++
        detail).toList = "listing your Datum organizations failed (HTTP 500): ".toList ++
          (List.replicate 280 'x' ++ echoed.toList.take 20) := by
      rw [hdetail, excerpt_overlong]
      simp only [String.toList_append, String.toList_ofList]
      decide +kernel
    rw [redact_of_replace htext (by decide +kernel), htext]
  exact hsaid _ (@Option.getD_none _ (excerpt (String.ofList overlong)))

/-- The excerpt is cut, and what is left of the token is no longer taken out. -/
theorem error_echoes : ∃ (log : List (Σ c, PairCall.Reply c)) (e : PairingError),
    Traces (fun _ _ => True) (pair echoSecrecy.lib {} 1) log (some (.error e)) ∧
      ⟨.api echoed (.organizationMemberships "1"),
        .reply ⟨⟨500, "500"⟩, .null, String.ofList overlong⟩⟩ ∈ log ∧
      ∃ run, run.length = 16 ∧ run <:+: echoed.toList ∧
        run <:+: (e.message (fun _ => true) "key.json").toList := by
  refine ⟨refusedWith (String.ofList overlong), _, refusedWith_traces _ fun _ _ => trivial, ?_,
    echoed.toList.take 16, by decide +kernel, (List.take_prefix _ _).isInfix, ?_⟩
  · simp [refusedWith]
  · rw [toList_echo]
    have htake : echoed.toList.take 16 <+: echoed.toList.take 20 :=
      List.take_prefix_take_left (by decide)
    exact htake.isInfix.trans ((List.suffix_append _ _).trans (List.suffix_append _ _)).isInfix
end DatumConnect.Pairing
