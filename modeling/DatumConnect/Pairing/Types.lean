import DatumConnect.Lib.Json
import DatumConnect.Lib.Text
/-!
# Pairing

The data of `pairing.rs`: its configuration, what it tells its caller, the
requests it makes with the person's token, and the files it leaves next to the
key.
-/

namespace DatumConnect.Pairing

open DatumConnect.Lib
open DatumConnect.Lib.Json

/-! ## Projects and accounts -/

structure ProjectRef where
  name : String
  uid : String
  org : String
  displayName : String
  deriving DecidableEq, Repr

/-- A project the approving login can see. -/
structure ProjectChoice where
  id : String
  displayName : String
  organization : String
  deriving DecidableEq, Repr

def ProjectRef.choice (p : ProjectRef) : ProjectChoice where
  id := p.name
  displayName := p.displayName
  organization := p.org

structure ServiceAccountRef where
  name : String
  uid : String
  email : String
  deriving DecidableEq, Repr

/-- The person's login.  Times are in milliseconds. -/
structure Login where
  token : String
  expiresAt : Option Nat
  sub : String
  email : Option String
  deriving DecidableEq, Repr

/-- `ProjectWait`, without the source. -/
structure ProjectWait where
  poll : Nat := 5000
  max : Nat := 1800000
  deriving DecidableEq, Repr

structure PairingConfig where
  clientId : String := "328728232771788043"
  project : Option String := none
  projectWait : Option ProjectWait := none
  confirmProject : Bool := false
  /-- There is a file to keep the login in across a restart. -/
  sessionFile : Bool := false
  deviceName : Option String := none
  maxWait : Nat := 3600000
  tick : Nat := 1000
  deriving DecidableEq, Repr

/-- `ticks`: the count is cut to 32 bits. -/
def PairingConfig.ticks (cfg : PairingConfig) (n : Nat) : Nat := cfg.tick * min n (2 ^ 32 - 1)

def settleTicks : Nat := 60

def tokenMarginTicks : Nat := 120

def sessionMaxTicks : Nat := 900

/-! ## What the caller is told -/

inductive PairingEvent where
  | code (userCode : String) (expiresIn : Nat)
  | codeExpired
  | approved (email : String)
  | resumed (email : String)
  | sessionDropped (reason : String)
  | chooseProject (projects : List ProjectChoice) (rejected : Option String) (wait : Nat)
  | projectSelected (project organization : String)
  | serviceAccountCreated (email project : String)
  | serviceAccountReused (email project : String)
  | accessGranted
  | accessNotConfirmed (email project : String)
  | keySaved
  deriving DecidableEq, Repr

inductive PairingError where
  | denied
  | timedOut (minutes : Nat)
  | projectNotChosen (waited : Nat)
  | bindingForbidden (email project : String)
  | keyExists
  | project (message : String)
  | invalidName (what name : String)
  | failed (message : String)
  | savedLoginRejected
  /-- No outcome of the source: a loop has gone on for longer than was looked at. -/
  | stillWaiting
  deriving DecidableEq, Repr

structure PairedKey where
  serviceAccountEmail : String
  project : String
  organization : String
  deriving DecidableEq, Repr

/-! ## Requests -/

/-- A status, and how it is shown. -/
structure Status where
  code : Nat
  shown : String
  deriving DecidableEq, Repr

def Status.isSuccess (s : Status) : Bool := 200 ≤ s.code && s.code < 300

def Status.isServerError (s : Status) : Bool := 500 ≤ s.code && s.code < 600

/-- A reply of the API: its text, and the value that is in it. -/
structure ApiReply where
  status : Status
  body : Value
  text : String

/-- What came back: nothing, a status whose text could not be read, or a reply. -/
inductive Sent where
  | failed (e : String)
  | unread (status : Status) (e : String)
  | reply (r : ApiReply)

inductive ApiRequest where
  | organizationMemberships (sub : String)
  | projects (org : String)
  | getServiceAccount (project name : String)
  | createServiceAccount (project name : String) (deviceName : Option String)
  | createPolicyBinding (project : ProjectRef) (sa : ServiceAccountRef)
  | getPolicyBinding (project : ProjectRef) (sa : ServiceAccountRef)
  | createServiceAccountKey (project name : String) (sa : ServiceAccountRef) (expires : String)
  deriving DecidableEq

namespace ApiRequest

def resourceManager : String := "resourcemanager.miloapis.com/v1alpha1"

def iam : String := "iam.miloapis.com/v1alpha1"

def identity : String := "identity.miloapis.com/v1alpha1"

def userCp (sub : String) : String := s!"/apis/{iam}/users/{sub}/control-plane"

def orgCp (org : String) : String := s!"/apis/{resourceManager}/organizations/{org}/control-plane"

def projectCp (project : String) : String :=
  s!"/apis/{resourceManager}/projects/{project}/control-plane"

def serviceAccountsPath (project : String) : String :=
  s!"{projectCp project}/apis/{iam}/serviceaccounts"

def bindingNamespace (project : ProjectRef) : String := s!"organization-{project.org}"

def bindingName (project : ProjectRef) (sa : ServiceAccountRef) : String :=
  s!"{project.name}-{sa.name}"

def policyBindingsPath (project : ProjectRef) : String :=
  s!"{orgCp project.org}/apis/{iam}/namespaces/{bindingNamespace project}/policybindings"

def path : ApiRequest → String
  | organizationMemberships sub =>
      s!"{userCp sub}/apis/{resourceManager}/organizationmemberships"
  | projects org => s!"{orgCp org}/apis/{resourceManager}/projects"
  | getServiceAccount project name => s!"{serviceAccountsPath project}/{name}"
  | createServiceAccount project _ _ => serviceAccountsPath project
  | createPolicyBinding project _ => policyBindingsPath project
  | getPolicyBinding project sa => s!"{policyBindingsPath project}/{bindingName project sa}"
  | createServiceAccountKey project _ _ _ =>
      s!"{projectCp project}/apis/{identity}/serviceaccountkeys"

/-- What is posted; the other requests are reads. -/
def body : ApiRequest → Option Value
  | createServiceAccount _ name deviceName =>
      some (.object [
        ("apiVersion", .string iam),
        ("kind", .string "ServiceAccount"),
        ("metadata", .object [
          ("annotations", .object (
            ("connect.datum.net/created-by", .string "datum-connect-ha-addon") ::
              deviceName.toList.map fun device => ("datum.net/device-name", .string device))),
          ("name", .string name)])])
  | createPolicyBinding project sa =>
      some (.object [
        ("apiVersion", .string iam),
        ("kind", .string "PolicyBinding"),
        ("metadata", .object [
          ("name", .string (bindingName project sa)),
          ("namespace", .string (bindingNamespace project))]),
        ("spec", .object [
          ("resourceSelector", .object [
            ("resourceRef", .object [
              ("apiGroup", .string "resourcemanager.miloapis.com"),
              ("kind", .string "Project"),
              ("name", .string project.name),
              ("uid", .string project.uid)])]),
          ("roleRef", .object [
            ("name", .string "editor"), ("namespace", .string "datum-cloud")]),
          ("subjects", .array [.object [
            ("kind", .string "ServiceAccount"),
            ("name", .string sa.name),
            ("uid", .string sa.uid)]])])])
  | createServiceAccountKey _ name sa expires =>
      some (.object [
        ("apiVersion", .string identity),
        ("kind", .string "ServiceAccountKey"),
        ("metadata", .object [("name", .string name)]),
        ("spec", .object [
          ("expirationDate", .string expires),
          ("serviceAccountUserName", .string sa.email)])])
  | _ => none

/-- The request makes something. -/
def creates : ApiRequest → Bool
  | createServiceAccount .. | createPolicyBinding .. | createServiceAccountKey .. => true
  | _ => false

end ApiRequest

/-! ## The login service -/

/-- What `device_authorization` answers, without the links to approve at. -/
structure DeviceAuthorization where
  deviceCode : String
  userCode : String
  interval : Nat := 0
  expiresIn : Nat := 0
  deriving DecidableEq, Repr

inductive DeviceReply where
  | unreachable (e : String)
  | refused (status : Status) (body : String)
  | unexpected
  | authorization (auth : DeviceAuthorization)

structure IdClaims where
  sub : String
  email : Option String
  deriving DecidableEq, Repr

/-- A token, the claims of the ID token that can be read in it, and what is left of
the access token by its own `exp`. -/
structure TokenSuccess where
  accessToken : String
  expiresIn : Option Nat
  idClaims : Option IdClaims
  jwtLifetime : Option Nat
  deriving DecidableEq, Repr

inductive TokenReply where
  | unreachable
  | unread
  | unexpected
  | token (t : TokenSuccess)
  | serverError
  | refused (status : Status) (body : String)
  | error (error : String) (description : Option String)

inductive UserinfoReply where
  | unreachable (e : String)
  | refused (status : Status) (body : String)
  | unexpected
  | claims (c : IdClaims)

/-! ## Files -/

/-- What a stopped pairing leaves next to the key path. -/
structure Pending where
  project : String
  serviceAccount : String
  uid : String
  email : String
  bindingRefused : Bool
  deriving DecidableEq, Repr

structure SessionProject where
  id : String
  uid : String
  organization : String
  displayName : String
  deriving DecidableEq, Repr

/-- The session file; a text that is no time is `none`. -/
structure SessionFile where
  version : Nat
  expiresAt : Option Int
  accessToken : String
  tokenExpiresAt : Option (Option Int)
  sub : String
  email : Option String
  projects : List SessionProject
  deriving DecidableEq, Repr

inductive SessionRead where
  | missing
  | unreadable
  | file (f : SessionFile)
  deriving DecidableEq, Repr

/-! ## Texts -/

/-- The key file, as `service_account.rs` reads it. -/
structure KeyFile where
  keyType : String
  clientId : String
  privateKeyId : String
  privateKey : String
  scope : String
  deriving DecidableEq, Repr

/-- What is used of `serde_json` and `ring`. -/
structure Libraries where
  parseJson : String → Option Value
  parseKeyFile : String → Except String KeyFile
  rsaKeyFromPem : String → Except String Unit

/-- The double and the single quote, and the backtick. -/
def quotes : List Char := [34, 39, 96].map Char.ofNat

/-- A project id in the one form it is compared and passed on in. -/
def normalizeProject (raw : String) : Option String :=
  let p := Text.trim raw.toList
  let unquoted := match p with
    | q :: rest =>
        if quotes.contains q && rest.getLast? = some q then Text.trim rest.dropLast else p
    | [] => p
  if unquoted = [] then none else some (String.ofList (unquoted.map Char.toLower))

/-- `str::eq_ignore_ascii_case`. -/
def eqIgnoreAsciiCase (a b : String) : Bool := a.toList.map Char.toLower = b.toList.map Char.toLower

/-- Names go into URL paths. -/
def checkName (what name : String) : Except PairingError Unit :=
  if name ≠ "" ∧ name.utf8ByteSize ≤ 253 ∧
      name.toList.all (fun c => c.isAlphanum || c = '-' || c = '.' || c = '_') then .ok ()
  else .error (.invalidName what name)

def excerpt (body : String) : String :=
  let isControl (c : Char) : Bool := c.toNat < 32 || 127 ≤ c.toNat && c.toNat < 160
  let flat := Text.trim (body.toList.map fun c => if isControl c then ' ' else c)
  if flat = [] then "no response body" else String.ofList (flat.take 300)

def redact (message token : String) : String :=
  if token = "" then message
  else String.ofList (Text.replace token.toList "[redacted]".toList message.toList)

end DatumConnect.Pairing
