import DatumConnect.Pairing.Calls
/-!
# The approval

Step 1 of pairing, the login the person approves on another device, and the file it
is kept in across a restart.
-/

namespace DatumConnect.Pairing

open DatumConnect.Lib
open DatumConnect.Lib.Json
open PairPart

/-! ## Device authorization -/

inductive CodeOutcome where
  | approved (login : Login)
  | expired
  deriving DecidableEq, Repr

def startDeviceAuthorization : PairPart DeviceAuthorization := do
  match ← ask .deviceAuthorization with
  | .unreachable e => fail s!"cannot reach Datum's login service: {e}"
  | .refused status body =>
      fail s!"Datum's login service refused to start pairing (HTTP {status.shown}): {excerpt body}"
  | .unexpected =>
      fail "Datum's login service sent an unexpected reply to the pairing request"
  | .authorization auth => return auth

/-- Who approved, from the ID token or else from the userinfo endpoint. -/
def identity (token : TokenSuccess) : PairPart IdClaims := do
  match token.idClaims with
  | some claims => return claims
  | none =>
      match ← ask (.userinfo token.accessToken) with
      | .unreachable e => fail (redact s!"cannot ask who approved: {e}" token.accessToken)
      | .refused status body =>
          fail (redact s!"cannot ask who approved (HTTP {status.shown}): {excerpt body}"
            token.accessToken)
      | .unexpected => fail "the login service did not say who approved"
      | .claims claims => return claims

/-- The login a token stands for. -/
def approvedLogin (cfg : PairingConfig) (token : TokenSuccess) : PairPart Login := do
  let received ← ask .now
  let lifetime := token.expiresIn.or token.jwtLifetime
  let claims ← identity token
  match checkName "user id" claims.sub with
  | .error e => throw e
  | .ok () =>
      return {
        token := token.accessToken
        expiresAt := lifetime.map fun secs => received + cfg.ticks secs
        sub := claims.sub
        email := claims.email.filter (· ≠ "") }

/-- The loop of `poll_for_approval`. -/
def pollForApproval (cfg : PairingConfig) (auth : DeviceAuthorization) (expiresAt deadline : Nat) :
    (rounds interval : Nat) → PairPart CodeOutcome
  | 0, _ => throw .stillWaiting
  | rounds + 1, interval => do
      ask (.sleep interval)
      let now ← ask .now
      if expiresAt ≤ now ∨ deadline ≤ now then return .expired
      else
        match ← ask (.pollToken auth.deviceCode) with
        | .unreachable | .unread | .serverError =>
            pollForApproval cfg auth expiresAt deadline rounds interval
        | .unexpected => fail "Datum's login service sent an unexpected reply after approval"
        | .token token => return .approved (← approvedLogin cfg token)
        | .refused status body =>
            fail s!"Datum's login service refused the code (HTTP {status.shown}): {excerpt body}"
        | .error error description =>
            if error = "authorization_pending" then
              pollForApproval cfg auth expiresAt deadline rounds interval
            else if error = "slow_down" then
              pollForApproval cfg auth expiresAt deadline rounds (interval + cfg.ticks 5)
            else if error = "expired_token" then return .expired
            else if error = "access_denied" then throw .denied
            else
              let detail := (description.map fun d => s!": {d}").getD ""
              fail s!"Datum's login service refused the code ({error}{detail})"

def timedOut (cfg : PairingConfig) : PairingError :=
  .timedOut (max ((cfg.maxWait / 1000 + 59) / 60) 1)

/-- One code: asked for, shown, and polled for until it is approved or expires. -/
def tryCode (cfg : PairingConfig) (deadline rounds : Nat) : PairPart CodeOutcome := do
  let auth ← startDeviceAuthorization
  let good := if auth.expiresIn = 0 then 300 else auth.expiresIn
  tell (.code auth.userCode good)
  let started ← ask .now
  pollForApproval cfg auth (started + cfg.ticks good) deadline rounds
    (cfg.ticks (if auth.interval = 0 then 5 else auth.interval))

/-- The loop of `device_login`. -/
def codes (cfg : PairingConfig) (deadline rounds : Nat) : (codesLeft : Nat) → PairPart Login
  | 0 => throw .stillWaiting
  | codesLeft + 1 => do
      let now ← ask .now
      if deadline ≤ now then throw (timedOut cfg)
      else
        match ← tryCode cfg deadline rounds with
        | .approved login => return login
        | .expired =>
            let now ← ask .now
            if deadline ≤ now then throw (timedOut cfg)
            else do
              tell .codeExpired
              codes cfg deadline rounds codesLeft

def deviceLogin (cfg : PairingConfig) (rounds : Nat) : PairPart Login := do
  let started ← ask .now
  codes cfg (started + cfg.maxWait) rounds rounds

/-! ## Keeping the login across a restart -/

def sessionVersion : Nat := 1

/-- How long a login is kept. -/
def sessionLife (cfg : PairingConfig) (login : Login) (now : Nat) : Nat :=
  match login.expiresAt with
  | some expires => min (cfg.ticks sessionMaxTicks) (expires - now - cfg.ticks tokenMarginTicks)
  | none => cfg.ticks sessionMaxTicks

/-- `save_session`: best effort. -/
def saveSession (cfg : PairingConfig) (login : Login) (projects : List ProjectRef) :
    PairPart Unit := do
  let now ← ask .now
  let wall ← ask .utcNow
  let life := sessionLife cfg login now
  if life = 0 then return ()
  else do
    let _ ← ask (.writeSession {
      version := sessionVersion
      expiresAt := some (wall + (life : Int))
      accessToken := login.token
      tokenExpiresAt := login.expiresAt.map fun e => some (wall + ((e - now : Nat) : Int))
      sub := login.sub
      email := login.email
      projects := projects.map fun p =>
        { id := p.name, uid := p.uid, organization := p.org, displayName := p.displayName } })
    return ()

inductive SessionLoad where
  | missing
  /-- Why, as a clause. -/
  | unusable (reason : String)
  | ready (login : Login) (projects : List ProjectRef)
  deriving DecidableEq, Repr

/-- A project of the session file that cannot be one. -/
def badProject (p : SessionProject) : Bool :=
  !(checkName "project" p.id).isOk || !(checkName "organization" p.organization).isOk || p.uid = ""

/-- What is made of a session file at a time of both clocks. -/
def SessionFile.load (file : SessionFile) (wall : Int) (now : Nat) : SessionLoad :=
  let unreadable := SessionLoad.unusable "its saved login could not be read"
  match file.expiresAt with
  | none => unreadable
  | some expiresAt =>
      if file.version ≠ sessionVersion then unreadable
      else if expiresAt ≤ wall then .unusable "its saved login expired"
      else if file.tokenExpiresAt = some none then unreadable
      else if file.accessToken = "" || !(checkName "user id" file.sub).isOk ||
          file.projects.isEmpty || file.projects.any badProject then unreadable
      else
        .ready
          { token := file.accessToken
            expiresAt := file.tokenExpiresAt.join.map fun t => now + (t - wall).toNat
            sub := file.sub
            email := file.email.filter (· ≠ "") }
          (file.projects.map fun p =>
            { name := p.id, uid := p.uid, org := p.organization, displayName := p.displayName })

def loadSession : PairPart SessionLoad := do
  match ← ask .readSession with
  | .missing => return .missing
  | .unreadable => return .unusable "its saved login could not be read"
  | .file file => do
      let wall ← ask .utcNow
      let now ← ask .now
      return file.load wall now

/-- A saved login comes with projects. -/
theorem SessionFile.load_ready {file : SessionFile} {wall : Int} {now : Nat} {login : Login}
    {projects : List ProjectRef} (h : file.load wall now = .ready login projects) :
    projects ≠ [] := by
  unfold SessionFile.load at h
  cases hexpires : file.expiresAt with
  | none => simp [hexpires] at h
  | some expiresAt =>
      simp only [hexpires] at h
      split at h
      · simp at h
      split at h
      · simp at h
      split at h
      · simp at h
      split at h
      · simp at h
      · rename_i hbad
        simp only [SessionLoad.ready.injEq] at h
        obtain ⟨_, rfl⟩ := h
        simp only [Bool.or_eq_true, List.isEmpty_iff] at hbad
        simp only [ne_eq, List.map_eq_nil_iff]
        intro hnil
        exact hbad (Or.inl (Or.inr hnil))

end DatumConnect.Pairing
