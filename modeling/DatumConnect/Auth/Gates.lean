import DatumConnect.Auth.Tokens
import DatumConnect.Lib.Text
/-!
# The gates

The four middlewares in front of the routes.  Each compares the bearer value with
the setup token first; they differ in which other tier they let through and in
what they answer a credential of the wrong one.
-/

namespace DatumConnect.Auth

open DatumConnect.Lib.Files
open DatumConnect.Lib.Text

/-- What the gates read of the daemon's state. -/
structure AppState where
  connectDir : Path
  setupToken : String
  viewerToken : Option String

structure Refusal where
  status : Nat
  error : String
  deriving DecidableEq, Repr

def unauthorized (error : String) : Refusal := ⟨401, error⟩

def forbidden (error : String) : Refusal := ⟨403, error⟩

/-! ## The bearer value -/

/-- `HeaderValue::to_str`: visible ASCII, spaces and tabs. -/
def headerToStr (value : List UInt8) : Option (List Char) :=
  if value.all fun b => 32 ≤ b && b < 127 || b == 9 then
    some (value.map fun b => Char.ofNat b.toNat)
  else none

/-- The bearer value of the request's `Authorization` header. -/
def extractBearer (authorization : Option (List UInt8)) : Option String := do
  let v ← headerToStr (← authorization)
  let rest ← stripPrefix "Bearer ".toList v
  return String.ofList (trim rest)

/-- The two halves of an operate token's bearer value. -/
def bearerHalves (bearer : String) : Option (String × String) :=
  (splitOnce '.' bearer.toList).map fun (tokenId, secret) =>
    (String.ofList tokenId, String.ofList secret)

theorem bearerHalves_eq_some {bearer tokenId secret : String}
    (h : bearerHalves bearer = some (tokenId, secret)) :
    bearer = tokenId ++ "." ++ secret ∧ '.' ∉ tokenId.toList := by
  obtain ⟨⟨before, after⟩, hsplit, heq⟩ := Option.map_eq_some_iff.mp h
  obtain ⟨rfl, rfl⟩ := Prod.mk.inj heq
  obtain ⟨hs, hbefore⟩ := splitOnce_eq_some hsplit
  refine ⟨?_, by rwa [String.toList_ofList]⟩
  rw [← String.toList_inj, hs]
  simp

/-! ## The middlewares -/

section Gates

variable (sha256 : List UInt8 → List UInt8)

def matchesSetupToken (state : AppState) (bearer : String) : Bool :=
  constantTimeEq (asBytes bearer) (asBytes state.setupToken)

def matchesViewerToken (state : AppState) (bearer : String) : Bool :=
  match state.viewerToken with
  | some token => constantTimeEq (asBytes bearer) (asBytes token)
  | none => false

def requireSetup (state : AppState) (authorization : Option (List UInt8)) :
    Except Refusal Actor :=
  match extractBearer authorization with
  | none => .error (unauthorized "missing Authorization: Bearer header")
  | some bearer =>
      if matchesSetupToken state bearer then .ok .setup
      else if '.' ∈ bearer.toList ∨ matchesViewerToken state bearer then
        .error (forbidden "this endpoint requires setup-tier access")
      else .error (unauthorized "invalid credential")

def requireOperateOrSetup (state : AppState) (files : FileTree Contents) (id : String)
    (now : UInt64) (authorization : Option (List UInt8)) : Except Refusal Actor :=
  match extractBearer authorization with
  | none => .error (unauthorized "missing Authorization: Bearer header")
  | some bearer =>
      if matchesSetupToken state bearer then .ok .setup
      else if matchesViewerToken state bearer then
        .error (forbidden
          "this endpoint requires setup or operate access, not viewer (read-only)")
      else
        match bearerHalves bearer with
        | none => .error (unauthorized "invalid credential")
        | some (tokenId, secret) =>
            if validateOperateSecret sha256 files state.connectDir id tokenId secret now then
              .ok (.operate tokenId)
            else
              .error (unauthorized
                "invalid, expired, or revoked credential for this tunnel")

def requireSetupOrViewer (state : AppState) (authorization : Option (List UInt8)) :
    Except Refusal Actor :=
  match extractBearer authorization with
  | none => .error (unauthorized "missing Authorization: Bearer header")
  | some bearer =>
      if matchesSetupToken state bearer then .ok .setup
      else if matchesViewerToken state bearer then .ok .viewer
      else if '.' ∈ bearer.toList then
        .error (forbidden "this endpoint requires setup or viewer access")
      else .error (unauthorized "invalid credential")

def requireSetupOrOperateOrViewer (state : AppState) (files : FileTree Contents) (id : String)
    (now : UInt64) (authorization : Option (List UInt8)) : Except Refusal Actor :=
  match extractBearer authorization with
  | none => .error (unauthorized "missing Authorization: Bearer header")
  | some bearer =>
      if matchesSetupToken state bearer then .ok .setup
      else if matchesViewerToken state bearer then .ok .viewer
      else
        match bearerHalves bearer with
        | none => .error (unauthorized "invalid credential")
        | some (tokenId, secret) =>
            if validateOperateSecret sha256 files state.connectDir id tokenId secret now then
              .ok (.operate tokenId)
            else
              .error (unauthorized
                "invalid, expired, or revoked credential for this tunnel")

inductive Gate where
  | setup
  | operateOrSetup
  | setupOrViewer
  | setupOrOperateOrViewer
  deriving DecidableEq, Repr

/-- The gate's answer to a request for the route's `id`. -/
def Gate.passes (gate : Gate) (state : AppState) (files : FileTree Contents) (id : String)
    (now : UInt64) (authorization : Option (List UInt8)) : Except Refusal Actor :=
  match gate with
  | .setup => requireSetup state authorization
  | .operateOrSetup => requireOperateOrSetup sha256 state files id now authorization
  | .setupOrViewer => requireSetupOrViewer state authorization
  | .setupOrOperateOrViewer =>
      requireSetupOrOperateOrViewer sha256 state files id now authorization

/-- The gates in front of the routes of one tunnel. -/
def Gate.readsOperate : Gate → Bool
  | .operateOrSetup | .setupOrOperateOrViewer => true
  | .setup | .setupOrViewer => false

/-- The gates in front of the read-only routes. -/
def Gate.readsViewer : Gate → Bool
  | .setupOrViewer | .setupOrOperateOrViewer => true
  | .setup | .operateOrSetup => false

variable {sha256}

@[simp] theorem matchesSetupToken_iff {state : AppState} {bearer : String} :
    matchesSetupToken state bearer = true ↔ bearer = state.setupToken := by
  rw [matchesSetupToken, constantTimeEq_iff, asBytes_inj]

@[simp] theorem matchesViewerToken_iff {state : AppState} {bearer : String} :
    matchesViewerToken state bearer = true ↔ state.viewerToken = some bearer := by
  unfold matchesViewerToken
  split
  · rename_i token h
    rw [constantTimeEq_iff, asBytes_inj, h, Option.some.injEq, eq_comm]
  · rename_i h
    simp [h]

/-- Everything an admitting gate has checked. -/
theorem Gate.passes_eq_ok {gate : Gate} {state : AppState} {files : FileTree Contents}
    {id : String} {now : UInt64} {authorization : Option (List UInt8)} {actor : Actor}
    (h : gate.passes sha256 state files id now authorization = .ok actor) :
    ∃ bearer, extractBearer authorization = some bearer ∧
      match actor with
      | .setup => bearer = state.setupToken
      | .viewer => gate.readsViewer = true ∧ state.viewerToken = some bearer
      | .operate tokenId => gate.readsOperate = true ∧
          ∃ secret, bearerHalves bearer = some (tokenId, secret) ∧
            validateOperateSecret sha256 files state.connectDir id tokenId secret now = true := by
  cases hbearer : extractBearer authorization with
  | none =>
      cases gate <;>
        simp [passes, requireSetup, requireOperateOrSetup, requireSetupOrViewer,
          requireSetupOrOperateOrViewer, hbearer] at h
  | some bearer =>
      refine ⟨bearer, rfl, ?_⟩
      cases gate with
      | setup =>
          simp only [passes, requireSetup, hbearer, matchesSetupToken_iff] at h
          split at h
          · cases h
            assumption
          · split at h <;> cases h
      | operateOrSetup =>
          simp only [passes, requireOperateOrSetup, hbearer, matchesSetupToken_iff] at h
          split at h
          · cases h
            assumption
          · split at h
            · cases h
            · split at h
              · cases h
              · rename_i hhalves
                split at h
                · cases h
                  exact ⟨rfl, _, hhalves, ‹_›⟩
                · cases h
      | setupOrViewer =>
          simp only [passes, requireSetupOrViewer, hbearer, matchesSetupToken_iff,
            matchesViewerToken_iff] at h
          split at h
          · cases h
            assumption
          · split at h
            · cases h
              exact ⟨rfl, ‹_›⟩
            · split at h <;> cases h
      | setupOrOperateOrViewer =>
          simp only [passes, requireSetupOrOperateOrViewer, hbearer, matchesSetupToken_iff,
            matchesViewerToken_iff] at h
          split at h
          · cases h
            assumption
          · split at h
            · cases h
              exact ⟨rfl, ‹_›⟩
            · split at h
              · cases h
              · rename_i hhalves
                split at h
                · cases h
                  exact ⟨rfl, _, hhalves, ‹_›⟩
                · cases h

end Gates

end DatumConnect.Auth
