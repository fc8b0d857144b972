import DatumConnect.Lib.Base64
import DatumConnect.Lib.FileTree
/-!
# Tokens on disk

The files `auth.rs` keeps under the connect dir.  A tunnel id, and the token id
half of a bearer value, are spliced into paths as they come.
-/

namespace DatumConnect.Auth

open DatumConnect.Lib
open DatumConnect.Lib.Files

inductive Actor where
  | setup
  | operate (tokenId : String)
  | viewer
  deriving DecidableEq, Repr

def Actor.auditLabel : Actor → String
  | .setup => "setup"
  | .operate tokenId => "operate:" ++ tokenId
  | .viewer => "viewer"

structure OperateTokenRecord where
  tokenId : String
  tunnelId : String
  saltB64 : String
  hashB64 : String
  createdAtUnixMs : UInt64
  expiresAtUnixMs : Option UInt64
  revoked : Bool
  deriving DecidableEq, Repr

/-- What a file holds: JSON that reads back as a token record, or other text. -/
inductive Contents where
  | record (record : OperateTokenRecord)
  | text (text : String)
  deriving DecidableEq, Repr

/-! ## Paths -/

def authDir (base : Path) : Path := base.join "daemon_auth"

def setupTokenPath (base : Path) : Path := (authDir base).join "setup.token"

def viewerTokenPath (base : Path) : Path := (authDir base).join "viewer.token"

def operateTokensDir (base : Path) (tunnelId : String) : Path :=
  ((authDir base).join "operate_tokens").join tunnelId

def operateTokenPath (base : Path) (tunnelId tokenId : String) : Path :=
  (operateTokensDir base tunnelId).join (tokenId ++ ".json")

def auditLogPath (base : Path) : Path := (authDir base).join "audit.jsonl"

/-! ## Secrets -/

/-- `str::as_bytes`. -/
def asBytes (s : String) : List UInt8 := s.toUTF8.data.toList

theorem asBytes_inj {s t : String} : asBytes s = asBytes t ↔ s = t := by
  constructor
  · intro h
    rw [asBytes, asBytes, Array.toList_inj, ← ByteArray.ext_iff] at h
    exact String.toByteArray_inj.mp h
  · rintro rfl
    rfl

/-- Compare every byte, wherever the first difference is. -/
def constantTimeEq (a b : List UInt8) : Bool :=
  if a.length ≠ b.length then false
  else (a.zip b).foldl (fun diff (x, y) => diff ||| (x ^^^ y)) 0 == 0

theorem foldl_diff_eq_zero {a b : List UInt8} (hlen : a.length = b.length) (diff : UInt8) :
    (a.zip b).foldl (fun diff (x, y) => diff ||| (x ^^^ y)) diff = 0 ↔ diff = 0 ∧ a = b := by
  induction a generalizing b diff with
  | nil =>
      cases b with
      | nil => simp
      | cons y b => simp at hlen
  | cons x a ih =>
      cases b with
      | nil => simp at hlen
      | cons y b =>
          rw [List.zip_cons_cons, List.foldl_cons, ih (by simpa using hlen),
            UInt8.or_eq_zero_iff, UInt8.xor_eq_zero_iff, List.cons.injEq, and_assoc]

@[simp] theorem constantTimeEq_iff {a b : List UInt8} : constantTimeEq a b = true ↔ a = b := by
  unfold constantTimeEq
  split
  · rename_i hlen
    simp only [Bool.false_eq_true, false_iff]
    rintro rfl
    exact hlen rfl
  · rename_i hlen
    rw [beq_iff_eq, foldl_diff_eq_zero (not_not.mp hlen)]
    simp

section Digest

variable (sha256 : List UInt8 → List UInt8)

def hashSecret (salt : List UInt8) (secret : String) : List UInt8 :=
  sha256 (salt ++ asBytes secret)

/-! ## Operate tokens -/

/-- `write_atomic_raw`: write beside the file, then rename over it. -/
def writeAtomicRaw (path : Path) (contents : Contents) : Fs Contents Unit := do
  let tmp := path.push ".tmp"
  Fs.write tmp contents
  Fs.rename tmp path

/-- The random bytes one mint draws. -/
structure MintBytes where
  tokenId : Vector UInt8 9
  secret : Vector UInt8 32
  salt : Vector UInt8 16
  deriving DecidableEq

namespace MintBytes

variable (rng : MintBytes)

def idText : String := Base64.encode rng.tokenId.toList

def secretText : String := Base64.encode rng.secret.toList

end MintBytes

structure MintedToken where
  tokenId : String
  bearer : String
  tunnelId : String
  createdAtUnixMs : UInt64
  expiresAtUnixMs : Option UInt64
  deriving DecidableEq, Repr

/-- `u64::saturating_mul`. -/
def saturatingMul (a b : UInt64) : UInt64 := UInt64.ofNat (min (a.toNat * b.toNat) (2 ^ 64 - 1))

/-- The addition wraps. -/
def expiresAt (now : UInt64) (ttlSeconds : Option UInt64) : Option UInt64 :=
  ttlSeconds.map fun s => now + saturatingMul s 1000

/-- The record a mint writes. -/
def mintRecord (tunnelId : String) (ttlSeconds : Option UInt64) (now : UInt64)
    (rng : MintBytes) : OperateTokenRecord where
  tokenId := rng.idText
  tunnelId := tunnelId
  saltB64 := Base64.encode rng.salt.toList
  hashB64 := Base64.encode (hashSecret sha256 rng.salt.toList rng.secretText)
  createdAtUnixMs := now
  expiresAtUnixMs := expiresAt now ttlSeconds
  revoked := false

def mintOperateToken (base : Path) (tunnelId : String) (ttlSeconds : Option UInt64)
    (now : UInt64) (rng : MintBytes) : Fs Contents MintedToken := do
  Fs.createDirAll (operateTokensDir base tunnelId)
  let record := mintRecord sha256 tunnelId ttlSeconds now rng
  writeAtomicRaw (operateTokenPath base tunnelId rng.idText) (.record record)
  return {
    tokenId := rng.idText
    bearer := rng.idText ++ "." ++ rng.secretText
    tunnelId
    createdAtUnixMs := now
    expiresAtUnixMs := record.expiresAtUnixMs }

inductive RevokeOutcome where
  | revoked
  | notFound
  deriving DecidableEq, Repr

def revokeOperateToken (base : Path) (tunnelId tokenId : String) :
    Fs Contents RevokeOutcome := do
  let path := operateTokenPath base tunnelId tokenId
  match ← (Fs.read path).attempt with
  | .error .notFound => return .notFound
  | .error e => throw e
  | .ok (.text _) => throw .invalidData
  | .ok (.record record) =>
      writeAtomicRaw path (.record { record with revoked := true })
      return .revoked

def deleteTokensForTunnel (base : Path) (tunnelId : String) : Fs Contents Unit := do
  let _ ← (Fs.removeDirAll (operateTokensDir base tunnelId)).attempt

def validateOperateSecret (files : FileTree Contents) (base : Path)
    (tunnelId tokenId secret : String) (now : UInt64) : Bool :=
  match files.contents (operateTokenPath base tunnelId tokenId) with
  | .ok (.record record) =>
      if record.tunnelId ≠ tunnelId ∨ record.revoked then false
      else if record.expiresAtUnixMs.any (fun exp => now > exp) then false
      else
        match Base64.decode record.saltB64, Base64.decode record.hashB64 with
        | some salt, some expected => constantTimeEq (hashSecret sha256 salt secret) expected
        | _, _ => false
  | _ => false

end Digest

/-! ## The viewer token -/

def createViewerTokenOnDisk (base : Path) (random : Vector UInt8 32) : Fs Contents String := do
  Fs.createDirAll (authDir base)
  let token := Base64.encode random.toList
  writeAtomicRaw (viewerTokenPath base) (.text token)
  return token

/-- Whether there was one. -/
def revokeViewerTokenOnDisk (base : Path) : Fs Contents Bool := do
  match ← (Fs.removeFile (viewerTokenPath base)).attempt with
  | .ok () => return true
  | .error .notFound => return false
  | .error e => throw e

end DatumConnect.Auth
