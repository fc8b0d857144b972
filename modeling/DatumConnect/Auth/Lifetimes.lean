import DatumConnect.Auth.Tokens
/-!
# How long an operate token lives

The expiry of a token is its clock reading and its lifetime added up in 64 bits.  The product of
the lifetime saturates and the sum does not.
-/

namespace DatumConnect.Auth

open DatumConnect.Lib
open DatumConnect.Lib.Files

/-- The expiry in a build that checks its additions; such a build panics on `none`. -/
def expiresAtChecked (now : UInt64) : Option UInt64 → Option (Option UInt64)
  | none => some none
  | some s =>
      if now.toNat + (saturatingMul s 1000).toNat < 2 ^ 64 then
        some (some (now + saturatingMul s 1000))
      else none

/-- The lifetime, as far as the product reaches, ends on the clock. -/
def FitsClock (now : UInt64) (ttlSeconds : Option UInt64) : Prop :=
  ∀ s ∈ ttlSeconds, now.toNat + min (1000 * s.toNat) (2 ^ 64 - 1) < 2 ^ 64

section Digest

variable (sha256 : List UInt8 → List UInt8)

/-- A token minted at `now` is good for as long as was asked, while its record is on file as it was
minted. -/
structure LivesAsAsked (now : UInt64) (ttlSeconds : Option UInt64) : Prop where
  validates : ∀ (base : Path) (tunnelId : String) (rng : MintBytes) (files : FileTree Contents)
    (t : UInt64), now ≤ t →
      files.contents (operateTokenPath base tunnelId rng.idText) =
        .ok (.record (mintRecord sha256 tunnelId ttlSeconds now rng)) →
      (validateOperateSecret sha256 files base tunnelId rng.idText rng.secretText t = true ↔
        ∀ s ∈ ttlSeconds, t.toNat ≤ now.toNat + 1000 * s.toNat)
  notBefore : ∀ exp ∈ expiresAt now ttlSeconds, now ≤ exp
  noPanic : (expiresAtChecked now ttlSeconds).isSome = true

theorem toNat_saturatingMul (a b : UInt64) :
    (saturatingMul a b).toNat = min (a.toNat * b.toNat) (2 ^ 64 - 1) := by
  unfold saturatingMul
  rw [UInt64.toNat_ofNat']
  apply Nat.mod_eq_of_lt
  omega

theorem toNat_lifetime (s : UInt64) :
    (saturatingMul s 1000).toNat = min (1000 * s.toNat) (2 ^ 64 - 1) := by
  rw [toNat_saturatingMul, Nat.mul_comm]
  rfl

/-- A sum that does not fit is earlier than what it began with. -/
theorem add_lt_of_not_fits {now lifetime : UInt64}
    (h : ¬ now.toNat + lifetime.toNat < 2 ^ 64) : now + lifetime < now := by
  have hnow := now.toNat_lt
  have hlifetime := lifetime.toNat_lt
  rw [UInt64.lt_iff_toNat_lt, UInt64.toNat_add]
  omega

theorem toNat_add_of_fits {now lifetime : UInt64}
    (h : now.toNat + lifetime.toNat < 2 ^ 64) :
    (now + lifetime).toNat = now.toNat + lifetime.toNat := by
  rw [UInt64.toNat_add]
  exact Nat.mod_eq_of_lt h

/-- On its own record, a token is checked against the expiry alone. -/
theorem validate_minted {base : Path} {tunnelId : String} {rng : MintBytes}
    {files : FileTree Contents} {now t : UInt64} {ttlSeconds : Option UInt64}
    (hfile : files.contents (operateTokenPath base tunnelId rng.idText) =
      .ok (.record (mintRecord sha256 tunnelId ttlSeconds now rng))) :
    validateOperateSecret sha256 files base tunnelId rng.idText rng.secretText t = true ↔
      ∀ exp ∈ expiresAt now ttlSeconds, t ≤ exp := by
  unfold validateOperateSecret
  rw [hfile]
  have hplain : ¬ ((mintRecord sha256 tunnelId ttlSeconds now rng).tunnelId ≠ tunnelId ∨
      (mintRecord sha256 tunnelId ttlSeconds now rng).revoked = true) := by
    simp [mintRecord]
  have hsecret : constantTimeEq (hashSecret sha256 rng.salt.toList rng.secretText)
      (hashSecret sha256 rng.salt.toList rng.secretText) = true := constantTimeEq_iff.mpr rfl
  simp only [if_neg hplain]
  simp only [mintRecord, Base64.decode_encode, hsecret]
  cases expiresAt now ttlSeconds with
  | none => simp
  | some exp =>
      by_cases hpast : t > exp
      · have hlate : ¬ t ≤ exp := UInt64.not_le.mpr hpast
        simp [hpast, hlate]
      · have hearly : t ≤ exp := UInt64.not_lt.mp hpast
        simp [hpast, hearly]

theorem livesAsAsked_iff (now : UInt64) (ttlSeconds : Option UInt64) :
    LivesAsAsked sha256 now ttlSeconds ↔ FitsClock now ttlSeconds := by
  constructor
  · intro h s hs
    rw [← toNat_lifetime]
    by_contra hlong
    have hearlier := add_lt_of_not_fits hlong
    have hexp : now + saturatingMul s 1000 ∈ expiresAt now ttlSeconds := by
      cases hs
      rfl
    exact absurd (h.notBefore _ hexp) (UInt64.not_le.mpr hearlier)
  · intro h
    cases ttlSeconds with
    | none =>
        refine ⟨fun base tunnelId rng files t _ hfile => ?_, nofun, rfl⟩
        rw [validate_minted sha256 hfile]
        exact iff_of_true nofun nofun
    | some s =>
        have hfits : now.toNat + (saturatingMul s 1000).toNat < 2 ^ 64 := by
          rw [toNat_lifetime]
          exact h s rfl
        have hsum := toNat_add_of_fits hfits
        have hlifetime := toNat_lifetime s
        have hexp : ∀ exp ∈ expiresAt now (some s), exp = now + saturatingMul s 1000 := by
          rintro exp ⟨⟩
          rfl
        constructor
        · intro base tunnelId rng files t _ hfile
          have ht := t.toNat_lt
          have hone : (∀ exp ∈ expiresAt now (some s), t ≤ exp) ↔
              t.toNat ≤ (now + saturatingMul s 1000).toNat :=
            ⟨fun hall => hall _ rfl, fun hle exp hmem => hexp exp hmem ▸ hle⟩
          have hasked : (∀ s' ∈ some s, t.toNat ≤ now.toNat + 1000 * s'.toNat) ↔
              t.toNat ≤ now.toNat + 1000 * s.toNat :=
            ⟨fun hall => hall s rfl, fun hle s' hmem => Option.some.inj hmem ▸ hle⟩
          rw [validate_minted sha256 hfile, hone, hasked, hsum, hlifetime]
          omega
        · intro exp hmem
          rw [hexp exp hmem, UInt64.le_iff_toNat_le, hsum]
          omega
        · rw [expiresAtChecked, if_pos hfits]
          rfl

/-- A lifetime past the end of the clock: the token has expired before it is minted. -/
theorem longest_life_expired : ¬ LivesAsAsked (fun _ => []) 1000 (some 18446744073709551615) := by
  intro h
  exact absurd (h.notBefore 999 (by decide)) (by decide)

end Digest

end DatumConnect.Auth
