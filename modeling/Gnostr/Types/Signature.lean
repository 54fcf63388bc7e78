/-
Schnorr signatures of `types/src/nostr/signature.rs`, and what signs and verifies
with them in `private_key/mod.rs` and `public_key.rs`.
-/
import Gnostr.Lib.Primitives
import Gnostr.Types.Keys

namespace Gnostr

namespace Types

/-- A Schnorr signature, any 64 bytes. -/
structure Signature where
  bytes : Vector UInt8 64
deriving Repr, DecidableEq

namespace Signature

def asHexString (hex : Hex) (signature : Signature) : String :=
  hex.encode signature.bytes.toList

def tryFromHexString (hex : Hex) (text : String) : Outcome Error Signature := do
  let vec ← Outcome.okOr .hexDecode (hex.decode text)
  let array ← Outcome.okOr .keyOrSignature (tryIntoArray 64 vec)
  return ⟨array⟩

@[simp] theorem tryFromHexString_asHexString (hex : Hex) (signature : Signature) :
    tryFromHexString hex (signature.asHexString hex) = .ok signature := by
  rw [tryFromHexString, asHexString, hex.decode_encode, Outcome.okOr_some,
    Outcome.ok_bind, tryIntoArray_toList]
  rfl

theorem returns_tryFromHexString (hex : Hex) (text : String) :
    (tryFromHexString hex text).Returns := by
  refine Outcome.returns_bind_iff.mpr ⟨Outcome.returns_okOr _ _, fun vec _ => ?_⟩
  refine Outcome.returns_bind_iff.mpr ⟨Outcome.returns_okOr _ _, fun _ _ => ?_⟩
  exact Outcome.returns_ok _

end Signature

/-- The signatures of the library over a curve.  Signing takes random bytes. -/
structure Schnorr (curve : Secp256k1) where
  sign : SecretKey curve → (message : Vector UInt8 32) →
    (random : Vector UInt8 32) → Signature
  verify : Signature → (message : Vector UInt8 32) →
    (key : Vector UInt8 32) → Bool
  verify_sign : ∀ (secret : SecretKey curve) (message random : Vector UInt8 32),
    verify (sign secret message random) message
      (curve.xOnlyPublicKey secret.bytes) = true

section Verify

variable (prims : Primitives) {curve : Secp256k1} (schnorr : Schnorr curve)

/-- Verify a signed message, which is hashed first. -/
def PublicKey.verify (key : PublicKey) (message : Bytes) (signature : Signature) :
    Outcome Error Unit := do
  let pk ← Outcome.okOr .keyOrSignature (xOnlyFromSlice curve key.bytes.toList)
  if schnorr.verify signature (prims.sha256 message) pk then return ()
  else .err .keyOrSignature

/-- Sign a 32-byte hash. -/
def PrivateKey.signId (key : PrivateKey curve) (id : Id)
    (random : Vector UInt8 32) : Signature :=
  schnorr.sign key.secret id.bytes random

theorem PublicKey.verify_eq_ok_iff {key : PublicKey} {message : Bytes}
    {signature : Signature} :
    key.verify prims schnorr message signature = .ok () ↔
      key.Verified curve ∧
        schnorr.verify signature (prims.sha256 message) key.bytes = true := by
  unfold PublicKey.verify
  rw [xOnlyFromSlice, tryIntoArray_toList]
  by_cases hverified : key.Verified curve
  · rw [Option.filter_some_pos hverified, Outcome.okOr_some, Outcome.ok_bind]
    split
    · rename_i hvalid
      exact iff_of_true rfl ⟨hverified, hvalid⟩
    · rename_i hinvalid
      exact iff_of_false (by simp) fun hvalid => hinvalid hvalid.2
  · rw [Option.filter_some_neg (Bool.eq_false_iff.mpr hverified)]
    exact iff_of_false (by simp) fun hvalid => hverified hvalid.1

end Verify

/-- Signatures that anything verifies, for runs on which no signature decides. -/
def Schnorr.permissive (curve : Secp256k1) : Schnorr curve where
  sign _ _ _ := ⟨Vector.replicate 64 0⟩
  verify _ _ _ := true
  verify_sign _ _ _ := rfl

end Types

end Gnostr
