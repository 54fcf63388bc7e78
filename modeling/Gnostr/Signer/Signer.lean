/-
The trait of `types/src/nostr/signer.rs` for a signer with a local key: signing,
encrypting, decrypting, and the signing of an event.
-/
import Gnostr.Crypto.ContentEncryption
import Gnostr.Signer.KeySigner
import Gnostr.Types.EventV3

namespace Gnostr

namespace Types

/-- What the methods use of a signer: its public key, and its private key unless
it is locked. -/
structure Signer (curve : Secp256k1) where
  publicKey : PublicKey
  privateKey : Option (PrivateKey curve)
  publicKey_eq : ∀ key ∈ privateKey, key.publicKey = publicKey

section Signers

variable {curve : Secp256k1}

/-- A private key is a signer that is never locked. -/
def PrivateKey.toSigner (key : PrivateKey curve) : Signer curve where
  publicKey := key.publicKey
  privateKey := some key
  publicKey_eq := by
    rintro _ ⟨⟩
    rfl

/-- A signer with a key of its own, after any run of calls. -/
def KeySigner.toSigner {prims : Primitives} {base64 : Base64} {bech32 : Bech32}
    {publicKey : PublicKey} {history : KeySigner.History curve}
    (hsound : history.Sound prims base64 bech32 publicKey) : Signer curve where
  publicKey := history.signer.publicKey
  privateKey := history.signer.privateKey
  publicKey_eq := by
    obtain ⟨hpublic, ⟨stored, _, hstored, hmemory⟩, _⟩ := hsound
    intro key hkey
    rw [hpublic, ← hstored, PrivateKey.publicKey, PrivateKey.publicKey,
      hmemory key hkey]

end Signers

namespace Signer

section Methods

variable (prims : Primitives) (base64 : Base64) (hex : Hex) {curve : Secp256k1}
  (schnorr : Schnorr curve)

def signId (signer : Signer curve) (id : Id) (random : Vector UInt8 32) :
    Outcome Error Signature :=
  match signer.privateKey with
  | some pk => .ok (pk.signId schnorr id random)
  | none => .err .signerIsLocked

def encrypt (signer : Signer curve) (other : PublicKey) (plaintext : String)
    (algo : ContentEncryptionAlgorithm) (random : EncryptionRandom) :
    Outcome Error String :=
  match signer.privateKey with
  | some pk => pk.encrypt prims base64 other plaintext algo random
  | none => .err .signerIsLocked

def decrypt (signer : Signer curve) (other : PublicKey) (ciphertext : String) :
    Outcome Error String :=
  match signer.privateKey with
  | some pk => pk.decrypt prims base64 other ciphertext
  | none => .err .signerIsLocked

/-- Sign an event of one's own. -/
def signEvent (signer : Signer curve) (input : PreEventV3)
    (random : Vector UInt8 32) : Outcome Error EventV3 :=
  if input.pubkey ≠ signer.publicKey then .err .invalidPrivateKey
  else do
    let id := input.hash hex prims
    let signature ← signer.signId schnorr id random
    return {
      id := id
      pubkey := input.pubkey
      createdAt := input.createdAt
      kind := input.kind
      sig := signature
      content := input.content
      tags := input.tags
    }

end Methods

section Spec

variable {prims : Primitives} {base64 : Base64} {hex : Hex} {curve : Secp256k1}
  {schnorr : Schnorr curve}

theorem exists_key_of_encrypt {signer : Signer curve} {other : PublicKey}
    {plaintext ciphertext : String} {algo : ContentEncryptionAlgorithm}
    {random : EncryptionRandom}
    (hencrypt : signer.encrypt prims base64 other plaintext algo random =
      .ok ciphertext) :
    ∃ key : PrivateKey curve, key.publicKey = signer.publicKey ∧
      key.encrypt prims base64 other plaintext algo random = .ok ciphertext := by
  unfold Signer.encrypt at hencrypt
  split at hencrypt
  · rename_i key hkey
    exact ⟨key, signer.publicKey_eq key hkey, hencrypt⟩
  · cases hencrypt

/-- A signed event is the pre-event with an id and a signature. -/
theorem exists_of_signEvent {signer : Signer curve} {input : PreEventV3}
    {random : Vector UInt8 32} {event : EventV3}
    (hsign : signer.signEvent prims hex schnorr input random = .ok event) :
    event.preEvent = input ∧ event.id = input.hash hex prims := by
  unfold signEvent at hsign
  split at hsign
  · cases hsign
  · obtain ⟨signature, _, hevent⟩ := Outcome.bind_eq_ok_iff.mp hsign
    cases hevent
    exact ⟨rfl, rfl⟩

/-- What is signed is valid at any time. -/
theorem verify_of_signEvent {signer : Signer curve} {input : PreEventV3}
    {random : Vector UInt8 32} {event : EventV3}
    (hsign : signer.signEvent prims hex schnorr input random = .ok event) :
    event.verify hex prims schnorr none = .ok () := by
  obtain ⟨hfields, hid⟩ := exists_of_signEvent hsign
  unfold signEvent at hsign
  split at hsign
  · cases hsign
  · rename_i hown
    obtain ⟨signature, hsignature, hevent⟩ := Outcome.bind_eq_ok_iff.mp hsign
    cases hevent
    unfold signId at hsignature
    split at hsignature
    · rename_i key hkey
      have hpublic : key.publicKey = input.pubkey :=
        (signer.publicKey_eq key hkey).trans (not_not.mp hown).symm
      cases hsignature
      refine EventV3.verify_none_eq_ok_iff.mpr ⟨?_, ?_, rfl⟩
      · exact hpublic ▸ key.publicKey_verified
      · exact hpublic ▸ schnorr.verify_sign _ _ _
    · cases hsignature

end Spec

end Signer

end Types

end Gnostr
