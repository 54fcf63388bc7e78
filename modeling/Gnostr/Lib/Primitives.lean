/-
Cryptographic primitives and the laws of theirs that make a message come back:
a stream cipher adds its key stream twice, a block cipher and an authenticated
cipher undo their own encryption.
-/
import Gnostr.Lib.Bytes

namespace Gnostr

/-- The hash functions, key derivations and ciphers of the libraries in use.  A
stream cipher is its key stream.  An operation of a library that can report an
error is an option. -/
structure Primitives where
  sha256 : Bytes → Vector UInt8 32
  hmacSha256 : (key message : Bytes) → Vector UInt8 32
  hkdfExtract : (salt material : Bytes) → Vector UInt8 32
  hkdfExpand : (key info : Bytes) → (n : ℕ) → Option (Vector UInt8 n)
  isSome_hkdfExpand : ∀ (key info : Bytes) {n : ℕ}, n ≤ 255 * 32 →
    (hkdfExpand key info n).isSome = true
  chacha20 : Vector UInt8 32 → Vector UInt8 12 → ℕ → UInt8
  xchacha20 : Vector UInt8 32 → Vector UInt8 24 → ℕ → UInt8
  aesCbcEncrypt : Vector UInt8 32 → Vector UInt8 16 → Bytes → Bytes
  aesCbcDecrypt : Vector UInt8 32 → Vector UInt8 16 → Bytes → Option Bytes
  aesCbcDecrypt_aesCbcEncrypt : ∀ (key : Vector UInt8 32)
    (iv : Vector UInt8 16) (message : Bytes),
    aesCbcDecrypt key iv (aesCbcEncrypt key iv message) = some message
  pbkdf2 : (password salt : Bytes) → (rounds n : ℕ) → Vector UInt8 n
  scrypt : (password salt : Bytes) → (logN : UInt8) → (r p n : ℕ) →
    Option (Vector UInt8 n)
  aeadEncrypt : Vector UInt8 32 → Vector UInt8 24 → (message associated : Bytes) →
    Option Bytes
  aeadDecrypt : Vector UInt8 32 → Vector UInt8 24 → (message associated : Bytes) →
    Option Bytes
  isSome_aeadEncrypt : ∀ (key : Vector UInt8 32) (nonce : Vector UInt8 24)
    {message : Bytes} (associated : Bytes), message.length ≤ 2 ^ 38 - 64 →
    (aeadEncrypt key nonce message associated).isSome = true
  aeadDecrypt_of_aeadEncrypt : ∀ {key : Vector UInt8 32}
    {nonce : Vector UInt8 24} {message associated ciphertext : Bytes},
    aeadEncrypt key nonce message associated = some ciphertext →
    aeadDecrypt key nonce ciphertext associated = some message
  length_of_aeadEncrypt : ∀ {key : Vector UInt8 32}
    {nonce : Vector UInt8 24} {message associated ciphertext : Bytes},
    aeadEncrypt key nonce message associated = some ciphertext →
    ciphertext.length = message.length + 16
  nfkc : String → String

/-- `apply_keystream`: every byte is added to the byte of the key stream at its
place. -/
def applyKeystream (keystream : ℕ → UInt8) (buffer : Bytes) : Bytes :=
  buffer.mapIdx fun i byte => byte ^^^ keystream i

@[simp] theorem length_applyKeystream (keystream : ℕ → UInt8) (buffer : Bytes) :
    (applyKeystream keystream buffer).length = buffer.length := by
  rw [applyKeystream, List.length_mapIdx]

@[simp] theorem applyKeystream_applyKeystream (keystream : ℕ → UInt8)
    (buffer : Bytes) :
    applyKeystream keystream (applyKeystream keystream buffer) = buffer := by
  unfold applyKeystream
  rw [List.mapIdx_mapIdx]
  apply List.ext_getElem
  · rw [List.length_mapIdx]
  · intro i hleft _
    rw [List.getElem_mapIdx, Function.comp_apply, UInt8.xor_assoc,
      UInt8.xor_self, UInt8.xor_zero]

/-- Primitives that hide nothing, for runs on which no primitive decides. -/
def Primitives.transparent : Primitives where
  sha256 _ := Vector.replicate 32 0
  hmacSha256 _ _ := Vector.replicate 32 0
  hkdfExtract _ _ := Vector.replicate 32 0
  hkdfExpand _ _ n := some (Vector.replicate n 0)
  isSome_hkdfExpand _ _ _ _ := rfl
  chacha20 _ _ _ := 0
  xchacha20 _ _ _ := 0
  aesCbcEncrypt _ _ message := message
  aesCbcDecrypt _ _ ciphertext := some ciphertext
  aesCbcDecrypt_aesCbcEncrypt _ _ _ := rfl
  pbkdf2 _ _ _ n := Vector.replicate n 0
  scrypt _ _ _ _ _ n := some (Vector.replicate n 0)
  aeadEncrypt _ _ message _ := some (message ++ List.replicate 16 0)
  aeadDecrypt _ _ ciphertext _ := some (ciphertext.take (ciphertext.length - 16))
  isSome_aeadEncrypt _ _ _ _ _ := rfl
  aeadDecrypt_of_aeadEncrypt := by
    intro _ _ message _ _ hencrypt
    cases hencrypt
    simp
  length_of_aeadEncrypt := by
    intro _ _ message _ _ hencrypt
    cases hencrypt
    simp
  nfkc text := text

/-- The same with a hash that tells short messages apart: it is their first 32 bytes. -/
def Primitives.beginnings : Primitives :=
  { Primitives.transparent with
    sha256 := fun message => Vector.ofFn fun i => message.getD i 0 }

end Gnostr
