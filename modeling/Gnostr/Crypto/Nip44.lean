/-
NIP-44 version 2 of `types/src/nostr/nip44/mod.rs`: the padding of a message,
its encryption under a conversation key, and the gates of the decryption.
-/
import Gnostr.Lib.Base64
import Gnostr.Lib.Primitives
import Gnostr.Types.Keys

namespace Gnostr

namespace Types

namespace Nip44

structure MessageKeys where
  bytes : Vector UInt8 76

namespace MessageKeys

def encryption (keys : MessageKeys) : Vector UInt8 32 :=
  keys.bytes.extract 0 32

def nonce (keys : MessageKeys) : Vector UInt8 12 :=
  keys.bytes.extract 32 44

def auth (keys : MessageKeys) : Vector UInt8 32 :=
  keys.bytes.extract 44 76

end MessageKeys

/-- The x coordinate of the shared point. -/
def getSharedPoint (curve : Secp256k1) (privateKeyA : SecretKey curve)
    (xOnlyPublicKeyB : Vector UInt8 32) : Vector UInt8 32 :=
  (curve.sharedSecretPoint xOnlyPublicKeyB privateKeyA.bytes).extract 0 32

def getConversationKey (prims : Primitives) (curve : Secp256k1)
    (privateKeyA : SecretKey curve) (xOnlyPublicKeyB : Vector UInt8 32) :
    Vector UInt8 32 :=
  prims.hkdfExtract (utf8 "nip44-v2")
    (getSharedPoint curve privateKeyA xOnlyPublicKeyB).toList

/-- A key for HKDF-Expand has at least the length of a hash. -/
def hkdfFromPrk (prk : Bytes) : Option Bytes :=
  if prk.length < 32 then none else some prk

def getMessageKeys (prims : Primitives)
    (conversationKey nonce : Vector UInt8 32) :
    Outcome Nip44Error MessageKeys :=
  match hkdfFromPrk conversationKey.toList with
  | none => .err (.hkdfLength conversationKey.toList.length)
  | some hk =>
      match prims.hkdfExpand hk nonce.toList 76 with
      | none => .err (.hkdfLength 76)
      | some okm => .ok ⟨okm⟩

/-- The length a message is padded to: a multiple of an eighth of the next
power of two, or of 32. -/
def calcPadding (len : ℕ) : ℕ :=
  if len < 32 then 32
  else
    let nextpower := 1 <<< ((len - 1).log2 + 1)
    let chunk := if nextpower ≤ 256 then 32 else nextpower / 8
    if len ≤ 32 then 32 else chunk * ((len - 1) / chunk + 1)

def pad (unpadded : String) : Outcome Nip44Error Bytes :=
  let len := (utf8 unpadded).length
  if len < 1 then .err .messageIsEmpty
  else if len > 0xffff then .err .messageIsTooLong
  else do
    let zeros ← Outcome.checkedSub (calcPadding len) len
    return beBytes 2 len ++ utf8 unpadded ++ List.replicate zeros 0

/-- Encryption.  What the random generator fills the nonce with is an argument,
used unless another nonce is forced. -/
def encryptInner (prims : Primitives) (base64 : Base64)
    (conversationKey : Vector UInt8 32) (plaintext : String)
    (overrideRandomNonce : Option (Vector UInt8 32))
    (random : Vector UInt8 32) : Outcome Nip44Error String := do
  let nonce := overrideRandomNonce.getD random
  let keys ← getMessageKeys prims conversationKey nonce
  let padded ← pad plaintext
  let buffer := applyKeystream (prims.chacha20 keys.encryption keys.nonce) padded
  let mac := prims.hmacSha256 keys.auth.toList (nonce.toList ++ buffer)
  return base64.encode ([2] ++ nonce.toList ++ buffer ++ mac.toList)

def encrypt (prims : Primitives) (base64 : Base64)
    (conversationKey : Vector UInt8 32) (plaintext : String)
    (random : Vector UInt8 32) : Outcome Nip44Error String :=
  encryptInner prims base64 conversationKey plaintext none random

/-- The padding checks on a decrypted buffer. -/
def unpad (buffer : Bytes) : Outcome Nip44Error String := do
  let lengthBytes ← Outcome.slice buffer 0 2
  let lengthArray ← Outcome.unwrap (tryIntoArray 2 lengthBytes)
  let unpaddedLen := ofBeBytes lengthArray.toList
  if buffer.length < 2 + unpaddedLen then .err .invalidPadding
  else do
    let unpadded ← Outcome.slice buffer 2 (2 + unpaddedLen)
    if unpadded.isEmpty then .err .messageIsEmpty
    else if unpadded.length ≠ unpaddedLen then .err .invalidPadding
    else if buffer.length ≠ 2 + calcPadding unpaddedLen then .err .invalidPadding
    else Outcome.okOr .utf8Decode (fromUtf8 unpadded)

/-- What follows the decoding of the base64 text. -/
def decryptBinary (prims : Primitives) (conversationKey : Vector UInt8 32)
    (binaryCiphertext : Bytes) : Outcome Nip44Error String :=
  if binaryCiphertext.length < 65 then .err .invalidLength
  else do
    let version ← Outcome.index binaryCiphertext 0
    if version ≠ 2 then .err .unknownVersion
    else
      let dlen := binaryCiphertext.length
      if dlen < 99 ∨ dlen > 65603 then .err .invalidLength
      else do
        let nonceBytes ← Outcome.slice binaryCiphertext 1 33
        let last ← Outcome.checkedSub dlen 32
        let buffer ← Outcome.slice binaryCiphertext 33 last
        let mac ← Outcome.slice binaryCiphertext last dlen
        let nonce ← Outcome.unwrap (tryIntoArray 32 nonceBytes)
        let keys ← getMessageKeys prims conversationKey nonce
        let calculatedMac :=
          prims.hmacSha256 keys.auth.toList (nonceBytes ++ buffer)
        if mac ≠ calculatedMac.toList then .err .invalidMac
        else unpad (applyKeystream (prims.chacha20 keys.encryption keys.nonce)
          buffer)

def decrypt (prims : Primitives) (base64 : Base64)
    (conversationKey : Vector UInt8 32) (base64Ciphertext : String) :
    Outcome Nip44Error String :=
  let payloadLen := (utf8 base64Ciphertext).length
  if payloadLen < 132 ∨ payloadLen > 87472 then .err .invalidLength
  else do
    let first ← Outcome.index (utf8 base64Ciphertext) 0
    if first = 35 then .err .unsupportedFutureVersion
    else do
      let binaryCiphertext ←
        Outcome.okOr .base64Decode (base64.decode (utf8 base64Ciphertext))
      decryptBinary prims conversationKey binaryCiphertext

/-- Rounding up to a multiple of a number that is not zero. -/
theorem le_roundUp {chunk len : ℕ} (hchunk : 0 < chunk) :
    len ≤ chunk * ((len - 1) / chunk + 1) := by
  have hlt := Nat.lt_mul_div_succ (len - 1) hchunk
  omega

/-- Rounding up stays below every multiple that the number is below. -/
theorem roundUp_le {chunk len bound : ℕ} (hdvd : chunk ∣ bound)
    (hlt : len - 1 < bound) : chunk * ((len - 1) / chunk + 1) ≤ bound := by
  obtain ⟨count, rfl⟩ := hdvd
  exact Nat.mul_le_mul_left _ (Nat.div_lt_of_lt_mul hlt)

/-- The chunk of a message of more than 32 bytes divides the power of two. -/
theorem chunk_dvd {exponent : ℕ} (hexponent : 5 ≤ exponent) :
    (if 2 ^ (exponent + 1) ≤ 256 then 32 else 2 ^ (exponent + 1) / 8) ∣
      2 ^ (exponent + 1) := by
  split
  · exact Nat.pow_dvd_pow 2 (by omega : 5 ≤ exponent + 1)
  · exact Nat.div_dvd_of_dvd (Nat.pow_dvd_pow 2 (by omega : 3 ≤ exponent + 1))

theorem calcPadding_of_le {len : ℕ} (hle : len ≤ 32) : calcPadding len = 32 := by
  unfold calcPadding
  by_cases hlt : len < 32
  · exact if_pos hlt
  · rw [if_neg hlt]
    exact if_pos hle

/-- For a longer message the padded length lies between the length and the
power of two. -/
theorem calcPadding_of_lt {len : ℕ} (hlt : 32 < len) :
    len ≤ calcPadding len ∧
      calcPadding len ≤ 2 ^ ((len - 1).log2 + 1) := by
  have hlog : 5 ≤ (len - 1).log2 :=
    (Nat.le_log2 (by omega)).mpr (by omega : 2 ^ 5 ≤ len - 1)
  have hpower : len - 1 < 2 ^ ((len - 1).log2 + 1) := Nat.lt_log2_self
  have hdvd := chunk_dvd hlog
  have hpos := Nat.pos_of_dvd_of_pos hdvd (Nat.two_pow_pos _)
  unfold calcPadding
  rw [if_neg (by omega), Nat.one_shiftLeft]
  dsimp only
  rw [if_neg (by omega : ¬ len ≤ 32)]
  exact ⟨le_roundUp hpos, roundUp_le hdvd hpower⟩

theorem le_calcPadding (len : ℕ) : len ≤ calcPadding len := by
  by_cases hle : len ≤ 32
  · rw [calcPadding_of_le hle]
    exact hle
  · exact (calcPadding_of_lt (Nat.not_le.mp hle)).1

theorem calcPadding_bounds {len : ℕ} (hle : len ≤ 65535) :
    32 ≤ calcPadding len ∧ calcPadding len ≤ 65536 := by
  by_cases hshort : len ≤ 32
  · rw [calcPadding_of_le hshort]
    decide
  · have hbounds := calcPadding_of_lt (Nat.not_le.mp hshort)
    have hlog : (len - 1).log2 < 16 :=
      (Nat.log2_lt (by omega)).mpr (by omega : len - 1 < 2 ^ 16)
    have hpower : 2 ^ ((len - 1).log2 + 1) ≤ 2 ^ 16 :=
      Nat.pow_le_pow_right (by decide) hlog
    omega

theorem exists_getMessageKeys (prims : Primitives)
    (conversationKey nonce : Vector UInt8 32) :
    ∃ keys, getMessageKeys prims conversationKey nonce = .ok keys := by
  have hprk : hkdfFromPrk conversationKey.toList =
      some conversationKey.toList := by
    rw [hkdfFromPrk, Vector.length_toList, if_neg (Nat.lt_irrefl 32)]
  obtain ⟨okm, hokm⟩ := Option.isSome_iff_exists.mp
    (prims.isSome_hkdfExpand conversationKey.toList nonce.toList
      (by decide : 76 ≤ 255 * 32))
  refine ⟨⟨okm⟩, ?_⟩
  rw [getMessageKeys, hprk]
  dsimp only
  rw [hokm]

/-- The buffer of an admissible message: its length, itself, zeros. -/
def padded (unpadded : String) : Bytes :=
  beBytes 2 (utf8 unpadded).length ++ utf8 unpadded ++
    List.replicate (calcPadding (utf8 unpadded).length - (utf8 unpadded).length) 0

theorem pad_eq (unpadded : String) :
    pad unpadded =
      if (utf8 unpadded).length < 1 then .err .messageIsEmpty
      else if (utf8 unpadded).length > 0xffff then .err .messageIsTooLong
      else .ok (padded unpadded) := by
  unfold pad
  dsimp only
  rw [Outcome.checkedSub_of_le (le_calcPadding _)]
  rfl

theorem length_padded (unpadded : String) :
    (padded unpadded).length = 2 + calcPadding (utf8 unpadded).length := by
  have hle := le_calcPadding (utf8 unpadded).length
  simp only [padded, List.length_append, length_beBytes, List.length_replicate]
  omega

/-- The padding checks take the padding off again. -/
theorem unpad_padded {unpadded : String} (hpos : 1 ≤ (utf8 unpadded).length)
    (hle : (utf8 unpadded).length ≤ 65535) :
    unpad (padded unpadded) = .ok unpadded := by
  have hlength := length_padded unpadded
  have hpadding := le_calcPadding (utf8 unpadded).length
  have hlengthBytes : (Outcome.slice (padded unpadded) 0 2 :
      Outcome Nip44Error Bytes) = .ok (beBytes 2 (utf8 unpadded).length) := by
    rw [Outcome.slice_of_le (by decide) (by omega), padded, List.append_assoc,
      List.take_left' (length_beBytes 2 _), List.drop_zero]
  have hmessage : (Outcome.slice (padded unpadded) 2
      (2 + (utf8 unpadded).length) : Outcome Nip44Error Bytes) =
        .ok (utf8 unpadded) := by
    have happend := Outcome.slice_append (ε := Nip44Error)
      (beBytes 2 (utf8 unpadded).length) (utf8 unpadded)
      (List.replicate
        (calcPadding (utf8 unpadded).length - (utf8 unpadded).length) 0)
    rwa [length_beBytes] at happend
  obtain ⟨lengthArray, harray, hbytes⟩ :=
    exists_tryIntoArray (length_beBytes 2 (utf8 unpadded).length)
  have hnumber : ofBeBytes lengthArray.toList = (utf8 unpadded).length := by
    rw [hbytes]
    exact ofBeBytes_beBytes (by omega : _ < 256 ^ 2)
  have hnotEmpty : (utf8 unpadded).isEmpty = false :=
    List.isEmpty_eq_false_iff.mpr (List.ne_nil_of_length_pos hpos)
  unfold unpad
  rw [hlengthBytes, Outcome.ok_bind, harray, Outcome.unwrap_some, Outcome.ok_bind]
  dsimp only
  rw [hnumber, if_neg (by omega), hmessage, Outcome.ok_bind, hnotEmpty,
    if_neg Bool.false_ne_true, if_neg (not_not_intro rfl),
    if_neg (not_not_intro hlength), fromUtf8_utf8, Outcome.okOr_some]

/-- What is encoded: the version, the nonce, the encrypted buffer and its
authentication code. -/
def binary (prims : Primitives) (keys : MessageKeys) (nonce : Vector UInt8 32)
    (buffer : Bytes) : Bytes :=
  [2] ++ nonce.toList ++
    applyKeystream (prims.chacha20 keys.encryption keys.nonce) buffer ++
    (prims.hmacSha256 keys.auth.toList (nonce.toList ++
      applyKeystream (prims.chacha20 keys.encryption keys.nonce) buffer)).toList

theorem length_binary (prims : Primitives) (keys : MessageKeys)
    (nonce : Vector UInt8 32) (buffer : Bytes) :
    (binary prims keys nonce buffer).length = 65 + buffer.length := by
  simp only [binary, List.length_append, List.length_singleton,
    Vector.length_toList, length_applyKeystream]
  omega

/-- A payload of an admissible length passes all gates up to the padding. -/
theorem decryptBinary_binary {prims : Primitives}
    {conversationKey nonce : Vector UInt8 32} {keys : MessageKeys}
    (hkeys : getMessageKeys prims conversationKey nonce = .ok keys)
    {buffer : Bytes} (hlower : 34 ≤ buffer.length)
    (hupper : buffer.length ≤ 65538) :
    decryptBinary prims conversationKey (binary prims keys nonce buffer) =
      unpad buffer := by
  have hlength := length_binary prims keys nonce buffer
  generalize hcipher :
    applyKeystream (prims.chacha20 keys.encryption keys.nonce) buffer = cipher
  generalize hmac :
    prims.hmacSha256 keys.auth.toList (nonce.toList ++ cipher) = mac
  have hbinary : binary prims keys nonce buffer =
      [2] ++ nonce.toList ++ (cipher ++ mac.toList) := by
    rw [binary, hcipher, hmac, List.append_assoc]
  have hcipherLength : cipher.length = buffer.length := by
    rw [← hcipher, length_applyKeystream]
  have hversion : (Outcome.index (binary prims keys nonce buffer) 0 :
      Outcome Nip44Error UInt8) = .ok 2 := by
    rw [hbinary]
    rfl
  have hnonce : (Outcome.slice (binary prims keys nonce buffer) 1 33 :
      Outcome Nip44Error Bytes) = .ok nonce.toList := by
    have happend := Outcome.slice_append (ε := Nip44Error) [2] nonce.toList
      (cipher ++ mac.toList)
    rwa [Vector.length_toList, ← hbinary] at happend
  have hlast : (Outcome.checkedSub (binary prims keys nonce buffer).length 32 :
      Outcome Nip44Error ℕ) = .ok (33 + buffer.length) := by
    rw [Outcome.checkedSub_of_le (by omega), hlength]
    congr 1
    omega
  have hbuffer : (Outcome.slice (binary prims keys nonce buffer) 33
      (33 + buffer.length) : Outcome Nip44Error Bytes) = .ok cipher := by
    have happend := Outcome.slice_append (ε := Nip44Error)
      ([2] ++ nonce.toList) cipher mac.toList
    rwa [List.length_append, Vector.length_toList, List.append_assoc, ← hbinary,
      hcipherLength] at happend
  have htag : (Outcome.slice (binary prims keys nonce buffer)
      (33 + buffer.length) (binary prims keys nonce buffer).length :
      Outcome Nip44Error Bytes) = .ok mac.toList := by
    have happend := Outcome.slice_append (ε := Nip44Error)
      ([2] ++ nonce.toList ++ cipher) mac.toList []
    have hstart : ([2] ++ nonce.toList ++ cipher).length =
        33 + buffer.length := by
      rw [List.length_append, List.length_append, Vector.length_toList,
        hcipherLength]
      rfl
    have hstop : 33 + buffer.length + mac.toList.length =
        (binary prims keys nonce buffer).length := by
      rw [hlength, Vector.length_toList]
      omega
    rwa [List.append_nil, List.append_assoc, ← hbinary, hstart, hstop] at happend
  unfold decryptBinary
  rw [if_neg (by omega), hversion, Outcome.ok_bind, if_neg (not_not_intro rfl)]
  dsimp only
  rw [if_neg (by omega), hnonce, Outcome.ok_bind, hlast, Outcome.ok_bind,
    hbuffer, Outcome.ok_bind, htag, Outcome.ok_bind, tryIntoArray_toList,
    Outcome.unwrap_some, Outcome.ok_bind, hkeys, Outcome.ok_bind, hmac,
    if_neg (not_not_intro rfl), ← hcipher, applyKeystream_applyKeystream]

/-- Encryption is the padding followed by the encoding of the binary form. -/
theorem exists_encryptInner_eq (prims : Primitives) (base64 : Base64)
    (conversationKey : Vector UInt8 32) (plaintext : String)
    (overrideRandomNonce : Option (Vector UInt8 32))
    (random : Vector UInt8 32) :
    ∃ keys, getMessageKeys prims conversationKey
        (overrideRandomNonce.getD random) = .ok keys ∧
      encryptInner prims base64 conversationKey plaintext overrideRandomNonce
          random = (do
        let buffer ← pad plaintext
        return base64.encode
          (binary prims keys (overrideRandomNonce.getD random) buffer)) := by
  obtain ⟨keys, hkeys⟩ := exists_getMessageKeys prims conversationKey
    (overrideRandomNonce.getD random)
  refine ⟨keys, hkeys, ?_⟩
  unfold encryptInner
  dsimp only
  rw [hkeys, Outcome.ok_bind]
  rfl

/-- The payload of an admissible message begins with the version and passes
every gate. -/
theorem exists_encryptInner_of_admissible (prims : Primitives) (base64 : Base64)
    (conversationKey : Vector UInt8 32) {plaintext : String}
    (hpos : 1 ≤ (utf8 plaintext).length)
    (hle : (utf8 plaintext).length ≤ 65535)
    (overrideRandomNonce : Option (Vector UInt8 32))
    (random : Vector UInt8 32) :
    ∃ rest,
      encryptInner prims base64 conversationKey plaintext overrideRandomNonce
        random = .ok (base64.encode (2 :: rest)) ∧
      decrypt prims base64 conversationKey (base64.encode (2 :: rest)) =
        .ok plaintext := by
  obtain ⟨keys, hkeys, hinner⟩ := exists_encryptInner_eq prims base64
    conversationKey plaintext overrideRandomNonce random
  have hbounds := calcPadding_bounds hle
  have hpadded := length_padded plaintext
  have hpad : pad plaintext = .ok (padded plaintext) := by
    rw [pad_eq, if_neg (by omega), if_neg (by omega)]
  obtain ⟨rest, hrest⟩ : ∃ rest, binary prims keys
      (overrideRandomNonce.getD random) (padded plaintext) = 2 :: rest :=
    ⟨_, rfl⟩
  refine ⟨rest, ?_, ?_⟩
  · rw [hinner, hpad, Outcome.ok_bind, hrest]
    rfl
  · have hlength : (2 :: rest).length =
        67 + calcPadding (utf8 plaintext).length := by
      rw [← hrest, length_binary, hpadded]
      omega
    have htext := base64.length_encode (2 :: rest)
    have hlt : 0 < (utf8 (base64.encode (2 :: rest))).length := by omega
    have hnotHash : (utf8 (base64.encode (2 :: rest)))[0] ≠ 35 :=
      base64.ne_of_mem_encode rfl (List.getElem_mem hlt)
    unfold decrypt
    dsimp only
    rw [if_neg (by omega), Outcome.index_of_lt hlt, Outcome.ok_bind,
      if_neg hnotHash, base64.decode_encode, Outcome.okOr_some, Outcome.ok_bind,
      ← hrest, decryptBinary_binary hkeys (by omega) (by omega),
      unpad_padded hpos hle]

theorem encryptInner_of_inadmissible (prims : Primitives) (base64 : Base64)
    (conversationKey : Vector UInt8 32) {plaintext : String}
    (hnot : ¬ (1 ≤ (utf8 plaintext).length ∧ (utf8 plaintext).length ≤ 65535))
    (overrideRandomNonce : Option (Vector UInt8 32))
    (random : Vector UInt8 32) :
    encryptInner prims base64 conversationKey plaintext overrideRandomNonce
        random =
      .err (if (utf8 plaintext).length = 0 then .messageIsEmpty
        else .messageIsTooLong) := by
  obtain ⟨keys, _, hinner⟩ := exists_encryptInner_eq prims base64
    conversationKey plaintext overrideRandomNonce random
  rw [hinner, pad_eq]
  by_cases hempty : (utf8 plaintext).length = 0
  · rw [if_pos (by omega), if_pos hempty, Outcome.err_bind]
  · rw [if_neg (by omega), if_pos (by omega), if_neg hempty, Outcome.err_bind]

/-- A message of 1 to 65535 bytes comes back, and no other is encrypted. -/
theorem decrypt_encryptInner (prims : Primitives) (base64 : Base64)
    (conversationKey : Vector UInt8 32) (plaintext : String)
    (overrideRandomNonce : Option (Vector UInt8 32))
    (random : Vector UInt8 32) :
    if 1 ≤ (utf8 plaintext).length ∧ (utf8 plaintext).length ≤ 65535 then
      ∃ payload,
        encryptInner prims base64 conversationKey plaintext overrideRandomNonce
          random = .ok payload ∧
        decrypt prims base64 conversationKey payload = .ok plaintext
    else
      encryptInner prims base64 conversationKey plaintext overrideRandomNonce
          random =
        .err (if (utf8 plaintext).length = 0 then .messageIsEmpty
          else .messageIsTooLong) := by
  split
  · rename_i hadmissible
    obtain ⟨rest, hencrypt, hdecrypt⟩ := exists_encryptInner_of_admissible prims
      base64 conversationKey hadmissible.1 hadmissible.2 overrideRandomNonce random
    exact ⟨_, hencrypt, hdecrypt⟩
  · rename_i hnot
    exact encryptInner_of_inadmissible prims base64 conversationKey hnot
      overrideRandomNonce random

/-- The length prefix can be read and bounds the slice after it. -/
theorem returns_unpad {buffer : Bytes} (hlength : 2 ≤ buffer.length) :
    (unpad buffer).Returns := by
  have hlengthBytes := Outcome.slice_of_le (ε := Nip44Error) (Nat.zero_le 2) hlength
  have hlengthBytesLength : ((buffer.take 2).drop 0).length = 2 := by
    rw [List.drop_zero, List.length_take_of_le hlength]
  obtain ⟨lengthArray, harray, _⟩ := exists_tryIntoArray hlengthBytesLength
  unfold unpad
  rw [hlengthBytes, Outcome.ok_bind, harray, Outcome.unwrap_some, Outcome.ok_bind]
  dsimp only
  split
  · exact Outcome.returns_err _
  · rename_i hfits
    rw [Outcome.slice_of_le (Nat.le_add_right _ _) (Nat.not_lt.mp hfits),
      Outcome.ok_bind]
    split
    · exact Outcome.returns_err _
    · split
      · exact Outcome.returns_err _
      · split
        · exact Outcome.returns_err _
        · exact Outcome.returns_okOr _ _

/-- The byte-length gate is what every slice and index needs. -/
theorem returns_decryptBinary (prims : Primitives)
    (conversationKey : Vector UInt8 32) (binaryCiphertext : Bytes) :
    (decryptBinary prims conversationKey binaryCiphertext).Returns := by
  unfold decryptBinary
  split
  · exact Outcome.returns_err _
  · rename_i hshort
    rw [Outcome.index_of_lt (by omega : 0 < binaryCiphertext.length),
      Outcome.ok_bind]
    split
    · exact Outcome.returns_err _
    · dsimp only
      split
      · exact Outcome.returns_err _
      · rename_i hgate
        have hnonceLength :
            ((binaryCiphertext.take 33).drop 1).length = 32 := by
          rw [List.length_drop, List.length_take_of_le (by omega)]
        obtain ⟨nonce, hnonce, _⟩ := exists_tryIntoArray hnonceLength
        rw [Outcome.slice_of_le (by omega) (by omega), Outcome.ok_bind,
          Outcome.checkedSub_of_le (by omega), Outcome.ok_bind,
          Outcome.slice_of_le (by omega) (by omega), Outcome.ok_bind,
          Outcome.slice_of_le (by omega) (by omega), Outcome.ok_bind, hnonce,
          Outcome.unwrap_some, Outcome.ok_bind]
        obtain ⟨keys, hkeys⟩ := exists_getMessageKeys prims conversationKey nonce
        rw [hkeys, Outcome.ok_bind]
        split
        · exact Outcome.returns_err _
        · apply returns_unpad
          rw [length_applyKeystream, List.length_drop,
            List.length_take_of_le (by omega)]
          omega

theorem returns_decrypt (prims : Primitives) (base64 : Base64)
    (conversationKey : Vector UInt8 32) (base64Ciphertext : String) :
    (decrypt prims base64 conversationKey base64Ciphertext).Returns := by
  unfold decrypt
  dsimp only
  split
  · exact Outcome.returns_err _
  · rename_i hgate
    rw [Outcome.index_of_lt (by omega : 0 < (utf8 base64Ciphertext).length),
      Outcome.ok_bind]
    split
    · exact Outcome.returns_err _
    · refine Outcome.returns_bind_iff.mpr ⟨Outcome.returns_okOr _ _, ?_⟩
      intro binaryCiphertext _
      exact returns_decryptBinary _ _ _

end Nip44

end Types

end Gnostr
