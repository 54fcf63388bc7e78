/-
Content encryption of `types/src/nostr/private_key/content_encryption.rs`: the
encryptors of NIP-04 and of both versions of NIP-44, and the decryptor, which
finds out by the shape of the text which of them made it.
-/
import Gnostr.Crypto.Nip44
import Gnostr.Lib.SplitPattern

namespace Gnostr

namespace Types

inductive ContentEncryptionAlgorithm where
  | nip04
  | nip44v1Unpadded
  | nip44v1Padded
  | nip44v2
deriving Repr, DecidableEq

/-- What the random generator delivers during one encryption. -/
structure EncryptionRandom where
  iv : Vector UInt8 16
  nonce24 : Vector UInt8 24
  nonce32 : Vector UInt8 32
  paddingLength : ℕ
  padding : ℕ → UInt8

namespace PrivateKey

variable (prims : Primitives) (base64 : Base64) {curve : Secp256k1}

def sharedSecretNip04 (key : PrivateKey curve) (other : PublicKey) :
    Outcome Error (Vector UInt8 32) := do
  let xOnly ← other.asXOnlyPublicKey curve
  return (curve.sharedSecretPoint xOnly key.secret.bytes).extract 0 32

def sharedSecretNip44V1 (key : PrivateKey curve) (other : PublicKey) :
    Outcome Error (Vector UInt8 32) := do
  let xOnly ← other.asXOnlyPublicKey curve
  return prims.sha256
    ((curve.sharedSecretPoint xOnly key.secret.bytes).extract 0 32).toList

def sharedSecretNip44V2 (key : PrivateKey curve) (other : PublicKey) :
    Outcome Error (Vector UInt8 32) := do
  let xOnly ← other.asXOnlyPublicKey curve
  return Nip44.getConversationKey prims curve key.secret xOnly

/-- The separator of a ciphertext and its initialization vector. -/
def ivMarker : Bytes := utf8 "?iv="

def nip04Encrypt (key : PrivateKey curve) (other : PublicKey)
    (plaintext : Bytes) (iv : Vector UInt8 16) : Outcome Error String := do
  let sharedSecret ← key.sharedSecretNip04 other
  let ciphertext := prims.aesCbcEncrypt sharedSecret iv plaintext
  return base64.encode ciphertext ++ "?iv=" ++ base64.encode iv.toList

def nip04Decrypt (key : PrivateKey curve) (other : PublicKey)
    (ciphertext : String) : Outcome Error Bytes :=
  match splitPattern ivMarker (utf8 ciphertext) with
  | [first, last] => do
      let ciphertext ←
        Outcome.okOr .badEncryptedMessageBase64 (base64.decode first)
      let ivVec ← Outcome.okOr .badEncryptedMessageBase64 (base64.decode last)
      let iv ← Outcome.unwrap (tryIntoArray 16 ivVec)
      let sharedSecret ← key.sharedSecretNip04 other
      Outcome.okOr .unpad (prims.aesCbcDecrypt sharedSecret iv ciphertext)
  | _ => .err .badEncryptedMessage

/-- The length, the plaintext, and random bytes up to a length of which half as
much again at most is random. -/
def nip44V1Pad (plaintext : Bytes) (random : EncryptionRandom) : Bytes :=
  let endPlaintext := 4 + plaintext.length
  let forcedPadding := 32 - endPlaintext
  let endForcedPadding := endPlaintext + forcedPadding
  let randomPadding := random.paddingLength % (endForcedPadding / 2)
  let endRandomPadding := endForcedPadding + randomPadding
  beBytes 4 plaintext.length ++ plaintext ++
    (List.range (endRandomPadding - endPlaintext)).map random.padding

def nip44V1Encrypt (key : PrivateKey curve) (other : PublicKey)
    (plaintext : Bytes) (pad : Bool) (forcedNonce : Option (Vector UInt8 24))
    (random : EncryptionRandom) : Outcome Error String := do
  let plaintext := if pad then nip44V1Pad plaintext random else plaintext
  let sharedSecret ← key.sharedSecretNip44V1 prims other
  let nonce := forcedNonce.getD random.nonce24
  return base64.encode ([1] ++ nonce.toList ++
    applyKeystream (prims.xchacha20 sharedSecret nonce) plaintext)

def nip44V1Decrypt (key : PrivateKey curve) (other : PublicKey)
    (ciphertext : String) (padded : Bool) : Outcome Error Bytes := do
  let sharedSecret ← key.sharedSecretNip44V1 prims other
  let bytes ← Outcome.okOr Error.badEncryptedMessageBase64
    (base64.decode (utf8 ciphertext))
  let version ← Outcome.index bytes 0
  if version ≠ 1 then .err (.unknownCipherVersion version)
  else do
    let output ← Outcome.slice bytes 25 bytes.length
    let nonceBytes ← Outcome.slice bytes 1 25
    let nonce ← Outcome.unwrap (tryIntoArray 24 nonceBytes)
    let output := applyKeystream (prims.xchacha20 sharedSecret nonce) output
    if padded then do
      let lengthBytes ← Outcome.slice output 0 4
      let lengthArray ← Outcome.unwrap (tryIntoArray 4 lengthBytes)
      let len := ofBeBytes lengthArray.toList
      if 4 + len > output.length then .err (.outOfRange len)
      else Outcome.slice output 4 (4 + len)
    else return output

def nip44V2Encrypt (key : PrivateKey curve) (counterparty : PublicKey)
    (plaintext : String) (nonce : Vector UInt8 32) : Outcome Error String := do
  let conversationKey ← key.sharedSecretNip44V2 prims counterparty
  (Nip44.encrypt prims base64 conversationKey plaintext nonce).mapErr .crypto

def nip44V2Decrypt (key : PrivateKey curve) (counterparty : PublicKey)
    (ciphertext : String) : Outcome Error String := do
  let conversationKey ← key.sharedSecretNip44V2 prims counterparty
  (Nip44.decrypt prims base64 conversationKey ciphertext).mapErr .crypto

def encrypt (key : PrivateKey curve) (other : PublicKey) (plaintext : String)
    (algo : ContentEncryptionAlgorithm) (random : EncryptionRandom) :
    Outcome Error String :=
  match algo with
  | .nip04 => key.nip04Encrypt prims base64 other (utf8 plaintext) random.iv
  | .nip44v1Unpadded =>
      key.nip44V1Encrypt prims base64 other (utf8 plaintext) false none random
  | .nip44v1Padded =>
      key.nip44V1Encrypt prims base64 other (utf8 plaintext) true none random
  | .nip44v2 => key.nip44V2Encrypt prims base64 other plaintext random.nonce32

def decryptNip04 (key : PrivateKey curve) (other : PublicKey)
    (ciphertext : String) : Outcome Error Bytes :=
  key.nip04Decrypt prims base64 other ciphertext

/-- The version is the first byte; the padded variant of the first version
cannot be told from the other. -/
def decryptNip44 (key : PrivateKey curve) (other : PublicKey)
    (ciphertext : String) : Outcome Error String :=
  if (utf8 ciphertext).head? = some 35 then
    .err (.crypto .unsupportedFutureVersion)
  else do
    let bytes ← Outcome.okOr Error.badEncryptedMessageBase64
      (base64.decode (utf8 ciphertext))
    if bytes.isEmpty then .err .badEncryptedMessage
    else do
      let version ← Outcome.index bytes 0
      if version = 1 then do
        let bytes ← key.nip44V1Decrypt prims base64 other ciphertext false
        Outcome.okOr .fromUtf8 (fromUtf8 bytes)
      else if version = 2 then
        key.nip44V2Decrypt prims base64 other ciphertext
      else .err (.crypto .unknownVersion)

/-- The marker of an initialization vector stands 28 bytes before the end. -/
def hasIvMarker (cbytes : Bytes) : Bool :=
  decide (28 ≤ cbytes.length) && cbytes[cbytes.length - 28]? == some 63 &&
    cbytes[cbytes.length - 27]? == some 105 &&
    cbytes[cbytes.length - 26]? == some 118 &&
    cbytes[cbytes.length - 25]? == some 61

def decrypt (key : PrivateKey curve) (other : PublicKey)
    (ciphertext : String) : Outcome Error String :=
  if hasIvMarker (utf8 ciphertext) then
    fromUtf8Lossy <$> key.decryptNip04 prims base64 other ciphertext
  else key.decryptNip44 prims base64 other ciphertext

section Marker

theorem question_not_mem_encode (bytes : Bytes) :
    63 ∉ utf8 (base64.encode bytes) := by
  intro hmem
  exact base64.ne_of_mem_encode (by decide) hmem rfl

/-- A question mark only stands where the marker begins. -/
theorem eq_length_of_question {before after : Bytes} (hbefore : 63 ∉ before)
    (hafter : 63 ∉ after) {i : ℕ}
    (hquestion : (before ++ ivMarker ++ after)[i]? = some 63) :
    i = before.length := by
  rw [List.append_assoc, List.getElem?_append] at hquestion
  split at hquestion
  · exact absurd (List.mem_of_getElem? hquestion) hbefore
  · rename_i hge
    rw [List.getElem?_append] at hquestion
    split at hquestion
    · rename_i hlt
      have hplace : ∀ place < 4, ivMarker[place]? = some 63 → place = 0 := by
        decide
      have hzero := hplace _ hlt hquestion
      omega
    · exact absurd (List.mem_of_getElem? hquestion) hafter

/-- The test finds the marker exactly when 24 bytes follow it. -/
theorem hasIvMarker_append_iff {before after : Bytes} (hbefore : 63 ∉ before)
    (hafter : 63 ∉ after) :
    hasIvMarker (before ++ ivMarker ++ after) = true ↔ after.length = 24 := by
  have hlength : (before ++ ivMarker ++ after).length =
      before.length + 4 + after.length := by
    rw [List.length_append, List.length_append]
    rfl
  have hplace : ∀ place < 4, (before ++ ivMarker ++ after)[before.length + place]? =
      ivMarker[place]? := by
    intro place hlt
    rw [List.append_assoc, List.getElem?_append_right (Nat.le_add_right _ _),
      Nat.add_sub_cancel_left, List.getElem?_append_left hlt]
  unfold hasIvMarker
  rw [hlength]
  simp only [Bool.and_eq_true, decide_eq_true_eq, beq_iff_eq]
  constructor
  · rintro ⟨⟨⟨⟨hle, hquestion⟩, _⟩, _⟩, _⟩
    have hstart := eq_length_of_question hbefore hafter hquestion
    omega
  · intro hafterLength
    rw [hafterLength]
    exact ⟨⟨⟨⟨by omega, hplace 0 (by decide)⟩, hplace 1 (by decide)⟩,
      hplace 2 (by decide)⟩, hplace 3 (by decide)⟩

theorem hasIvMarker_encode (bytes : Bytes) :
    hasIvMarker (utf8 (base64.encode bytes)) = false := by
  rw [Bool.eq_false_iff]
  intro hmarker
  unfold hasIvMarker at hmarker
  simp only [Bool.and_eq_true, beq_iff_eq] at hmarker
  exact question_not_mem_encode base64 bytes
    (List.mem_of_getElem? hmarker.1.1.1.2)

theorem head?_encode_ne (bytes : Bytes) :
    (utf8 (base64.encode bytes)).head? ≠ some 35 := by
  intro hhash
  exact base64.ne_of_mem_encode (by decide) (List.mem_of_head? hhash) rfl

end Marker

section Routing

theorem sharedPoint_comm (first second : PrivateKey curve) :
    (curve.sharedSecretPoint first.publicKey.bytes second.secret.bytes).extract 0 32 =
      (curve.sharedSecretPoint second.publicKey.bytes
        first.secret.bytes).extract 0 32 := by
  have hcomm := curve.sharedSecretPoint_comm first.secret.isSecretKey
    second.secret.isSecretKey
  have hextract : ∀ point : Vector UInt8 64,
      (point.extract 0 32 : Vector UInt8 32).toList = point.toList.take 32 := by
    intro point
    rw [Vector.toList_extract, List.drop_zero]
  apply Vector.toList_inj.mp
  rw [hextract, hextract]
  exact hcomm.symm

theorem asXOnlyPublicKey_publicKey (key : PrivateKey curve) :
    key.publicKey.asXOnlyPublicKey curve = .ok key.publicKey.bytes :=
  PublicKey.asXOnlyPublicKey_of_verified key.publicKey_verified

theorem sharedSecretNip04_comm (first second : PrivateKey curve) :
    second.sharedSecretNip04 first.publicKey =
      first.sharedSecretNip04 second.publicKey := by
  unfold sharedSecretNip04
  rw [asXOnlyPublicKey_publicKey, asXOnlyPublicKey_publicKey, Outcome.ok_bind,
    Outcome.ok_bind, sharedPoint_comm]

theorem sharedSecretNip44V1_comm (first second : PrivateKey curve) :
    second.sharedSecretNip44V1 prims first.publicKey =
      first.sharedSecretNip44V1 prims second.publicKey := by
  unfold sharedSecretNip44V1
  rw [asXOnlyPublicKey_publicKey, asXOnlyPublicKey_publicKey, Outcome.ok_bind,
    Outcome.ok_bind, sharedPoint_comm]

theorem sharedSecretNip44V2_comm (first second : PrivateKey curve) :
    second.sharedSecretNip44V2 prims first.publicKey =
      first.sharedSecretNip44V2 prims second.publicKey := by
  unfold sharedSecretNip44V2 Nip44.getConversationKey Nip44.getSharedPoint
  rw [asXOnlyPublicKey_publicKey, asXOnlyPublicKey_publicKey, Outcome.ok_bind,
    Outcome.ok_bind, sharedPoint_comm]

/-- The decryptor of one algorithm. -/
def decryptAs (key : PrivateKey curve) (other : PublicKey) (ciphertext : String) :
    ContentEncryptionAlgorithm → Outcome Error String
  | .nip04 => fromUtf8Lossy <$> key.decryptNip04 prims base64 other ciphertext
  | .nip44v1Unpadded => do
      let bytes ← key.nip44V1Decrypt prims base64 other ciphertext false
      Outcome.okOr .fromUtf8 (fromUtf8 bytes)
  | .nip44v1Padded => do
      let bytes ← key.nip44V1Decrypt prims base64 other ciphertext true
      Outcome.okOr .fromUtf8 (fromUtf8 bytes)
  | .nip44v2 => key.nip44V2Decrypt prims base64 other ciphertext

/-- The text of a payload is routed by the first byte of the payload. -/
theorem decrypt_encode (key : PrivateKey curve) (other : PublicKey)
    (payload : Bytes) :
    key.decrypt prims base64 other (base64.encode payload) =
      match payload with
      | [] => .err .badEncryptedMessage
      | version :: _ =>
          if version = 1 then
            key.decryptAs prims base64 other (base64.encode payload)
              .nip44v1Unpadded
          else if version = 2 then
            key.decryptAs prims base64 other (base64.encode payload) .nip44v2
          else .err (.crypto .unknownVersion) := by
  unfold decrypt decryptNip44
  rw [hasIvMarker_encode, if_neg Bool.false_ne_true,
    if_neg (head?_encode_ne base64 payload), base64.decode_encode,
    Outcome.okOr_some, Outcome.ok_bind]
  cases payload with
  | nil => rfl
  | cons version rest => rfl

theorem utf8_nip04 (ciphertext iv : Bytes) :
    utf8 (base64.encode ciphertext ++ "?iv=" ++ base64.encode iv) =
      utf8 (base64.encode ciphertext) ++ ivMarker ++ utf8 (base64.encode iv) := by
  rw [utf8_append, utf8_append]
  rfl

theorem length_encode_eq_iff {iv : Bytes} :
    (utf8 (base64.encode iv)).length = 24 ↔ 16 ≤ iv.length ∧ iv.length ≤ 18 := by
  rw [base64.length_encode]
  omega

/-- A text with the marker is split into its two parts. -/
theorem splitPattern_nip04 (ciphertext iv : Bytes) :
    splitPattern ivMarker (utf8 (base64.encode ciphertext) ++ ivMarker ++
        utf8 (base64.encode iv)) =
      [utf8 (base64.encode ciphertext), utf8 (base64.encode iv)] :=
  splitPattern_pattern (question_not_mem_encode base64 ciphertext)
    (question_not_mem_encode base64 iv)

end Routing

section RoundTrip

/-- What the first party encrypts for the second is routed to the decryptor of
the same algorithm, which gives the plaintext back. -/
def RoundTrips (first second : PrivateKey curve) (plaintext : String)
    (algo : ContentEncryptionAlgorithm) (random : EncryptionRandom) : Prop :=
  ∃ ciphertext,
    first.encrypt prims base64 second.publicKey plaintext algo random =
      .ok ciphertext ∧
    second.decrypt prims base64 first.publicKey ciphertext =
      second.decryptAs prims base64 first.publicKey ciphertext algo ∧
    second.decrypt prims base64 first.publicKey ciphertext = .ok plaintext

theorem roundTrips_nip04 (first second : PrivateKey curve) (plaintext : String)
    (random : EncryptionRandom) :
    RoundTrips prims base64 first second plaintext .nip04 random := by
  have hsecret : ∃ secret, first.sharedSecretNip04 second.publicKey = .ok secret := by
    unfold sharedSecretNip04
    rw [asXOnlyPublicKey_publicKey]
    exact ⟨_, rfl⟩
  obtain ⟨secret, hsecret⟩ := hsecret
  generalize hciphertext : prims.aesCbcEncrypt secret random.iv (utf8 plaintext) =
    ciphertext
  have hencrypt : first.encrypt prims base64 second.publicKey plaintext .nip04
      random = .ok (base64.encode ciphertext ++ "?iv=" ++
        base64.encode random.iv.toList) := by
    rw [encrypt, nip04Encrypt, hsecret, Outcome.ok_bind, hciphertext]
    rfl
  have hmarker : hasIvMarker (utf8 (base64.encode ciphertext ++ "?iv=" ++
      base64.encode random.iv.toList)) = true := by
    rw [utf8_nip04, hasIvMarker_append_iff (question_not_mem_encode base64 _)
      (question_not_mem_encode base64 _), length_encode_eq_iff,
      Vector.length_toList]
    decide
  have hroute : ∀ text, hasIvMarker (utf8 text) = true →
      second.decrypt prims base64 first.publicKey text =
        second.decryptAs prims base64 first.publicKey text .nip04 :=
    fun _ htext => if_pos htext
  refine ⟨_, hencrypt, hroute _ hmarker, ?_⟩
  rw [hroute _ hmarker, decryptAs, decryptNip04, nip04Decrypt, utf8_nip04,
    splitPattern_nip04]
  dsimp only
  rw [base64.decode_encode, Outcome.okOr_some, Outcome.ok_bind,
    base64.decode_encode, Outcome.okOr_some, Outcome.ok_bind,
    tryIntoArray_toList, Outcome.unwrap_some, Outcome.ok_bind,
    sharedSecretNip04_comm, hsecret, Outcome.ok_bind, ← hciphertext,
    prims.aesCbcDecrypt_aesCbcEncrypt, Outcome.okOr_some, Outcome.map_ok,
    fromUtf8Lossy_utf8]

theorem roundTrips_nip44v1Unpadded (first second : PrivateKey curve)
    (plaintext : String) (random : EncryptionRandom) :
    RoundTrips prims base64 first second plaintext .nip44v1Unpadded random := by
  have hsecret : ∃ secret,
      first.sharedSecretNip44V1 prims second.publicKey = .ok secret := by
    unfold sharedSecretNip44V1
    rw [asXOnlyPublicKey_publicKey]
    exact ⟨_, rfl⟩
  obtain ⟨secret, hsecret⟩ := hsecret
  generalize hcipher : applyKeystream (prims.xchacha20 secret random.nonce24)
    (utf8 plaintext) = cipher
  generalize hpayload : [1] ++ random.nonce24.toList ++ cipher = payload
  have hversion : payload = 1 :: (random.nonce24.toList ++ cipher) := by
    rw [← hpayload]
    rfl
  have hindex : (Outcome.index payload 0 : Outcome Error UInt8) = .ok 1 := by
    rw [hversion]
    rfl
  have hnonce : (Outcome.slice payload 1 25 : Outcome Error Bytes) =
      .ok random.nonce24.toList := by
    have happend := Outcome.slice_append (ε := Error) [1]
      random.nonce24.toList cipher
    rwa [Vector.length_toList, hpayload] at happend
  have houtput : (Outcome.slice payload 25 payload.length :
      Outcome Error Bytes) = .ok cipher := by
    have happend := Outcome.slice_append (ε := Error)
      ([1] ++ random.nonce24.toList) cipher []
    rwa [← List.length_append, List.append_nil, hpayload, List.length_append,
      Vector.length_toList] at happend
  have hencrypt : first.encrypt prims base64 second.publicKey plaintext
      .nip44v1Unpadded random = .ok (base64.encode payload) := by
    rw [encrypt, nip44V1Encrypt, hsecret, Outcome.ok_bind]
    change Outcome.ok (base64.encode ([1] ++ random.nonce24.toList ++
      applyKeystream (prims.xchacha20 secret random.nonce24)
        (utf8 plaintext))) = _
    rw [hcipher, hpayload]
  have hroute : second.decrypt prims base64 first.publicKey
      (base64.encode payload) =
        second.decryptAs prims base64 first.publicKey (base64.encode payload)
          .nip44v1Unpadded := by
    rw [decrypt_encode, hversion]
    exact if_pos rfl
  refine ⟨_, hencrypt, hroute, ?_⟩
  rw [hroute, decryptAs, nip44V1Decrypt, sharedSecretNip44V1_comm, hsecret,
    Outcome.ok_bind, base64.decode_encode, Outcome.okOr_some, Outcome.ok_bind,
    hindex, Outcome.ok_bind, if_neg (not_not_intro rfl), houtput,
    Outcome.ok_bind, hnonce, Outcome.ok_bind, tryIntoArray_toList,
    Outcome.unwrap_some, Outcome.ok_bind]
  change Outcome.okOr Error.fromUtf8 (fromUtf8 (applyKeystream
    (prims.xchacha20 secret random.nonce24) cipher)) = _
  rw [← hcipher, applyKeystream_applyKeystream, fromUtf8_utf8,
    Outcome.okOr_some]

/-- The second version is NIP-44 with the secret that the two keys share. -/
theorem exists_sharedSecretNip44V2 (first second : PrivateKey curve)
    (plaintext : String) (random : EncryptionRandom) :
    ∃ secret, first.sharedSecretNip44V2 prims second.publicKey = .ok secret ∧
      first.encrypt prims base64 second.publicKey plaintext .nip44v2 random =
        (Nip44.encrypt prims base64 secret plaintext random.nonce32).mapErr
          .crypto := by
  have hsecret : ∃ secret,
      first.sharedSecretNip44V2 prims second.publicKey = .ok secret := by
    unfold sharedSecretNip44V2
    rw [asXOnlyPublicKey_publicKey]
    exact ⟨_, rfl⟩
  obtain ⟨secret, hsecret⟩ := hsecret
  refine ⟨secret, hsecret, ?_⟩
  rw [encrypt, nip44V2Encrypt, hsecret, Outcome.ok_bind]

/-- For the second version the payload is the one of NIP-44 itself. -/
theorem nip44v2_spec (first second : PrivateKey curve) (plaintext : String)
    (random : EncryptionRandom) :
    if 1 ≤ (utf8 plaintext).length ∧ (utf8 plaintext).length ≤ 65535 then
      RoundTrips prims base64 first second plaintext .nip44v2 random
    else
      ∃ error, first.encrypt prims base64 second.publicKey plaintext .nip44v2
        random = .err error := by
  obtain ⟨secret, hsecret, hencrypt⟩ := exists_sharedSecretNip44V2 prims base64
    first second plaintext random
  rw [hencrypt, Nip44.encrypt]
  split
  · rename_i hadmissible
    obtain ⟨rest, hinner, hdecrypt⟩ := Nip44.exists_encryptInner_of_admissible
      prims base64 secret hadmissible.1 hadmissible.2 none random.nonce32
    have hroute : second.decrypt prims base64 first.publicKey
        (base64.encode (2 :: rest)) =
          second.decryptAs prims base64 first.publicKey
            (base64.encode (2 :: rest)) .nip44v2 := by
      rw [decrypt_encode]
      exact (if_neg (by decide)).trans (if_pos rfl)
    refine ⟨_, hencrypt.trans ?_, hroute, ?_⟩
    · rw [Nip44.encrypt, hinner, Outcome.mapErr_ok]
    · rw [hroute, decryptAs, nip44V2Decrypt, sharedSecretNip44V2_comm, hsecret,
        Outcome.ok_bind, hdecrypt, Outcome.mapErr_ok]
  · rename_i hnot
    rw [Nip44.encryptInner_of_inadmissible prims base64 secret hnot]
    exact ⟨_, rfl⟩

/-- How long the text of an encrypted message is. -/
theorem exists_encrypt_nip44v2 (first second : PrivateKey curve)
    {plaintext : String} (random : EncryptionRandom)
    (hpos : 1 ≤ (utf8 plaintext).length)
    (hle : (utf8 plaintext).length ≤ 65535) :
    ∃ ciphertext, first.encrypt prims base64 second.publicKey plaintext .nip44v2
        random = .ok ciphertext ∧
      (utf8 ciphertext).length =
        4 * ((69 + Nip44.calcPadding (utf8 plaintext).length) / 3) := by
  obtain ⟨secret, _, hencrypt⟩ := exists_sharedSecretNip44V2 prims base64 first
    second plaintext random
  obtain ⟨keys, _, hinner⟩ := Nip44.exists_encryptInner_eq prims base64 secret
    plaintext none random.nonce32
  rw [Nip44.pad_eq, if_neg (by omega), if_neg (by omega), Outcome.ok_bind] at hinner
  refine ⟨base64.encode (Nip44.binary prims keys random.nonce32
    (Nip44.padded plaintext)), ?_, ?_⟩
  · rw [hencrypt, Nip44.encrypt, hinner]
    rfl
  · rw [base64.length_encode, Nip44.length_binary, Nip44.length_padded]
    congr 2
    omega

/-- Between any two parties the algorithms that can be told apart are, and
every plaintext they take comes back. -/
theorem decrypt_encrypt (first second : PrivateKey curve) (plaintext : String)
    (random : EncryptionRandom) :
    RoundTrips prims base64 first second plaintext .nip04 random ∧
      RoundTrips prims base64 first second plaintext .nip44v1Unpadded random ∧
      if 1 ≤ (utf8 plaintext).length ∧ (utf8 plaintext).length ≤ 65535 then
        RoundTrips prims base64 first second plaintext .nip44v2 random
      else
        ∃ error, first.encrypt prims base64 second.publicKey plaintext .nip44v2
          random = .err error :=
  ⟨roundTrips_nip04 prims base64 first second plaintext random,
    roundTrips_nip44v1Unpadded prims base64 first second plaintext random,
    nip44v2_spec prims base64 first second plaintext random⟩

end RoundTrip

section Panics

/-- An initialization vector whose text has the length of one of 16 bytes but
which is longer, or a key that is not on the curve. -/
def BadInitializationVector (curve : Secp256k1) (other : PublicKey)
    (ciphertext : String) : Prop :=
  ∃ message iv : Bytes,
    utf8 ciphertext =
      utf8 (base64.encode message) ++ ivMarker ++ utf8 (base64.encode iv) ∧
    (16 ≤ iv.length ∧ iv.length ≤ 18) ∧
    (iv.length ≠ 16 ∨ ¬ other.Verified curve)

/-- A payload of the first version that ends within the nonce, or one of either
version and a key that is not on the curve. -/
def BadPayload (curve : Secp256k1) (other : PublicKey) (ciphertext : String) :
    Prop :=
  ∃ payload : Bytes, utf8 ciphertext = utf8 (base64.encode payload) ∧
    (payload.head? = some 1 ∧ (payload.length < 25 ∨ ¬ other.Verified curve) ∨
      payload.head? = some 2 ∧ ¬ other.Verified curve)

/-- Every shared secret is computed from the key as a point. -/
theorem returns_secret_iff {α : Type} {other : PublicKey}
    (secret : Vector UInt8 32 → α) :
    (do
      let xOnly ← other.asXOnlyPublicKey curve
      return secret xOnly).Returns ↔ other.Verified curve := by
  by_cases hverified : other.Verified curve
  · rw [PublicKey.asXOnlyPublicKey_of_verified hverified]
    exact iff_of_true (Outcome.returns_ok _) hverified
  · rw [PublicKey.asXOnlyPublicKey_of_not_verified hverified]
    exact iff_of_false Outcome.not_returns_panic hverified

theorem returns_sharedSecretNip04_iff (key : PrivateKey curve)
    (other : PublicKey) :
    (key.sharedSecretNip04 other).Returns ↔ other.Verified curve :=
  returns_secret_iff _

theorem returns_sharedSecretNip44V1_iff (key : PrivateKey curve)
    (other : PublicKey) :
    (key.sharedSecretNip44V1 prims other).Returns ↔ other.Verified curve :=
  returns_secret_iff _

theorem returns_sharedSecretNip44V2_iff (key : PrivateKey curve)
    (other : PublicKey) :
    (key.sharedSecretNip44V2 prims other).Returns ↔ other.Verified curve :=
  returns_secret_iff _

theorem returns_unwrap_tryIntoArray_iff {n : ℕ} {bytes : Bytes} :
    (Outcome.unwrap (tryIntoArray n bytes) :
      Outcome Error (Vector UInt8 n)).Returns ↔ bytes.length = n := by
  by_cases hlength : bytes.length = n
  · obtain ⟨array, harray, _⟩ := exists_tryIntoArray hlength
    rw [harray]
    exact iff_of_true (Outcome.returns_ok _) hlength
  · rw [tryIntoArray_eq_none_iff.mpr hlength]
    exact iff_of_false Outcome.not_returns_panic hlength

/-- With both parts decoded, the vector and the key are all that matters. -/
theorem returns_nip04Decrypt_iff (key : PrivateKey curve) (other : PublicKey)
    {ciphertext : String} {message iv : Bytes}
    (hparts : utf8 ciphertext =
      utf8 (base64.encode message) ++ ivMarker ++ utf8 (base64.encode iv)) :
    (key.nip04Decrypt prims base64 other ciphertext).Returns ↔
      iv.length = 16 ∧ other.Verified curve := by
  unfold nip04Decrypt
  rw [hparts, splitPattern_nip04]
  dsimp only
  rw [base64.decode_encode, Outcome.okOr_some, Outcome.ok_bind,
    base64.decode_encode, Outcome.okOr_some, Outcome.ok_bind,
    Outcome.returns_bind_iff, returns_unwrap_tryIntoArray_iff]
  refine and_congr_right ?_
  intro hlength
  obtain ⟨array, harray, _⟩ := exists_tryIntoArray hlength
  rw [harray, Outcome.unwrap_some]
  constructor
  · intro hreturns
    exact (returns_sharedSecretNip04_iff key other).mp
      (Outcome.returns_bind_iff.mp (hreturns array rfl)).1
  · intro hverified first _
    exact Outcome.returns_bind_iff.mpr
      ⟨(returns_sharedSecretNip04_iff key other).mpr hverified,
        fun _ _ => Outcome.returns_okOr _ _⟩

/-- A text that is not two base64 texts around one marker is an error. -/
theorem returns_nip04Decrypt_of_not_parts (key : PrivateKey curve)
    (other : PublicKey) {ciphertext : String}
    (hnot : ∀ message iv : Bytes, utf8 ciphertext ≠
      utf8 (base64.encode message) ++ ivMarker ++ utf8 (base64.encode iv)) :
    (key.nip04Decrypt prims base64 other ciphertext).Returns := by
  unfold nip04Decrypt
  split
  · rename_i first last hsplit
    have htext := eq_append_of_splitPattern_eq (by decide) hsplit
    refine Outcome.returns_bind_iff.mpr ⟨Outcome.returns_okOr _ _, ?_⟩
    intro message hmessage
    refine Outcome.returns_bind_iff.mpr ⟨Outcome.returns_okOr _ _, ?_⟩
    intro iv hiv
    rw [Outcome.okOr_eq_ok_iff, base64.decode_eq_some_iff] at hmessage hiv
    rw [← hmessage, ← hiv] at htext
    exact absurd htext (hnot message iv)
  · exact Outcome.returns_err _

/-- The nonce of the first version is cut out without a check of the length. -/
theorem returns_nip44V1Decrypt_iff (key : PrivateKey curve) (other : PublicKey)
    {ciphertext : String} {payload : Bytes}
    (htext : utf8 ciphertext = utf8 (base64.encode payload))
    (hhead : payload.head? = some 1) :
    (key.nip44V1Decrypt prims base64 other ciphertext false).Returns ↔
      25 ≤ payload.length ∧ other.Verified curve := by
  obtain ⟨rest, rfl⟩ := List.head?_eq_some_iff.mp hhead
  unfold nip44V1Decrypt
  rw [Outcome.returns_bind_iff, returns_sharedSecretNip44V1_iff, htext,
    base64.decode_encode, and_comm]
  refine and_congr_left ?_
  intro hverified
  have hsecret := (returns_sharedSecretNip44V1_iff prims key other).mpr hverified
  by_cases hlength : 25 ≤ (1 :: rest).length
  · refine iff_of_true ?_ hlength
    intro secret _
    have hnonceLength : (((1 :: rest).take 25).drop 1).length = 24 := by
      rw [List.length_drop, List.length_take_of_le hlength]
    obtain ⟨nonce, hnonce, _⟩ := exists_tryIntoArray hnonceLength
    rw [Outcome.okOr_some, Outcome.ok_bind,
      Outcome.index_of_lt (by omega : 0 < (1 :: rest).length), Outcome.ok_bind,
      List.getElem_cons_zero, if_neg (not_not_intro rfl),
      Outcome.slice_of_le hlength (Nat.le_refl _), Outcome.ok_bind,
      Outcome.slice_of_le (by decide) hlength, Outcome.ok_bind, hnonce,
      Outcome.unwrap_some, Outcome.ok_bind]
    exact Outcome.returns_ok _
  · refine iff_of_false ?_ hlength
    intro hreturns
    cases hok : key.sharedSecretNip44V1 prims other with
    | panic => exact hsecret hok
    | err error =>
        unfold sharedSecretNip44V1 at hok
        rw [PublicKey.asXOnlyPublicKey_of_verified hverified] at hok
        cases hok
    | ok secret =>
        have hpanic := hreturns secret hok
        rw [Outcome.okOr_some, Outcome.ok_bind,
          Outcome.index_of_lt (Nat.succ_pos _), Outcome.ok_bind,
          List.getElem_cons_zero, if_neg (not_not_intro rfl),
          Outcome.slice_of_start_lt (Nat.not_le.mp hlength)] at hpanic
        exact hpanic rfl

theorem returns_nip44V2Decrypt_iff (key : PrivateKey curve) (other : PublicKey)
    (ciphertext : String) :
    (key.nip44V2Decrypt prims base64 other ciphertext).Returns ↔
      other.Verified curve := by
  unfold nip44V2Decrypt
  rw [Outcome.returns_bind_iff, returns_sharedSecretNip44V2_iff]
  refine and_iff_left_of_imp ?_
  intro _ conversationKey _
  exact Outcome.returns_mapErr_iff.mpr (Nip44.returns_decrypt _ _ _ _)

/-- The text has only the payload it is the base64 text of. -/
theorem badPayload_iff_of_text {other : PublicKey} {ciphertext : String}
    {payload : Bytes} (htext : utf8 ciphertext = utf8 (base64.encode payload)) :
    BadPayload base64 curve other ciphertext ↔
      payload.head? = some 1 ∧
          (payload.length < 25 ∨ ¬ other.Verified curve) ∨
        payload.head? = some 2 ∧ ¬ other.Verified curve := by
  constructor
  · rintro ⟨found, hfound, hcases⟩
    have hdecode := base64.decode_encode payload
    rw [← htext, hfound, base64.decode_encode, Option.some.injEq] at hdecode
    rwa [← hdecode]
  · intro hcases
    exact ⟨payload, htext, hcases⟩

/-- The text has only the vector that stands behind its marker. -/
theorem badInitializationVector_iff_of_parts {other : PublicKey}
    {ciphertext : String} {message iv : Bytes}
    (hparts : utf8 ciphertext =
      utf8 (base64.encode message) ++ ivMarker ++ utf8 (base64.encode iv)) :
    BadInitializationVector base64 curve other ciphertext ↔
      (16 ≤ iv.length ∧ iv.length ≤ 18) ∧
        (iv.length ≠ 16 ∨ ¬ other.Verified curve) := by
  constructor
  · rintro ⟨message', iv', hparts', hbad⟩
    have hsplit := splitPattern_nip04 base64 message' iv'
    rw [← hparts', hparts, splitPattern_nip04] at hsplit
    injection hsplit with _ hsplit
    injection hsplit with hsame
    have hiv := base64.decode_encode iv
    rw [hsame, base64.decode_encode, Option.some.injEq] at hiv
    rwa [← hiv]
  · intro hbad
    exact ⟨message, iv, hparts, hbad⟩

/-- Without a marker everything depends on the payload. -/
theorem returns_decryptNip44_iff (key : PrivateKey curve) (other : PublicKey)
    (ciphertext : String) :
    (key.decryptNip44 prims base64 other ciphertext).Returns ↔
      ¬ BadPayload base64 curve other ciphertext := by
  unfold decryptNip44
  cases hdecode : base64.decode (utf8 ciphertext) with
  | none =>
      refine iff_of_true ?_ ?_
      · split
        · exact Outcome.returns_err _
        · exact Outcome.returns_err _
      · rintro ⟨payload, htext, _⟩
        rw [htext, base64.decode_encode] at hdecode
        cases hdecode
  | some payload =>
      have htext := (base64.decode_eq_some_iff.mp hdecode).symm
      have hnotHash : (utf8 ciphertext).head? ≠ some 35 := by
        rw [htext]
        exact head?_encode_ne base64 payload
      rw [badPayload_iff_of_text base64 htext, if_neg hnotHash, Outcome.okOr_some,
        Outcome.ok_bind]
      cases payload with
      | nil => exact iff_of_true (Outcome.returns_err _) (by simp)
      | cons version rest =>
          rw [if_neg (by simp), Outcome.index_of_lt (Nat.succ_pos _),
            Outcome.ok_bind, List.getElem_cons_zero, List.head?_cons]
          by_cases hone : version = 1
          · subst hone
            have hreturns := returns_nip44V1Decrypt_iff prims base64 key other
              htext List.head?_cons
            rw [if_pos rfl, Outcome.returns_bind_iff, hreturns,
              and_iff_left (fun _ _ => Outcome.returns_okOr _ _)]
            simp [not_or]
          · rw [if_neg hone]
            by_cases htwo : version = 2
            · rw [if_pos htwo, returns_nip44V2Decrypt_iff]
              simp [htwo]
            · rw [if_neg htwo]
              exact iff_of_true (Outcome.returns_err _) (by simp [hone, htwo])

/-- Decryption panics on exactly these texts. -/
theorem returns_decrypt_iff (key : PrivateKey curve) (other : PublicKey)
    (ciphertext : String) :
    (key.decrypt prims base64 other ciphertext).Returns ↔
      ¬ BadInitializationVector base64 curve other ciphertext ∧
        ¬ BadPayload base64 curve other ciphertext := by
  unfold decrypt
  cases hmarker : hasIvMarker (utf8 ciphertext) with
  | true =>
      have hnotPayload : ¬ BadPayload base64 curve other ciphertext := by
        rintro ⟨payload, htext, _⟩
        rw [htext, hasIvMarker_encode] at hmarker
        cases hmarker
      rw [if_pos rfl, Outcome.returns_map_iff, and_iff_left hnotPayload,
        decryptNip04]
      by_cases hparts : ∃ message iv : Bytes, utf8 ciphertext =
          utf8 (base64.encode message) ++ ivMarker ++ utf8 (base64.encode iv)
      · obtain ⟨message, iv, hparts⟩ := hparts
        rw [returns_nip04Decrypt_iff prims base64 key other hparts]
        rw [hparts, hasIvMarker_append_iff (question_not_mem_encode base64 _)
          (question_not_mem_encode base64 _), length_encode_eq_iff] at hmarker
        rw [badInitializationVector_iff_of_parts base64 hparts, and_iff_right hmarker,
          not_or, not_not, not_not]
      · push Not at hparts
        refine iff_of_true
          (returns_nip04Decrypt_of_not_parts prims base64 key other hparts) ?_
        rintro ⟨message, iv, htext, _⟩
        exact hparts message iv htext
  | false =>
      have hnotVector : ¬ BadInitializationVector base64 curve other ciphertext := by
        rintro ⟨message, iv, htext, hlength, _⟩
        rw [htext, Bool.eq_false_iff] at hmarker
        refine hmarker ?_
        rw [hasIvMarker_append_iff (question_not_mem_encode base64 _)
          (question_not_mem_encode base64 _), length_encode_eq_iff]
        exact hlength
      rw [if_neg Bool.false_ne_true, returns_decryptNip44_iff,
        and_iff_right hnotVector]

/-- The secret key 1. -/
def secretOne : PrivateKey Secp256k1.permissive where
  secret := ⟨(Vector.replicate 31 0).push 1, rfl⟩
  security := .medium

/-- One byte of the first version, and a vector of 18 bytes. -/
theorem decrypt_panics :
    ¬ (secretOne.decrypt Primitives.transparent Base64.reference
        secretOne.publicKey "AQ==").Returns ∧
      ¬ (secretOne.decrypt Primitives.transparent Base64.reference
        secretOne.publicKey "?iv=AAAAAAAAAAAAAAAAAAAAAAAA").Returns := by
  constructor
  · intro hreturns
    exact hreturns (by decide +kernel)
  · intro hreturns
    exact hreturns (by decide +kernel)

end Panics

end PrivateKey

end Types

end Gnostr
