/-
Encrypted private keys of
`types/src/nostr/private_key/encrypted_private_key.rs`: the export of version 2
and the import, which tells four layouts apart.
-/
import Gnostr.Lib.Base64
import Gnostr.Lib.Primitives
import Gnostr.Types.Keys

namespace Gnostr

namespace Types

/-- An encrypted private key; the string is the bech32 one, or an old base64
one. -/
structure EncryptedPrivateKey where
  text : String
deriving Repr, DecidableEq

namespace PrivateKey

/-- This allows us to detect bad decryptions with wrong passwords. -/
def v1CheckValue : Bytes := [15, 91, 241, 148, 90, 143, 101, 12, 172, 255, 103]

def v1HmacRounds : ℕ := 100000

variable (prims : Primitives) (base64 : Base64) (bech32 : Bech32)

def passwordToKeyV1 (password : String) (salt : Bytes) (rounds : ℕ) :
    Vector UInt8 32 :=
  prims.pbkdf2 (utf8 password) salt rounds 32

/-- Both a rejected parameter and a failed derivation are this error. -/
def passwordToKeyV2 (password : String) (salt : Vector UInt8 16)
    (logN : UInt8) : Outcome Error (Vector UInt8 32) :=
  Outcome.okOr .scrypt
    (prims.scrypt (utf8 (prims.nfkc password)) salt.toList logN 8 1 32)

def securityByte : KeySecurity → UInt8
  | .weak => 0
  | .medium => 1
  | .notTracked => 2

/-- The reader's `match` on the associated data. -/
def securityOfAssociated (byte : UInt8) : Outcome Error KeySecurity :=
  if byte = 0 then .ok .weak
  else if byte = 1 then .ok .medium
  else if byte = 2 then .ok .notTracked
  else .err .invalidEncryptedPrivateKey

@[simp] theorem securityOfAssociated_securityByte (security : KeySecurity) :
    securityOfAssociated (securityByte security) = .ok security := by
  cases security with
  | weak => rfl
  | medium => rfl
  | notTracked => rfl

variable {curve : Secp256k1}

/-- Export in version 2, with the salt and the nonce of the random generator. -/
def exportEncrypted (key : PrivateKey curve) (password : String)
    (log2Rounds : UInt8) (salt : Vector UInt8 16) (nonce : Vector UInt8 24) :
    Outcome Error EncryptedPrivateKey := do
  let associatedData := [securityByte key.security]
  let symmetricKey ← passwordToKeyV2 prims password salt log2Rounds
  let ciphertext ← Outcome.okOr .privateKeyEncryption
    (prims.aeadEncrypt symmetricKey nonce key.secret.bytes.toList associatedData)
  let concatenation := [2] ++ [log2Rounds] ++ salt.toList ++ nonce.toList ++
    associatedData ++ ciphertext
  let text ← Outcome.okOr .bech32Encode
    (bech32.encode hrpNcryptsec concatenation)
  return ⟨text⟩

variable (curve)

def importEncryptedV2 (concatenation : Bytes) (password : String) :
    Outcome Error (PrivateKey curve) :=
  if concatenation.length < 91 then .err .invalidEncryptedPrivateKey
  else do
    let version ← Outcome.index concatenation 0
    -- the assertion on the version
    if version ≠ 2 then .panic
    else do
      let log2Rounds ← Outcome.index concatenation 1
      let saltBytes ← Outcome.slice concatenation 2 18
      let salt ← Outcome.okOr .slice (tryIntoArray 16 saltBytes)
      let nonceBytes ← Outcome.slice concatenation 18 42
      let associatedData ← Outcome.slice concatenation 42 43
      let ciphertext ← Outcome.slice concatenation 43 concatenation.length
      let symmetricKey ← passwordToKeyV2 prims password salt log2Rounds
      let nonce ← Outcome.unwrap (tryIntoArray 24 nonceBytes)
      let innerSecret ← Outcome.okOr .privateKeyEncryption
        (prims.aeadDecrypt symmetricKey nonce ciphertext associatedData)
      if associatedData.isEmpty then .err .invalidEncryptedPrivateKey
      else do
        let byte ← Outcome.index associatedData 0
        let security ← securityOfAssociated byte
        let signingKey ← Outcome.okOr .keyOrSignature
          (SecretKey.fromSlice curve innerSecret)
        return ⟨signingKey, security⟩

/-- What both old layouts hold: the secret, the check value, the security. -/
def importPlaintext (plaintext : Bytes) : Outcome Error (PrivateKey curve) := do
  let checkStart ← Outcome.checkedSub plaintext.length 12
  let checkStop ← Outcome.checkedSub plaintext.length 1
  let check ← Outcome.slice plaintext checkStart checkStop
  if check ≠ v1CheckValue then .err .wrongDecryptionPassword
  else do
    let byte ← Outcome.index plaintext checkStop
    let security ← KeySecurity.tryFromU8 byte
    let secretBytes ← Outcome.slice plaintext 0 checkStart
    let secret ← Outcome.okOr .keyOrSignature
      (SecretKey.fromSlice curve secretBytes)
    return ⟨secret, security⟩

def importEncryptedV1 (concatenation : Bytes) (password : String) :
    Outcome Error (PrivateKey curve) := do
  let saltBytes ← Outcome.slice concatenation 0 16
  let salt ← Outcome.okOr Error.slice (tryIntoArray 16 saltBytes)
  let ivBytes ← Outcome.slice concatenation 16 32
  let iv ← Outcome.okOr .slice (tryIntoArray 16 ivBytes)
  let ciphertext ← Outcome.slice concatenation 32 concatenation.length
  let key := passwordToKeyV1 prims password salt.toList v1HmacRounds
  let plaintext ← Outcome.okOr .unpad (prims.aesCbcDecrypt key iv ciphertext)
  if plaintext.length ≠ 44 then .err .invalidEncryptedPrivateKey
  else importPlaintext curve plaintext

def importEncryptedPreV1 (ivPlusCiphertext : Bytes) (password : String) :
    Outcome Error (PrivateKey curve) :=
  let key := passwordToKeyV1 prims password (utf8 "nostr") 4096
  if ivPlusCiphertext.length < 48 then .err .invalidEncryptedPrivateKey
  else do
    let ivBytes ← Outcome.slice ivPlusCiphertext 0 16
    let iv ← Outcome.okOr Error.slice (tryIntoArray 16 ivBytes)
    let ciphertext ← Outcome.slice ivPlusCiphertext 16 ivPlusCiphertext.length
    let plaintext ← Outcome.okOr .unpad (prims.aesCbcDecrypt key iv ciphertext)
    importPlaintext curve plaintext

def importEncryptedBase64 (encrypted : EncryptedPrivateKey) (password : String) :
    Outcome Error (PrivateKey curve) := do
  let concatenation ← Outcome.okOr Error.base64
    (base64.decode (utf8 encrypted.text))
  if concatenation.length = 64 then
    importEncryptedPreV1 prims curve concatenation password
  else if concatenation.length = 80 then
    importEncryptedV1 prims curve concatenation password
  else .err .invalidEncryptedPrivateKey

def importEncryptedBech32 (encrypted : EncryptedPrivateKey) (password : String) :
    Outcome Error (PrivateKey curve) := do
  let data ← decodeBech32 bech32 hrpNcryptsec encrypted.text
  let version ← Outcome.index data 0
  if version = 1 then importEncryptedV1 prims curve data password
  else if version = 2 then importEncryptedV2 prims curve data password
  else .err .invalidEncryptedPrivateKey

def importEncrypted (encrypted : EncryptedPrivateKey) (password : String) :
    Outcome Error (PrivateKey curve) :=
  if "ncryptsec1".toList <+: encrypted.text.toList then
    importEncryptedBech32 prims bech32 curve encrypted password
  else importEncryptedBase64 prims base64 curve encrypted password

variable {curve}

/-- The layout of version 2, 91 bytes for the ciphertext of a secret key. -/
def layoutV2 (log2Rounds : UInt8) (salt : Vector UInt8 16)
    (nonce : Vector UInt8 24) (security : KeySecurity) (ciphertext : Bytes) :
    Bytes :=
  [2] ++ [log2Rounds] ++ salt.toList ++ nonce.toList ++ [securityByte security] ++
    ciphertext

section Layout

variable (log2Rounds : UInt8) (salt : Vector UInt8 16) (nonce : Vector UInt8 24)
  (security : KeySecurity) (ciphertext : Bytes)

theorem length_layoutV2 :
    (layoutV2 log2Rounds salt nonce security ciphertext).length =
      43 + ciphertext.length := by
  simp only [layoutV2, List.length_append, List.length_singleton,
    Vector.length_toList]

theorem slice_salt_layoutV2 :
    (Outcome.slice (layoutV2 log2Rounds salt nonce security ciphertext) 2 18 :
      Outcome Error Bytes) = .ok salt.toList := by
  have happend := Outcome.slice_append (ε := Error) ([2] ++ [log2Rounds])
    salt.toList (nonce.toList ++ [securityByte security] ++ ciphertext)
  rwa [Vector.length_toList, ← List.append_assoc, ← List.append_assoc] at happend

theorem slice_nonce_layoutV2 :
    (Outcome.slice (layoutV2 log2Rounds salt nonce security ciphertext) 18 42 :
      Outcome Error Bytes) = .ok nonce.toList := by
  have happend := Outcome.slice_append (ε := Error)
    ([2] ++ [log2Rounds] ++ salt.toList) nonce.toList
    ([securityByte security] ++ ciphertext)
  rwa [List.length_append, Vector.length_toList, Vector.length_toList,
    ← List.append_assoc] at happend

theorem slice_associated_layoutV2 :
    (Outcome.slice (layoutV2 log2Rounds salt nonce security ciphertext) 42 43 :
      Outcome Error Bytes) = .ok [securityByte security] := by
  have happend := Outcome.slice_append (ε := Error)
    ([2] ++ [log2Rounds] ++ salt.toList ++ nonce.toList)
    [securityByte security] ciphertext
  rwa [List.length_append, List.length_append, Vector.length_toList,
    Vector.length_toList] at happend

theorem slice_ciphertext_layoutV2 :
    (Outcome.slice (layoutV2 log2Rounds salt nonce security ciphertext) 43
      (layoutV2 log2Rounds salt nonce security ciphertext).length :
      Outcome Error Bytes) = .ok ciphertext := by
  have happend := Outcome.slice_append (ε := Error)
    ([2] ++ [log2Rounds] ++ salt.toList ++ nonce.toList ++
      [securityByte security]) ciphertext []
  rw [List.append_nil] at happend
  rw [length_layoutV2]
  rwa [List.length_append, List.length_append, List.length_append,
    Vector.length_toList, Vector.length_toList] at happend

end Layout

/-- Reading the layout of version 2 decrypts what was encrypted into it. -/
theorem importEncryptedV2_layoutV2 {prims : Primitives} {key : PrivateKey curve}
    {password : String} {log2Rounds : UInt8} {salt : Vector UInt8 16}
    {nonce : Vector UInt8 24} {symmetricKey : Vector UInt8 32}
    {ciphertext : Bytes}
    (hkey : passwordToKeyV2 prims password salt log2Rounds = .ok symmetricKey)
    (hencrypt : prims.aeadEncrypt symmetricKey nonce key.secret.bytes.toList
      [securityByte key.security] = some ciphertext) :
    importEncryptedV2 prims curve
      (layoutV2 log2Rounds salt nonce key.security ciphertext) password =
        .ok key := by
  have hciphertext : ciphertext.length = 48 := by
    rw [prims.length_of_aeadEncrypt hencrypt, Vector.length_toList]
  have hversion : (Outcome.index
      (layoutV2 log2Rounds salt nonce key.security ciphertext) 0 :
      Outcome Error UInt8) = .ok 2 := rfl
  have hrounds : (Outcome.index
      (layoutV2 log2Rounds salt nonce key.security ciphertext) 1 :
      Outcome Error UInt8) = .ok log2Rounds := rfl
  have hsecurity : (Outcome.index [securityByte key.security] 0 :
      Outcome Error UInt8) = .ok (securityByte key.security) := rfl
  unfold importEncryptedV2
  rw [if_neg (by rw [length_layoutV2]; omega), hversion, Outcome.ok_bind,
    if_neg (not_not_intro rfl), hrounds, Outcome.ok_bind, slice_salt_layoutV2,
    Outcome.ok_bind, tryIntoArray_toList, Outcome.okOr_some, Outcome.ok_bind,
    slice_nonce_layoutV2, Outcome.ok_bind, slice_associated_layoutV2,
    Outcome.ok_bind, slice_ciphertext_layoutV2, Outcome.ok_bind, hkey,
    Outcome.ok_bind, tryIntoArray_toList, Outcome.unwrap_some, Outcome.ok_bind,
    prims.aeadDecrypt_of_aeadEncrypt hencrypt, Outcome.okOr_some,
    Outcome.ok_bind, if_neg (by simp), hsecurity, Outcome.ok_bind,
    securityOfAssociated_securityByte, Outcome.ok_bind, SecretKey.fromSlice_bytes,
    Outcome.okOr_some, Outcome.ok_bind]
  rfl

/-- Whether the derivation takes the number of rounds. -/
def kdfAccepts (password : String) (log2Rounds : UInt8)
    (salt : Vector UInt8 16) : Bool :=
  (prims.scrypt (utf8 (prims.nfkc password)) salt.toList log2Rounds 8 1 32).isSome

/-- What is exported is routed to the reader of version 2 and comes back with
its secret and its security, whatever the random bytes. -/
theorem importEncrypted_exportEncrypted (key : PrivateKey curve)
    (password : String) (log2Rounds : UInt8) (salt : Vector UInt8 16)
    (nonce : Vector UInt8 24) :
    if kdfAccepts prims password log2Rounds salt = true then
      ∃ encrypted,
        key.exportEncrypted prims bech32 password log2Rounds salt nonce =
          .ok encrypted ∧
        importEncrypted prims base64 bech32 curve encrypted password = .ok key
    else
      key.exportEncrypted prims bech32 password log2Rounds salt nonce =
        .err .scrypt := by
  unfold kdfAccepts
  cases hscrypt : prims.scrypt (utf8 (prims.nfkc password)) salt.toList
      log2Rounds 8 1 32 with
  | none =>
      rw [if_neg (by simp), exportEncrypted, passwordToKeyV2, hscrypt]
      rfl
  | some symmetricKey =>
      have hkey : passwordToKeyV2 prims password salt log2Rounds =
          .ok symmetricKey := by
        rw [passwordToKeyV2, hscrypt, Outcome.okOr_some]
      have hshort : key.secret.bytes.toList.length ≤ 2 ^ 38 - 64 := by
        rw [Vector.length_toList]
        decide
      obtain ⟨ciphertext, hencrypt⟩ := Option.isSome_iff_exists.mp
        (prims.isSome_aeadEncrypt symmetricKey nonce
          [securityByte key.security] hshort)
      have hhrp := isHrp_of_mem hrpNcryptsec (by decide)
      have hlength : bech32Length hrpNcryptsec
          (layoutV2 log2Rounds salt nonce key.security ciphertext).length ≤
            bech32CodeLength := by
        rw [length_layoutV2, prims.length_of_aeadEncrypt hencrypt,
          Vector.length_toList]
        decide
      obtain ⟨text, htext⟩ := (bech32.exists_encode_iff hhrp).mpr hlength
      have hexport : key.exportEncrypted prims bech32 password log2Rounds salt
          nonce = .ok ⟨text⟩ := by
        unfold exportEncrypted
        dsimp only
        rw [hkey, Outcome.ok_bind, hencrypt, Outcome.okOr_some, Outcome.ok_bind]
        unfold layoutV2 at htext
        rw [htext, Outcome.okOr_some, Outcome.ok_bind]
        rfl
      have hversion : (Outcome.index
          (layoutV2 log2Rounds salt nonce key.security ciphertext) 0 :
          Outcome Error UInt8) = .ok 2 := rfl
      have hprefix : "ncryptsec1".toList <+: text.toList :=
        bech32.prefix_of_encode hhrp htext
      rw [if_pos Option.isSome_some]
      refine ⟨⟨text⟩, hexport, ?_⟩
      rw [importEncrypted, if_pos hprefix, importEncryptedBech32, decodeBech32_of_encode hhrp htext,
        Outcome.ok_bind, hversion, Outcome.ok_bind, if_neg (by decide),
        if_pos rfl, importEncryptedV2_layoutV2 hkey hencrypt]

section WrongPassword

/-- The check value stands before the last byte. -/
def HasCheckValue (plaintext : Bytes) : Prop :=
  12 ≤ plaintext.length ∧
    (plaintext.take (plaintext.length - 1)).drop (plaintext.length - 12) =
      v1CheckValue

/-- A wrong key is detected: what was encrypted opens to one message only,
whichever key opens it.  For the block cipher this is what the check value is
for. -/
structure DetectsWrongKeys (prims : Primitives) : Prop where
  aead : ∀ {first second : Vector UInt8 32} {nonce : Vector UInt8 24}
    {ciphertext associated one other : Bytes},
    prims.aeadDecrypt first nonce ciphertext associated = some one →
    prims.aeadDecrypt second nonce ciphertext associated = some other →
    one = other
  aesCbc : ∀ {first second : Vector UInt8 32} {iv : Vector UInt8 16}
    {ciphertext one other : Bytes},
    prims.aesCbcDecrypt first iv ciphertext = some one →
    prims.aesCbcDecrypt second iv ciphertext = some other →
    HasCheckValue one → HasCheckValue other → one = other

variable {prims : Primitives} {curve : Secp256k1}

/-- Only a plaintext with the check value is imported. -/
theorem hasCheckValue_of_importPlaintext {plaintext : Bytes}
    {key : PrivateKey curve} (hkey : importPlaintext curve plaintext = .ok key) :
    HasCheckValue plaintext := by
  obtain ⟨checkStart, hstart, hkey⟩ := Outcome.bind_eq_ok_iff.mp hkey
  obtain ⟨checkStop, hstop, hkey⟩ := Outcome.bind_eq_ok_iff.mp hkey
  obtain ⟨check, hcheck, hkey⟩ := Outcome.bind_eq_ok_iff.mp hkey
  have hlength : 12 ≤ plaintext.length := by
    by_contra hshort
    rw [Outcome.checkedSub_of_lt (by omega)] at hstart
    cases hstart
  rw [Outcome.checkedSub_of_le (by omega)] at hstart hstop
  cases hstart
  cases hstop
  rw [Outcome.slice_of_le (by omega) (by omega)] at hcheck
  cases hcheck
  split at hkey
  · cases hkey
  · rename_i hvalue
    exact ⟨hlength, not_not.mp hvalue⟩

/-- Two passwords that open a block-cipher text open it to the same key. -/
theorem importPlaintext_unique (hdetects : DetectsWrongKeys prims)
    {first second : Vector UInt8 32} {iv : Vector UInt8 16}
    {ciphertext plaintext plaintext' : Bytes} {key key' : PrivateKey curve}
    (hplaintext : prims.aesCbcDecrypt first iv ciphertext = some plaintext)
    (hplaintext' : prims.aesCbcDecrypt second iv ciphertext = some plaintext')
    (hkey : importPlaintext curve plaintext = .ok key)
    (hkey' : importPlaintext curve plaintext' = .ok key') : key = key' := by
  have hsame := hdetects.aesCbc hplaintext hplaintext'
    (hasCheckValue_of_importPlaintext hkey)
    (hasCheckValue_of_importPlaintext hkey')
  rw [hsame, hkey'] at hkey
  cases hkey
  rfl

theorem importEncryptedV1_unique (hdetects : DetectsWrongKeys prims)
    {concatenation : Bytes} {password password' : String}
    {key key' : PrivateKey curve}
    (hkey : importEncryptedV1 prims curve concatenation password = .ok key)
    (hkey' : importEncryptedV1 prims curve concatenation password' = .ok key') :
    key = key' := by
  obtain ⟨saltBytes, hsaltBytes, hkey⟩ := Outcome.bind_eq_ok_iff.mp hkey
  obtain ⟨salt, hsalt, hkey⟩ := Outcome.bind_eq_ok_iff.mp hkey
  obtain ⟨ivBytes, hivBytes, hkey⟩ := Outcome.bind_eq_ok_iff.mp hkey
  obtain ⟨iv, hiv, hkey⟩ := Outcome.bind_eq_ok_iff.mp hkey
  obtain ⟨ciphertext, hciphertext, hkey⟩ := Outcome.bind_eq_ok_iff.mp hkey
  obtain ⟨plaintext, hplaintext, hkey⟩ := Outcome.bind_eq_ok_iff.mp hkey
  unfold importEncryptedV1 at hkey'
  rw [hsaltBytes, Outcome.ok_bind, hsalt, Outcome.ok_bind, hivBytes,
    Outcome.ok_bind, hiv, Outcome.ok_bind, hciphertext, Outcome.ok_bind] at hkey'
  obtain ⟨plaintext', hplaintext', hkey'⟩ := Outcome.bind_eq_ok_iff.mp hkey'
  split at hkey
  · cases hkey
  · split at hkey'
    · cases hkey'
    · exact importPlaintext_unique hdetects (Outcome.okOr_eq_ok_iff.mp hplaintext)
        (Outcome.okOr_eq_ok_iff.mp hplaintext') hkey hkey'

theorem importEncryptedPreV1_unique (hdetects : DetectsWrongKeys prims)
    {ivPlusCiphertext : Bytes} {password password' : String}
    {key key' : PrivateKey curve}
    (hkey : importEncryptedPreV1 prims curve ivPlusCiphertext password = .ok key)
    (hkey' : importEncryptedPreV1 prims curve ivPlusCiphertext password' =
      .ok key') : key = key' := by
  unfold importEncryptedPreV1 at hkey hkey'
  split at hkey
  · cases hkey
  · rename_i hlength
    rw [if_neg hlength] at hkey'
    obtain ⟨ivBytes, hivBytes, hkey⟩ := Outcome.bind_eq_ok_iff.mp hkey
    obtain ⟨iv, hiv, hkey⟩ := Outcome.bind_eq_ok_iff.mp hkey
    obtain ⟨ciphertext, hciphertext, hkey⟩ := Outcome.bind_eq_ok_iff.mp hkey
    obtain ⟨plaintext, hplaintext, hkey⟩ := Outcome.bind_eq_ok_iff.mp hkey
    rw [hivBytes, Outcome.ok_bind, hiv, Outcome.ok_bind, hciphertext,
      Outcome.ok_bind] at hkey'
    obtain ⟨plaintext', hplaintext', hkey'⟩ := Outcome.bind_eq_ok_iff.mp hkey'
    exact importPlaintext_unique hdetects (Outcome.okOr_eq_ok_iff.mp hplaintext)
      (Outcome.okOr_eq_ok_iff.mp hplaintext') hkey hkey'

theorem importEncryptedV2_unique (hdetects : DetectsWrongKeys prims)
    {concatenation : Bytes} {password password' : String}
    {key key' : PrivateKey curve}
    (hkey : importEncryptedV2 prims curve concatenation password = .ok key)
    (hkey' : importEncryptedV2 prims curve concatenation password' = .ok key') :
    key = key' := by
  unfold importEncryptedV2 at hkey hkey'
  split at hkey
  · cases hkey
  · rename_i hlength
    rw [if_neg hlength] at hkey'
    obtain ⟨version, hversion, hkey⟩ := Outcome.bind_eq_ok_iff.mp hkey
    rw [hversion, Outcome.ok_bind] at hkey'
    split at hkey
    · cases hkey
    · rename_i hversion
      rw [if_neg hversion] at hkey'
      obtain ⟨log2Rounds, hrounds, hkey⟩ := Outcome.bind_eq_ok_iff.mp hkey
      obtain ⟨saltBytes, hsaltBytes, hkey⟩ := Outcome.bind_eq_ok_iff.mp hkey
      obtain ⟨salt, hsalt, hkey⟩ := Outcome.bind_eq_ok_iff.mp hkey
      obtain ⟨nonceBytes, hnonceBytes, hkey⟩ := Outcome.bind_eq_ok_iff.mp hkey
      obtain ⟨associated, hassociated, hkey⟩ := Outcome.bind_eq_ok_iff.mp hkey
      obtain ⟨ciphertext, hciphertext, hkey⟩ := Outcome.bind_eq_ok_iff.mp hkey
      obtain ⟨symmetricKey, _, hkey⟩ := Outcome.bind_eq_ok_iff.mp hkey
      obtain ⟨nonce, hnonce, hkey⟩ := Outcome.bind_eq_ok_iff.mp hkey
      obtain ⟨innerSecret, hsecret, hkey⟩ := Outcome.bind_eq_ok_iff.mp hkey
      rw [hrounds, Outcome.ok_bind, hsaltBytes, Outcome.ok_bind, hsalt,
        Outcome.ok_bind, hnonceBytes, Outcome.ok_bind, hassociated,
        Outcome.ok_bind, hciphertext, Outcome.ok_bind] at hkey'
      obtain ⟨symmetricKey', _, hkey'⟩ := Outcome.bind_eq_ok_iff.mp hkey'
      rw [hnonce, Outcome.ok_bind] at hkey'
      obtain ⟨innerSecret', hsecret', hkey'⟩ := Outcome.bind_eq_ok_iff.mp hkey'
      have hsame := hdetects.aead (Outcome.okOr_eq_ok_iff.mp hsecret)
        (Outcome.okOr_eq_ok_iff.mp hsecret')
      rw [hsame, hkey'] at hkey
      cases hkey
      rfl

/-- Whatever passwords open an encrypted key, they open it to the same secret with
the same security. -/
theorem importEncrypted_unique {base64 : Base64} {bech32 : Bech32}
    (hdetects : DetectsWrongKeys prims) {encrypted : EncryptedPrivateKey}
    {password password' : String} {key key' : PrivateKey curve}
    (hkey : importEncrypted prims base64 bech32 curve encrypted password = .ok key)
    (hkey' : importEncrypted prims base64 bech32 curve encrypted password' =
      .ok key') : key = key' := by
  unfold importEncrypted at hkey hkey'
  split at hkey
  · rename_i hprefix
    rw [if_pos hprefix] at hkey'
    obtain ⟨data, hdata, hkey⟩ := Outcome.bind_eq_ok_iff.mp hkey
    obtain ⟨version, hversion, hkey⟩ := Outcome.bind_eq_ok_iff.mp hkey
    unfold importEncryptedBech32 at hkey'
    rw [hdata, Outcome.ok_bind, hversion, Outcome.ok_bind] at hkey'
    split at hkey
    · rename_i hone
      rw [if_pos hone] at hkey'
      exact importEncryptedV1_unique hdetects hkey hkey'
    · rename_i hone
      rw [if_neg hone] at hkey'
      split at hkey
      · rename_i htwo
        rw [if_pos htwo] at hkey'
        exact importEncryptedV2_unique hdetects hkey hkey'
      · cases hkey
  · rename_i hprefix
    rw [if_neg hprefix] at hkey'
    obtain ⟨concatenation, hdecode, hkey⟩ := Outcome.bind_eq_ok_iff.mp hkey
    unfold importEncryptedBase64 at hkey'
    rw [hdecode, Outcome.ok_bind] at hkey'
    split at hkey
    · rename_i hshort
      rw [if_pos hshort] at hkey'
      exact importEncryptedPreV1_unique hdetects hkey hkey'
    · rename_i hshort
      rw [if_neg hshort] at hkey'
      split at hkey
      · rename_i hlong
        rw [if_pos hlong] at hkey'
        exact importEncryptedV1_unique hdetects hkey hkey'
      · cases hkey

/-- What was exported is imported with its password. -/
theorem importEncrypted_of_exportEncrypted {base64 : Base64} {bech32 : Bech32}
    {key : PrivateKey curve} {password : String} {log2Rounds : UInt8}
    {salt : Vector UInt8 16} {nonce : Vector UInt8 24}
    {encrypted : EncryptedPrivateKey}
    (hexport : key.exportEncrypted prims bech32 password log2Rounds salt nonce =
      .ok encrypted) :
    importEncrypted prims base64 bech32 curve encrypted password = .ok key := by
  have hspec := importEncrypted_exportEncrypted prims base64 bech32 key password
    log2Rounds salt nonce
  split at hspec
  · obtain ⟨other, hother, himport⟩ := hspec
    rw [hexport] at hother
    cases hother
    exact himport
  · rw [hexport] at hspec
    cases hspec

end WrongPassword

end PrivateKey

end Types

end Gnostr
