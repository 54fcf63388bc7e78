/-
Identifiers and keys of `types/src/nostr`: `id.rs`, `public_key.rs`, the key type
of `private_key/mod.rs`, and the errors of the crate.
-/
import Gnostr.Lib.Bech32
import Gnostr.Lib.Hex
import Gnostr.Lib.Outcome

namespace Gnostr

namespace Types

/-- Errors of NIP-44 operations. -/
inductive Nip44Error where
  | base64Decode
  | hkdfLength (length : ℕ)
  | hmacLength
  | invalidMac
  | invalidPadding
  | messageIsEmpty
  | messageIsTooLong
  | unsupportedFutureVersion
  | unknownVersion
  | invalidLength
  | utf8Decode
deriving Repr, DecidableEq

/-- Errors of the crate.  An error passed on from another crate is kept without
its payload. -/
inductive Error where
  | assertionFailed (message : String)
  | badEncryptedMessage
  | badEncryptedMessageBase64
  | base64
  | bech32Decode
  | bech32Encode
  | crypto (error : Nip44Error)
  | privateKeyEncryption
  | fromUtf8
  | wrongBech32 (expected found : String)
  | keyOrSignature
  | eventInFuture
  | hashMismatch
  | hexDecode
  | invalidEncryptedPrivateKey
  | invalidId
  | invalidLength
  | invalidNAddr
  | invalidNEvent
  | invalidOperation
  | invalidPrivateKey
  | invalidProfile
  | invalidPublicKey
  | invalidRecipient
  | invalidUrl
  | invalidUrlTlv
  | invalidUrlHost (host : String)
  | invalidUrlMissingAuthority
  | nonReplaceableAddr
  | outOfRange (length : ℕ)
  | parseInt
  | scrypt
  | serdeJson
  | signerIsLocked
  | slice
  | tagMismatch
  | unknownKeySecurity (number : UInt8)
  | unknownCipherVersion (version : UInt8)
  | unpad
  | url (message : String)
  | utf8Error
  | wrongEventKind
  | wrongLengthHexString
  | wrongLengthKindBytes
  | wrongDecryptionPassword
  | zapReceipt (message : String)
  | invalidNip19Data
  | invalidNip19Prefix
deriving Repr, DecidableEq

/-- What the crate uses of the secp256k1 library.  A shared point is computed
from the even point over an x-only key; its x coordinate is the same for both
parties, its y coordinate need not be. -/
structure Secp256k1 where
  isSecretKey : Vector UInt8 32 → Bool
  isXOnlyPublicKey : Vector UInt8 32 → Bool
  xOnlyPublicKey : Vector UInt8 32 → Vector UInt8 32
  sharedSecretPoint : Vector UInt8 32 → Vector UInt8 32 → Vector UInt8 64
  isXOnlyPublicKey_xOnlyPublicKey : ∀ {secret : Vector UInt8 32},
    isSecretKey secret = true → isXOnlyPublicKey (xOnlyPublicKey secret) = true
  sharedSecretPoint_comm : ∀ {first second : Vector UInt8 32},
    isSecretKey first = true → isSecretKey second = true →
    (sharedSecretPoint (xOnlyPublicKey second) first).toList.take 32 =
      (sharedSecretPoint (xOnlyPublicKey first) second).toList.take 32

/-- A secret key of the library, in range. -/
structure SecretKey (curve : Secp256k1) where
  bytes : Vector UInt8 32
  isSecretKey : curve.isSecretKey bytes = true

/-- `SecretKey::from_slice`. -/
def SecretKey.fromSlice (curve : Secp256k1) (bytes : Bytes) :
    Option (SecretKey curve) :=
  (tryIntoArray 32 bytes).bind fun array =>
    if hsecret : curve.isSecretKey array = true then some ⟨array, hsecret⟩
    else none

@[simp] theorem SecretKey.fromSlice_bytes {curve : Secp256k1}
    (secret : SecretKey curve) :
    SecretKey.fromSlice curve secret.bytes.toList = some secret := by
  rw [SecretKey.fromSlice, tryIntoArray_toList, Option.bind_some,
    dif_pos secret.isSecretKey]

/-- `XOnlyPublicKey::from_slice`. -/
def xOnlyFromSlice (curve : Secp256k1) (bytes : Bytes) :
    Option (Vector UInt8 32) :=
  (tryIntoArray 32 bytes).filter curve.isXOnlyPublicKey

/-- An event identifier, a SHA256 hash. -/
structure Id where
  bytes : Vector UInt8 32
deriving Repr, DecidableEq

/-- A public key.  Nothing but a verifying constructor guarantees that it is
the x coordinate of a point. -/
structure PublicKey where
  bytes : Vector UInt8 32
deriving Repr, DecidableEq

def hrpNaddr : String := "naddr"
def hrpNcryptsec : String := "ncryptsec"
def hrpNevent : String := "nevent"
def hrpNote : String := "note"
def hrpNprofile : String := "nprofile"
def hrpNpub : String := "npub"
def hrpNrelay : String := "nrelay"
def hrpNsec : String := "nsec"

theorem isHrp_of_mem : ∀ hrp ∈ [hrpNaddr, hrpNcryptsec, hrpNevent, hrpNote,
    hrpNprofile, hrpNpub, hrpNrelay, hrpNsec], IsHrp hrp := by
  decide +kernel

def lowercase (text : String) : String :=
  String.ofList (text.toList.map Char.toLower)

/-- `bech32::decode` followed by the check of the human-readable part, which is
compared without regard to case. -/
def decodeBech32 (bech32 : Bech32) (hrp text : String) :
    Outcome Error Bytes := do
  let data ← Outcome.okOr .bech32Decode (bech32.decode text)
  if lowercase data.1 ≠ lowercase hrp then
    .err (.wrongBech32 (lowercase hrp) (lowercase data.1))
  else
    return data.2

/-- `bech32::encode` followed by `unwrap`. -/
def encodeBech32 (bech32 : Bech32) (hrp : String) (data : Bytes) :
    Outcome Error String :=
  Outcome.unwrap (bech32.encode hrp data)

theorem decodeBech32_of_encode {bech32 : Bech32} {hrp text : String}
    {data : Bytes} (hhrp : IsHrp hrp)
    (hencode : bech32.encode hrp data = some text) :
    decodeBech32 bech32 hrp text = .ok data := by
  rw [decodeBech32, bech32.decode_of_encode hhrp hencode]
  simp

theorem encodeBech32_eq_ok_iff {bech32 : Bech32} {hrp text : String}
    {data : Bytes} :
    encodeBech32 bech32 hrp data = .ok text ↔
      bech32.encode hrp data = some text := by
  unfold encodeBech32
  cases bech32.encode hrp data with
  | none => simp
  | some other => simp

theorem returns_decodeBech32 (bech32 : Bech32) (hrp text : String) :
    (decodeBech32 bech32 hrp text).Returns := by
  unfold decodeBech32
  refine Outcome.returns_bind_iff.mpr ⟨Outcome.returns_okOr _ _, ?_⟩
  intro data _
  split
  · exact Outcome.returns_err _
  · exact Outcome.returns_ok _

namespace Id

def asHexString (hex : Hex) (id : Id) : String := hex.encode id.bytes.toList

def tryFromHexString (hex : Hex) (text : String) : Outcome Error Id := do
  let vec ← Outcome.okOr .hexDecode (hex.decode text)
  let array ← Outcome.okOr .wrongLengthHexString (tryIntoArray 32 vec)
  return ⟨array⟩

@[simp] theorem tryFromHexString_asHexString (hex : Hex) (id : Id) :
    tryFromHexString hex (id.asHexString hex) = .ok id := by
  rw [tryFromHexString, asHexString, hex.decode_encode, Outcome.okOr_some,
    Outcome.ok_bind, tryIntoArray_toList]
  rfl

def tryFromBytes (bytes : Bytes) : Outcome Error Id :=
  if bytes.length ≠ 32 then .err .invalidId
  else Id.mk <$> Outcome.unwrap (tryIntoArray 32 bytes)

def asBech32String (bech32 : Bech32) (id : Id) : Outcome Error String :=
  encodeBech32 bech32 hrpNote id.bytes.toList

def tryFromBech32String (bech32 : Bech32) (text : String) :
    Outcome Error Id := do
  let data ← decodeBech32 bech32 hrpNote text
  if data.length ≠ 32 then .err .invalidId
  else
    match tryIntoArray 32 data with
    | some array => return ⟨array⟩
    | none => .err .invalidId

theorem returns_tryFromBech32String (bech32 : Bech32) (text : String) :
    (tryFromBech32String bech32 text).Returns := by
  refine Outcome.returns_bind_iff.mpr ⟨returns_decodeBech32 _ _ _, ?_⟩
  intro data _
  split
  · exact Outcome.returns_err _
  · split
    · exact Outcome.returns_ok _
    · exact Outcome.returns_err _

end Id

namespace PublicKey

def asHexString (hex : Hex) (key : PublicKey) : String :=
  hex.encode key.bytes.toList

/-- The key is the x coordinate of a point. -/
def Verified (curve : Secp256k1) (key : PublicKey) : Prop :=
  curve.isXOnlyPublicKey key.bytes = true

instance (curve : Secp256k1) (key : PublicKey) :
    Decidable (key.Verified curve) :=
  inferInstanceAs (Decidable (_ = _))

/-- Import from raw bytes, on demand only what is an x-only key. -/
def fromBytes (curve : Secp256k1) (bytes : Bytes) (verify : Bool) :
    Outcome Error PublicKey :=
  if bytes.length ≠ 32 then .err .invalidPublicKey
  else do
    if verify then
      let _ ← Outcome.okOr Error.keyOrSignature (xOnlyFromSlice curve bytes)
    PublicKey.mk <$> Outcome.unwrap (tryIntoArray 32 bytes)

/-- Import from a hexadecimal text, on demand only what is an x-only key. -/
def tryFromHexString (curve : Secp256k1) (hex : Hex) (text : String)
    (verify : Bool) : Outcome Error PublicKey := do
  let vec ← Outcome.okOr .hexDecode (hex.decode text)
  fromBytes curve vec verify

/-- `as_xonly_public_key`, which unwraps. -/
def asXOnlyPublicKey (curve : Secp256k1) (key : PublicKey) :
    Outcome Error (Vector UInt8 32) :=
  Outcome.unwrap (xOnlyFromSlice curve key.bytes.toList)

def asBech32String (bech32 : Bech32) (key : PublicKey) :
    Outcome Error String :=
  encodeBech32 bech32 hrpNpub key.bytes.toList

def tryFromBech32String (curve : Secp256k1) (bech32 : Bech32) (text : String)
    (verify : Bool) : Outcome Error PublicKey := do
  let data ← decodeBech32 bech32 hrpNpub text
  fromBytes curve data verify

theorem fromBytes_bytes (curve : Secp256k1) (key : PublicKey) (verify : Bool) :
    fromBytes curve key.bytes.toList verify =
      if verify = true ∧ ¬ key.Verified curve then .err .keyOrSignature
      else .ok key := by
  rw [fromBytes, if_neg (not_not_intro Vector.length_toList), xOnlyFromSlice,
    tryIntoArray_toList]
  by_cases hverified : key.Verified curve
  · have hfilter : (some key.bytes).filter curve.isXOnlyPublicKey =
        some key.bytes := Option.filter_some_pos hverified
    cases verify <;> simp [hfilter, hverified]
  · have hfilter : (some key.bytes).filter curve.isXOnlyPublicKey = none :=
      Option.filter_some_neg (Bool.eq_false_iff.mpr hverified)
    cases verify <;> simp [hfilter, hverified]

/-- The text of a key on the curve is read as the key, that of another is
refused. -/
theorem tryFromHexString_asHexString (curve : Secp256k1) (hex : Hex)
    (key : PublicKey) (verify : Bool) :
    tryFromHexString curve hex (key.asHexString hex) verify =
      if verify = true ∧ ¬ key.Verified curve then .err .keyOrSignature
      else .ok key := by
  rw [tryFromHexString, asHexString, hex.decode_encode, Outcome.okOr_some,
    Outcome.ok_bind, fromBytes_bytes]

theorem returns_fromBytes (curve : Secp256k1) (bytes : Bytes) (verify : Bool) :
    (fromBytes curve bytes verify).Returns := by
  by_cases hlength : bytes.length = 32
  · have hbytes : (⟨⟨bytes.toArray, hlength⟩⟩ : PublicKey).bytes.toList =
        bytes := rfl
    rw [← hbytes, fromBytes_bytes]
    split
    · exact Outcome.returns_err _
    · exact Outcome.returns_ok _
  · rw [fromBytes, if_pos hlength]
    exact Outcome.returns_err _

theorem returns_tryFromHexString (curve : Secp256k1) (hex : Hex) (text : String)
    (verify : Bool) : (tryFromHexString curve hex text verify).Returns :=
  Outcome.returns_bind_iff.mpr
    ⟨Outcome.returns_okOr _ _, fun _ _ => returns_fromBytes _ _ _⟩

theorem asXOnlyPublicKey_of_verified {curve : Secp256k1} {key : PublicKey}
    (hverified : key.Verified curve) :
    key.asXOnlyPublicKey curve = .ok key.bytes := by
  rw [asXOnlyPublicKey, xOnlyFromSlice, tryIntoArray_toList,
    Option.filter_some_pos hverified]
  rfl

theorem asXOnlyPublicKey_of_not_verified {curve : Secp256k1} {key : PublicKey}
    (hnot : ¬ key.Verified curve) :
    key.asXOnlyPublicKey curve = .panic := by
  rw [asXOnlyPublicKey, xOnlyFromSlice, tryIntoArray_toList,
    Option.filter_some_neg (Bool.eq_false_iff.mpr hnot)]
  rfl

theorem returns_tryFromBech32String (curve : Secp256k1) (bech32 : Bech32)
    (text : String) (verify : Bool) :
    (tryFromBech32String curve bech32 text verify).Returns :=
  Outcome.returns_bind_iff.mpr
    ⟨returns_decodeBech32 _ _ _, fun _ _ => returns_fromBytes _ _ _⟩

end PublicKey

/-- Whether the secret was handled carefully. -/
inductive KeySecurity where
  | weak
  | medium
  | notTracked
deriving Repr, DecidableEq

def KeySecurity.tryFromU8 (i : UInt8) : Outcome Error KeySecurity :=
  if i = 0 then .ok .weak
  else if i = 1 then .ok .medium
  else if i = 2 then .ok .notTracked
  else .err (.unknownKeySecurity i)

structure PrivateKey (curve : Secp256k1) where
  secret : SecretKey curve
  security : KeySecurity

namespace PrivateKey

variable {curve : Secp256k1}

/-- The public key of a private key, which the library serializes. -/
def publicKey (key : PrivateKey curve) : PublicKey :=
  ⟨curve.xOnlyPublicKey key.secret.bytes⟩

theorem publicKey_verified (key : PrivateKey curve) :
    key.publicKey.Verified curve :=
  curve.isXOnlyPublicKey_xOnlyPublicKey key.secret.isSecretKey

end PrivateKey

/-- A curve on which every byte string is a secret key and an x coordinate, for
runs on keys that are valid on the curve in use as well. -/
def Secp256k1.permissive : Secp256k1 where
  isSecretKey _ := true
  isXOnlyPublicKey _ := true
  xOnlyPublicKey secret := secret
  sharedSecretPoint _ _ := Vector.replicate 64 0
  isXOnlyPublicKey_xOnlyPublicKey _ := rfl
  sharedSecretPoint_comm _ _ := rfl

end Types

end Gnostr
