/-
The version of an encrypted private key, of
`types/src/nostr/private_key/encrypted_private_key.rs`, beside the layout that the import
reads it as.  Both tell the layouts apart, the one by the length of the text, the other by
the length of what it decodes to.
-/
import Gnostr.Crypto.EncryptedPrivateKey

namespace Gnostr

namespace Types

/-- The version that the text tells, without importing the key. -/
def EncryptedPrivateKey.version (bech32 : Bech32) (encrypted : EncryptedPrivateKey) :
    Outcome Error Int8 :=
  if "ncryptsec1".toList <+: encrypted.text.toList then do
    let data ← decodeBech32 bech32 hrpNcryptsec encrypted.text
    let version ← Outcome.index data 0
    return version.toInt8
  else if (utf8 encrypted.text).length = 64 then return -1
  else return 0

namespace PrivateKey

/-- The readers of the layouts. -/
inductive Reader where
  | preV1
  | v1
  | v2
deriving Repr, DecidableEq

/-- The reader that the import comes to, and what it hands it. -/
def dispatch (base64 : Base64) (bech32 : Bech32) (encrypted : EncryptedPrivateKey) :
    Outcome Error (Reader × Bytes) :=
  if "ncryptsec1".toList <+: encrypted.text.toList then do
    let data ← decodeBech32 bech32 hrpNcryptsec encrypted.text
    let version ← Outcome.index data 0
    if version = 1 then .ok (.v1, data)
    else if version = 2 then .ok (.v2, data)
    else .err .invalidEncryptedPrivateKey
  else do
    let concatenation ← Outcome.okOr Error.base64 (base64.decode (utf8 encrypted.text))
    if concatenation.length = 64 then .ok (.preV1, concatenation)
    else if concatenation.length = 80 then .ok (.v1, concatenation)
    else .err .invalidEncryptedPrivateKey

section

variable (prims : Primitives) (base64 : Base64) (bech32 : Bech32) (curve : Secp256k1)

def Reader.run (payload : Bytes) (password : String) :
    Reader → Outcome Error (PrivateKey curve)
  | .preV1 => importEncryptedPreV1 prims curve payload password
  | .v1 => importEncryptedV1 prims curve payload password
  | .v2 => importEncryptedV2 prims curve payload password

/-- The import runs the reader it comes to. -/
theorem importEncrypted_eq (encrypted : EncryptedPrivateKey) (password : String) :
    importEncrypted prims base64 bech32 curve encrypted password =
      dispatch base64 bech32 encrypted >>= fun route =>
        route.1.run prims curve route.2 password := by
  unfold importEncrypted dispatch
  split_ifs with hbech32
  · unfold importEncryptedBech32
    rw [bind_assoc]
    refine bind_congr fun data => ?_
    rw [bind_assoc]
    refine bind_congr fun version => ?_
    split_ifs <;> rfl
  · unfold importEncryptedBase64
    rw [bind_assoc]
    refine bind_congr fun concatenation => ?_
    split_ifs <;> rfl

/-- The import hands the key to the reader. -/
def Reaches (encrypted : EncryptedPrivateKey) (reader : Reader) : Prop :=
  ∃ payload, dispatch base64 bech32 encrypted = .ok (reader, payload)

/-- Each reader is reached by the keys of its version and by no others. -/
def VersionAgrees (encrypted : EncryptedPrivateKey) : Prop :=
  (encrypted.version bech32 = .ok (-1) ↔ Reaches base64 bech32 encrypted .preV1) ∧
    (encrypted.version bech32 = .ok 1 ↔ Reaches base64 bech32 encrypted .v1) ∧
    (encrypted.version bech32 = .ok 2 ↔ Reaches base64 bech32 encrypted .v2)

end

section Bech32Form

variable {base64 : Base64} {bech32 : Bech32} {encrypted : EncryptedPrivateKey}

/-- In the bech32 form the version is the first byte. -/
theorem version_eq_ok_iff (hbech32 : "ncryptsec1".toList <+: encrypted.text.toList)
    {version : Int8} :
    encrypted.version bech32 = .ok version ↔
      ∃ data, decodeBech32 bech32 hrpNcryptsec encrypted.text = .ok data ∧
        ∃ first, data[0]? = some first ∧ first.toInt8 = version := by
  rw [EncryptedPrivateKey.version, if_pos hbech32, Outcome.bind_eq_ok_iff]
  refine exists_congr fun data => and_congr_right fun _ => ?_
  rw [Outcome.bind_eq_ok_iff]
  refine exists_congr fun first => ?_
  rw [Outcome.index_eq_ok_iff, Outcome.pure_eq, Outcome.ok.injEq]

/-- In the bech32 form the import goes by the first byte. -/
theorem dispatch_eq_ok_iff (hbech32 : "ncryptsec1".toList <+: encrypted.text.toList)
    {reader : Reader} {payload : Bytes} :
    dispatch base64 bech32 encrypted = .ok (reader, payload) ↔
      decodeBech32 bech32 hrpNcryptsec encrypted.text = .ok payload ∧
        (payload[0]? = some 1 ∧ reader = .v1 ∨ payload[0]? = some 2 ∧ reader = .v2) := by
  unfold dispatch
  rw [if_pos hbech32]
  simp only [Outcome.bind_eq_ok_iff, Outcome.index_eq_ok_iff]
  constructor
  · rintro ⟨data, hdata, first, hfirst, hroute⟩
    split_ifs at hroute with hone htwo
    · cases hroute
      exact ⟨hdata, .inl ⟨hone ▸ hfirst, rfl⟩⟩
    · cases hroute
      exact ⟨hdata, .inr ⟨htwo ▸ hfirst, rfl⟩⟩
  · rintro ⟨hdata, ⟨hfirst, rfl⟩ | ⟨hfirst, rfl⟩⟩
    · exact ⟨payload, hdata, 1, hfirst, rfl⟩
    · exact ⟨payload, hdata, 2, hfirst, rfl⟩

end Bech32Form

section Base64Form

variable {base64 : Base64} {bech32 : Bech32} {encrypted : EncryptedPrivateKey}

/-- In the base64 form no version other than those of the old layouts is told. -/
theorem version_eq_of_not_bech32
    (hbech32 : ¬ "ncryptsec1".toList <+: encrypted.text.toList) :
    encrypted.version bech32 =
      .ok (if (utf8 encrypted.text).length = 64 then -1 else 0) := by
  rw [EncryptedPrivateKey.version, if_neg hbech32]
  split_ifs <;> rfl

/-- In the base64 form the import goes by the length of what was decoded. -/
theorem of_dispatch_eq_ok (hbech32 : ¬ "ncryptsec1".toList <+: encrypted.text.toList)
    {reader : Reader} {payload : Bytes}
    (hdispatch : dispatch base64 bech32 encrypted = .ok (reader, payload)) :
    base64.decode (utf8 encrypted.text) = some payload ∧
      (payload.length = 64 ∧ reader = .preV1 ∨ payload.length = 80 ∧ reader = .v1) := by
  rw [dispatch, if_neg hbech32] at hdispatch
  obtain ⟨concatenation, hdecode, hroute⟩ := Outcome.bind_eq_ok_iff.mp hdispatch
  rw [Outcome.okOr_eq_ok_iff] at hdecode
  split_ifs at hroute with hshort hlong
  · cases hroute
    exact ⟨hdecode, .inl ⟨hshort, rfl⟩⟩
  · cases hroute
    exact ⟨hdecode, .inr ⟨hlong, rfl⟩⟩

/-- What is decoded to the length of a layout is longer than the text of version -1. -/
theorem length_ne_of_decode {concatenation : Bytes}
    (hdecode : base64.decode (utf8 encrypted.text) = some concatenation)
    (hlength : concatenation.length = 80) : (utf8 encrypted.text).length ≠ 64 := by
  rw [← base64.decode_eq_some_iff.mp hdecode, base64.length_encode, hlength]
  decide

end Base64Form

/-- The second version is told of the keys that its reader is handed; the first of those
that its reader is handed in the bech32 form, while those that it is handed in the base64
form are told apart as version 0. -/
theorem version_tells_reader (base64 : Base64) (bech32 : Bech32)
    (encrypted : EncryptedPrivateKey) :
    (encrypted.version bech32 = .ok 2 ↔ Reaches base64 bech32 encrypted .v2) ∧
      (encrypted.version bech32 = .ok 1 ↔
        "ncryptsec1".toList <+: encrypted.text.toList ∧
          Reaches base64 bech32 encrypted .v1) ∧
      (Reaches base64 bech32 encrypted .v1 →
        ¬ "ncryptsec1".toList <+: encrypted.text.toList →
        encrypted.version bech32 = .ok 0) := by
  by_cases hbech32 : "ncryptsec1".toList <+: encrypted.text.toList
  · have hbyte : ∀ byte version : UInt8, byte.toInt8 = version.toInt8 ↔ byte = version :=
      fun byte version => ⟨fun hsame => congrArg Int8.toUInt8 hsame, congrArg UInt8.toInt8⟩
    have hone : (1 : Int8) = (1 : UInt8).toInt8 := rfl
    have htwo : (2 : Int8) = (2 : UInt8).toInt8 := rfl
    unfold Reaches
    simp only [version_eq_ok_iff hbech32, dispatch_eq_ok_iff hbech32, hone, htwo, hbyte]
    refine ⟨?_, ?_, fun _ hnot => absurd hbech32 hnot⟩
    · simp
    · rw [and_iff_right hbech32]
      simp
  · rw [version_eq_of_not_bech32 hbech32]
    refine ⟨iff_of_false ?_ ?_, iff_of_false ?_ fun hboth => hbech32 hboth.1, ?_⟩
    · split_ifs <;> simp
    · rintro ⟨payload, hdispatch⟩
      obtain ⟨-, ⟨-, hreader⟩ | ⟨-, hreader⟩⟩ := of_dispatch_eq_ok hbech32 hdispatch
      · cases hreader
      · cases hreader
    · split_ifs <;> simp
    · rintro ⟨payload, hdispatch⟩ _
      obtain ⟨hdecode, ⟨-, hreader⟩ | ⟨hlength, -⟩⟩ :=
        of_dispatch_eq_ok hbech32 hdispatch
      · cases hreader
      · rw [if_neg (length_ne_of_decode hdecode hlength)]

/-- A text of the first layout in its old form: 80 zero bytes in base64. -/
def saltedBase64Key : EncryptedPrivateKey :=
  ⟨String.ofList (List.replicate 107 'A' ++ ['='])⟩

theorem saltedBase64Key_reaches :
    saltedBase64Key.version Bech32.reference = .ok 0 ∧
      Reaches Base64.reference Bech32.reference saltedBase64Key .v1 := by
  have hencode : utf8 (Base64.reference.encode (List.replicate 80 0)) =
      utf8 saltedBase64Key.text := by decide +kernel
  have hdecode := Base64.reference.decode_eq_some_iff.mpr hencode
  refine ⟨by decide +kernel, List.replicate 80 0, ?_⟩
  rw [dispatch, if_neg (by decide +kernel), hdecode]
  rfl

theorem not_versionAgrees_saltedBase64Key :
    ¬ ∀ base64 bech32 encrypted, VersionAgrees base64 bech32 encrypted := by
  intro hall
  obtain ⟨hversion, hreaches⟩ := saltedBase64Key_reaches
  have hone := (hall Base64.reference Bech32.reference saltedBase64Key).2.1.mpr hreaches
  rw [hversion] at hone
  cases hone

end PrivateKey

end Types

end Gnostr
