/-
When reading an encrypted private key panics.  The lengths of the payloads are checked on
every way into the readers but that of the bech32 form, where the byte of the version and
the parts of the first layout are cut out of whatever was decoded.
-/
import Gnostr.Crypto.KeyVersion

namespace Gnostr

namespace Types

namespace PrivateKey

/-- Decrypting a block cipher's text takes at most one block of padding off. -/
def Unpads (prims : Primitives) : Prop :=
  ∀ {key : Vector UInt8 32} {iv : Vector UInt8 16} {ciphertext plaintext : Bytes},
    prims.aesCbcDecrypt key iv ciphertext = some plaintext →
      ciphertext.length ≤ plaintext.length + 16

/-- Neither the version nor the import panics, whatever the password. -/
def NeverPanics (prims : Primitives) (base64 : Base64) (bech32 : Bech32)
    (curve : Secp256k1) (encrypted : EncryptedPrivateKey) : Prop :=
  (encrypted.version bech32).Returns ∧
    ∀ password, (importEncrypted prims base64 bech32 curve encrypted password).Returns

/-- The text is in the bech32 form, and its payload is empty, or of the first layout and
shorter than the salt and the initialization vector. -/
def ShortPayload (bech32 : Bech32) (encrypted : EncryptedPrivateKey) : Prop :=
  "ncryptsec1".toList <+: encrypted.text.toList ∧
    ∃ data, decodeBech32 bech32 hrpNcryptsec encrypted.text = .ok data ∧
      (data = [] ∨ data[0]? = some 1 ∧ data.length < 32)

section Readers

variable {prims : Primitives} {curve : Secp256k1} {password : String} {payload : Bytes}

theorem returns_tryFromU8 (i : UInt8) : (KeySecurity.tryFromU8 i).Returns := by
  unfold KeySecurity.tryFromU8
  split_ifs <;> simp

theorem returns_securityOfAssociated (byte : UInt8) :
    (securityOfAssociated byte).Returns := by
  unfold securityOfAssociated
  split_ifs <;> simp

theorem returns_importPlaintext {plaintext : Bytes} (hlength : 12 ≤ plaintext.length) :
    (importPlaintext curve plaintext).Returns := by
  unfold importPlaintext
  rw [Outcome.checkedSub_of_le hlength, Outcome.ok_bind,
    Outcome.checkedSub_of_le (by omega), Outcome.ok_bind, Outcome.returns_bind_iff]
  refine ⟨Outcome.returns_slice_iff.mpr (by omega), fun check _ => ?_⟩
  split_ifs
  · exact Outcome.returns_err _
  · refine Outcome.returns_bind_iff.mpr
      ⟨Outcome.returns_index_iff.mpr (by omega), fun byte _ => ?_⟩
    refine Outcome.returns_bind_iff.mpr ⟨returns_tryFromU8 byte, fun security _ => ?_⟩
    refine Outcome.returns_bind_iff.mpr
      ⟨Outcome.returns_slice_iff.mpr (by omega), fun secretBytes _ => ?_⟩
    exact Outcome.returns_bind_iff.mpr
      ⟨Outcome.returns_okOr _ _, fun secret _ => Outcome.returns_ok _⟩

/-- An array of the length of the part is always made of it. -/
theorem exists_tryIntoArray_of_slice {start stop n : ℕ} {part : Bytes}
    (hpart : (Outcome.slice payload start stop : Outcome Error Bytes) = .ok part)
    (hlength : stop = start + n) : ∃ array, tryIntoArray n part = some array := by
  unfold Outcome.slice at hpart
  split_ifs at hpart with hbounds
  cases hpart
  refine (exists_tryIntoArray ?_).imp fun array => And.left
  rw [List.length_drop, List.length_take]
  omega

/-- The reader of the first layout panics exactly on what is shorter than the salt and the
initialization vector. -/
theorem returns_importEncryptedV1_iff :
    (importEncryptedV1 prims curve payload password).Returns ↔ 32 ≤ payload.length := by
  unfold importEncryptedV1
  constructor
  · intro hreturns
    obtain ⟨hsalt, hreturns⟩ := Outcome.returns_bind_iff.mp hreturns
    have hslice := Outcome.slice_of_le (ε := Error) (Nat.zero_le 16)
      (Outcome.returns_slice_iff.mp hsalt).2
    obtain ⟨salt, hsalt⟩ := exists_tryIntoArray_of_slice (n := 16) hslice rfl
    have hreturns := hreturns _ hslice
    rw [hsalt, Outcome.okOr_some, Outcome.ok_bind, Outcome.returns_bind_iff] at hreturns
    exact (Outcome.returns_slice_iff.mp hreturns.1).2
  · intro hlength
    refine Outcome.returns_bind_iff.mpr
      ⟨Outcome.returns_slice_iff.mpr (by omega), fun saltBytes _ => ?_⟩
    refine Outcome.returns_bind_iff.mpr ⟨Outcome.returns_okOr _ _, fun salt _ => ?_⟩
    refine Outcome.returns_bind_iff.mpr
      ⟨Outcome.returns_slice_iff.mpr (by omega), fun ivBytes _ => ?_⟩
    refine Outcome.returns_bind_iff.mpr ⟨Outcome.returns_okOr _ _, fun iv _ => ?_⟩
    refine Outcome.returns_bind_iff.mpr
      ⟨Outcome.returns_slice_iff.mpr (by omega), fun ciphertext _ => ?_⟩
    refine Outcome.returns_bind_iff.mpr ⟨Outcome.returns_okOr _ _, fun plaintext _ => ?_⟩
    split_ifs with hplaintext
    · exact Outcome.returns_err _
    · exact returns_importPlaintext (by omega)

theorem returns_importEncryptedPreV1 (hunpads : Unpads prims)
    (hlength : payload.length = 64) :
    (importEncryptedPreV1 prims curve payload password).Returns := by
  unfold importEncryptedPreV1
  dsimp only
  rw [if_neg (by omega)]
  refine Outcome.returns_bind_iff.mpr
    ⟨Outcome.returns_slice_iff.mpr (by omega), fun ivBytes _ => ?_⟩
  refine Outcome.returns_bind_iff.mpr ⟨Outcome.returns_okOr _ _, fun iv _ => ?_⟩
  rw [Outcome.slice_of_le (by omega) le_rfl, Outcome.ok_bind]
  refine Outcome.returns_bind_iff.mpr
    ⟨Outcome.returns_okOr _ _, fun plaintext hplaintext => ?_⟩
  -- 48 bytes of ciphertext leave 32 of plaintext at least
  have hunpadded := hunpads (Outcome.okOr_eq_ok_iff.mp hplaintext)
  rw [List.length_drop, List.length_take] at hunpadded
  exact returns_importPlaintext (by omega)

theorem returns_importEncryptedV2 (hversion : payload[0]? = some 2) :
    (importEncryptedV2 prims curve payload password).Returns := by
  unfold importEncryptedV2
  split_ifs with hshort
  · exact Outcome.returns_err _
  · rw [Outcome.index_eq_ok_iff.mpr hversion, Outcome.ok_bind,
      if_neg (not_not_intro rfl)]
    refine Outcome.returns_bind_iff.mpr
      ⟨Outcome.returns_index_iff.mpr (by omega), fun log2Rounds _ => ?_⟩
    refine Outcome.returns_bind_iff.mpr
      ⟨Outcome.returns_slice_iff.mpr (by omega), fun saltBytes _ => ?_⟩
    refine Outcome.returns_bind_iff.mpr ⟨Outcome.returns_okOr _ _, fun salt _ => ?_⟩
    refine Outcome.returns_bind_iff.mpr
      ⟨Outcome.returns_slice_iff.mpr (by omega), fun nonceBytes hnonce => ?_⟩
    refine Outcome.returns_bind_iff.mpr
      ⟨Outcome.returns_slice_iff.mpr (by omega), fun associated hassociated => ?_⟩
    refine Outcome.returns_bind_iff.mpr
      ⟨Outcome.returns_slice_iff.mpr (by omega), fun ciphertext _ => ?_⟩
    refine Outcome.returns_bind_iff.mpr
      ⟨Outcome.returns_okOr _ _, fun symmetricKey _ => ?_⟩
    obtain ⟨nonce, hnonce⟩ := exists_tryIntoArray_of_slice (n := 24) hnonce rfl
    rw [hnonce, Outcome.unwrap_some, Outcome.ok_bind]
    refine Outcome.returns_bind_iff.mpr ⟨Outcome.returns_okOr _ _, fun secret _ => ?_⟩
    split_ifs with hempty
    · exact Outcome.returns_err _
    · have hpos : 0 < associated.length :=
        List.length_pos_iff.mpr fun hnil => hempty (List.isEmpty_iff.mpr hnil)
      refine Outcome.returns_bind_iff.mpr
        ⟨Outcome.returns_index_iff.mpr hpos, fun byte _ => ?_⟩
      refine Outcome.returns_bind_iff.mpr
        ⟨returns_securityOfAssociated byte, fun security _ => ?_⟩
      exact Outcome.returns_bind_iff.mpr
        ⟨Outcome.returns_okOr _ _, fun signingKey _ => Outcome.returns_ok _⟩

end Readers

section Dispatch

variable {base64 : Base64} {bech32 : Bech32} {encrypted : EncryptedPrivateKey}

theorem returns_index_zero_iff {payload : Bytes} :
    (Outcome.index payload 0 : Outcome Error UInt8).Returns ↔ payload ≠ [] := by
  rw [Outcome.returns_index_iff, List.length_pos_iff]

/-- The version is missing where the payload is empty. -/
theorem returns_version_iff :
    (encrypted.version bech32).Returns ↔
      ("ncryptsec1".toList <+: encrypted.text.toList →
        decodeBech32 bech32 hrpNcryptsec encrypted.text ≠ .ok []) := by
  by_cases hbech32 : "ncryptsec1".toList <+: encrypted.text.toList
  · rw [EncryptedPrivateKey.version, if_pos hbech32, Outcome.returns_bind_iff,
      and_iff_right (returns_decodeBech32 _ _ _), forall_prop_of_true hbech32]
    constructor
    · intro hreturns hempty
      exact returns_index_zero_iff.mp (Outcome.returns_bind_iff.mp (hreturns _ hempty)).1 rfl
    · intro hne data hdata
      refine Outcome.returns_bind_iff.mpr
        ⟨returns_index_zero_iff.mpr ?_, fun first _ => Outcome.returns_ok _⟩
      rintro rfl
      exact hne hdata
  · rw [version_eq_of_not_bech32 hbech32]
    exact iff_of_true (Outcome.returns_ok _) fun hbech32' => absurd hbech32' hbech32

theorem returns_dispatch
    (hne : "ncryptsec1".toList <+: encrypted.text.toList →
      decodeBech32 bech32 hrpNcryptsec encrypted.text ≠ .ok []) :
    (dispatch base64 bech32 encrypted).Returns := by
  unfold dispatch
  split_ifs with hbech32
  · refine Outcome.returns_bind_iff.mpr ⟨returns_decodeBech32 _ _ _, fun data hdata => ?_⟩
    refine Outcome.returns_bind_iff.mpr
      ⟨returns_index_zero_iff.mpr ?_, fun version _ => ?_⟩
    · rintro rfl
      exact hne hbech32 hdata
    · split_ifs <;> simp
  · refine Outcome.returns_bind_iff.mpr ⟨Outcome.returns_okOr _ _, fun payload _ => ?_⟩
    split_ifs <;> simp

/-- What a reader is handed is long enough for it, unless the payload is short. -/
theorem returns_run {prims : Primitives} {curve : Secp256k1} (hunpads : Unpads prims)
    (hshort : ¬ ShortPayload bech32 encrypted) {reader : Reader} {payload : Bytes}
    (hroute : dispatch base64 bech32 encrypted = .ok (reader, payload))
    (password : String) : (reader.run prims curve payload password).Returns := by
  by_cases hbech32 : "ncryptsec1".toList <+: encrypted.text.toList
  · obtain ⟨hdata, ⟨hfirst, rfl⟩ | ⟨hfirst, rfl⟩⟩ :=
      (dispatch_eq_ok_iff hbech32).mp hroute
    · refine returns_importEncryptedV1_iff.mpr ?_
      by_contra hlt
      exact hshort ⟨hbech32, payload, hdata, .inr ⟨hfirst, Nat.not_le.mp hlt⟩⟩
    · exact returns_importEncryptedV2 hfirst
  · obtain ⟨-, ⟨hlength, rfl⟩ | ⟨hlength, rfl⟩⟩ := of_dispatch_eq_ok hbech32 hroute
    · exact returns_importEncryptedPreV1 hunpads hlength
    · exact returns_importEncryptedV1_iff.mpr (by omega)

end Dispatch

/-- Reading a key never panics exactly when its payload is not short. -/
theorem neverPanics_iff {prims : Primitives} (hunpads : Unpads prims) (base64 : Base64)
    (bech32 : Bech32) (curve : Secp256k1) (encrypted : EncryptedPrivateKey) :
    NeverPanics prims base64 bech32 curve encrypted ↔ ¬ ShortPayload bech32 encrypted := by
  constructor
  · rintro ⟨hversion, himport⟩ ⟨hbech32, data, hdata, rfl | ⟨hfirst, hlt⟩⟩
    · exact returns_version_iff.mp hversion hbech32 hdata
    · have hroute := (@dispatch_eq_ok_iff base64 bech32 encrypted hbech32 .v1 data).mpr
        ⟨hdata, .inl ⟨hfirst, rfl⟩⟩
      have hreturns := himport ""
      rw [importEncrypted_eq, hroute, Outcome.ok_bind] at hreturns
      exact absurd (returns_importEncryptedV1_iff.mp hreturns) (Nat.not_le.mpr hlt)
  · intro hshort
    have hne : "ncryptsec1".toList <+: encrypted.text.toList →
        decodeBech32 bech32 hrpNcryptsec encrypted.text ≠ .ok [] :=
      fun hbech32 hempty => hshort ⟨hbech32, [], hempty, .inl rfl⟩
    refine ⟨returns_version_iff.mpr hne, fun password => ?_⟩
    rw [importEncrypted_eq, Outcome.returns_bind_iff]
    exact ⟨returns_dispatch hne, fun route hroute => returns_run hunpads hshort hroute _⟩


theorem unpads_transparent : Unpads .transparent := by
  intro key iv ciphertext plaintext hplaintext
  obtain rfl := Option.some.inj hplaintext
  exact Nat.le_add_right _ _

/-- The text of an empty payload. -/
def emptyPayloadKey : EncryptedPrivateKey := ⟨"ncryptsec106gcj8"⟩

theorem decode_emptyPayloadKey :
    decodeBech32 Bech32.reference hrpNcryptsec emptyPayloadKey.text = .ok [] := by
  have hencode : Bech32.reference.encode hrpNcryptsec [] = some emptyPayloadKey.text := by
    decide +kernel
  exact decodeBech32_of_encode (by decide) hencode

theorem neverPanics_iff_emptyPayloadKey :
    NeverPanics .transparent Base64.reference Bech32.reference .permissive
        emptyPayloadKey ↔
      ¬ ShortPayload Bech32.reference emptyPayloadKey :=
  neverPanics_iff unpads_transparent _ _ _ _

theorem not_neverPanics_emptyPayloadKey :
    ¬ ∀ prims, Unpads prims → ∀ base64 bech32 curve encrypted,
      NeverPanics prims base64 bech32 curve encrypted := by
  intro hall
  have hversion := (hall .transparent unpads_transparent Base64.reference Bech32.reference
    .permissive emptyPayloadKey).1
  exact returns_version_iff.mp hversion (by decide) decode_emptyPayloadKey

end PrivateKey

end Types

end Gnostr
