/-
What a failed export leaves of a signer.  The key in memory is weakened when it is
rendered, before the encryption that can still fail.
-/
import Gnostr.Signer.KeySigner

namespace Gnostr

namespace Types

namespace KeySigner

variable {curve : Secp256k1}

/-- The security of the key in memory, the encrypted key and the public key are
those from before. -/
structure Unchanged (before after : KeySigner curve) : Prop where
  security : after.privateKey.map PrivateKey.security =
    before.privateKey.map PrivateKey.security
  encryptedPrivateKey : after.encryptedPrivateKey = before.encryptedPrivateKey
  publicKey : after.publicKey = before.publicKey

theorem Unchanged.refl (signer : KeySigner curve) : signer.Unchanged signer :=
  ⟨rfl, rfl, rfl⟩

/-- If the call reports an error, the signer is as before. -/
def Atomic {α : Type} (signer : KeySigner curve)
    (result : Outcome Error α × KeySigner curve) : Prop :=
  ∀ error, result.1 = .err error → signer.Unchanged result.2

theorem atomic_of_eq {α : Type} {signer : KeySigner curve}
    {result : Outcome Error α × KeySigner curve} (hsame : result.2 = signer) :
    signer.Atomic result :=
  fun _ _ => hsame.symm ▸ Unchanged.refl signer

variable (prims : Primitives) (base64 : Base64) (bech32 : Bech32)

/-- The password opens the encrypted key to one that is not weak, which has to be
encrypted again, and no key can be derived for that. -/
def ReexportFails (signer : KeySigner curve) (pass : String) (logN : UInt8)
    (random : ExportRandom) : Prop :=
  PrivateKey.kdfAccepts prims pass logN random.salt = false ∧
    ∃ pkcheck, signer.decryptStored prims base64 bech32 pass = .ok pkcheck ∧
      pkcheck.security ≠ .weak

/-- An export that fails changes nothing exactly when it does not fail at the
encryption, or the key in memory was weak before. -/
theorem atomic_exportPrivateKey_iff
    {render : PrivateKey curve → Outcome Error String × PrivateKey curve}
    (hrender : ∀ key, ∃ output,
      render key = (.ok output, { key with security := .weak }))
    (signer : KeySigner curve) (pass : String) (logN : UInt8)
    (random : ExportRandom) :
    signer.Atomic (signer.exportPrivateKey prims base64 bech32 render pass logN
        random) ↔
      (signer.ReexportFails prims base64 bech32 pass logN random →
        ∀ pk ∈ signer.privateKey, pk.security = .weak) := by
  unfold KeySigner.exportPrivateKey
  cases hmemory : signer.privateKey with
  | none => exact iff_of_true (atomic_of_eq rfl) nofun
  | some pk =>
      obtain ⟨output, houtput⟩ := hrender pk
      dsimp only
      rw [houtput]
      cases hcheck : signer.decryptStored prims base64 bech32 pass with
      | err error =>
          refine iff_of_true (atomic_of_eq rfl) ?_
          rintro ⟨-, pkcheck, hpkcheck, -⟩
          cases hcheck.symm.trans hpkcheck
      | panic =>
          refine iff_of_true (atomic_of_eq rfl) ?_
          rintro ⟨-, pkcheck, hpkcheck, -⟩
          cases hcheck.symm.trans hpkcheck
      | ok pkcheck =>
          dsimp only [tryOr]
          split_ifs with hdiffers
          · have hspec := PrivateKey.importEncrypted_exportEncrypted prims base64
              bech32 { pk with security := .weak } pass logN random.salt
              random.nonce
            split_ifs at hspec with haccepts
            · obtain ⟨encrypted, hexport, -⟩ := hspec
              rw [hexport]
              refine iff_of_true nofun ?_
              rintro ⟨hrejects, -⟩
              exact absurd haccepts (Bool.eq_false_iff.mp hrejects)
            · -- the encryption fails, and the key in memory is weak by now
              rw [hspec]
              constructor
              · intro hatomic _ key hkey
                cases hkey
                have hsecurity := (hatomic .scrypt rfl).security
                rw [hmemory] at hsecurity
                exact (Option.some.inj hsecurity).symm
              · intro hweak error _
                have hfails : signer.ReexportFails prims base64 bech32 pass logN
                    random := ⟨Bool.eq_false_iff.mpr haccepts, pkcheck, hcheck,
                      fun hsame => hdiffers hsame.symm⟩
                refine ⟨?_, rfl, rfl⟩
                rw [hmemory, Option.map_some, Option.map_some,
                  hweak hfails pk rfl]
          · refine iff_of_true nofun ?_
            rintro ⟨-, other, hother, hstrong⟩
            rw [Outcome.ok.inj (hcheck.symm.trans hother)] at hdiffers
            exact absurd (not_not.mp hdiffers).symm hstrong

theorem exists_asBech32String (key : PrivateKey curve) : ∃ output,
    key.asBech32String bech32 = (.ok output, { key with security := .weak }) := by
  have hlength : bech32Length hrpNsec key.secret.bytes.toList.length ≤
      bech32CodeLength := by
    rw [Vector.length_toList]
    decide
  obtain ⟨text, htext⟩ := (bech32.exists_encode_iff
    (isHrp_of_mem hrpNsec (by decide))).mpr hlength
  refine ⟨text, ?_⟩
  rw [PrivateKey.asBech32String, encodeBech32_eq_ok_iff.mpr htext]

/-- Both exports leave the signer as it was when they fail, unless the stored key
is not weak, no key can be derived to encrypt it again, and the key in memory is
not weak either. -/
theorem failed_exports_iff (hex : Hex) (signer : KeySigner curve) (pass : String)
    (logN : UInt8) (random : ExportRandom) :
    let keeps : Prop := signer.ReexportFails prims base64 bech32 pass logN random →
      ∀ pk ∈ signer.privateKey, pk.security = .weak
    (signer.Atomic (signer.exportPrivateKeyInHex prims base64 bech32 hex pass
        logN random) ↔ keeps) ∧
      (signer.Atomic (signer.exportPrivateKeyInBech32 prims base64 bech32 pass
        logN random) ↔ keeps) :=
  ⟨atomic_exportPrivateKey_iff prims base64 bech32 (fun _ => ⟨_, rfl⟩) signer pass
      logN random,
    atomic_exportPrivateKey_iff prims base64 bech32 (exists_asBech32String bech32)
      signer pass logN random⟩

/-- Primitives that derive a key for few rounds only. -/
def cautious : Primitives :=
  { Primitives.transparent with
    scrypt := fun _ _ logN _ _ n =>
      if logN < 64 then some (Vector.replicate n 0) else none }

theorem isSecretKey_drawnKey :
    Secp256k1.permissive.isSecretKey (Vector.replicate 32 1) = true := rfl

/-- A secret key to draw. -/
def drawnKey : SecretKey Secp256k1.permissive :=
  ⟨Vector.replicate 32 1, isSecretKey_drawnKey⟩

/-- A key that was made and is in memory is medium.  An export with too many
rounds fails, and the key is weak then. -/
theorem not_atomic_export :
    ∃ signer : KeySigner Secp256k1.permissive,
      KeySigner.generate cautious Bech32.reference drawnKey "first" 16
          ⟨Vector.replicate 16 0, Vector.replicate 24 0⟩ = .ok signer ∧
        let result := signer.exportPrivateKeyInHex cautious Base64.reference
          Bech32.reference Hex.reference "first" 64
          ⟨Vector.replicate 16 0, Vector.replicate 24 0⟩
        result.1 = .err .scrypt ∧
          signer.privateKey.map PrivateKey.security = some .medium ∧
            result.2.privateKey.map PrivateKey.security = some .weak ∧
              ¬ signer.Atomic result := by
  have hspec := PrivateKey.importEncrypted_exportEncrypted cautious
    Base64.reference Bech32.reference
    ⟨drawnKey, .medium⟩ "first" 16 (Vector.replicate 16 0) (Vector.replicate 24 0)
  obtain ⟨epk, hexport, hstored⟩ := (if_pos rfl).mp hspec
  have hagain := PrivateKey.importEncrypted_exportEncrypted cautious
    Base64.reference Bech32.reference
    ⟨drawnKey, .weak⟩ "first" 64 (Vector.replicate 16 0) (Vector.replicate 24 0)
  have hfails := (if_neg (by decide)).mp hagain
  refine ⟨_, Outcome.bind_eq_ok_iff.mpr ⟨epk, hexport, rfl⟩, ?_⟩
  intro result
  have hresult : result = (.err .scrypt,
      ⟨epk, PrivateKey.publicKey ⟨drawnKey, .medium⟩,
        some ⟨drawnKey, .weak⟩⟩) := by
    unfold result exportPrivateKeyInHex exportPrivateKey decryptStored
    dsimp only
    rw [hstored]
    dsimp only [tryOr, PrivateKey.asHexString]
    rw [hfails]
    rfl
  rw [hresult]
  refine ⟨rfl, rfl, rfl, fun hatomic => ?_⟩
  have hsecurity : some KeySecurity.weak = some KeySecurity.medium :=
    (hatomic .scrypt rfl).security
  cases hsecurity

end KeySigner

end Types

end Gnostr
