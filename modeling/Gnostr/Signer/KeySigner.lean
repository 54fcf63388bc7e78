/-
The signer with a local private key, of `types/src/nostr/key_signer.rs`.  It
holds its key twice, encrypted and in memory; the operations on one, on the other
or on both can stop half way.
-/
import Gnostr.Crypto.EncryptedPrivateKey

namespace Gnostr

namespace Types

/-- Signer with a local private key and its public key. -/
structure KeySigner (curve : Secp256k1) where
  encryptedPrivateKey : EncryptedPrivateKey
  publicKey : PublicKey
  privateKey : Option (PrivateKey curve)

/-- What the random generator delivers during one export. -/
structure ExportRandom where
  salt : Vector UInt8 16
  nonce : Vector UInt8 24

section Rendering

variable {curve : Secp256k1}

/-- Render into a hexadecimal string.  The key is weak from then on. -/
def PrivateKey.asHexString (hex : Hex) (key : PrivateKey curve) :
    Outcome Error String × PrivateKey curve :=
  (.ok (hex.encode key.secret.bytes.toList), { key with security := .weak })

/-- Export as a bech32 encoded string.  The key is weak from then on. -/
def PrivateKey.asBech32String (bech32 : Bech32) (key : PrivateKey curve) :
    Outcome Error String × PrivateKey curve :=
  (encodeBech32 bech32 hrpNsec key.secret.bytes.toList,
    { key with security := .weak })

end Rendering

namespace KeySigner

variable (prims : Primitives) (base64 : Base64) (bech32 : Bech32) (hex : Hex)
  {curve : Secp256k1}

/-- The operator `?` in a method: an error leaves the signer as it is by then. -/
def tryOr {α β : Type} (signer : KeySigner curve) (x : Outcome Error α)
    (next : α → Outcome Error β × KeySigner curve) :
    Outcome Error β × KeySigner curve :=
  match x with
  | .ok value => next value
  | .err error => (.err error, signer)
  | .panic => (.panic, signer)

def fromLockedParts (epk : EncryptedPrivateKey) (pk : PublicKey) :
    KeySigner curve := ⟨epk, pk, none⟩

def fromPrivateKey (privk : PrivateKey curve) (password : String)
    (logN : UInt8) (random : ExportRandom) : Outcome Error (KeySigner curve) := do
  let epk ← privk.exportEncrypted prims bech32 password logN random.salt
    random.nonce
  return ⟨epk, privk.publicKey, some privk⟩

def fromEncryptedPrivateKey (epk : EncryptedPrivateKey) (pass : String) :
    Outcome Error (KeySigner curve) := do
  let privKey ← PrivateKey.importEncrypted prims base64 bech32 curve epk pass
  return fromLockedParts epk privKey.publicKey

/-- Create a signer from a secret key that was drawn. -/
def generate (drawn : SecretKey curve) (password : String) (logN : UInt8)
    (random : ExportRandom) : Outcome Error (KeySigner curve) := do
  let privk : PrivateKey curve := ⟨drawn, .medium⟩
  let epk ← privk.exportEncrypted prims bech32 password logN random.salt
    random.nonce
  return ⟨epk, privk.publicKey, some privk⟩

/-- `encrypted_private_key.decrypt`. -/
def decryptStored (signer : KeySigner curve) (password : String) :
    Outcome Error (PrivateKey curve) :=
  PrivateKey.importEncrypted prims base64 bech32 curve signer.encryptedPrivateKey
    password

def isLocked (signer : KeySigner curve) : Bool := signer.privateKey.isNone

def unlock (signer : KeySigner curve) (password : String) :
    Outcome Error Unit × KeySigner curve :=
  if !signer.isLocked then (.ok (), signer)
  else
    signer.tryOr (signer.decryptStored prims base64 bech32 password)
      fun privateKey =>
        (.ok (), { signer with privateKey := some privateKey })

def lock (signer : KeySigner curve) : KeySigner curve :=
  { signer with privateKey := none }

def changePassphrase (signer : KeySigner curve) (old new : String)
    (logN : UInt8) (random : ExportRandom) :
    Outcome Error Unit × KeySigner curve :=
  signer.tryOr (signer.decryptStored prims base64 bech32 old)
    fun privateKey =>
      signer.tryOr (privateKey.exportEncrypted prims bech32 new logN random.salt
        random.nonce) fun epk =>
          (.ok (), { signer with
            encryptedPrivateKey := epk, privateKey := some privateKey })

def upgrade (signer : KeySigner curve) (pass : String) (logN : UInt8)
    (random : ExportRandom) : Outcome Error Unit × KeySigner curve :=
  signer.tryOr (signer.decryptStored prims base64 bech32 pass)
    fun privateKey =>
      signer.tryOr (privateKey.exportEncrypted prims bech32 pass logN random.salt
        random.nonce) fun epk =>
          (.ok (), { signer with encryptedPrivateKey := epk })

/-- Both exports: the password is tested, the key is rendered and weakened in
memory, and it is encrypted again if the encrypted one was not weak. -/
def exportPrivateKey
    (render : PrivateKey curve → Outcome Error String × PrivateKey curve)
    (signer : KeySigner curve) (pass : String) (logN : UInt8)
    (random : ExportRandom) : Outcome Error (String × Bool) × KeySigner curve :=
  match signer.privateKey with
  | none => (.err .signerIsLocked, signer)
  | some pk =>
      signer.tryOr (signer.decryptStored prims base64 bech32 pass)
        fun pkcheck =>
          let rendered := render pk
          let signer := { signer with privateKey := some rendered.2 }
          signer.tryOr rendered.1 fun output =>
            if rendered.2.security ≠ pkcheck.security then
              signer.tryOr (rendered.2.exportEncrypted prims bech32 pass logN
                random.salt random.nonce) fun epk =>
                  (.ok (output, true), { signer with encryptedPrivateKey := epk })
            else (.ok (output, false), signer)

def exportPrivateKeyInHex (signer : KeySigner curve) (pass : String)
    (logN : UInt8) (random : ExportRandom) :
    Outcome Error (String × Bool) × KeySigner curve :=
  exportPrivateKey prims base64 bech32 (PrivateKey.asHexString hex) signer pass
    logN random

def exportPrivateKeyInBech32 (signer : KeySigner curve) (pass : String)
    (logN : UInt8) (random : ExportRandom) :
    Outcome Error (String × Bool) × KeySigner curve :=
  exportPrivateKey prims base64 bech32 (PrivateKey.asBech32String bech32) signer
    pass logN random

section Run

/-- A way to make a signer. -/
inductive Creation (curve : Secp256k1) where
  | fromPrivateKey (privk : PrivateKey curve) (password : String) (logN : UInt8)
      (random : ExportRandom)
  | generate (drawn : SecretKey curve) (password : String) (logN : UInt8)
      (random : ExportRandom)
  | fromEncryptedPrivateKey (epk : EncryptedPrivateKey) (pass : String)

/-- The password that the encrypted key has at first. -/
def Creation.passphrase : Creation curve → String
  | .fromPrivateKey _ password _ _ => password
  | .generate _ password _ _ => password
  | .fromEncryptedPrivateKey _ pass => pass

/-- A call of a method. -/
inductive Operation where
  | lock
  | unlock (password : String)
  | changePassphrase (old new : String) (logN : UInt8) (random : ExportRandom)
  | upgrade (pass : String) (logN : UInt8) (random : ExportRandom)
  | exportPrivateKeyInHex (pass : String) (logN : UInt8) (random : ExportRandom)
  | exportPrivateKeyInBech32 (pass : String) (logN : UInt8)
      (random : ExportRandom)

/-- A signer, the passphrase that was set last, and whether an export has
succeeded.  A passphrase is set when the key is encrypted with it. -/
structure History (curve : Secp256k1) where
  signer : KeySigner curve
  passphrase : String
  exported : Bool

/-- What a successful export means for the history. -/
def History.afterExport (history : History curve) (pass : String)
    (result : Outcome Error (String × Bool) × KeySigner curve) : History curve :=
  match result.1 with
  | .ok (_, downgraded) =>
      ⟨result.2, if downgraded then pass else history.passphrase, true⟩
  | _ => { history with signer := result.2 }

/-- What a successful change of the encrypted key means for the history. -/
def History.afterChange (history : History curve) (passphrase : String)
    (result : Outcome Error Unit × KeySigner curve) : History curve :=
  match result.1 with
  | .ok _ => { history with signer := result.2, passphrase := passphrase }
  | _ => { history with signer := result.2 }

def History.step (history : History curve) : Operation → History curve
  | .lock => { history with signer := history.signer.lock }
  | .unlock password =>
      { history with
        signer := (history.signer.unlock prims base64 bech32 password).2 }
  | .changePassphrase old new logN random =>
      history.afterChange new
        (history.signer.changePassphrase prims base64 bech32 old new logN random)
  | .upgrade pass logN random =>
      history.afterChange pass
        (history.signer.upgrade prims base64 bech32 pass logN random)
  | .exportPrivateKeyInHex pass logN random =>
      history.afterExport pass
        (history.signer.exportPrivateKeyInHex prims base64 bech32 hex pass logN
          random)
  | .exportPrivateKeyInBech32 pass logN random =>
      history.afterExport pass
        (history.signer.exportPrivateKeyInBech32 prims base64 bech32 pass logN
          random)

/-- The signer that was made, after a run of calls that succeed or fail. -/
def History.run (creation : Creation curve) (signer : KeySigner curve)
    (operations : List Operation) : History curve :=
  operations.foldl (History.step prims base64 bech32 hex)
    ⟨signer, creation.passphrase, false⟩

end Run

section Invariant

/-- The key has the secret, and is weak if the secret was exported. -/
def Kept (secret : SecretKey curve) (exported : Bool) (key : PrivateKey curve) :
    Prop :=
  key.secret = secret ∧ (exported = true → key.security = .weak)

/-- The encrypted key opens with the passphrase to the secret of the public key,
and the key in memory is that secret. -/
structure History.Consistent (secret : SecretKey curve)
    (history : History curve) : Prop where
  stored : ∃ key, history.signer.decryptStored prims base64 bech32
      history.passphrase = .ok key ∧ Kept secret history.exported key
  publicKey : history.signer.publicKey = ⟨curve.xOnlyPublicKey secret.bytes⟩
  memory : ∀ key ∈ history.signer.privateKey, Kept secret history.exported key

variable {prims base64 bech32 hex}

/-- Whatever password opens the encrypted key, it gives the key that is kept. -/
theorem History.Consistent.kept_of_decryptStored
    (hdetects : PrivateKey.DetectsWrongKeys prims) {secret : SecretKey curve}
    {history : History curve} (h : history.Consistent prims base64 bech32 secret)
    {password : String} {key : PrivateKey curve}
    (hkey : history.signer.decryptStored prims base64 bech32 password = .ok key) :
    Kept secret history.exported key := by
  obtain ⟨stored, hstored, hkept⟩ := h.stored
  rwa [PrivateKey.importEncrypted_unique hdetects hkey hstored]

variable {secret : SecretKey curve} {history : History curve}

theorem History.Consistent.lock (h : history.Consistent prims base64 bech32 secret) :
    Consistent prims base64 bech32 secret
      { history with signer := history.signer.lock } where
  stored := h.stored
  publicKey := h.publicKey
  memory := nofun

theorem History.Consistent.unlock (hdetects : PrivateKey.DetectsWrongKeys prims)
    (h : history.Consistent prims base64 bech32 secret) (password : String) :
    Consistent prims base64 bech32 secret { history with
      signer := (history.signer.unlock prims base64 bech32 password).2 } := by
  unfold KeySigner.unlock
  split
  · exact h
  · cases hkey : history.signer.decryptStored prims base64 bech32 password with
    | ok privateKey =>
        refine ⟨h.stored, h.publicKey, ?_⟩
        rintro _ ⟨⟩
        exact h.kept_of_decryptStored hdetects hkey
    | err error => exact h
    | panic => exact h

/-- A key that was decrypted is encrypted again. -/
theorem History.Consistent.changePassphrase
    (hdetects : PrivateKey.DetectsWrongKeys prims)
    (h : history.Consistent prims base64 bech32 secret) (old new : String)
    (logN : UInt8) (random : ExportRandom) :
    Consistent prims base64 bech32 secret (history.afterChange new
      (history.signer.changePassphrase prims base64 bech32 old new logN random)) := by
  unfold KeySigner.changePassphrase
  cases hkey : history.signer.decryptStored prims base64 bech32 old with
  | ok privateKey =>
      have hkept := h.kept_of_decryptStored hdetects hkey
      dsimp only [tryOr]
      cases hexport : privateKey.exportEncrypted prims bech32 new logN random.salt
          random.nonce with
      | ok epk =>
          refine ⟨⟨privateKey, ?_, hkept⟩, h.publicKey, ?_⟩
          · exact PrivateKey.importEncrypted_of_exportEncrypted hexport
          · rintro _ ⟨⟩
            exact hkept
      | err error => exact ⟨h.stored, h.publicKey, h.memory⟩
      | panic => exact ⟨h.stored, h.publicKey, h.memory⟩
  | err error => exact ⟨h.stored, h.publicKey, h.memory⟩
  | panic => exact ⟨h.stored, h.publicKey, h.memory⟩

theorem History.Consistent.upgrade (hdetects : PrivateKey.DetectsWrongKeys prims)
    (h : history.Consistent prims base64 bech32 secret) (pass : String)
    (logN : UInt8) (random : ExportRandom) :
    Consistent prims base64 bech32 secret (history.afterChange pass
      (history.signer.upgrade prims base64 bech32 pass logN random)) := by
  unfold KeySigner.upgrade
  cases hkey : history.signer.decryptStored prims base64 bech32 pass with
  | ok privateKey =>
      have hkept := h.kept_of_decryptStored hdetects hkey
      dsimp only [tryOr]
      cases hexport : privateKey.exportEncrypted prims bech32 pass logN random.salt
          random.nonce with
      | ok epk =>
          refine ⟨⟨privateKey, ?_, hkept⟩, h.publicKey, h.memory⟩
          exact PrivateKey.importEncrypted_of_exportEncrypted hexport
      | err error => exact ⟨h.stored, h.publicKey, h.memory⟩
      | panic => exact ⟨h.stored, h.publicKey, h.memory⟩
  | err error => exact ⟨h.stored, h.publicKey, h.memory⟩
  | panic => exact ⟨h.stored, h.publicKey, h.memory⟩

/-- An export weakens the key in memory even when it fails after that; when it
succeeds, the encrypted key is weak too. -/
theorem History.Consistent.exportPrivateKey
    (hdetects : PrivateKey.DetectsWrongKeys prims)
    (h : history.Consistent prims base64 bech32 secret)
    {render : PrivateKey curve → Outcome Error String × PrivateKey curve}
    (hrender : ∀ key, (render key).2 = { key with security := .weak })
    (pass : String) (logN : UInt8) (random : ExportRandom) :
    Consistent prims base64 bech32 secret (history.afterExport pass
      (KeySigner.exportPrivateKey prims base64 bech32 render history.signer pass
        logN random)) := by
  unfold KeySigner.exportPrivateKey
  cases hmemory : history.signer.privateKey with
  | none => exact ⟨h.stored, h.publicKey, h.memory⟩
  | some pk =>
      have hpk := h.memory pk hmemory
      have hweak : ∀ exported, Kept secret exported (render pk).2 := by
        intro exported
        rw [hrender]
        exact ⟨hpk.1, fun _ => rfl⟩
      have hrendered : ∀ exported, ∀ key ∈ some (render pk).2,
          Kept secret exported key := by
        rintro exported _ ⟨⟩
        exact hweak exported
      cases hcheck : history.signer.decryptStored prims base64 bech32 pass with
      | ok pkcheck =>
          have hkept := h.kept_of_decryptStored hdetects hcheck
          dsimp only [tryOr]
          cases (render pk).1 with
          | ok output =>
              dsimp only
              split
              · cases hexport : (render pk).2.exportEncrypted prims bech32 pass
                    logN random.salt random.nonce with
                | ok epk =>
                    refine ⟨⟨(render pk).2, ?_, hweak _⟩, h.publicKey, ?_⟩
                    · exact PrivateKey.importEncrypted_of_exportEncrypted hexport
                    · exact hrendered _
                | err error =>
                    exact ⟨h.stored, h.publicKey,
                      hrendered _⟩
                | panic =>
                    exact ⟨h.stored, h.publicKey,
                      hrendered _⟩
              · -- the password has shown that the encrypted key is weak already
                rename_i hsame
                have hcheckWeak : pkcheck.security = .weak := by
                  rw [← not_not.mp hsame, hrender]
                obtain ⟨stored, hstored, hsecret, _⟩ := h.stored
                have heq := PrivateKey.importEncrypted_unique hdetects hstored hcheck
                refine ⟨⟨stored, hstored, hsecret, fun _ => ?_⟩, h.publicKey,
                  hrendered _⟩
                rw [heq, hcheckWeak]
          | err error =>
              exact ⟨h.stored, h.publicKey, hrendered _⟩
          | panic =>
              exact ⟨h.stored, h.publicKey, hrendered _⟩
      | err error => exact ⟨h.stored, h.publicKey, h.memory⟩
      | panic => exact ⟨h.stored, h.publicKey, h.memory⟩

/-- What one call preserves. -/
theorem History.Consistent.step (hdetects : PrivateKey.DetectsWrongKeys prims)
    (h : history.Consistent prims base64 bech32 secret) (operation : Operation) :
    Consistent prims base64 bech32 secret
      (history.step prims base64 bech32 hex operation) := by
  cases operation with
  | lock => exact h.lock
  | unlock password => exact h.unlock hdetects password
  | changePassphrase old new logN random =>
      exact h.changePassphrase hdetects old new logN random
  | upgrade pass logN random => exact h.upgrade hdetects pass logN random
  | exportPrivateKeyInHex pass logN random =>
      exact h.exportPrivateKey hdetects (fun _ => rfl) pass logN random
  | exportPrivateKeyInBech32 pass logN random =>
      exact h.exportPrivateKey hdetects (fun _ => rfl) pass logN random

/-- The encrypted key opens with the passphrase to the secret of the public key, a
key in memory is that secret, and once an export has succeeded every key that is
in memory or can be decrypted is weak. -/
def History.Sound (prims : Primitives) (base64 : Base64) (bech32 : Bech32)
    (publicKey : PublicKey) (history : History curve) : Prop :=
  history.signer.publicKey = publicKey ∧
    (∃ key, history.signer.decryptStored prims base64 bech32 history.passphrase =
        .ok key ∧ key.publicKey = publicKey ∧
      ∀ memory ∈ history.signer.privateKey, memory.secret = key.secret) ∧
    (history.exported = true → ∀ key,
      (key ∈ history.signer.privateKey ∨ ∃ password,
        history.signer.decryptStored prims base64 bech32 password = .ok key) →
      key.security = .weak)

end Invariant

end KeySigner

end Types

end Gnostr
