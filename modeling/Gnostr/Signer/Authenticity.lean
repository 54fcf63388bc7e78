/-
What a recipient learns from a gift wrap: `unwrap_giftwrap` compares the author of
the rumor with that of the seal, and checks neither the seal nor the id.
-/
import Gnostr.Signer.Giftwrap

namespace Gnostr

namespace Types

namespace Signer

section Authenticity

variable {prims : Primitives} {base64 : Base64} {hex : Hex} {reader : JsonReader}
  {curve : Secp256k1} {schnorr : Schnorr curve}

/-- A rumor that is returned is authentic exactly if what the event holds is: the
unwrapping does not look at the signature and the id of the seal, nor at the id of
the rumor. -/
theorem unwrapGiftwrap_authentic_iff (prims : Primitives) (base64 : Base64)
    (hex : Hex) (reader : JsonReader) (schnorr : Schnorr curve)
    (signer : Signer curve) (event : EventV3) :
    (∀ rumor, signer.unwrapGiftwrap prims base64 hex reader event = .ok rumor →
      ∃ «seal», signer.Opens prims base64 hex reader event «seal» rumor ∧
        «seal».verify hex prims schnorr none = .ok () ∧
          rumor.pubkey = «seal».pubkey ∧
            rumor.id = rumor.preEvent.hash hex prims) ↔
      (event.kind = .wellKnown .giftWrap → signer.isTagged hex event.tags = true →
        ∀ «seal» rumor, signer.Opens prims base64 hex reader event «seal» rumor →
          «seal».kind = .wellKnown .«seal» → rumor.pubkey = «seal».pubkey →
            («seal».pubkey.Verified curve ∧
              schnorr.verify «seal».sig «seal».id.bytes «seal».pubkey.bytes =
                true ∧
              «seal».id = «seal».preEvent.hash hex prims) ∧
            rumor.id = rumor.preEvent.hash hex prims) := by
  constructor
  · intro hauthentic hkind htagged «seal» rumor hopens hsealKind hauthor
    obtain ⟨seal', hopens', hverify, _, hid⟩ := hauthentic rumor
      (unwrapGiftwrap_eq_ok_iff.mpr
        ⟨hkind, htagged, «seal», hopens, hsealKind, hauthor⟩)
    rw [(hopens.unique hopens').1] at hverify
    exact ⟨EventV3.verify_none_eq_ok_iff.mp hverify, hid⟩
  · intro hcontents rumor hunwrap
    obtain ⟨hkind, htagged, «seal», hopens, hsealKind, hauthor⟩ :=
      unwrapGiftwrap_eq_ok_iff.mp hunwrap
    obtain ⟨hsealed, hid⟩ := hcontents hkind htagged «seal» rumor hopens hsealKind
      hauthor
    exact ⟨«seal», hopens, EventV3.verify_none_eq_ok_iff.mpr hsealed, hauthor, hid⟩

/-- What `giftwrap` makes is authentic: the seal inside is valid, and the rumor that
comes back has the hash of its fields for its id. -/
theorem giftwrap_authentic {bech32 : Bech32} {overflowChecks : Bool}
    {sender : Signer curve} {input : PreEventV3} {recipient : PrivateKey curve}
    {random : GiftwrapRandom curve} {gift : EventV3} {rumor : RumorV3}
    (hgift : sender.giftwrap prims base64 bech32 hex schnorr overflowChecks input
      recipient.publicKey random = .ok gift)
    (hunwrap : recipient.toSigner.unwrapGiftwrap prims base64 hex reader gift =
      .ok rumor) :
    ∃ «seal», recipient.toSigner.Opens prims base64 hex reader gift «seal» rumor ∧
      «seal».verify hex prims schnorr none = .ok () ∧
        rumor.id = rumor.preEvent.hash hex prims := by
  obtain ⟨«seal», hlayers, hverify⟩ := exists_layers_of_giftwrap hgift
  obtain ⟨_, _, opened, hopens, _⟩ := unwrapGiftwrap_eq_ok_iff.mp hunwrap
  have hseal := hopens.unique (hlayers.opens reader)
  rw [unwrapGiftwrap_of_giftwrap hgift, Outcome.ok.injEq] at hunwrap
  refine ⟨opened, hopens, ?_, ?_⟩
  · rw [← hseal.1]
    exact hverify
  · rw [← hunwrap]
    exact (hash_preEvent_rumorOf hex prims input).symm

end Authenticity

section Forgery

/-- The key of the one who forges. -/
def secretTwo : PrivateKey Secp256k1.permissive where
  secret := ⟨(Vector.replicate 31 0).push 2, rfl⟩
  security := .medium

/-- Encryption with random bytes that are all zero, for the owner of the key 1. -/
def encryptedForOne (plaintext : String) : String :=
  (secretTwo.encrypt Primitives.transparent Base64.reference
    PrivateKey.secretOne.publicKey plaintext .nip44v2
      zeroRandom.rumorEncryption).toOption.getD ""

/-- A rumor with the id of something else. -/
def forgedRumor : RumorV3 where
  id := ⟨Vector.replicate 32 1⟩
  pubkey := secretTwo.publicKey
  createdAt := 1700000000
  kind := .wellKnown .textNote
  content := "hi"
  tags := []

/-- Its seal, with a wrong id and no signature. -/
def forgedSeal : EventV3 where
  id := ⟨Vector.replicate 32 1⟩
  pubkey := secretTwo.publicKey
  createdAt := 1700000000
  kind := .wellKnown .«seal»
  sig := ⟨Vector.replicate 64 0⟩
  content := encryptedForOne (forgedRumor.toJsonString Hex.reference)
  tags := []

def forgedGiftwrap : EventV3 where
  id := ⟨Vector.replicate 32 1⟩
  pubkey := secretTwo.publicKey
  createdAt := 1700000000
  kind := .wellKnown .giftWrap
  sig := ⟨Vector.replicate 64 0⟩
  content := encryptedForOne (forgedSeal.toJsonString Hex.reference)
  tags := [TagV3.newPubkey Hex.reference PrivateKey.secretOne.publicKey none none]

theorem encrypt_encryptedForOne (plaintext : String)
    (hpos : 1 ≤ (utf8 plaintext).length) (hle : (utf8 plaintext).length ≤ 65535) :
    secretTwo.encrypt Primitives.transparent Base64.reference
        PrivateKey.secretOne.publicKey plaintext .nip44v2
        zeroRandom.rumorEncryption = .ok (encryptedForOne plaintext) ∧
      (utf8 (encryptedForOne plaintext)).length =
        4 * ((69 + Nip44.calcPadding (utf8 plaintext).length) / 3) := by
  obtain ⟨ciphertext, hencrypt, hlength⟩ := PrivateKey.exists_encrypt_nip44v2
    Primitives.transparent Base64.reference secretTwo PrivateKey.secretOne
    zeroRandom.rumorEncryption hpos hle
  have hsame : encryptedForOne plaintext = ciphertext := by
    rw [encryptedForOne, hencrypt, Outcome.toOption_ok, Option.getD_some]
  rw [hsame]
  exact ⟨hencrypt, hlength⟩

/-- The rumor is returned as it is, with an id that is not its hash, from a seal
that does not verify. -/
theorem unwrapGiftwrap_returns_forgery :
    PrivateKey.secretOne.toSigner.unwrapGiftwrap Primitives.transparent
        Base64.reference Hex.reference JsonReader.compact forgedGiftwrap =
        .ok forgedRumor ∧
      forgedRumor.id ≠
        forgedRumor.preEvent.hash Hex.reference Primitives.transparent ∧
      forgedSeal.verify Hex.reference Primitives.transparent
        (Schnorr.permissive Secp256k1.permissive) none ≠ .ok () := by
  have hrumorLength : (utf8 (forgedRumor.toJsonString Hex.reference)).length =
      207 := by
    rw [RumorV3.toJsonString, utf8_ofList]
    decide +kernel
  obtain ⟨hrumor, hcontentLength⟩ := encrypt_encryptedForOne
    (forgedRumor.toJsonString Hex.reference) (by rw [hrumorLength]; decide)
    (by rw [hrumorLength]; decide)
  have hsealContent : forgedSeal.content =
      encryptedForOne (forgedRumor.toJsonString Hex.reference) := by
    simp only [forgedSeal]
  have hgiftContent : forgedGiftwrap.content =
      encryptedForOne (forgedSeal.toJsonString Hex.reference) := by
    simp only [forgedGiftwrap]
  rw [← hsealContent] at hrumor hcontentLength
  rw [hrumorLength] at hcontentLength
  have hpadding : 4 * ((69 + Nip44.calcPadding 207) / 3) ≤ 1000 := by decide
  obtain ⟨hsealPos, hsealLe⟩ := forgedSeal.length_utf8_toJsonString_bounds
    Hex.reference 343 (by decide +kernel)
  obtain ⟨hseal, _⟩ := encrypt_encryptedForOne
    (forgedSeal.toJsonString Hex.reference) hsealPos (by omega)
  rw [← hgiftContent] at hseal
  have hlayers : Layers Primitives.transparent Base64.reference Hex.reference
      PrivateKey.secretOne forgedGiftwrap forgedSeal forgedRumor := {
    gift_kind := rfl
    gift_tags := rfl
    gift_content := ⟨secretTwo, _, rfl, hseal⟩
    seal_kind := rfl
    seal_content := ⟨secretTwo, _, rfl, hrumor⟩
    rumor_pubkey := rfl }
  refine ⟨hlayers.unwrapGiftwrap, by decide, fun hverify => ?_⟩
  obtain ⟨_, _, hid⟩ := EventV3.verify_none_eq_ok_iff.mp hverify
  exact absurd (congrArg Id.bytes hid)
    (by rw [PreEventV3.hash]; decide)

end Forgery

end Signer

end Types

end Gnostr
