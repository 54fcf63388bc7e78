/-
Gift wraps of `types/src/nostr/signer.rs`: an event without a signature is sealed by
its author for a recipient, and the seal is wrapped by a random key.
-/
import Gnostr.Signer.Signer
import Gnostr.Types.Tag

namespace Gnostr

namespace Types

namespace Signer

section Methods

variable (prims : Primitives) (base64 : Base64) (bech32 : Bech32) (hex : Hex)
  (reader : JsonReader) {curve : Secp256k1} (schnorr : Schnorr curve)

/-- `a - b` on 64-bit integers; whether an overflow is a panic depends on the
build. -/
def subInt64 (overflowChecks : Bool) (a b : Int64) : Outcome Error Int64 :=
  if overflowChecks = true ∧ ¬ (-2 ^ 63 ≤ a.toInt - b.toInt ∧
      a.toInt - b.toInt < 2 ^ 63) then .panic
  else .ok (a - b)

/-- What the random generator delivers during one wrapping. -/
structure GiftwrapRandom (curve : Secp256k1) where
  sealBackdate : Int64
  giftwrapBackdate : Int64
  rumorEncryption : EncryptionRandom
  sealSignature : Vector UInt8 32
  privateKey : SecretKey curve
  keyExport : ExportRandom
  sealEncryption : EncryptionRandom
  giftwrapSignature : Vector UInt8 32

/-- Giftwrap an event.  The random key pair of the outer layer is a signer whose
encrypted key nothing reads. -/
def giftwrap (overflowChecks : Bool) (signer : Signer curve) (input : PreEventV3)
    (pubkey : PublicKey) (random : GiftwrapRandom curve) :
    Outcome Error EventV3 :=
  let senderPubkey := input.pubkey
  if senderPubkey ≠ signer.publicKey then .err .invalidPrivateKey
  else do
    let sealBackdate ← subInt64 overflowChecks input.createdAt random.sealBackdate
    let giftwrapBackdate ← subInt64 overflowChecks input.createdAt
      random.giftwrapBackdate
    let rumorJson := (RumorV3.new hex prims input).toJsonString hex
    let encryptedRumorJson ← signer.encrypt prims base64 pubkey rumorJson .nip44v2
      random.rumorEncryption
    let preSeal : PreEventV3 := {
      pubkey := senderPubkey
      createdAt := sealBackdate
      kind := .wellKnown .«seal»
      tags := []
      content := encryptedRumorJson
    }
    let «seal» ← signer.signEvent prims hex schnorr preSeal random.sealSignature
    let randomPrivateKey : PrivateKey curve := ⟨random.privateKey, .medium⟩
    let _ ← KeySigner.fromPrivateKey prims bech32 randomPrivateKey "" 1
      random.keyExport
    let randomSigner := randomPrivateKey.toSigner
    let sealJson := «seal».toJsonString hex
    let encryptedSealJson ← randomSigner.encrypt prims base64 pubkey sealJson
      .nip44v2 random.sealEncryption
    let preGiftwrap : PreEventV3 := {
      pubkey := randomSigner.publicKey
      createdAt := giftwrapBackdate
      kind := .wellKnown .giftWrap
      tags := [TagV3.newPubkey hex pubkey none none]
      content := encryptedSealJson
    }
    randomSigner.signEvent prims hex schnorr preGiftwrap random.giftwrapSignature

/-- A tag names the signer. -/
def isTagged (signer : Signer curve) (tags : List TagV3) : Bool :=
  tags.any fun tag =>
    match tag.parsePubkey curve hex with
    | .ok (pubkey, _, _) => pubkey == signer.publicKey
    | _ => false

/-- If a gift wrap event, unwrap and return the inner rumor. -/
def unwrapGiftwrap (signer : Signer curve) (event : EventV3) :
    Outcome Error RumorV3 :=
  if event.kind ≠ .wellKnown .giftWrap then .err .wrongEventKind
  else if !signer.isTagged hex event.tags then .err .invalidRecipient
  else do
    let content ← signer.decrypt prims base64 event.pubkey event.content
    let «seal» ← EventV3.fromJsonString hex reader content
    if «seal».kind ≠ .wellKnown .«seal» then .err .wrongEventKind
    else do
      let author := «seal».pubkey
      let content ← signer.decrypt prims base64 «seal».pubkey «seal».content
      let rumor ← RumorV3.fromJsonString hex reader content
      if rumor.pubkey ≠ author then .err .invalidPublicKey
      else return rumor

/-- The layers of an event hold the seal and the rumor for the signer. -/
def Opens (signer : Signer curve) (event «seal» : EventV3) (rumor : RumorV3) :
    Prop :=
  ∃ sealText rumorText,
    signer.decrypt prims base64 event.pubkey event.content = .ok sealText ∧
      EventV3.fromJsonString hex reader sealText = .ok «seal» ∧
        signer.decrypt prims base64 «seal».pubkey «seal».content =
            .ok rumorText ∧
          RumorV3.fromJsonString hex reader rumorText = .ok rumor

end Methods

section Opens

variable {prims : Primitives} {base64 : Base64} {hex : Hex} {reader : JsonReader}
  {curve : Secp256k1}

/-- An event holds one seal and one rumor for a signer. -/
theorem Opens.unique {signer : Signer curve} {event «seal» seal' : EventV3}
    {rumor rumor' : RumorV3}
    (hopens : signer.Opens prims base64 hex reader event «seal» rumor)
    (hopens' : signer.Opens prims base64 hex reader event seal' rumor') :
    seal' = «seal» ∧ rumor' = rumor := by
  obtain ⟨sealText, rumorText, hsealText, hseal, hrumorText, hrumor⟩ := hopens
  obtain ⟨sealText', rumorText', hsealText', hseal', hrumorText', hrumor'⟩ :=
    hopens'
  rw [hsealText] at hsealText'
  cases hsealText'
  rw [hseal] at hseal'
  cases hseal'
  rw [hrumorText] at hrumorText'
  cases hrumorText'
  rw [hrumor] at hrumor'
  cases hrumor'
  exact ⟨rfl, rfl⟩

/-- What is checked before a rumor is returned. -/
theorem unwrapGiftwrap_eq_ok_iff {signer : Signer curve} {event : EventV3}
    {rumor : RumorV3} :
    signer.unwrapGiftwrap prims base64 hex reader event = .ok rumor ↔
      event.kind = .wellKnown .giftWrap ∧
        signer.isTagged hex event.tags = true ∧
          ∃ «seal», signer.Opens prims base64 hex reader event «seal» rumor ∧
            «seal».kind = .wellKnown .«seal» ∧
              rumor.pubkey = «seal».pubkey := by
  unfold unwrapGiftwrap
  constructor
  · intro hunwrap
    split at hunwrap
    · cases hunwrap
    rename_i hkind
    split at hunwrap
    · cases hunwrap
    rename_i htagged
    obtain ⟨sealText, hsealText, hunwrap⟩ := Outcome.bind_eq_ok_iff.mp hunwrap
    obtain ⟨«seal», hseal, hunwrap⟩ := Outcome.bind_eq_ok_iff.mp hunwrap
    split at hunwrap
    · cases hunwrap
    rename_i hsealKind
    obtain ⟨rumorText, hrumorText, hunwrap⟩ := Outcome.bind_eq_ok_iff.mp hunwrap
    obtain ⟨inner, hrumor, hunwrap⟩ := Outcome.bind_eq_ok_iff.mp hunwrap
    split at hunwrap
    · cases hunwrap
    rename_i hauthor
    cases hunwrap
    exact ⟨not_not.mp hkind, by simpa using htagged, «seal»,
      ⟨sealText, rumorText, hsealText, hseal, hrumorText, hrumor⟩,
      not_not.mp hsealKind, not_not.mp hauthor⟩
  · rintro ⟨hkind, htagged, «seal», hopens, hsealKind, hauthor⟩
    obtain ⟨sealText, rumorText, hsealText, hseal, hrumorText, hrumor⟩ := hopens
    rw [if_neg (not_not_intro hkind), htagged, if_neg (by decide), hsealText,
      Outcome.ok_bind, hseal, Outcome.ok_bind, if_neg (not_not_intro hsealKind)]
    dsimp only
    rw [hrumorText, Outcome.ok_bind, hrumor, Outcome.ok_bind]
    exact if_neg (not_not_intro hauthor)

end Opens

section RoundTrip

variable {prims : Primitives} {base64 : Base64} {bech32 : Bech32} {hex : Hex}
  {reader : JsonReader} {curve : Secp256k1} {schnorr : Schnorr curve}

/-- A layer of encryption comes off with the other key. -/
theorem decrypt_of_encrypt {first second : PrivateKey curve} {plaintext : String}
    {random : EncryptionRandom} {ciphertext : String}
    (hencrypt : first.encrypt prims base64 second.publicKey plaintext .nip44v2
      random = .ok ciphertext) :
    second.decrypt prims base64 first.publicKey ciphertext = .ok plaintext := by
  have hspec := PrivateKey.nip44v2_spec prims base64 first second plaintext random
  split at hspec
  · obtain ⟨found, hfound, _, hdecrypt⟩ := hspec
    rw [hencrypt] at hfound
    cases hfound
    exact hdecrypt
  · obtain ⟨error, herror⟩ := hspec
    rw [hencrypt] at herror
    cases herror

/-- A tag for the signer is found. -/
theorem isTagged_newPubkey (key : PrivateKey curve) :
    key.toSigner.isTagged hex [TagV3.newPubkey hex key.publicKey none none] =
      true := by
  simp [isTagged, TagV3.parsePubkey_newPubkey key.publicKey_verified,
    PrivateKey.toSigner]

/-- The rumor that a pre-event becomes, of the kind that its number names. -/
def rumorOf (hex : Hex) (prims : Primitives) (input : PreEventV3) : RumorV3 :=
  { RumorV3.new hex prims input with kind := EventKind.ofU32 input.kind.toU32 }

/-- A gift wrap for a recipient around a seal, and the seal around a rumor, whatever
these say of themselves. -/
structure Layers (prims : Primitives) (base64 : Base64) (hex : Hex)
    (recipient : PrivateKey curve) (gift «seal» : EventV3) (rumor : RumorV3) :
    Prop where
  gift_kind : gift.kind = .wellKnown .giftWrap
  gift_tags : gift.tags = [TagV3.newPubkey hex recipient.publicKey none none]
  gift_content : ∃ (outer : PrivateKey curve) (random : EncryptionRandom),
    gift.pubkey = outer.publicKey ∧ outer.encrypt prims base64 recipient.publicKey
      («seal».toJsonString hex) .nip44v2 random = .ok gift.content
  seal_kind : «seal».kind = .wellKnown .«seal»
  seal_content : ∃ (author : PrivateKey curve) (random : EncryptionRandom),
    «seal».pubkey = author.publicKey ∧ author.encrypt prims base64
      recipient.publicKey (rumor.toJsonString hex) .nip44v2 random =
        .ok «seal».content
  rumor_pubkey : rumor.pubkey = «seal».pubkey

/-- Both layers come off: the recipient reads back what was encrypted. -/
theorem Layers.opens {recipient : PrivateKey curve} {gift «seal» : EventV3}
    {rumor : RumorV3}
    (hlayers : Layers prims base64 hex recipient gift «seal» rumor)
    (reader : JsonReader) :
    recipient.toSigner.Opens prims base64 hex reader gift «seal»
      { rumor with kind := EventKind.ofU32 rumor.kind.toU32 } := by
  obtain ⟨outer, sealRandom, houter, hgift⟩ := hlayers.gift_content
  obtain ⟨author, rumorRandom, hauthor, hseal⟩ := hlayers.seal_content
  refine ⟨«seal».toJsonString hex, rumor.toJsonString hex, ?_, ?_, ?_,
    RumorV3.fromJsonString_toJsonString hex reader rumor⟩
  · rw [houter]
    exact decrypt_of_encrypt hgift
  · rw [EventV3.fromJsonString_toJsonString, hlayers.seal_kind,
      EventKind.wellKnown_canonical, ← hlayers.seal_kind]
  · rw [hauthor]
    exact decrypt_of_encrypt hseal

theorem Layers.unwrapGiftwrap {recipient : PrivateKey curve}
    {gift «seal» : EventV3} {rumor : RumorV3}
    (hlayers : Layers prims base64 hex recipient gift «seal» rumor) :
    recipient.toSigner.unwrapGiftwrap prims base64 hex reader gift =
      .ok { rumor with kind := EventKind.ofU32 rumor.kind.toU32 } := by
  have htagged : recipient.toSigner.isTagged hex gift.tags = true := by
    rw [hlayers.gift_tags, isTagged_newPubkey]
  exact unwrapGiftwrap_eq_ok_iff.mpr ⟨hlayers.gift_kind, htagged, «seal»,
    hlayers.opens reader, hlayers.seal_kind, hlayers.rumor_pubkey⟩

/-- The layers that `giftwrap` makes, of which the seal is signed by the author. -/
theorem exists_layers_of_giftwrap {overflowChecks : Bool} {sender : Signer curve}
    {input : PreEventV3} {recipient : PrivateKey curve}
    {random : GiftwrapRandom curve} {gift : EventV3}
    (hgift : sender.giftwrap prims base64 bech32 hex schnorr overflowChecks input
      recipient.publicKey random = .ok gift) :
    ∃ «seal», Layers prims base64 hex recipient gift «seal»
        (RumorV3.new hex prims input) ∧
      «seal».verify hex prims schnorr none = .ok () := by
  unfold giftwrap at hgift
  dsimp only at hgift
  split at hgift
  · cases hgift
  · rename_i hsender
    obtain ⟨sealBackdate, _, hgift⟩ := Outcome.bind_eq_ok_iff.mp hgift
    obtain ⟨giftwrapBackdate, _, hgift⟩ := Outcome.bind_eq_ok_iff.mp hgift
    obtain ⟨encryptedRumor, hrumor, hgift⟩ := Outcome.bind_eq_ok_iff.mp hgift
    obtain ⟨«seal», hseal, hgift⟩ := Outcome.bind_eq_ok_iff.mp hgift
    obtain ⟨_, _, hgift⟩ := Outcome.bind_eq_ok_iff.mp hgift
    obtain ⟨encryptedSeal, hencryptedSeal, hgift⟩ :=
      Outcome.bind_eq_ok_iff.mp hgift
    obtain ⟨key, hkey, hrumor⟩ := exists_key_of_encrypt hrumor
    obtain ⟨hsealFields, _⟩ := exists_of_signEvent hseal
    obtain ⟨hgiftFields, _⟩ := exists_of_signEvent hgift
    have hsealContent : «seal».content = encryptedRumor :=
      congrArg PreEventV3.content hsealFields
    have hgiftContent : gift.content = encryptedSeal :=
      congrArg PreEventV3.content hgiftFields
    have hauthor : «seal».pubkey = input.pubkey :=
      congrArg PreEventV3.pubkey hsealFields
    refine ⟨«seal», ?_, verify_of_signEvent hseal⟩
    exact {
      gift_kind := congrArg PreEventV3.kind hgiftFields
      gift_tags := congrArg PreEventV3.tags hgiftFields
      gift_content := ⟨_, _, congrArg PreEventV3.pubkey hgiftFields,
        hgiftContent ▸ hencryptedSeal⟩
      seal_kind := congrArg PreEventV3.kind hsealFields
      seal_content := ⟨key, _,
        hauthor.trans ((not_not.mp hsender).trans hkey.symm), hsealContent ▸ hrumor⟩
      rumor_pubkey := hauthor.symm }

/-- What is wrapped for a key is unwrapped with it. -/
theorem unwrapGiftwrap_of_giftwrap {overflowChecks : Bool} {sender : Signer curve}
    {input : PreEventV3} {recipient : PrivateKey curve}
    {random : GiftwrapRandom curve} {gift : EventV3}
    (hgift : sender.giftwrap prims base64 bech32 hex schnorr overflowChecks input
      recipient.publicKey random = .ok gift) :
    recipient.toSigner.unwrapGiftwrap prims base64 hex reader gift =
      .ok (rumorOf hex prims input) := by
  obtain ⟨«seal», hlayers, _⟩ := exists_layers_of_giftwrap hgift
  exact hlayers.unwrapGiftwrap

/-- The kind of a rumor stands in its hash as a number only. -/
theorem hash_preEvent_rumorOf (hex : Hex) (prims : Primitives)
    (input : PreEventV3) :
    (rumorOf hex prims input).preEvent.hash hex prims = input.hash hex prims := by
  have hsame : (rumorOf hex prims input).preEvent.SameFields input :=
    ⟨rfl, rfl, EventKind.toU32_ofU32 _, rfl, rfl⟩
  rw [PreEventV3.hash, PreEventV3.hash, serializeInnerEvent_eq_iff _ _ |>.mpr hsame]

/-- The seal of a pre-event, around an encrypted rumor. -/
def sealOf (hex : Hex) (prims : Primitives) (schnorr : Schnorr curve)
    (key : PrivateKey curve) (createdAt : Int64) (content : String)
    (random : Vector UInt8 32) : EventV3 :=
  let preSeal : PreEventV3 :=
    ⟨key.publicKey, createdAt, .wellKnown .«seal», [], content⟩
  { id := preSeal.hash hex prims
    pubkey := key.publicKey
    createdAt := createdAt
    kind := .wellKnown .«seal»
    sig := key.signId schnorr (preSeal.hash hex prims) random
    content := content
    tags := [] }

/-- A pre-event of one's own is wrapped if the times are in range and neither the
rumor nor the seal is too long to encrypt. -/
theorem exists_giftwrap {key recipient : PrivateKey curve}
    {input : PreEventV3} (hown : input.pubkey = key.publicKey)
    {overflowChecks : Bool} {random : GiftwrapRandom curve}
    (sealBackdate giftwrapBackdate : Int64)
    (hsealBackdate : (subInt64 overflowChecks input.createdAt random.sealBackdate :
      Outcome Error Int64) = .ok sealBackdate)
    (hgiftwrapBackdate : (subInt64 overflowChecks input.createdAt
      random.giftwrapBackdate : Outcome Error Int64) = .ok giftwrapBackdate)
    (hkdf : PrivateKey.kdfAccepts prims "" 1 random.keyExport.salt = true)
    {n : ℕ}
    (hrumor : (utf8 ((RumorV3.new hex prims input).toJsonString hex)).length = n)
    (hpos : 1 ≤ n) (hle : n ≤ 65535)
    (hseal : ∀ content : String,
      (utf8 content).length = 4 * ((69 + Nip44.calcPadding n) / 3) →
      1 ≤ (utf8 ((sealOf hex prims schnorr key sealBackdate content
          random.sealSignature).toJsonString hex)).length ∧
        (utf8 ((sealOf hex prims schnorr key sealBackdate content
          random.sealSignature).toJsonString hex)).length ≤ 65535) :
    ∃ gift, key.toSigner.giftwrap prims base64 bech32 hex schnorr overflowChecks
      input recipient.publicKey random = .ok gift := by
  obtain ⟨content, hencrypt, hlength⟩ := PrivateKey.exists_encrypt_nip44v2 prims
    base64 key recipient random.rumorEncryption (hrumor.symm ▸ hpos)
    (hrumor.symm ▸ hle)
  rw [hrumor] at hlength
  obtain ⟨hsealPos, hsealLe⟩ := hseal content hlength
  obtain ⟨sealContent, hsealEncrypt, _⟩ := PrivateKey.exists_encrypt_nip44v2 prims
    base64 (⟨random.privateKey, .medium⟩ : PrivateKey curve) recipient
    random.sealEncryption hsealPos hsealLe
  have hspec := PrivateKey.importEncrypted_exportEncrypted prims base64 bech32
    (⟨random.privateKey, .medium⟩ : PrivateKey curve) "" 1 random.keyExport.salt
    random.keyExport.nonce
  rw [if_pos hkdf] at hspec
  obtain ⟨epk, hexport, _⟩ := hspec
  have hsigner : KeySigner.fromPrivateKey prims bech32
      (⟨random.privateKey, .medium⟩ : PrivateKey curve) "" 1 random.keyExport =
        .ok ⟨epk, _, some ⟨random.privateKey, .medium⟩⟩ :=
    Outcome.bind_eq_ok_iff.mpr ⟨epk, hexport, rfl⟩
  have hsign : key.toSigner.signEvent prims hex schnorr
      ⟨key.publicKey, sealBackdate, .wellKnown .«seal», [], content⟩
        random.sealSignature =
          .ok (sealOf hex prims schnorr key sealBackdate content
            random.sealSignature) := if_neg (not_not_intro rfl)
  have hinner : key.toSigner.encrypt prims base64 recipient.publicKey
      ((RumorV3.new hex prims input).toJsonString hex) .nip44v2
        random.rumorEncryption = .ok content := hencrypt
  have houter : (⟨random.privateKey, .medium⟩ :
      PrivateKey curve).toSigner.encrypt prims base64 recipient.publicKey
        ((sealOf hex prims schnorr key sealBackdate content
          random.sealSignature).toJsonString hex) .nip44v2
            random.sealEncryption = .ok sealContent := hsealEncrypt
  have hpublic : key.toSigner.publicKey = key.publicKey := rfl
  unfold giftwrap
  dsimp only
  rw [hown, hpublic, if_neg (not_not_intro rfl), hsealBackdate, Outcome.ok_bind,
    hgiftwrapBackdate, Outcome.ok_bind, hinner, Outcome.ok_bind, hsign,
    Outcome.ok_bind, hsigner, Outcome.ok_bind, houter, Outcome.ok_bind]
  exact ⟨_, if_neg (not_not_intro rfl)⟩

/-- What is wrapped for a recipient comes back as a rumor of the same author, time,
tags and content, of the kind that the number of the kind names, and with the id
that is the hash of its own fields. -/
theorem giftwrap_roundTrips {overflowChecks : Bool} {sender : Signer curve}
    {input : PreEventV3} {recipient : PrivateKey curve}
    {random : GiftwrapRandom curve} {gift : EventV3}
    (hgift : sender.giftwrap prims base64 bech32 hex schnorr overflowChecks input
      recipient.publicKey random = .ok gift) (reader : JsonReader) :
    ∃ rumor, recipient.toSigner.unwrapGiftwrap prims base64 hex reader gift =
        .ok rumor ∧
      rumor.pubkey = input.pubkey ∧ rumor.createdAt = input.createdAt ∧
        rumor.kind = EventKind.ofU32 input.kind.toU32 ∧
          rumor.tags = input.tags ∧ rumor.content = input.content ∧
            rumor.id = input.hash hex prims ∧
              rumor.id = rumor.preEvent.hash hex prims :=
  ⟨rumorOf hex prims input, unwrapGiftwrap_of_giftwrap hgift, rfl, rfl, rfl, rfl,
    rfl, rfl, (hash_preEvent_rumorOf hex prims input).symm⟩

/-- A note whose kind is given by its number. -/
def noteOfNumber : PreEventV3 where
  pubkey := PrivateKey.secretOne.publicKey
  createdAt := 1700000000
  kind := .other 1
  tags := []
  content := "hi"

/-- Random bytes that are all zero. -/
def zeroRandom : GiftwrapRandom Secp256k1.permissive where
  sealBackdate := 30
  giftwrapBackdate := 30
  rumorEncryption := ⟨Vector.replicate 16 0, Vector.replicate 24 0,
    Vector.replicate 32 0, 0, fun _ => 0⟩
  sealSignature := Vector.replicate 32 0
  privateKey := PrivateKey.secretOne.secret
  keyExport := ⟨Vector.replicate 16 0, Vector.replicate 24 0⟩
  sealEncryption := ⟨Vector.replicate 16 0, Vector.replicate 24 0,
    Vector.replicate 32 0, 0, fun _ => 0⟩
  giftwrapSignature := Vector.replicate 32 0

/-- The text of the seal is short as well, whatever its encrypted rumor is. -/
theorem length_seal_noteOfNumber {content : String}
    (hcontent : (utf8 content).length ≤ 1000) :
    1 ≤ (utf8 ((sealOf Hex.reference Primitives.transparent
        (Schnorr.permissive Secp256k1.permissive) PrivateKey.secretOne 1699999970
        content (Vector.replicate 32 0)).toJsonString Hex.reference)).length ∧
      (utf8 ((sealOf Hex.reference Primitives.transparent
        (Schnorr.permissive Secp256k1.permissive) PrivateKey.secretOne 1699999970
        content (Vector.replicate 32 0)).toJsonString
          Hex.reference)).length ≤ 65535 := by
  generalize hseal : sealOf Hex.reference Primitives.transparent
    (Schnorr.permissive Secp256k1.permissive) PrivateKey.secretOne 1699999970
    content (Vector.replicate 32 0) = «seal»
  have hempty : { «seal» with content := "" } = sealOf Hex.reference
      Primitives.transparent (Schnorr.permissive Secp256k1.permissive)
      PrivateKey.secretOne 1699999970 "" (Vector.replicate 32 0) := by
    rw [← hseal]
    rfl
  have hbounds := «seal».length_utf8_toJsonString_bounds Hex.reference 343
    (by rw [hempty]; decide +kernel)
  rw [show «seal».content = content by rw [← hseal]; rfl] at hbounds
  omega

theorem exists_giftwrap_noteOfNumber :
    ∃ gift, PrivateKey.secretOne.toSigner.giftwrap Primitives.transparent
      Base64.reference Bech32.reference Hex.reference
      (Schnorr.permissive Secp256k1.permissive) true noteOfNumber
      PrivateKey.secretOne.publicKey zeroRandom = .ok gift := by
  have hrumor : (utf8 ((RumorV3.new Hex.reference Primitives.transparent
      noteOfNumber).toJsonString Hex.reference)).length = 207 := by
    rw [RumorV3.toJsonString, utf8_ofList]
    decide +kernel
  refine exists_giftwrap rfl 1699999970 1699999970 (by decide) (by decide) rfl
    hrumor (by decide) (by decide) fun content hcontent =>
      length_seal_noteOfNumber ?_
  rw [hcontent]
  decide

/-- The note is wrapped and comes back with another kind: the one that is a name
for the number. -/
theorem giftwrap_changes_kind : ∃ gift,
    PrivateKey.secretOne.toSigner.giftwrap Primitives.transparent
        Base64.reference Bech32.reference Hex.reference
        (Schnorr.permissive Secp256k1.permissive) true noteOfNumber
        PrivateKey.secretOne.publicKey zeroRandom = .ok gift ∧
      ∀ rumor, PrivateKey.secretOne.toSigner.unwrapGiftwrap
        Primitives.transparent Base64.reference Hex.reference JsonReader.compact
        gift = .ok rumor → rumor.kind ≠ noteOfNumber.kind := by
  obtain ⟨gift, hgift⟩ := exists_giftwrap_noteOfNumber
  refine ⟨gift, hgift, fun rumor hrumor => ?_⟩
  rw [unwrapGiftwrap_of_giftwrap hgift, Outcome.ok.injEq] at hrumor
  rw [← hrumor]
  decide

/-- The same wrapping, unwrapped. -/
theorem giftwrap_roundTrips_noteOfNumber : ∃ gift rumor,
    PrivateKey.secretOne.toSigner.unwrapGiftwrap Primitives.transparent
        Base64.reference Hex.reference JsonReader.compact gift = .ok rumor ∧
      rumor.pubkey = noteOfNumber.pubkey ∧
        rumor.id = rumor.preEvent.hash Hex.reference Primitives.transparent := by
  obtain ⟨gift, hgift⟩ := exists_giftwrap_noteOfNumber
  obtain ⟨rumor, hrumor, hpubkey, _, _, _, _, _, hid⟩ :=
    giftwrap_roundTrips hgift JsonReader.compact
  exact ⟨gift, rumor, hrumor, hpubkey, hid⟩

end RoundTrip

end Signer

end Types

end Gnostr
