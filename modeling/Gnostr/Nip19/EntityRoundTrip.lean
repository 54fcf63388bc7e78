/-
Which NIP-19 entities come back from their own text.  A relay that is too long
for its length byte is never read again as what it was: reading goes on within
its text, and the relays that have been read are kept.
-/
import Gnostr.Nip19.Nip19

namespace Gnostr

namespace Types

section Relays

variable (parser : UrlParser)

/-- The relay is written with its length and parsed to itself. -/
def RelayKept (relay : RelayUrl) : Prop :=
  (utf8 relay.text).length ≤ 255 ∧ relay.Canonical parser

end Relays

namespace Nip19Profile

theorem read_eq_ok_iff {curve : Secp256k1} {parser : UrlParser} {data : Bytes}
    {profile : Nip19Profile} :
    read curve parser data = .ok profile ↔
      scanWhile .invalidNip19Data (step curve parser) data 0 (none, []) =
        .ok (some profile.publicKey, profile.relays) := by
  rw [read, Outcome.bind_eq_ok_iff]
  constructor
  · rintro ⟨⟨fields, relays⟩, hscan, hrest⟩
    obtain ⟨publicKey, hkey, hprofile⟩ := Outcome.bind_eq_ok_iff.mp hrest
    rw [Outcome.okOr_eq_ok_iff] at hkey
    dsimp only at hkey
    subst hkey
    cases hprofile
    exact hscan
  · intro hscan
    exact ⟨_, hscan, rfl⟩

end Nip19Profile

namespace Nip19Event

theorem step_author (curve : Secp256k1) (parser : UrlParser)
    (fields : Fields) (relays : List RelayUrl) (raw : Bytes) :
    step curve parser (fields, relays) (tlvTypeAuthor, raw) =
      PublicKey.fromBytes curve raw true >>= fun author =>
        .ok ({ fields with author := some author }, relays) := rfl

theorem step_kind (curve : Secp256k1) (parser : UrlParser)
    (fields : Fields) (relays : List RelayUrl) (raw : Bytes) :
    step curve parser (fields, relays) (tlvTypeKind, raw) =
      .ok ({ fields with kind := readKindOr raw fields.kind }, relays) := rfl

theorem read_eq_ok_iff {curve : Secp256k1} {parser : UrlParser} {data : Bytes}
    {event : Nip19Event} :
    read curve parser data = .ok event ↔
      scanWhile .invalidNip19Data (step curve parser) data 0
          (⟨none, none, none⟩, []) =
        .ok (⟨some event.eventId, event.author, event.kind⟩, event.relays) := by
  rw [read, Outcome.bind_eq_ok_iff]
  constructor
  · rintro ⟨⟨⟨eventId, author, kind⟩, relays⟩, hscan, hrest⟩
    obtain ⟨found, hfound, hevent⟩ := Outcome.bind_eq_ok_iff.mp hrest
    rw [Outcome.okOr_eq_ok_iff] at hfound
    dsimp only at hfound
    subst hfound
    cases hevent
    exact hscan
  · intro hscan
    exact ⟨_, hscan, rfl⟩

/-- The entries before the relays. -/
def head (event : Nip19Event) : List TlvEntry :=
  [(tlvTypeSpecial, event.eventId.bytes.toList)] ++
    event.author.toList.map (fun author =>
      (tlvTypeAuthor, author.bytes.toList)) ++
    event.kind.toList.map fun kind => (tlvTypeKind, beBytes 4 kind.toU32.toNat)

end Nip19Event

namespace Nip19Address

theorem step_author (curve : Secp256k1) (parser : UrlParser)
    (fields : Fields) (relays : List RelayUrl) (raw : Bytes) :
    step curve parser (fields, relays) (tlvTypeAuthor, raw) =
      PublicKey.fromBytes curve raw true >>= fun publicKey =>
        .ok ({ fields with publicKey := some publicKey }, relays) := rfl

theorem step_kind (curve : Secp256k1) (parser : UrlParser)
    (fields : Fields) (relays : List RelayUrl) (raw : Bytes) :
    step curve parser (fields, relays) (tlvTypeKind, raw) =
      .ok ({ fields with kind := readKindOr raw fields.kind }, relays) := rfl

theorem read_eq_ok_iff {curve : Secp256k1} {parser : UrlParser} {data : Bytes}
    {address : Nip19Address} :
    read curve parser data = .ok address ↔
      scanWhile .invalidNip19Data (step curve parser) data 0
          (⟨none, none, none⟩, []) =
        .ok (⟨some address.kind, some address.publicKey,
          some address.identifier⟩, address.relays) := by
  rw [read, Outcome.bind_eq_ok_iff]
  constructor
  · rintro ⟨⟨⟨kind, publicKey, identifier⟩, relays⟩, hscan, hrest⟩
    obtain ⟨foundKind, hfoundKind, hrest⟩ := Outcome.bind_eq_ok_iff.mp hrest
    obtain ⟨foundKey, hfoundKey, hrest⟩ := Outcome.bind_eq_ok_iff.mp hrest
    obtain ⟨found, hfound, haddress⟩ := Outcome.bind_eq_ok_iff.mp hrest
    rw [Outcome.okOr_eq_ok_iff] at hfoundKind hfoundKey hfound
    dsimp only at hfoundKind hfoundKey hfound
    subst hfoundKind hfoundKey hfound
    cases haddress
    exact hscan
  · intro hscan
    exact ⟨_, hscan, rfl⟩

/-- The entries before the relays. -/
def head (address : Nip19Address) : List TlvEntry :=
  [(tlvTypeSpecial, utf8 address.identifier),
    (tlvTypeKind, beBytes 4 address.kind.toU32.toNat),
    (tlvTypeAuthor, address.publicKey.bytes.toList)]

end Nip19Address

namespace Nip19

def hrp : Nip19 → String
  | publicKey _ => hrpNpub
  | privateKey _ => hrpNsec
  | eventId _ => hrpNote
  | profile _ => hrpNprofile
  | event _ => hrpNevent
  | address _ => hrpNaddr
  | relay _ => hrpNrelay

theorem isHrp_hrp (entity : Nip19) : IsHrp entity.hrp := by
  apply isHrp_of_mem
  cases entity <;> simp [hrp]

/-- The bytes under the bech32 text, if there are any. -/
def payload (hex : Hex) : Nip19 → Option Bytes
  | publicKey key => some key.bytes.toList
  | privateKey text => hex.decode text
  | eventId id => some id.bytes.toList
  | profile entity => some (entity.entries.flatMap encodeTlv)
  | event entity => some (entity.entries.flatMap encodeTlv)
  | address entity => some (entity.entries.flatMap encodeTlv)
  | relay url => some (utf8 url.text)

/-- What the decoder can give back: keys on the curve, kinds under their own
name, texts that fit their length byte, and relays in canonical form. -/
def Kept (curve : Secp256k1) (parser : UrlParser) (hex : Hex) : Nip19 → Prop
  | publicKey key => key.Verified curve
  | privateKey text =>
      ∃ bytes : Bytes, bytes.length = 32 ∧ hex.encode bytes = text
  | eventId _ => True
  | profile entity => entity.publicKey.Verified curve ∧
      ∀ relay ∈ entity.relays, RelayKept parser relay
  | event entity => (∀ author ∈ entity.author, author.Verified curve) ∧
      (∀ kind ∈ entity.kind, kind.Canonical) ∧
      ∀ relay ∈ entity.relays, RelayKept parser relay
  | address entity => (utf8 entity.identifier).length ≤ 255 ∧
      entity.publicKey.Verified curve ∧ entity.kind.Canonical ∧
      ∀ relay ∈ entity.relays, RelayKept parser relay
  | relay url => url.Canonical parser

/-- Encoding fails, or decoding gives the entity back. -/
def RoundTrips (curve : Secp256k1) (parser : UrlParser) (hex : Hex)
    (bech32 : Bech32) (entity : Nip19) : Prop :=
  (∃ error, encode hex bech32 entity = .err error) ∨
    ∃ text, encode hex bech32 entity = .ok text ∧
      decode curve parser hex bech32 text = .ok entity

/-- What is encoded is decoded from its payload. -/
theorem decode_of_encode {bech32 : Bech32} {entity : Nip19} {data : Bytes}
    {text : String} (htext : bech32.encode entity.hrp data = some text)
    (curve : Secp256k1) (parser : UrlParser) (hex : Hex) :
    decode curve parser hex bech32 text =
      decodeData curve parser hex entity.hrp data := by
  rw [decode, bech32.decode_of_encode entity.isHrp_hrp htext, Outcome.okOr_some,
    Outcome.ok_bind]

/-- A parser that knows no URL, for values without one. -/
def noUrls : UrlParser where
  parse _ := none
  parse_serialization := nofun
  trim_serialization := nofun
  eq_or_slash_of_prefix := nofun

end Nip19

end Types

end Gnostr
