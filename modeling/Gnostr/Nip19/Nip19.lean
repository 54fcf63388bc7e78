/-
The other NIP-19 codec, `types/src/nostr/nip19.rs`: one type for all entities,
with relays as parsed URLs.
-/
import Gnostr.Lib.Tlv
import Gnostr.Types.EventKind
import Gnostr.Types.Url

namespace Gnostr

namespace Types

/-- A NIP-19 bech32 profile (`nprofile`). -/
structure Nip19Profile where
  publicKey : PublicKey
  relays : List RelayUrl
deriving Repr, DecidableEq

/-- A NIP-19 bech32 event (`nevent`). -/
structure Nip19Event where
  eventId : Id
  author : Option PublicKey
  kind : Option EventKind
  relays : List RelayUrl
deriving Repr, DecidableEq

/-- A NIP-19 bech32 addressable event (`naddr`). -/
structure Nip19Address where
  kind : EventKind
  publicKey : PublicKey
  identifier : String
  relays : List RelayUrl
deriving Repr, DecidableEq

/-- The NIP-19 bech32 encoded entities; a private key is a hex string. -/
inductive Nip19 where
  | publicKey (key : PublicKey)
  | privateKey (text : String)
  | eventId (id : Id)
  | profile (profile : Nip19Profile)
  | event (event : Nip19Event)
  | address (address : Nip19Address)
  | relay (relay : RelayUrl)
deriving Repr, DecidableEq

def tlvTypeSpecial : UInt8 := 0
def tlvTypeRelay : UInt8 := 1
def tlvTypeAuthor : UInt8 := 2
def tlvTypeKind : UInt8 := 3

section Entries

/-- `RelayUrl::try_from_str` on the value of an entry. -/
def readRelayUrl (parser : UrlParser) (raw : Bytes) : Outcome Error RelayUrl := do
  let text ← Outcome.okOr Error.fromUtf8 (fromUtf8 raw)
  RelayUrl.tryFromStr parser text

/-- A kind of another length is ignored. -/
def readKindOr (raw : Bytes) (kind : Option EventKind) : Option EventKind :=
  if raw.length = 4 then
    some (EventKind.ofU32 (UInt32.ofNat (ofBeBytes raw)))
  else kind

/-- The length as a byte, and all bytes. -/
def relayUrlEntries (relays : List RelayUrl) : List TlvEntry :=
  relays.map fun relay => (tlvTypeRelay, utf8 relay.text)

end Entries

namespace Nip19Profile

def entries (profile : Nip19Profile) : List TlvEntry :=
  [(tlvTypeSpecial, profile.publicKey.bytes.toList)] ++
    relayUrlEntries profile.relays

def step (curve : Secp256k1) (parser : UrlParser)
    (state : Option PublicKey × List RelayUrl) (entry : TlvEntry) :
    Outcome Error (Option PublicKey × List RelayUrl) :=
  if entry.1 = tlvTypeSpecial then do
    let publicKey ← PublicKey.fromBytes curve entry.2 true
    return (some publicKey, state.2)
  else if entry.1 = tlvTypeRelay then do
    let relay ← readRelayUrl parser entry.2
    return (state.1, state.2 ++ [relay])
  else return state

def read (curve : Secp256k1) (parser : UrlParser) (data : Bytes) :
    Outcome Error Nip19Profile := do
  let state ← scanWhile .invalidNip19Data (step curve parser) data 0 (none, [])
  let publicKey ← Outcome.okOr Error.invalidNip19Data state.1
  return ⟨publicKey, state.2⟩

end Nip19Profile

namespace Nip19Event

def entries (event : Nip19Event) : List TlvEntry :=
  [(tlvTypeSpecial, event.eventId.bytes.toList)] ++
    event.author.toList.map (fun author =>
      (tlvTypeAuthor, author.bytes.toList)) ++
    event.kind.toList.map (fun kind =>
      (tlvTypeKind, beBytes 4 kind.toU32.toNat)) ++
    relayUrlEntries event.relays

structure Fields where
  eventId : Option Id
  author : Option PublicKey
  kind : Option EventKind

def step (curve : Secp256k1) (parser : UrlParser)
    (state : Fields × List RelayUrl) (entry : TlvEntry) :
    Outcome Error (Fields × List RelayUrl) :=
  if entry.1 = tlvTypeSpecial then do
    let eventId ← (Id.tryFromBytes entry.2).mapErr fun _ => Error.invalidId
    return ({ state.1 with eventId := some eventId }, state.2)
  else if entry.1 = tlvTypeRelay then do
    let relay ← readRelayUrl parser entry.2
    return (state.1, state.2 ++ [relay])
  else if entry.1 = tlvTypeAuthor then do
    let author ← PublicKey.fromBytes curve entry.2 true
    return ({ state.1 with author := some author }, state.2)
  else if entry.1 = tlvTypeKind then
    return ({ state.1 with kind := readKindOr entry.2 state.1.kind }, state.2)
  else return state

def read (curve : Secp256k1) (parser : UrlParser) (data : Bytes) :
    Outcome Error Nip19Event := do
  let state ← scanWhile .invalidNip19Data (step curve parser) data 0
    (⟨none, none, none⟩, [])
  let eventId ← Outcome.okOr Error.invalidNip19Data state.1.eventId
  return ⟨eventId, state.1.author, state.1.kind, state.2⟩

end Nip19Event

namespace Nip19Address

def entries (address : Nip19Address) : List TlvEntry :=
  [(tlvTypeSpecial, utf8 address.identifier),
    (tlvTypeKind, beBytes 4 address.kind.toU32.toNat),
    (tlvTypeAuthor, address.publicKey.bytes.toList)] ++
    relayUrlEntries address.relays

structure Fields where
  kind : Option EventKind
  publicKey : Option PublicKey
  identifier : Option String

def step (curve : Secp256k1) (parser : UrlParser)
    (state : Fields × List RelayUrl) (entry : TlvEntry) :
    Outcome Error (Fields × List RelayUrl) :=
  if entry.1 = tlvTypeSpecial then do
    let identifier ← Outcome.okOr Error.fromUtf8 (fromUtf8 entry.2)
    return ({ state.1 with identifier := some identifier }, state.2)
  else if entry.1 = tlvTypeRelay then do
    let relay ← readRelayUrl parser entry.2
    return (state.1, state.2 ++ [relay])
  else if entry.1 = tlvTypeAuthor then do
    let publicKey ← PublicKey.fromBytes curve entry.2 true
    return ({ state.1 with publicKey := some publicKey }, state.2)
  else if entry.1 = tlvTypeKind then
    return ({ state.1 with kind := readKindOr entry.2 state.1.kind }, state.2)
  else return state

def read (curve : Secp256k1) (parser : UrlParser) (data : Bytes) :
    Outcome Error Nip19Address := do
  let state ← scanWhile .invalidNip19Data (step curve parser) data 0
    (⟨none, none, none⟩, [])
  let kind ← Outcome.okOr Error.invalidNip19Data state.1.kind
  let publicKey ← Outcome.okOr Error.invalidNip19Data state.1.publicKey
  let identifier ← Outcome.okOr Error.invalidNip19Data state.1.identifier
  return ⟨kind, publicKey, identifier, state.2⟩

end Nip19Address

namespace Nip19

/-- What is done with the data, by the human-readable part. -/
def decodeData (curve : Secp256k1) (parser : UrlParser) (hex : Hex)
    (hrp : String) (data : Bytes) : Outcome Error Nip19 :=
  if hrp = hrpNpub then
    .publicKey <$> PublicKey.fromBytes curve data true
  else if hrp = hrpNsec then
    if data.length ≠ 32 then .err .invalidPrivateKey
    else .ok (.privateKey (hex.encode data))
  else if hrp = hrpNote then
    .eventId <$> (Id.tryFromBytes data).mapErr fun _ => Error.invalidId
  else if hrp = hrpNprofile then
    .profile <$> Nip19Profile.read curve parser data
  else if hrp = hrpNevent then .event <$> Nip19Event.read curve parser data
  else if hrp = hrpNaddr then .address <$> Nip19Address.read curve parser data
  else if hrp = hrpNrelay then .relay <$> readRelayUrl parser data
  else .err .invalidNip19Prefix

/-- Decode a bech32 encoded NIP-19 string. -/
def decode (curve : Secp256k1) (parser : UrlParser) (hex : Hex)
    (bech32 : Bech32) (text : String) : Outcome Error Nip19 := do
  let data ← Outcome.okOr Error.bech32Decode (bech32.decode text)
  decodeData curve parser hex data.1 data.2

def encodeData (bech32 : Bech32) (hrp : String) (data : Bytes) :
    Outcome Error String :=
  Outcome.okOr .bech32Encode (bech32.encode hrp data)

/-- Encode a NIP-19 entity into a bech32 string. -/
def encode (hex : Hex) (bech32 : Bech32) : Nip19 → Outcome Error String
  | publicKey key => encodeData bech32 hrpNpub key.bytes.toList
  | privateKey text => do
      let bytes ← Outcome.okOr Error.hexDecode (hex.decode text)
      encodeData bech32 hrpNsec bytes
  | eventId id => encodeData bech32 hrpNote id.bytes.toList
  | profile entity =>
      encodeData bech32 hrpNprofile (entity.entries.flatMap encodeTlv)
  | event entity =>
      encodeData bech32 hrpNevent (entity.entries.flatMap encodeTlv)
  | address entity =>
      encodeData bech32 hrpNaddr (entity.entries.flatMap encodeTlv)
  | relay url => encodeData bech32 hrpNrelay (utf8 url.text)

end Nip19

end Types

end Gnostr
