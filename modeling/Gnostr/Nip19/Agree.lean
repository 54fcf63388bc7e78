/-
The two NIP-19 implementations: what the typed codecs write is what the entity
decoder reads, with relays in canonical form, but for relay strings that are no
URLs, keys that are not on the curve, and kinds under another name.
-/
import Gnostr.Nip19.EntityRoundTrip
import Gnostr.Nip19.NostrBech32
import Gnostr.Nip19.RoundTrip

namespace Gnostr

namespace Types

namespace NostrBech32

variable (curve : Secp256k1) (parser : UrlParser)

/-- A relay string is short enough and a relay URL. -/
def RelayShared (relay : UncheckedUrl) : Prop :=
  Fits relay.text ∧ ∃ url, RelayUrl.tryFromStr parser relay.text = .ok url

/-- The values both implementations know. -/
def Shared : NostrBech32 → Prop
  | nAddr addr => Fits addr.d ∧ (∀ relay ∈ addr.relays, RelayShared parser relay) ∧
      addr.kind.Canonical ∧ addr.author.Verified curve
  | nEvent event => (∀ relay ∈ event.relays, RelayShared parser relay) ∧
      event.Kept curve
  | id _ => True
  | profile value => (∀ relay ∈ value.relays, RelayShared parser relay) ∧
      value.pubkey.Verified curve
  | pubkey key => key.Verified curve
  | relay _ => False
  | cryptSec _ => False

/-- Every relay is the canonical form of the one at its place. -/
def SameRelays (relays : List UncheckedUrl) (urls : List RelayUrl) : Prop :=
  List.Forall₂ (fun relay url => RelayUrl.tryFromStr parser relay.text = .ok url)
    relays urls

/-- The entity has the fields of the value. -/
def SameFields : NostrBech32 → Nip19 → Prop
  | nAddr addr, .address entity =>
      entity.identifier = addr.d ∧ entity.kind = addr.kind ∧
        entity.publicKey = addr.author ∧
        SameRelays parser addr.relays entity.relays
  | nEvent event, .event entity =>
      entity.eventId = event.id ∧ entity.kind = event.kind ∧
        entity.author = event.author ∧
        SameRelays parser event.relays entity.relays
  | id value, .eventId entity => entity = value
  | profile value, .profile entity =>
      entity.publicKey = value.pubkey ∧
        SameRelays parser value.relays entity.relays
  | pubkey key, .publicKey entity => entity = key
  | _, _ => False

variable {curve parser}

end NostrBech32

end Types

end Gnostr
