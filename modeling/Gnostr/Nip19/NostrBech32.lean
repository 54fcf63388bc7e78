/-
`NostrBech32` of `types/src/nostr/nostr_url.rs`: the objects a bech32 sequence
can represent, how they are shown, and which strings are taken for one.
-/
import Gnostr.Crypto.EncryptedPrivateKey
import Gnostr.Nip19.Codecs

namespace Gnostr

namespace Types

/-- A bech32 sequence representing a nostr object. -/
inductive NostrBech32 where
  | nAddr (addr : NAddr)
  | nEvent (event : NEvent)
  | id (id : Id)
  | profile (profile : Profile)
  | pubkey (key : PublicKey)
  | relay (url : UncheckedUrl)
  | cryptSec (encrypted : EncryptedPrivateKey)
deriving Repr, DecidableEq

namespace NostrBech32

/-- `Display`, which unwraps in every encoder. -/
def display (bech32 : Bech32) : NostrBech32 → Outcome Error String
  | nAddr addr => addr.asBech32String bech32
  | nEvent event => event.asBech32String bech32
  | id value => value.asBech32String bech32
  | profile value => value.asBech32String bech32
  | pubkey key => key.asBech32String bech32
  | relay url => Nrelay.asBech32String bech32 url
  | cryptSec encrypted => .ok encrypted.text

/-- `if let Ok(value)`: an error is no result. -/
def ifOk {α : Type} (wrap : α → NostrBech32) :
    Outcome Error α → Outcome Error (Option NostrBech32)
  | .ok value => .ok (some (wrap value))
  | .err _ => .ok none
  | .panic => .panic

/-- `s.get(..n) == Some(label)`, for a label of ASCII characters. -/
def startsWith (label : String) (chars : List Char) : Bool :=
  label.toList.isPrefixOf chars

/-- Try to convert a string; there must not be leading or trailing junk. -/
def tryFromString (curve : Secp256k1) (bech32 : Bech32) (chars : List Char) :
    Outcome Error (Option NostrBech32) :=
  let text := String.ofList chars
  if startsWith "naddr1" chars then
    ifOk nAddr (NAddr.tryFromBech32String curve bech32 text)
  else if startsWith "nevent1" chars then
    ifOk nEvent (NEvent.tryFromBech32String curve bech32 text)
  else if startsWith "note1" chars then
    ifOk id (Id.tryFromBech32String bech32 text)
  else if startsWith "nprofile1" chars then
    ifOk profile (Profile.tryFromBech32String curve bech32 text true)
  else if startsWith "npub1" chars then
    ifOk pubkey (PublicKey.tryFromBech32String curve bech32 text true)
  else if startsWith "nrelay1" chars then
    ifOk relay (Nrelay.tryFromBech32String bech32 text)
  else if startsWith "ncryptsec1" chars then
    .ok (some (cryptSec ⟨text⟩))
  else .ok none

end NostrBech32

end Types

end Gnostr
