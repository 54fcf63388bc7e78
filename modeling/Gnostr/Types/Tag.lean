/-
Tags of `types/src/nostr/versioned/tag3.rs`: the constructors that place strings
in a list, and the parsers that find them there again.  An address is joined with
colons and split at them; a marker has its place behind the relay only if there
is one.
-/
import Gnostr.Lib.Decimal
import Gnostr.Nip19.Codecs
import Gnostr.Types.Filter

namespace Gnostr

namespace Types

namespace TagV3

/-- Set the string at an index, behind empty ones if need be. -/
def setIndex (tag : TagV3) (index : ℕ) (value : String) : TagV3 :=
  ⟨(tag.fields.rightpad (index + 1) "").set index value⟩

section Address

/-- `format!("{}:{}:{}")` of the kind number, the author and the identifier. -/
def addressText (hex : Hex) (naddr : NAddr) : List Char :=
  decimal naddr.kind.toU32.toNat ++
    ':' :: ((naddr.author.asHexString hex).toList ++ ':' :: naddr.d.toList)

/-- A new address tag. -/
def newAddress (hex : Hex) (naddr : NAddr) (marker : Option String) : TagV3 :=
  ⟨["a", String.ofList (addressText hex naddr)] ++
    (naddr.relays.head?.map UncheckedUrl.text).toList ++ marker.toList⟩

/-- Parse an address tag; what follows a third colon is not looked at. -/
def parseAddress (curve : Secp256k1) (hex : Hex) (tag : TagV3) :
    Outcome Error (NAddr × Option String) :=
  match tag.fields with
  | name :: value :: rest =>
      if name ≠ "a" then .err .tagMismatch
      else
        match value.toList.splitOn ':' with
        | kindText :: authorText :: d :: _ => do
            let kindnum ← Outcome.okOr .parseInt (parseUnsigned (2 ^ 32) kindText)
            let kind := EventKind.ofU32 (UInt32.ofNat kindnum)
            if !kind.isReplaceable then .err .nonReplaceableAddr
            else do
              let author ← PublicKey.tryFromHexString curve hex
                (String.ofList authorText) true
              let relays := (rest[0]?.map UncheckedUrl.mk).toList
              return (⟨String.ofList d, relays, kind, author⟩, rest[1]?)
        | _ => .err .tagMismatch
  | _ => .err .tagMismatch

theorem colon_not_mem_hexDigits : ':' ∉ Hex.hexDigits := by decide

theorem splitOn_addressText (hex : LowerHex) (naddr : NAddr) :
    (addressText hex.toHex naddr).splitOn ':' =
      decimal naddr.kind.toU32.toNat ::
        (naddr.author.asHexString hex.toHex).toList ::
          naddr.d.toList.splitOn ':' := by
  have hauthor : ':' ∉ (naddr.author.asHexString hex.toHex).toList :=
    hex.not_mem_encode colon_not_mem_hexDigits _
  rw [addressText, List.splitOn_append_cons_self_of_not_mem
      (not_mem_decimal (by decide) _),
    List.splitOn_append_cons_self_of_not_mem hauthor]

/-- The part of an identifier before its first colon. -/
def beforeColon (d : String) : String :=
  String.ofList ((d.toList.splitOn ':').headD [])

theorem beforeColon_eq_iff (d : String) : beforeColon d = d ↔ ':' ∉ d.toList := by
  rw [beforeColon, ← String.toList_inj, String.toList_ofList]
  constructor
  · intro hwhole hmem
    obtain ⟨before, after, hd, hbefore⟩ := List.eq_append_cons_of_mem hmem
    rw [hd, List.splitOn_append_cons_self_of_not_mem hbefore, List.headD_cons] at hwhole
    simp at hwhole
  · intro hnot
    rw [List.splitOn_eq_singleton hnot, List.headD_cons]

theorem ofNat_toU32 (kind : EventKind) :
    UInt32.ofNat kind.toU32.toNat = kind.toU32 := UInt32.ofNat_toNat

/-- What is read of a tag that was made from an address. -/
def readBack (naddr : NAddr) (marker : Option String) : NAddr × Option String :=
  let rest := (naddr.relays.head?.map UncheckedUrl.text).toList ++ marker.toList
  (⟨beforeColon naddr.d, (rest[0]?.map UncheckedUrl.mk).toList,
    EventKind.ofU32 naddr.kind.toU32, naddr.author⟩, rest[1]?)

theorem parseAddress_newAddress_eq_ok_iff {curve : Secp256k1} {hex : LowerHex}
    {naddr : NAddr} {marker : Option String} {result : NAddr × Option String} :
    (newAddress hex.toHex naddr marker).parseAddress curve hex.toHex = .ok result ↔
      (EventKind.ofU32 naddr.kind.toU32).isReplaceable = true ∧
        naddr.author.Verified curve ∧ readBack naddr marker = result := by
  obtain ⟨first, rest, hsplit⟩ :=
    List.exists_cons_of_ne_nil (List.splitOn_ne_nil ':' naddr.d.toList)
  have hbefore : String.ofList first = beforeColon naddr.d := by
    rw [beforeColon, hsplit, List.headD_cons]
  have hkind : naddr.kind.toU32.toNat < 2 ^ 32 := naddr.kind.toU32.toNat_lt
  unfold parseAddress newAddress
  simp only [List.cons_append, List.nil_append, ne_eq, not_true_eq_false, if_false,
    String.toList_ofList, splitOn_addressText, hsplit, parseUnsigned_decimal hkind,
    Outcome.okOr_some, Outcome.ok_bind, ofNat_toU32, String.ofList_toList,
    PublicKey.tryFromHexString_asHexString, true_and, hbefore]
  by_cases hreplaceable : (EventKind.ofU32 naddr.kind.toU32).isReplaceable = true
  · by_cases hverified : naddr.author.Verified curve
    · simp [hreplaceable, hverified, readBack]
    · simp [hreplaceable, hverified]
  · simp [hreplaceable]

/-- The address comes back from its tag. -/
def AddressRoundTrips (curve : Secp256k1) (hex : Hex) (naddr : NAddr)
    (marker : Option String) : Prop :=
  ∃ found, (newAddress hex naddr marker).parseAddress curve hex =
      .ok (found, marker) ∧
    found.kind = naddr.kind ∧ found.author = naddr.author ∧ found.d = naddr.d ∧
      found.relays.head? = naddr.relays.head?

/-- Where the relay and the marker are found again. -/
theorem readBack_slots_iff (naddr : NAddr) (marker : Option String) :
    (readBack naddr marker).1.relays.head? = naddr.relays.head? ∧
        (readBack naddr marker).2 = marker ↔
      (naddr.relays = [] → marker = none) := by
  unfold readBack
  cases naddr.relays with
  | nil => cases marker <;> simp
  | cons relay relays => cases marker <;> simp

theorem addressRoundTrips_iff_readBack {curve : Secp256k1} {hex : LowerHex}
    {naddr : NAddr} {marker : Option String} :
    AddressRoundTrips curve hex.toHex naddr marker ↔
      naddr.kind.Canonical ∧ naddr.kind.isReplaceable = true ∧
        naddr.author.Verified curve ∧ beforeColon naddr.d = naddr.d ∧
          (readBack naddr marker).1.relays.head? = naddr.relays.head? ∧
            (readBack naddr marker).2 = marker := by
  constructor
  · rintro ⟨found, hfound, hkind, _, hd, hrelay⟩
    obtain ⟨hreplaceable, hverified, hback⟩ :=
      parseAddress_newAddress_eq_ok_iff.mp hfound
    have hfirst : (readBack naddr marker).1 = found := congrArg Prod.fst hback
    have hsecond : (readBack naddr marker).2 = marker := congrArg Prod.snd hback
    rw [← hfirst] at hkind hd hrelay
    have hcanonical : naddr.kind.Canonical := hkind
    rw [hcanonical] at hreplaceable
    exact ⟨hcanonical, hreplaceable, hverified, hd, hrelay, hsecond⟩
  · rintro ⟨hcanonical, hreplaceable, hverified, hd, hrelay, hsecond⟩
    have hreplaceable' : (EventKind.ofU32 naddr.kind.toU32).isReplaceable = true := by
      rwa [hcanonical]
    refine ⟨(readBack naddr marker).1, ?_, hcanonical, rfl, hd, hrelay⟩
    refine parseAddress_newAddress_eq_ok_iff.mpr ⟨hreplaceable', hverified, ?_⟩
    exact Prod.ext rfl hsecond

/-- An address tag is read back exactly when the kind is replaceable and the one
its number names, the author is on the curve, the identifier has no colon, and a
marker stands behind a relay. -/
theorem address_roundTrips_iff (curve : Secp256k1) (hex : LowerHex)
    (naddr : NAddr) (marker : Option String) :
    AddressRoundTrips curve hex.toHex naddr marker ↔
      naddr.kind.Canonical ∧ naddr.kind.isReplaceable = true ∧
        naddr.author.Verified curve ∧ ':' ∉ naddr.d.toList ∧
          (naddr.relays = [] → marker = none) := by
  rw [addressRoundTrips_iff_readBack, readBack_slots_iff, beforeColon_eq_iff]

/-- An address of an article, without a relay. -/
def articleAddress (d : String) : NAddr where
  d := d
  relays := []
  kind := .wellKnown .longFormContent
  author := ⟨Vector.replicate 32 1⟩

/-- An identifier of two parts is cut off, and a marker without a relay is taken
for one. -/
theorem article_address_lost :
    ¬ AddressRoundTrips Secp256k1.permissive Hex.referenceLower.toHex
        (articleAddress "blog:2023") none ∧
      ¬ AddressRoundTrips Secp256k1.permissive Hex.referenceLower.toHex
        (articleAddress "blog") (some "root") := by
  rw [addressRoundTrips_iff_readBack, addressRoundTrips_iff_readBack]
  constructor
  · rintro ⟨_, _, _, hd, _⟩
    revert hd
    decide +kernel
  · rintro ⟨_, _, _, _, hrelay, _⟩
    revert hrelay
    decide +kernel

end Address

section Pubkey

/-- Create a public key tag. -/
def newPubkey (hex : Hex) (pubkey : PublicKey) (relayUrl : Option UncheckedUrl)
    (petname : Option String) : TagV3 :=
  ⟨["p", pubkey.asHexString hex] ++
    (match relayUrl with
      | some rurl => [rurl.text]
      | none => if petname.isSome then [""] else []) ++ petname.toList⟩

/-- Parse a public key tag, whose name is a lower-case letter. -/
def parsePubkey (curve : Secp256k1) (hex : Hex) (tag : TagV3) :
    Outcome Error (PublicKey × Option UncheckedUrl × Option String) :=
  match tag.fields with
  | name :: value :: rest =>
      if name ≠ "p" then .err .tagMismatch
      else do
        let pubkey ← PublicKey.tryFromHexString curve hex value true
        let petname := rest[1]?.filter fun petname => !petname.isEmpty
        return (pubkey, rest[0]?.map UncheckedUrl.mk, petname)
  | _ => .err .tagMismatch

/-- A tag of another name, the upper-case letter among them, holds no public
key. -/
theorem parsePubkey_of_tagname_ne {curve : Secp256k1} {hex : Hex} {tag : TagV3}
    (hname : tag.tagname ≠ "p") :
    tag.parsePubkey curve hex = .err .tagMismatch := by
  unfold parsePubkey
  split
  · rename_i name value rest hfields
    have htagname : tag.tagname = name := by
      rw [tagname, getIndex_eq_getD, hfields]
      rfl
    exact if_pos (htagname ▸ hname)
  · rfl

theorem parsePubkey_newPubkey {curve : Secp256k1} {hex : Hex}
    {pubkey : PublicKey} (hverified : pubkey.Verified curve) :
    (newPubkey hex pubkey none none).parsePubkey curve hex =
      .ok (pubkey, none, none) := by
  have hparse : PublicKey.tryFromHexString curve hex (pubkey.asHexString hex)
      true = .ok pubkey := by
    rw [PublicKey.tryFromHexString_asHexString,
      if_neg fun hbad => hbad.2 hverified]
  unfold parsePubkey newPubkey
  simp [hparse]

end Pubkey

/-- Parse an event tag. -/
def parseEvent (hex : Hex) (tag : TagV3) :
    Outcome Error (Id × Option UncheckedUrl × Option String) :=
  match tag.fields with
  | name :: value :: rest =>
      if name ≠ "e" then .err .tagMismatch
      else do
        let id ← Id.tryFromHexString hex value
        return (id, rest[0]?.map UncheckedUrl.mk, rest[1]?)
  | _ => .err .tagMismatch

end TagV3

end Types

end Gnostr
