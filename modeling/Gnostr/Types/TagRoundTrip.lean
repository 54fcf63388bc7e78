/-
Constructors of tags and their parsers, of `types/src/nostr/versioned/tag3.rs`.  An
absent relay is written as an empty string when something comes behind it, and the
empty string is read as a relay.
-/
import Gnostr.Types.Tag

namespace Gnostr

namespace Types

namespace TagV3

/-- The optional fields behind the value: an absent first one keeps its place. -/
def optionalFields (url : Option UncheckedUrl) (last : Option String) : List String :=
  (match url with
    | some url => [url.text]
    | none => if last.isSome then [""] else []) ++ last.toList

/-- Create an event tag. -/
def newEvent (hex : Hex) (id : Id) (recommendedRelayUrl : Option UncheckedUrl)
    (marker : Option String) : TagV3 :=
  ⟨["e", id.asHexString hex] ++ optionalFields recommendedRelayUrl marker⟩

/-- Create a quote tag. -/
def newQuote (hex : Hex) (id : Id) (recommendedRelayUrl : Option UncheckedUrl) : TagV3 :=
  ⟨["q", id.asHexString hex] ++ (recommendedRelayUrl.map UncheckedUrl.text).toList⟩

/-- Parse a quote tag. -/
def parseQuote (hex : Hex) (tag : TagV3) : Outcome Error (Id × Option UncheckedUrl) :=
  match tag.fields with
  | name :: value :: rest =>
      if name ≠ "q" then .err .tagMismatch
      else do
        let id ← Id.tryFromHexString hex value
        return (id, rest[0]?.map UncheckedUrl.mk)
  | _ => .err .tagMismatch

/-- Parse a tag of one value, which is any string. -/
def parseValue (tagname : String) (tag : TagV3) : Outcome Error String :=
  match tag.fields with
  | name :: value :: _ => if name ≠ tagname then .err .tagMismatch else .ok value
  | _ => .err .tagMismatch

def newHashtag (hashtag : String) : TagV3 := ⟨["t", hashtag]⟩
def parseHashtag : TagV3 → Outcome Error String := parseValue "t"

def newIdentifier (identifier : String) : TagV3 := ⟨["d", identifier]⟩
def parseIdentifier : TagV3 → Outcome Error String := parseValue "d"

def newSubject (subject : String) : TagV3 := ⟨["subject", subject]⟩
def parseSubject : TagV3 → Outcome Error String := parseValue "subject"

def newTitle (title : String) : TagV3 := ⟨["title", title]⟩
def parseTitle : TagV3 → Outcome Error String := parseValue "title"

def newSummary (summary : String) : TagV3 := ⟨["summary", summary]⟩
def parseSummary : TagV3 → Outcome Error String := parseValue "summary"

/-- Create a relay tag. -/
def newRelay (url : UncheckedUrl) (usage : Option String) : TagV3 :=
  ⟨["r", url.text] ++ usage.toList⟩

/-- Parse a relay tag. -/
def parseRelay (tag : TagV3) : Outcome Error (UncheckedUrl × Option String) :=
  match tag.fields with
  | name :: value :: rest =>
      if name ≠ "r" then .err .tagMismatch else .ok (⟨value⟩, rest[0]?)
  | _ => .err .tagMismatch

/-- Create a kind tag. -/
def newKind (kind : EventKind) : TagV3 :=
  ⟨["k", String.ofList (decimal kind.toU32.toNat)]⟩

/-- Parse a kind tag. -/
def parseKind (tag : TagV3) : Outcome Error EventKind :=
  match tag.fields with
  | name :: value :: _ =>
      if name ≠ "k" then .err .tagMismatch
      else do
        let u ← Outcome.okOr .parseInt (parseUnsigned (2 ^ 32) value.toList)
        return EventKind.ofU32 (UInt32.ofNat u)
  | _ => .err .tagMismatch

section RoundTrip

/-- What is found in the places of the optional fields. -/
theorem getElem?_optionalFields (url : Option UncheckedUrl) (last : Option String) :
    (optionalFields url last)[0]?.map UncheckedUrl.mk =
        url.or (last.map fun _ => ⟨""⟩) ∧
      (optionalFields url last)[1]? = last := by
  unfold optionalFields
  cases url <;> cases last <;> exact ⟨rfl, rfl⟩

theorem or_map_eq_iff {α β : Type} (filler : α) {first : Option α} {second : Option β} :
    first.or (second.map fun _ => filler) = first ↔ (first = none → second = none) := by
  cases first <;> cases second <;> simp

theorem parseEvent_newEvent (hex : Hex) (id : Id) (url : Option UncheckedUrl)
    (marker : Option String) :
    (newEvent hex id url marker).parseEvent hex =
      .ok (id, url.or (marker.map fun _ => ⟨""⟩), marker) := by
  obtain ⟨hurl, hmarker⟩ := getElem?_optionalFields url marker
  rw [parseEvent, newEvent]
  simp only [List.cons_append, List.nil_append, ne_eq, not_true_eq_false, if_false,
    Id.tryFromHexString_asHexString, Outcome.ok_bind, hurl, hmarker]
  rfl

/-- What is given for an event comes back. -/
def EventRoundTrips (hex : Hex) (id : Id) (url : Option UncheckedUrl)
    (marker : Option String) : Prop :=
  (newEvent hex id url marker).parseEvent hex = .ok (id, url, marker)

theorem eventRoundTrips_iff {hex : Hex} {id : Id} {url : Option UncheckedUrl}
    {marker : Option String} :
    EventRoundTrips hex id url marker ↔ (url = none → marker = none) := by
  rw [EventRoundTrips, parseEvent_newEvent, Outcome.ok.injEq, Prod.mk.injEq,
    Prod.mk.injEq, ← or_map_eq_iff (⟨""⟩ : UncheckedUrl)]
  simp

theorem parseQuote_newQuote (hex : Hex) (id : Id) (url : Option UncheckedUrl) :
    (newQuote hex id url).parseQuote hex = .ok (id, url) := by
  rw [parseQuote, newQuote]
  simp only [List.cons_append, List.nil_append, ne_eq, not_true_eq_false, if_false,
    Id.tryFromHexString_asHexString, Outcome.ok_bind]
  cases url <;> rfl

/-- What is given for a public key comes back. -/
def PubkeyRoundTrips (curve : Secp256k1) (hex : Hex) (pubkey : PublicKey)
    (url : Option UncheckedUrl) (petname : Option String) : Prop :=
  (newPubkey hex pubkey url petname).parsePubkey curve hex = .ok (pubkey, url, petname)

theorem newPubkey_eq (hex : Hex) (pubkey : PublicKey) (url : Option UncheckedUrl)
    (petname : Option String) :
    newPubkey hex pubkey url petname =
      ⟨["p", pubkey.asHexString hex] ++ optionalFields url petname⟩ :=
  congrArg TagV3.mk (List.append_assoc _ _ _)

/-- A key that is not on the curve is refused, and an empty petname is none. -/
theorem parsePubkey_newPubkey_eq (curve : Secp256k1) (hex : Hex) (pubkey : PublicKey)
    (url : Option UncheckedUrl) (petname : Option String) :
    (newPubkey hex pubkey url petname).parsePubkey curve hex =
      if pubkey.Verified curve then
        .ok (pubkey, url.or (petname.map fun _ => ⟨""⟩),
          petname.filter fun petname => !petname.isEmpty)
      else .err .keyOrSignature := by
  obtain ⟨hurl, hpetname⟩ := getElem?_optionalFields url petname
  rw [parsePubkey, newPubkey_eq]
  simp only [List.cons_append, List.nil_append, ne_eq, not_true_eq_false, if_false,
    PublicKey.tryFromHexString_asHexString, true_and, hurl, hpetname]
  by_cases hverified : pubkey.Verified curve
  · rw [if_neg (not_not_intro hverified), if_pos hverified]
    rfl
  · rw [if_pos hverified, if_neg hverified]
    rfl

theorem pubkeyRoundTrips_iff {curve : Secp256k1} {hex : Hex} {pubkey : PublicKey}
    {url : Option UncheckedUrl} {petname : Option String} :
    PubkeyRoundTrips curve hex pubkey url petname ↔
      pubkey.Verified curve ∧ (url = none → petname = none) ∧ petname ≠ some "" := by
  have hfilter : (petname.filter fun petname => !petname.isEmpty) = petname ↔
      petname ≠ some "" := by
    cases petname with
    | none => simp
    | some petname => simp [Option.filter_some]
  rw [PubkeyRoundTrips, parsePubkey_newPubkey_eq]
  by_cases hverified : pubkey.Verified curve
  · rw [if_pos hverified, Outcome.ok.injEq, Prod.mk.injEq, Prod.mk.injEq,
      or_map_eq_iff (⟨""⟩ : UncheckedUrl), hfilter]
    exact and_congr_left' (iff_of_true rfl hverified)
  · rw [if_neg hverified]
    exact iff_of_false (fun herr => by cases herr) fun hall => hverified hall.1

theorem parseValue_pair (tagname value : String) :
    parseValue tagname ⟨[tagname, value]⟩ = .ok value :=
  if_neg (not_not_intro rfl)

/-- The other constructors lose nothing; a kind comes back as the one that its number
names. -/
theorem parse_new_eq_ok (hex : Hex) :
    (∀ id url, (newQuote hex id url).parseQuote hex = .ok (id, url)) ∧
      (∀ text, (newHashtag text).parseHashtag = .ok text ∧
        (newIdentifier text).parseIdentifier = .ok text ∧
          (newSubject text).parseSubject = .ok text ∧
            (newTitle text).parseTitle = .ok text ∧
              (newSummary text).parseSummary = .ok text) ∧
        (∀ url usage, (newRelay url usage).parseRelay = .ok (url, usage)) ∧
          ∀ kind, (newKind kind).parseKind = .ok (EventKind.ofU32 kind.toU32) := by
  refine ⟨parseQuote_newQuote hex, fun text => ?_, fun url usage => ?_, fun kind => ?_⟩
  · exact ⟨parseValue_pair _ text, parseValue_pair _ text, parseValue_pair _ text,
      parseValue_pair _ text, parseValue_pair _ text⟩
  · cases usage <;> rfl
  · rw [parseKind, newKind]
    dsimp only
    rw [if_neg (not_not_intro rfl), String.toList_ofList,
      parseUnsigned_decimal kind.toU32.toNat_lt, Outcome.okOr_some, Outcome.ok_bind,
      ofNat_toU32]
    rfl

/-- What is given for an event or for a public key comes back exactly when a relay is
given if something stands behind it, the key is on the curve and the petname is not
empty. -/
theorem event_and_pubkey_roundTrip_iff (curve : Secp256k1) (hex : Hex) :
    (∀ id url marker, EventRoundTrips hex id url marker ↔ (url = none → marker = none)) ∧
      ∀ pubkey url petname, PubkeyRoundTrips curve hex pubkey url petname ↔
        pubkey.Verified curve ∧ (url = none → petname = none) ∧ petname ≠ some "" :=
  ⟨fun _ _ _ => eventRoundTrips_iff, fun _ _ _ => pubkeyRoundTrips_iff⟩

/-- A marker without a relay comes back with an empty one. -/
theorem not_roundTrips_markerAlone :
    ¬ ∀ curve hex, (∀ id url marker, EventRoundTrips hex id url marker) ∧
      ∀ pubkey url petname, PubkeyRoundTrips curve hex pubkey url petname := by
  intro hall
  have hevent := (hall Secp256k1.permissive Hex.reference).1 ⟨Vector.replicate 32 1⟩
    none (some "reply")
  rw [eventRoundTrips_iff] at hevent
  exact absurd (hevent rfl) (Option.some_ne_none _)

end RoundTrip

end TagV3

end Types

end Gnostr
