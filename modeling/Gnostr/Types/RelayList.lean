/-
Relay lists of `types/src/nostr/relay_list.rs`: a hash map from relay URLs to their
usage, its entries as tags in the order of iteration, and the map that is read from
tags.
-/
import Gnostr.Lib.HashMap
import Gnostr.Types.EventV3
import Gnostr.Types.TagRoundTrip
import Gnostr.Types.Url

namespace Gnostr

namespace Types

inductive RelayListUsage where
  | inbox
  | outbox
  | both
deriving Repr, DecidableEq

/-- The marker of the variant in a relay list event. -/
def RelayListUsage.marker : RelayListUsage → Option String
  | inbox => some "read"
  | outbox => some "write"
  | both => none

/-- A relay list, indicating usage for each relay.  The relay URLs are canonical, as
validation makes them. -/
@[ext]
structure RelayList (parser : UrlParser) where
  usages : Finmap fun _ : RelayUrl => RelayListUsage
  canonical : ∀ url ∈ usages, url.Canonical parser

/-- What has been validated is validated to itself. -/
theorem RelayUrl.canonical_of_tryFromStr {parser : UrlParser} {text : String}
    {relay : RelayUrl} (hok : tryFromStr parser text = .ok relay) :
    relay.Canonical parser := by
  obtain ⟨url, hurl, htext⟩ := exists_of_tryFromStr_eq_ok hok
  have htrim : trim relay.text = relay.text := by
    rw [htext, parser.trim_serialization hurl]
  have hparse : parser.parse (trim relay.text) = parser.parse (trim text) := by
    rw [htrim, htext, parser.parse_serialization hurl, hurl]
  have hfirst : Url.tryFromStr parser relay.text = Url.tryFromStr parser text := by
    unfold Url.tryFromStr
    rw [hparse]
  rw [Canonical, tryFromStr, hfirst]
  exact hok

namespace RelayList

variable {parser : UrlParser}

section Read

/-- The usage that a marker stands for.  No character beyond ASCII has a letter of
the two words for its lower case. -/
def usageOf : Option String → Option RelayListUsage
  | some marker =>
      let marker := lowercase (trim marker)
      if marker = "read" then some .inbox
      else if marker = "write" then some .outbox
      else none
  | none => some .both

variable (parser)

/-- What one tag enters; whatever cannot be read is passed over. -/
def readTag (usages : Finmap fun _ : RelayUrl => RelayListUsage) (tag : TagV3) :
    Finmap fun _ : RelayUrl => RelayListUsage :=
  match tag.parseRelay with
  | .ok (url, marker) =>
      match RelayUrl.tryFromStr parser url.text with
      | .ok relayUrl =>
          match usageOf marker with
          | some usage => usages.insert relayUrl usage
          | none => usages
      | _ => usages
  | _ => usages

variable {parser}

theorem canonical_readTag {usages : Finmap fun _ : RelayUrl => RelayListUsage}
    (hcanonical : ∀ url ∈ usages, url.Canonical parser) (tag : TagV3) :
    ∀ url ∈ readTag parser usages tag, url.Canonical parser := by
  unfold readTag
  split
  · split
    · rename_i relayUrl hrelay
      split
      · intro url hurl
        rcases Finmap.mem_insert.mp hurl with rfl | hmem
        · exact RelayUrl.canonical_of_tryFromStr hrelay
        · exact hcanonical url hmem
      · exact hcanonical
    · exact hcanonical
  · exact hcanonical

theorem canonical_foldl_readTag (tags : List TagV3)
    {usages : Finmap fun _ : RelayUrl => RelayListUsage}
    (hcanonical : ∀ url ∈ usages, url.Canonical parser) :
    ∀ url ∈ tags.foldl (readTag parser) usages, url.Canonical parser := by
  induction tags generalizing usages with
  | nil => exact hcanonical
  | cons tag tags ih => exact ih (canonical_readTag hcanonical tag)

variable (parser)

/-- Parse a relay list event; its kind is not looked at. -/
def fromEvent (event : EventV3) : RelayList parser where
  usages := event.tags.foldl (readTag parser) ∅
  canonical := canonical_foldl_readTag event.tags fun _ hurl =>
    absurd hurl Finmap.notMem_empty

end Read

/-- Tags appropriate for forming a relay list event. -/
def toEventTags (order : IterOrder RelayUrl) (list : RelayList parser) : List TagV3 :=
  (iterEntries order list.usages).map fun entry =>
    TagV3.newRelay ⟨entry.1.text⟩ entry.2.marker

theorem usageOf_marker (usage : RelayListUsage) :
    usageOf usage.marker = some usage := by
  cases usage <;> decide +kernel

/-- The tag of a canonical relay URL enters it with its usage. -/
theorem readTag_newRelay {url : RelayUrl} (hurl : url.Canonical parser)
    (usages : Finmap fun _ : RelayUrl => RelayListUsage) (usage : RelayListUsage) :
    readTag parser usages (TagV3.newRelay ⟨url.text⟩ usage.marker) =
      usages.insert url usage := by
  have hparse : (TagV3.newRelay ⟨url.text⟩ usage.marker).parseRelay =
      .ok (⟨url.text⟩, usage.marker) := by
    cases usage <;> rfl
  have hrelay : RelayUrl.tryFromStr parser url.text = .ok url := hurl
  unfold readTag
  rw [hparse]
  dsimp only
  rw [hrelay]
  dsimp only
  rw [usageOf_marker]

/-- A relay list is read from the tags that it forms, whatever the order of
iteration and whatever else the event holds. -/
theorem fromEvent_toEventTags (order : IterOrder RelayUrl) (list : RelayList parser)
    (event : EventV3) :
    fromEvent parser { event with tags := list.toEventTags order } = list := by
  have hread : ∀ usages, ∀ entry ∈ iterEntries order list.usages,
      readTag parser usages (TagV3.newRelay ⟨entry.1.text⟩ entry.2.marker) =
        usages.insert entry.1 entry.2 := by
    intro usages entry hentry
    refine readTag_newRelay (list.canonical entry.1 ?_) usages entry.2
    exact Finmap.mem_of_lookup_eq_some (mem_iterEntries.mp hentry)
  have husages : (list.toEventTags order).foldl (readTag parser) ∅ = list.usages := by
    rw [toEventTags, List.foldl_map, List.foldl_ext _ _ _ hread]
    exact insertEntries_iterEntries order list.usages
  exact RelayList.ext husages

end RelayList

end Types

end Gnostr
