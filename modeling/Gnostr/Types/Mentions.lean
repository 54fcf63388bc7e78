/-
What an event mentions and what it replies to, of
`types/src/nostr/versioned/event3.rs`: the positions that `mentions` leaves out are not
the tags that the replies are taken from.
-/
import Gnostr.Types.Replies

namespace Gnostr

namespace Types

/-- What a reference is compared by. -/
def EventReference.identity : EventReference → Id ⊕ String × EventKind × PublicKey
  | .id eventId _ _ _ => .inl eventId
  | .addr naddr => .inr (naddr.d, naddr.kind, naddr.author)

theorem EventReference.eq_iff_identity {first second : EventReference} :
    first.eq second = true ↔ first.identity = second.identity := by
  cases first <;> cases second <;>
    simp [EventReference.eq, NAddr.eq, identity, and_assoc]

/-- At most one place of a list passes a test that it counts less than twice. -/
theorem eq_of_countP_lt_two {α : Type} {test : α → Bool} {list : List α}
    (hcount : list.countP test < 2) {first second : α} (hfirst : first ∈ list)
    (hsecond : second ∈ list) (hfirstTest : test first = true)
    (hsecondTest : test second = true) : first = second := by
  rw [List.countP_eq_length_filter] at hcount
  have hfirstMem := List.mem_filter.mpr ⟨hfirst, hfirstTest⟩
  have hsecondMem := List.mem_filter.mpr ⟨hsecond, hsecondTest⟩
  obtain ⟨only, honly⟩ := List.length_eq_one_iff.mp
    (show (list.filter test).length = 1 by
      have hpos := List.length_pos_of_mem hfirstMem
      omega)
  rw [honly, List.mem_singleton] at hfirstMem hsecondMem
  rw [hfirstMem, hsecondMem]

section Names

variable (curve : Secp256k1) (hex : Hex) (parser : UrlParser)

/-- An event tag, an address tag or a quote tag that names this target. -/
def TagV3.names (target : EventReference) (tag : TagV3) : Bool :=
  match tag.read curve hex parser with
  | some found => found.target.eq target
  | none =>
      match tag.parseQuote hex with
      | .ok (id, _) => (EventReference.id id none [] none).eq target
      | _ => false

/-- More than one tag of an event names a target. -/
def EventV3.NamedTwice (event : EventV3) (target : EventReference) : Prop :=
  2 ≤ event.tags.countP (TagV3.names curve hex parser target)

/-- No mention is what the event replies to or its root, unless another tag names it as
well. -/
def EventV3.MentionsOthers (event : EventV3) : Prop :=
  ∀ mention ∈ event.mentions curve hex parser, ∀ reply,
    event.repliesTo curve hex parser = some reply ∨
      event.repliesToRoot curve hex parser = some reply →
        mention.eq reply = true → event.NamedTwice curve hex parser mention

variable {curve hex parser}

theorem TagV3.names_of_read {tag : TagV3} {found : TagReference}
    {target : EventReference} (hread : tag.read curve hex parser = some found) :
    tag.names curve hex parser target = found.target.eq target := by
  rw [names, hread]

/-- The marker of an event tag is looked for in the place where it is read. -/
theorem TagV3.marker_of_read {tag : TagV3} {found : TagReference}
    (hread : tag.read curve hex parser = some found) (hevent : found.isAddress = false) :
    tag.marker = found.marker.getD "" := by
  rcases TagV3.exists_parse_of_read hread with ⟨id, rurl, marker, hparse, rfl⟩ |
    ⟨ea, marker, -, rfl⟩
  · obtain ⟨value, rest, hfields, hmarker⟩ := exists_of_parseEvent hparse
    rw [TagV3.marker, if_pos (tagname_of_parseEvent hparse), getIndex_eq_getD, hfields,
      hmarker]
    rfl
  · cases hevent

/-- An inner tag has no marker where one is looked for. -/
theorem EventV3.marker_eq_of_innerTags {event : EventV3} {tag : TagV3}
    (htag : tag ∈ event.innerTags) : tag ∈ event.tags ∧ tag.marker = "" := by
  dsimp only [innerTags] at htag
  split at htag
  · have hmem := List.mem_of_mem_take (List.mem_of_mem_drop htag)
    obtain ⟨htags, htest⟩ := List.mem_filter.mp hmem
    exact ⟨htags, beq_iff_eq.mp (Bool.and_eq_true_iff.mp htest).2⟩
  · cases htag

/-- No event tag with a marker is one of the inner tags. -/
theorem EventV3.is_event_eq_false_of_innerTags {event : EventV3} {tag : TagV3}
    {found : TagReference} {name : String} (htag : tag ∈ event.innerTags)
    (hread : tag.read curve hex parser = some found) (hname : name ≠ "") :
    found.is false (some name) = false := by
  have hunmarked := (marker_eq_of_innerTags htag).2
  rw [Bool.eq_false_iff]
  intro his
  obtain ⟨hevent, hmarker⟩ := TagReference.is_eq_true_iff.mp his
  rw [TagV3.marker_of_read hread hevent, hmarker, Option.getD_some] at hunmarked
  exact hname hunmarked

end Names

section Candidates

/-- When no event tag is marked as a reply or a root, a reply is the first address tag
that is, or else the last event tag without a marker. -/
def IsReplyCandidate (refs : List TagReference) (found : TagReference) : Prop :=
  (∀ other ∈ refs, other.is false (some "reply") = false) ∧
    (∀ other ∈ refs, other.is false (some "root") = false) ∧
      ((refs.find? (TagReference.is true (some "reply"))).or <|
        (refs.find? (TagReference.is true (some "root"))).or <|
          refs.reverse.find? (TagReference.is false none)) = some found

/-- When no event tag is marked as a root, the root is the first tag without a marker. -/
def IsRootCandidate (refs : List TagReference) (found : TagReference) : Prop :=
  (∀ other ∈ refs, other.is false (some "root") = false) ∧
    (refs.find? fun found => found.marker == none) = some found

theorem replySource_eq_some_iff_candidate {refs : List TagReference}
    {found : TagReference} :
    replySource refs = some found ↔
      refs.find? (TagReference.is false (some "reply")) = some found ∨
        (∀ other ∈ refs, other.is false (some "reply") = false) ∧
          refs.find? (TagReference.is false (some "root")) = some found ∨
            IsReplyCandidate refs found := by
  simp only [replySource, markedSource, IsReplyCandidate, Option.or_assoc,
    Option.or_eq_some_iff, List.find?_eq_none, Bool.not_eq_true, and_or_left]

theorem rootSource_eq_some_iff {refs : List TagReference} {found : TagReference} :
    rootSource refs = some found ↔
      refs.find? (TagReference.is false (some "root")) = some found ∨
        IsRootCandidate refs found := by
  simp only [rootSource, IsRootCandidate, Option.or_eq_some_iff, List.find?_eq_none,
    Bool.not_eq_true]

/-- What the two functions go by is said by a tag, and is no mention. -/
theorem source_is_mention_eq_false {refs : List TagReference} {found : TagReference}
    (hsource : replySource refs = some found ∨ rootSource refs = some found) :
    found ∈ refs ∧ found.is false (some "mention") = false := by
  have hmarker : found ∈ refs ∧
      (found.marker = some "reply" ∨ found.marker = some "root" ∨ found.marker = none) := by
    rcases hsource with hsource | hsource
    · refine ⟨mem_of_replySource hsource, ?_⟩
      rcases replySource_eq_some_iff.mp hsource with hfound | ⟨-, hfound | ⟨-, hfound |
        ⟨-, hfound | ⟨-, hfound⟩⟩⟩⟩
      · exact .inl (TagReference.is_eq_true_iff.mp (List.find?_some hfound)).2
      · exact .inr (.inl (TagReference.is_eq_true_iff.mp (List.find?_some hfound)).2)
      · exact .inl (TagReference.is_eq_true_iff.mp (List.find?_some hfound)).2
      · exact .inr (.inl (TagReference.is_eq_true_iff.mp (List.find?_some hfound)).2)
      · exact .inr (.inr (TagReference.is_eq_true_iff.mp (List.find?_some hfound)).2)
    · rcases rootSource_eq_some_iff.mp hsource with hfound | ⟨-, hfound⟩
      · exact ⟨List.mem_of_find?_eq_some hfound,
          .inr (.inl (TagReference.is_eq_true_iff.mp (List.find?_some hfound)).2)⟩
      · have hnone := List.find?_some hfound
        exact ⟨List.mem_of_find?_eq_some hfound, .inr (.inr (beq_iff_eq.mp hnone))⟩
  refine ⟨hmarker.1, Bool.eq_false_iff.mpr fun his => ?_⟩
  have hmention := (TagReference.is_eq_true_iff.mp his).2
  rw [hmention] at hmarker
  exact absurd hmarker.2 (by decide)

end Candidates

section Mentions

variable {curve : Secp256k1} {hex : Hex} {parser : UrlParser}

/-- What `replies_to` and `replies_to_root` return is said by a tag that they go by; a
repost is no reply. -/
theorem EventV3.exists_source_of_reply {event : EventV3} {reply : EventReference}
    (hreply : event.repliesTo curve hex parser = some reply ∨
      event.repliesToRoot curve hex parser = some reply) :
    ∃ found, (event.kind.isRepost = false ∧
        replySource (event.references curve hex parser) = some found ∨
      rootSource (event.references curve hex parser) = some found) ∧
        found.target = reply := by
  rcases hreply with hreply | hreply
  · obtain ⟨-, hrepost, hmap⟩ := repliesTo_eq_some_iff.mp hreply
    obtain ⟨found, hsource, htarget⟩ := Option.map_eq_some_iff.mp hmap
    exact ⟨found, .inl ⟨hrepost, hsource⟩, htarget⟩
  · obtain ⟨found, hsource, htarget⟩ :=
      Option.map_eq_some_iff.mp (repliesToRoot_eq_some_iff.mp hreply).2
    exact ⟨found, .inr hsource, htarget⟩

/-- A mention is read from a tag, which in an event that is no repost is either marked
as one or an inner tag. -/
theorem EventV3.exists_tag_of_mention {event : EventV3} {mention : EventReference}
    (hmention : mention ∈ event.mentions curve hex parser) :
    event.kind.isFeedDisplayable = true ∧
      ∃ tag ∈ event.tags, ∃ found, tag.read curve hex parser = some found ∧
        found.target = mention ∧
          (event.kind.isRepost = false →
            found.is false (some "mention") = true ∨ tag ∈ event.innerTags) := by
  unfold mentions at hmention
  cases hdisplayable : event.kind.isFeedDisplayable with
  | false =>
      rw [hdisplayable] at hmention
      cases hmention
  | true =>
      refine ⟨rfl, ?_⟩
      rw [hdisplayable] at hmention
      cases hrepost : event.kind.isRepost with
      | true =>
          rw [hrepost, if_pos rfl, filterMap_reference] at hmention
          obtain ⟨found, hfound, htarget⟩ := List.mem_map.mp hmention
          obtain ⟨tag, htag, hread⟩ := List.mem_filterMap.mp hfound
          exact ⟨tag, htag, found, hread, htarget, fun hnot => by cases hnot⟩
      | false =>
          rw [hrepost, if_neg Bool.false_ne_true, filterMap_reference] at hmention
          rcases List.mem_append.mp hmention with hmarked | hinner
          · obtain ⟨tag, htag, found, hread, his, htarget⟩ :=
              mem_filterMap_markedEvent_iff.mp hmarked
            exact ⟨tag, htag, found, hread, htarget, fun _ => .inl his⟩
          · obtain ⟨found, hfound, htarget⟩ := List.mem_map.mp hinner
            obtain ⟨tag, htag, hread⟩ := List.mem_filterMap.mp hfound
            exact ⟨tag, (marker_eq_of_innerTags htag).1, found, hread, htarget,
              fun _ => .inr htag⟩

/-- Two tags that name one target are two, or one and the same. -/
theorem EventV3.namedTwice_or_eq {event : EventV3} {first second : TagV3}
    {firstFound secondFound : TagReference} (hfirst : first ∈ event.tags)
    (hsecond : second ∈ event.tags)
    (hfirstRead : first.read curve hex parser = some firstFound)
    (hsecondRead : second.read curve hex parser = some secondFound)
    (heq : firstFound.target.eq secondFound.target = true) :
    event.NamedTwice curve hex parser firstFound.target ∨ first = second := by
  rw [or_iff_not_imp_left]
  intro honce
  rw [NamedTwice, not_le] at honce
  have hidentity := EventReference.eq_iff_identity.mp heq
  refine eq_of_countP_lt_two honce hfirst hsecond ?_ ?_
  · rw [TagV3.names_of_read hfirstRead]
    exact EventReference.eq_iff_identity.mpr rfl
  · rw [TagV3.names_of_read hsecondRead]
    exact EventReference.eq_iff_identity.mpr hidentity.symm

/-- What is read from an inner tag can only be a candidate. -/
theorem EventV3.candidate_of_innerTags {event : EventV3} {tag : TagV3}
    {found : TagReference} (htag : tag ∈ event.innerTags)
    (hread : tag.read curve hex parser = some found)
    (hsource : replySource (event.references curve hex parser) = some found ∨
      rootSource (event.references curve hex parser) = some found) :
    IsReplyCandidate (event.references curve hex parser) found ∨
      IsRootCandidate (event.references curve hex parser) found := by
  have hunmarked : ∀ name, name ≠ "" → ¬ found.is false (some name) = true := by
    intro name hname
    rw [is_event_eq_false_of_innerTags htag hread hname]
    exact Bool.false_ne_true
  rcases hsource with hsource | hsource
  · rcases replySource_eq_some_iff_candidate.mp hsource with hfound | ⟨-, hfound⟩ |
      hcandidate
    · exact absurd (List.find?_some hfound) (hunmarked "reply" (by decide))
    · exact absurd (List.find?_some hfound) (hunmarked "root" (by decide))
    · exact .inl hcandidate
  · rcases rootSource_eq_some_iff.mp hsource with hfound | hcandidate
    · exact absurd (List.find?_some hfound) (hunmarked "root" (by decide))
    · exact .inr hcandidate

/-- In a repost every tag that is read is a mention. -/
theorem EventV3.mem_mentions_of_isRepost {event : EventV3} {found : TagReference}
    (hdisplayable : event.kind.isFeedDisplayable = true)
    (hrepost : event.kind.isRepost = true)
    (hfound : found ∈ event.references curve hex parser) :
    found.target ∈ event.mentions curve hex parser := by
  rw [mentions, hdisplayable, hrepost, if_neg (by decide), if_pos rfl,
    filterMap_reference]
  exact List.mem_map_of_mem hfound

/-- Elsewhere the inner tags are. -/
theorem EventV3.mem_mentions_of_innerTags {event : EventV3} {tag : TagV3}
    {found : TagReference} (hdisplayable : event.kind.isFeedDisplayable = true)
    (hrepost : event.kind.isRepost = false) (htag : tag ∈ event.innerTags)
    (hread : tag.read curve hex parser = some found) :
    found.target ∈ event.mentions curve hex parser := by
  rw [mentions, hdisplayable, hrepost, if_neg (by decide), if_neg Bool.false_ne_true,
    filterMap_reference]
  exact List.mem_append_right _
    (List.mem_map_of_mem (List.mem_filterMap.mpr ⟨tag, htag, hread⟩))

/-- No mention is a reply exactly when the root that a repost is given is named by two
of its tags, and every inner tag of another event that a reply or a root is taken from
names what another tag names as well. -/
theorem EventV3.mentionsOthers_iff (curve : Secp256k1) (hex : Hex) (parser : UrlParser)
    (event : EventV3) :
    event.MentionsOthers curve hex parser ↔
      (event.kind.isFeedDisplayable = true →
        (event.kind.isRepost = true →
          ∀ found, (event.references curve hex parser).find?
                (TagReference.is false (some "root")) = some found ∨
              IsRootCandidate (event.references curve hex parser) found →
            event.NamedTwice curve hex parser found.target) ∧
          (event.kind.isRepost = false →
            ∀ tag ∈ event.innerTags, ∀ found, tag.read curve hex parser = some found →
              IsReplyCandidate (event.references curve hex parser) found ∨
                  IsRootCandidate (event.references curve hex parser) found →
                event.NamedTwice curve hex parser found.target)) := by
  constructor
  · intro hothers hdisplayable
    refine ⟨fun hrepost found hroot => ?_, fun hrepost tag htag found hread hsource => ?_⟩
    · have hsource := rootSource_eq_some_iff.mpr hroot
      refine hothers _ (mem_mentions_of_isRepost hdisplayable hrepost
        (source_is_mention_eq_false (.inr hsource)).1) found.target (.inr ?_)
        (EventReference.eq_iff_identity.mpr rfl)
      exact repliesToRoot_eq_some_iff.mpr ⟨hdisplayable, by rw [hsource]; rfl⟩
    · refine hothers _ (mem_mentions_of_innerTags hdisplayable hrepost htag hread)
        found.target ?_ (EventReference.eq_iff_identity.mpr rfl)
      rcases hsource with hreply | hroot
      · have hsource := replySource_eq_some_iff_candidate.mpr (.inr (.inr hreply))
        exact .inl (repliesTo_eq_some_iff.mpr
          ⟨hdisplayable, hrepost, by rw [hsource]; rfl⟩)
      · have hsource := rootSource_eq_some_iff.mpr (.inr hroot)
        exact .inr (repliesToRoot_eq_some_iff.mpr ⟨hdisplayable, by rw [hsource]; rfl⟩)
  · intro hunless mention hmention reply hreply heq
    obtain ⟨source, hsource, rfl⟩ := exists_source_of_reply hreply
    obtain ⟨hdisplayable, tag, htag, found, hread, rfl, hinner⟩ :=
      exists_tag_of_mention hmention
    obtain ⟨hmem, hnot⟩ := source_is_mention_eq_false (hsource.imp_left And.right)
    obtain ⟨sourceTag, hsourceTag, hsourceRead⟩ := List.mem_filterMap.mp hmem
    rcases namedTwice_or_eq htag hsourceTag hread hsourceRead heq with htwice | rfl
    · exact htwice
    -- the mention and the reply are said by one tag
    rw [hread, Option.some.injEq] at hsourceRead
    subst hsourceRead
    cases hrepost : event.kind.isRepost with
    | true =>
        refine (hunless hdisplayable).1 hrepost found ?_
        rcases hsource with ⟨hnone, -⟩ | hroot
        · rw [hrepost] at hnone
          cases hnone
        · exact rootSource_eq_some_iff.mp hroot
    | false =>
        rcases hinner hrepost with hmarked | hinner
        · rw [hnot] at hmarked
          cases hmarked
        · exact (hunless hdisplayable).2 hrepost tag hinner found hread
            (candidate_of_innerTags hinner hread (hsource.imp_left And.right))

/-- A mention that is also a reply, and named by no other tag. -/
theorem EventV3.not_mentionsOthers_of_once {event : EventV3} {target : EventReference}
    (hmention : target ∈ event.mentions curve hex parser)
    (hreply : event.repliesTo curve hex parser = some target ∨
      event.repliesToRoot curve hex parser = some target)
    (honce : event.tags.countP (TagV3.names curve hex parser target) < 2) :
    ¬ event.MentionsOthers curve hex parser := by
  intro hothers
  have htwice := hothers target hmention target hreply
    (EventReference.eq_iff_identity.mpr rfl)
  exact absurd htwice (not_le.mpr honce)

end Mentions

section Unmarked

/-- A tag that names an event, without a relay and a marker. -/
def eventTag (byte : UInt8) : TagV3 :=
  TagV3.newEvent Hex.referenceLower.toHex ⟨Vector.replicate 32 byte⟩ none none

/-- An event of this kind with these tags. -/
def eventOfTags (kind : WellKnownKind) (tags : List TagV3) : EventV3 where
  id := ⟨Vector.replicate 32 9⟩
  pubkey := ⟨Vector.replicate 32 1⟩
  createdAt := 1700000000
  kind := .wellKnown kind
  sig := ⟨Vector.replicate 64 0⟩
  content := ""
  tags := tags

def eventTarget (byte : UInt8) : EventReference :=
  .id ⟨Vector.replicate 32 byte⟩ none [] none

theorem read_eventTag (byte : UInt8) :
    (eventTag byte).read Secp256k1.permissive Hex.referenceLower.toHex Nip19.noUrls =
      some ⟨false, none, eventTarget byte⟩ :=
  TagV3.read_of_parseEvent (TagV3.parseEvent_newEvent _ _ _ _)

theorem references_cons_eventTag (kind : WellKnownKind) (byte : UInt8)
    (tags : List TagV3) :
    (eventOfTags kind (eventTag byte :: tags)).references Secp256k1.permissive
        Hex.referenceLower.toHex Nip19.noUrls =
      ⟨false, none, eventTarget byte⟩ ::
        (eventOfTags kind tags).references Secp256k1.permissive Hex.referenceLower.toHex
          Nip19.noUrls :=
  List.filterMap_cons_some (read_eventTag byte)

def articleTag : TagV3 :=
  TagV3.newAddress Hex.referenceLower.toHex (articleAt []) none

theorem read_articleTag :
    articleTag.read Secp256k1.permissive Hex.referenceLower.toHex Nip19.noUrls =
      some ⟨true, none, .addr (articleAt [])⟩ := read_articleAt [] none

/-- A repost is said to have what it reposts as a root; and a note that names an article
last replies to the event before it, which it mentions. -/
theorem EventV3.not_mentionsOthers_eventOfTags :
    (¬ (eventOfTags .repost [eventTag 3]).MentionsOthers
        Secp256k1.permissive Hex.referenceLower.toHex Nip19.noUrls) ∧
      ¬ (eventOfTags .textNote [eventTag 3, eventTag 4, articleTag]).MentionsOthers
        Secp256k1.permissive Hex.referenceLower.toHex Nip19.noUrls := by
  constructor
  · have hrefs := references_cons_eventTag .repost 3 []
    have hmention : eventTarget 3 ∈ (eventOfTags .repost [eventTag 3]).mentions
        Secp256k1.permissive Hex.referenceLower.toHex Nip19.noUrls :=
      mem_mentions_of_isRepost rfl rfl (hrefs ▸ List.mem_cons_self)
    have hroot : (eventOfTags .repost [eventTag 3]).repliesToRoot Secp256k1.permissive
        Hex.referenceLower.toHex Nip19.noUrls = some (eventTarget 3) :=
      repliesToRoot_eq_some_iff.mpr ⟨rfl, by rw [hrefs]; rfl⟩
    refine not_mentionsOthers_of_once hmention (.inr hroot) ?_
    exact Nat.lt_succ_of_le List.countP_le_length
  · have hrefs : (eventOfTags .textNote [eventTag 3, eventTag 4, articleTag]).references
        Secp256k1.permissive Hex.referenceLower.toHex Nip19.noUrls =
          [⟨false, none, eventTarget 3⟩, ⟨false, none, eventTarget 4⟩,
            ⟨true, none, .addr (articleAt [])⟩] := by
      rw [references_cons_eventTag, references_cons_eventTag]
      exact congrArg _ (congrArg _ (List.filterMap_cons_some read_articleTag))
    have hinner : eventTag 4 ∈
        (eventOfTags .textNote [eventTag 3, eventTag 4, articleTag]).innerTags :=
      List.mem_singleton_self (eventTag 4)
    have hmention := mem_mentions_of_innerTags rfl rfl hinner (read_eventTag 4)
    have hreply : (eventOfTags .textNote [eventTag 3, eventTag 4, articleTag]).repliesTo
        Secp256k1.permissive Hex.referenceLower.toHex Nip19.noUrls =
          some (eventTarget 4) :=
      repliesTo_eq_some_iff.mpr ⟨rfl, rfl, by rw [hrefs]; rfl⟩
    refine not_mentionsOthers_of_once hmention (.inl hreply) ?_
    have hother : (eventTag 3).names Secp256k1.permissive Hex.referenceLower.toHex
        Nip19.noUrls (eventTarget 4) = false := by
      rw [TagV3.names_of_read (read_eventTag 3)]
      decide
    have harticle : articleTag.names Secp256k1.permissive Hex.referenceLower.toHex
        Nip19.noUrls (eventTarget 4) = false := by
      rw [TagV3.names_of_read read_articleTag]
      rfl
    rw [eventOfTags, List.countP_cons_of_neg (by rw [hother]; decide), List.countP_cons,
      List.countP_singleton, harticle, if_neg Bool.false_ne_true]
    split <;> decide

end Unmarked

end Types

end Gnostr
