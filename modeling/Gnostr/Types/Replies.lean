/-
The order in which `replies_to` looks for what an event replies to, and the root that
`replies_to_root` finds of the thread, of `types/src/nostr/versioned/event3.rs`.
-/
import Gnostr.Types.References

namespace Gnostr

namespace Types

section Priority

/-- The documented priority: a marked tag, or else the last tag without a marker, of
whichever sort it is. -/
def documentedSource (refs : List TagReference) : Option TagReference :=
  (markedSource refs).or (refs.reverse.find? fun found => found.marker == none)

theorem TagReference.is_eq_true_iff {isAddress : Bool} {marker : Option String}
    {found : TagReference} :
    found.is isAddress marker = true ↔
      found.isAddress = isAddress ∧ found.marker = marker := by
  rw [TagReference.is, Bool.and_eq_true, beq_iff_eq, beq_iff_eq]

/-- A tag is taken by its marker exactly when there is one to take. -/
theorem markedSource_eq_none_iff {refs : List TagReference} :
    markedSource refs = none ↔
      ∀ found ∈ refs, found.marker ≠ some "reply" ∧ found.marker ≠ some "root" := by
  simp only [markedSource, Option.or_eq_none_iff, List.find?_eq_none,
    TagReference.is_eq_true_iff, not_and]
  constructor
  · rintro ⟨heventReply, heventRoot, haddressReply, haddressRoot⟩ found hfound
    cases hsort : found.isAddress with
    | false => exact ⟨heventReply found hfound hsort, heventRoot found hfound hsort⟩
    | true => exact ⟨haddressReply found hfound hsort, haddressRoot found hfound hsort⟩
  · intro hnone
    exact ⟨fun found hfound _ => (hnone found hfound).1,
      fun found hfound _ => (hnone found hfound).2,
      fun found hfound _ => (hnone found hfound).1,
      fun found hfound _ => (hnone found hfound).2⟩

variable {curve : Secp256k1} {hex : Hex} {parser : UrlParser}

/-- An event tag refers by an id and an address tag by an address. -/
theorem TagV3.target_of_read {tag : TagV3} {found : TagReference}
    (hread : tag.read curve hex parser = some found) :
    (found.isAddress = false ∧
        ∃ id relays marker, found.target = .id id none relays marker) ∨
      found.isAddress = true ∧ ∃ ea, found.target = .addr ea := by
  rcases TagV3.exists_parse_of_read hread with ⟨id, rurl, marker, -, rfl⟩ |
    ⟨ea, marker, -, rfl⟩
  · exact .inl ⟨rfl, id, _, marker, rfl⟩
  · exact .inr ⟨rfl, ea, rfl⟩

/-- Tags of the two sorts have no target in common. -/
theorem EventV3.target_ne_of_isAddress {event : EventV3} {first second : TagReference}
    (hfirst : first ∈ event.references curve hex parser)
    (hsecond : second ∈ event.references curve hex parser)
    (hevent : first.isAddress = false) (haddress : second.isAddress = true) :
    first.target ≠ second.target := by
  obtain ⟨firstTag, -, hfirst⟩ := List.mem_filterMap.mp hfirst
  obtain ⟨secondTag, -, hsecond⟩ := List.mem_filterMap.mp hsecond
  rcases TagV3.target_of_read hfirst with ⟨-, _, _, _, hid⟩ | ⟨hsort, -⟩
  · rcases TagV3.target_of_read hsecond with ⟨hsort, -⟩ | ⟨-, _, haddr⟩
    · rw [haddress] at hsort
      cases hsort
    · rw [hid, haddr]
      exact fun heq => by cases heq
  · rw [hevent] at hsort
    cases hsort

/-- The last tag without a marker is the last event tag without one, unless it is an
address tag. -/
theorem find?_unmarked_eq {refs : List TagReference} {found : TagReference}
    (hfound : (refs.find? fun found => found.marker == none) = some found)
    (hevent : found.isAddress = false) :
    refs.find? (TagReference.is false none) = some found := by
  induction refs with
  | nil => cases hfound
  | cons head refs ih =>
      rw [List.find?_cons] at hfound ⊢
      cases hmarker : head.marker == none with
      | true =>
          rw [hmarker] at hfound
          obtain rfl := Option.some.inj hfound
          rw [TagReference.is_eq_true_iff.mpr ⟨hevent, beq_iff_eq.mp hmarker⟩]
      | false =>
          rw [hmarker] at hfound
          have hother : head.is false none = false := by
            rw [TagReference.is, hmarker, Bool.and_false]
          rw [hother]
          exact ih hfound

variable (curve hex parser)

/-- A displayable event that is no repost replies to what the documented priority
gives. -/
def EventV3.FollowsPriority (event : EventV3) : Prop :=
  event.kind.isFeedDisplayable = true → event.kind.isRepost = false →
    event.repliesTo curve hex parser =
      (documentedSource (event.references curve hex parser)).map TagReference.target

/-- The priority is followed exactly when a tag is marked as a reply or as a root, or
the last tag without a marker is no address tag. -/
theorem EventV3.followsPriority_iff (event : EventV3) :
    event.FollowsPriority curve hex parser ↔
      (event.kind.isFeedDisplayable = true → event.kind.isRepost = false →
        (∃ found ∈ event.references curve hex parser,
            found.marker = some "reply" ∨ found.marker = some "root") ∨
          ∀ found, ((event.references curve hex parser).reverse.find? fun found =>
            found.marker == none) = some found → found.isAddress = false) := by
  refine forall₂_congr fun hdisplayable hrepost => ?_
  have hguard : (event.kind.isFeedDisplayable && !event.kind.isRepost) = true := by
    rw [hdisplayable, hrepost]
    rfl
  rw [repliesTo_eq, if_pos hguard, replySource, documentedSource]
  cases hmarked : markedSource (event.references curve hex parser) with
  | some found =>
      refine iff_of_true rfl (.inl ?_)
      by_contra hnone
      simp only [not_exists, not_and, not_or] at hnone
      rw [markedSource_eq_none_iff.mpr hnone] at hmarked
      cases hmarked
  | none =>
      have hunmarked := markedSource_eq_none_iff.mp hmarked
      rw [Option.none_or, Option.none_or]
      rw [or_iff_right fun ⟨found, hfound, hmarker⟩ =>
        hmarker.elim (hunmarked found hfound).1 (hunmarked found hfound).2]
      constructor
      · intro hsame found hlast
        by_contra hsort
        rw [Bool.not_eq_false] at hsort
        rw [hlast, Option.map_some, Option.map_eq_some_iff] at hsame
        obtain ⟨other, hother, htarget⟩ := hsame
        have hotherSort := (TagReference.is_eq_true_iff.mp (List.find?_some hother)).1
        have hotherMem := List.mem_reverse.mp (List.mem_of_find?_eq_some hother)
        have hlastMem := List.mem_reverse.mp (List.mem_of_find?_eq_some hlast)
        exact target_ne_of_isAddress hotherMem hlastMem hotherSort hsort htarget
      · intro hsort
        cases hlast : (event.references curve hex parser).reverse.find? fun found =>
            found.marker == none with
        | some found => rw [find?_unmarked_eq hlast (hsort found hlast)]
        | none =>
            rw [List.find?_eq_none] at hlast
            refine congrArg _ (List.find?_eq_none.mpr fun found hfound his => ?_)
            refine hlast found hfound (beq_iff_eq.mpr ?_)
            exact (TagReference.is_eq_true_iff.mp his).2

end Priority

section Article

/-- An article of some key, with these relays. -/
def articleAt (relays : List UncheckedUrl) : NAddr :=
  { TagV3.articleAddress "blog" with relays := relays }

/-- A note that refers to an article. -/
def articleNote (relays : List UncheckedUrl) (marker : Option String) : EventV3 where
  id := ⟨Vector.replicate 32 3⟩
  pubkey := ⟨Vector.replicate 32 1⟩
  createdAt := 1700000000
  kind := .wellKnown .textNote
  sig := ⟨Vector.replicate 64 0⟩
  content := ""
  tags := [TagV3.newAddress Hex.referenceLower.toHex (articleAt relays) marker]

theorem read_articleAt (relays : List UncheckedUrl) (marker : Option String) :
    (TagV3.newAddress Hex.referenceLower.toHex (articleAt relays) marker).read
        Secp256k1.permissive Hex.referenceLower.toHex Nip19.noUrls =
      some ⟨true, (TagV3.readBack (articleAt relays) marker).2,
        .addr (TagV3.readBack (articleAt relays) marker).1⟩ := by
  have hverified : (articleAt relays).author.Verified Secp256k1.permissive := by
    change (TagV3.articleAddress "blog").author.Verified Secp256k1.permissive
    decide
  exact TagV3.read_of_parseAddress
    (TagV3.parseAddress_newAddress_eq_ok_iff.mpr ⟨rfl, hverified, rfl⟩)

theorem references_articleNote (relays : List UncheckedUrl) (marker : Option String) :
    (articleNote relays marker).references Secp256k1.permissive
        Hex.referenceLower.toHex Nip19.noUrls =
      [⟨true, (TagV3.readBack (articleAt relays) marker).2,
        .addr (TagV3.readBack (articleAt relays) marker).1⟩] :=
  List.filterMap_cons_some (read_articleAt relays marker)

/-- An article that is referred to without a marker is not replied to. -/
theorem EventV3.not_followsPriority_articleNote :
    ¬ (articleNote [] none).FollowsPriority Secp256k1.permissive
        Hex.referenceLower.toHex Nip19.noUrls := by
  intro hfollows
  have hsource := hfollows rfl rfl
  rw [repliesTo_eq, references_articleNote] at hsource
  cases hsource

end Article

section Roots

/-- There is a root to find exactly when an event tag is marked as one or some tag has
no marker. -/
theorem rootSource_eq_none_iff {refs : List TagReference} :
    rootSource refs = none ↔
      ∀ found ∈ refs, found.is false (some "root") = false ∧ found.marker ≠ none := by
  simp only [rootSource, Option.or_eq_none_iff, List.find?_eq_none, Bool.not_eq_true,
    beq_eq_false_iff_ne, forall_and, ne_eq]

/-- The five loops of `replies_to`: each one runs when those before it find nothing. -/
theorem replySource_eq_some_iff {refs : List TagReference} {found : TagReference} :
    replySource refs = some found ↔
      refs.find? (TagReference.is false (some "reply")) = some found ∨
        (∀ other ∈ refs, other.is false (some "reply") = false) ∧
          (refs.find? (TagReference.is false (some "root")) = some found ∨
            (∀ other ∈ refs, other.is false (some "root") = false) ∧
              (refs.find? (TagReference.is true (some "reply")) = some found ∨
                (∀ other ∈ refs, other.is true (some "reply") = false) ∧
                  (refs.find? (TagReference.is true (some "root")) = some found ∨
                    (∀ other ∈ refs, other.is true (some "root") = false) ∧
                      refs.reverse.find? (TagReference.is false none) = some found))) := by
  simp only [replySource, markedSource, Option.or_assoc, Option.or_eq_some_iff,
    List.find?_eq_none, Bool.not_eq_true]

theorem mem_of_replySource {refs : List TagReference} {found : TagReference}
    (hsource : replySource refs = some found) : found ∈ refs := by
  rcases replySource_eq_some_iff.mp hsource with hfound | ⟨-, hfound | ⟨-, hfound |
    ⟨-, hfound | ⟨-, hfound⟩⟩⟩⟩
  · exact List.mem_of_find?_eq_some hfound
  · exact List.mem_of_find?_eq_some hfound
  · exact List.mem_of_find?_eq_some hfound
  · exact List.mem_of_find?_eq_some hfound
  · exact List.mem_reverse.mp (List.mem_of_find?_eq_some hfound)

/-- A tag that says more than any address tag marked as a root. -/
def TagReference.PrecedesRoot (found : TagReference) : Prop :=
  found.marker = some "reply" ∨ found.is false (some "root") = true

/-- `replies_to` goes by an address tag marked as a root exactly when there is one and
no tag precedes it. -/
theorem exists_replySource_addressRoot_iff {refs : List TagReference} :
    (∃ found, replySource refs = some found ∧ found.is true (some "root") = true) ↔
      (∃ found ∈ refs, found.is true (some "root") = true) ∧
        ∀ other ∈ refs, ¬ other.PrecedesRoot := by
  constructor
  · rintro ⟨found, hsource, his⟩
    refine ⟨⟨found, mem_of_replySource hsource, his⟩, ?_⟩
    obtain ⟨haddress, hroot⟩ := TagReference.is_eq_true_iff.mp his
    rcases replySource_eq_some_iff.mp hsource with hfound | ⟨heventReply, hfound |
      ⟨heventRoot, hfound | ⟨haddressReply, -⟩⟩⟩
    · have hsort := (TagReference.is_eq_true_iff.mp (List.find?_some hfound)).1
      rw [haddress] at hsort
      cases hsort
    · have hsort := (TagReference.is_eq_true_iff.mp (List.find?_some hfound)).1
      rw [haddress] at hsort
      cases hsort
    · have hmarker := (TagReference.is_eq_true_iff.mp (List.find?_some hfound)).2
      rw [hroot] at hmarker
      exact absurd hmarker (by decide)
    · rintro other hother (hreply | heventMarked)
      · have hneither : other.is other.isAddress (some "reply") = false := by
          cases other.isAddress with
          | false => exact heventReply other hother
          | true => exact haddressReply other hother
        rw [TagReference.is_eq_true_iff.mpr ⟨rfl, hreply⟩] at hneither
        cases hneither
      · rw [heventRoot other hother] at heventMarked
        cases heventMarked
  · rintro ⟨⟨found, hfound, his⟩, hnone⟩
    have hreply : ∀ isAddress, ∀ other ∈ refs,
        other.is isAddress (some "reply") = false := by
      intro isAddress other hother
      rw [Bool.eq_false_iff]
      exact fun his => hnone other hother (.inl (TagReference.is_eq_true_iff.mp his).2)
    have hroot : ∀ other ∈ refs, other.is false (some "root") = false := by
      intro other hother
      rw [Bool.eq_false_iff]
      exact fun his => hnone other hother (.inr his)
    obtain ⟨first, hfirst⟩ := Option.isSome_iff_exists.mp
      (List.find?_isSome.mpr ⟨found, hfound, his⟩)
    refine ⟨first, ?_, List.find?_some hfirst⟩
    exact replySource_eq_some_iff.mpr
      (.inr ⟨hreply false, .inr ⟨hroot, .inr ⟨hreply true, .inl hfirst⟩⟩⟩)

variable (curve : Secp256k1) (hex : Hex) (parser : UrlParser)

/-- An event that replies to a root, or to an event without a marker, has a root; and
if it replies to the root that is its only reference, then that is the root. -/
structure EventV3.ThreadHasRoot (event : EventV3) : Prop where
  rooted : ∀ target found, event.repliesTo curve hex parser = some target →
    replySource (event.references curve hex parser) = some found →
      found.marker = some "root" ∨ found.marker = none →
        (event.repliesToRoot curve hex parser).isSome = true
  alone : ∀ tag found target, event.tags.filter TagV3.isEventRef = [tag] →
    tag.read curve hex parser = some found → found.marker = some "root" →
      event.repliesTo curve hex parser = some target →
        target = found.target ∧ event.repliesToRoot curve hex parser = some found.target

variable {curve hex parser}

/-- An event whose only event or address tag is read refers to what it says. -/
theorem EventV3.references_eq_singleton {event : EventV3} {tag : TagV3}
    {found : TagReference} (htag : event.tags.filter TagV3.isEventRef = [tag])
    (hread : tag.read curve hex parser = some found) :
    event.references curve hex parser = [found] := by
  have hfilter : (event.tags.filter TagV3.isEventRef).filterMap
      (TagV3.read curve hex parser) = event.references curve hex parser := by
    rw [List.filterMap_filter, references]
    refine List.filterMap_congr fun tag _ => ?_
    split
    · rfl
    · rename_i hnot
      by_contra hread
      obtain ⟨found, hfound⟩ := Option.ne_none_iff_exists'.mp (Ne.symm hread)
      exact hnot (TagV3.isEventRef_of_read hfound)
  rw [← hfilter, htag, List.filterMap_cons_some hread]
  rfl

/-- A root that is marked on an event tag is the root. -/
theorem rootSource_singleton {found : TagReference} (hroot : found.marker = some "root") :
    rootSource [found] = if found.isAddress then none else some found := by
  simp only [rootSource, List.find?_cons, List.find?_nil, TagReference.is, hroot]
  cases found.isAddress <;> rfl

theorem replySource_singleton {found : TagReference}
    (hroot : found.marker = some "root") : replySource [found] = some found := by
  simp only [replySource, markedSource, List.find?_cons, List.find?_nil, TagReference.is,
    hroot]
  cases found.isAddress <;> rfl

/-- A reply is only looked for in a displayable event that is no repost. -/
theorem EventV3.repliesTo_eq_some_iff {event : EventV3} {target : EventReference} :
    event.repliesTo curve hex parser = some target ↔
      event.kind.isFeedDisplayable = true ∧ event.kind.isRepost = false ∧
        (replySource (event.references curve hex parser)).map TagReference.target =
          some target := by
  rw [repliesTo_eq]
  cases event.kind.isFeedDisplayable <;> cases event.kind.isRepost <;> simp

theorem EventV3.repliesToRoot_eq_some_iff {event : EventV3} {target : EventReference} :
    event.repliesToRoot curve hex parser = some target ↔
      event.kind.isFeedDisplayable = true ∧
        (rootSource (event.references curve hex parser)).map TagReference.target =
          some target := by
  rw [repliesToRoot_eq]
  cases event.kind.isFeedDisplayable <;> simp

/-- The only reference of an event, marked as a root, is what the event replies to and
the root exactly when both are looked for and an event tag says it. -/
theorem EventV3.only_root_iff {event : EventV3} {tag : TagV3} {found : TagReference}
    (htag : event.tags.filter TagV3.isEventRef = [tag])
    (hread : tag.read curve hex parser = some found)
    (hroot : found.marker = some "root") :
    event.repliesTo curve hex parser = some found.target ∧
        event.repliesToRoot curve hex parser = some found.target ↔
      event.kind.isFeedDisplayable = true ∧ event.kind.isRepost = false ∧
        found.isAddress = false := by
  rw [repliesTo_eq_some_iff, repliesToRoot_eq_some_iff,
    references_eq_singleton htag hread, replySource_singleton hroot,
    rootSource_singleton hroot]
  cases found.isAddress <;> simp +contextual

/-- A reply to an address that is marked as a root has no root unless another tag has
no marker. -/
theorem EventV3.rooted_of_iff {event : EventV3} :
    (∀ target found, event.repliesTo curve hex parser = some target →
      replySource (event.references curve hex parser) = some found →
        found.marker = some "root" ∨ found.marker = none →
          (event.repliesToRoot curve hex parser).isSome = true) ↔
      (event.kind.isFeedDisplayable = true → event.kind.isRepost = false →
        ∀ found ∈ event.references curve hex parser, found.is true (some "root") = true →
          ∃ other ∈ event.references curve hex parser,
            other.marker = none ∨ other.PrecedesRoot) := by
  constructor
  · intro hrooted hdisplayable hrepost found hfound his
    by_contra hnone
    simp only [not_exists, not_and, not_or] at hnone
    obtain ⟨source, hsource, hsourceRoot⟩ := exists_replySource_addressRoot_iff.mpr
      ⟨⟨found, hfound, his⟩, fun other hother => (hnone other hother).2⟩
    have htarget : event.repliesTo curve hex parser = some source.target :=
      repliesTo_eq_some_iff.mpr ⟨hdisplayable, hrepost, by rw [hsource]; rfl⟩
    have hsome := hrooted _ source htarget hsource
      (.inl (TagReference.is_eq_true_iff.mp hsourceRoot).2)
    obtain ⟨target, htarget⟩ := Option.isSome_iff_exists.mp hsome
    have hmap := (repliesToRoot_eq_some_iff.mp htarget).2
    have hrootless : rootSource (event.references curve hex parser) = none := by
      refine rootSource_eq_none_iff.mpr fun other hother => ⟨?_, (hnone other hother).1⟩
      rw [Bool.eq_false_iff]
      exact fun hmarked => (hnone other hother).2 (.inr hmarked)
    rw [hrootless] at hmap
    cases hmap
  · intro hunless target found htarget hsource hmarker
    obtain ⟨hdisplayable, hrepost, -⟩ := repliesTo_eq_some_iff.mp htarget
    cases hroot : rootSource (event.references curve hex parser) with
    | some root =>
        have htarget : event.repliesToRoot curve hex parser = some root.target :=
          repliesToRoot_eq_some_iff.mpr ⟨hdisplayable, by rw [hroot]; rfl⟩
        rw [htarget]
        rfl
    | none =>
        have hrootless := rootSource_eq_none_iff.mp hroot
        have hfound := mem_of_replySource hsource
        -- the source is marked, and not on an event tag
        have hmarked := hmarker.resolve_right (hrootless found hfound).2
        have haddress : found.isAddress = true := by
          by_contra hevent
          rw [Bool.not_eq_true] at hevent
          have hnot := (hrootless found hfound).1
          rw [TagReference.is_eq_true_iff.mpr ⟨hevent, hmarked⟩] at hnot
          cases hnot
        have his := TagReference.is_eq_true_iff.mpr ⟨haddress, hmarked⟩
        obtain ⟨other, hother, hnone | hprecedes⟩ :=
          hunless hdisplayable hrepost found hfound his
        · exact absurd hnone (hrootless other hother).2
        · have hunpreceded := (exists_replySource_addressRoot_iff.mp
            ⟨found, hsource, his⟩).2
          exact absurd hprecedes (hunpreceded other hother)

/-- Threads have roots exactly when an address tag marked as a root does not stand alone:
a displayable event that is no repost and has one also has a tag without a marker, a
reply, or an event tag marked as a root.  Of its only reference a root is made exactly
when an event tag marks it. -/
theorem EventV3.threadHasRoot_iff (curve : Secp256k1) (hex : Hex) (parser : UrlParser)
    (event : EventV3) :
    (event.ThreadHasRoot curve hex parser ↔
        (event.kind.isFeedDisplayable = true → event.kind.isRepost = false →
          ∀ found ∈ event.references curve hex parser,
            found.is true (some "root") = true →
              ∃ other ∈ event.references curve hex parser,
                other.marker = none ∨ other.PrecedesRoot)) ∧
      ∀ tag found, event.tags.filter TagV3.isEventRef = [tag] →
        tag.read curve hex parser = some found → found.marker = some "root" →
          (event.repliesTo curve hex parser = some found.target ∧
              event.repliesToRoot curve hex parser = some found.target ↔
            event.kind.isFeedDisplayable = true ∧ event.kind.isRepost = false ∧
              found.isAddress = false) := by
  refine ⟨⟨fun hthread => rooted_of_iff.mp hthread.rooted, fun hunless => ?_⟩,
    fun _ _ => only_root_iff⟩
  refine ⟨rooted_of_iff.mpr hunless, fun tag found target htag hread hroot htarget => ?_⟩
  have hrefs := references_eq_singleton htag hread
  obtain ⟨hdisplayable, hrepost, hmap⟩ := repliesTo_eq_some_iff.mp htarget
  rw [hrefs, replySource_singleton hroot, Option.map_some, Option.some.injEq] at hmap
  refine ⟨hmap.symm, ((only_root_iff htag hread hroot).mpr
    ⟨hdisplayable, hrepost, ?_⟩).2⟩
  -- an address tag would have to stand beside another one
  by_contra haddress
  rw [Bool.not_eq_false] at haddress
  have his := TagReference.is_eq_true_iff.mpr ⟨haddress, hroot⟩
  have hother := hunless hdisplayable hrepost found (hrefs ▸ List.mem_singleton_self _) his
  rw [hrefs] at hother
  obtain ⟨other, hother, hnone | hreply | hevent⟩ := hother
  · rw [List.mem_singleton.mp hother, hroot] at hnone
    cases hnone
  · rw [List.mem_singleton.mp hother, hroot] at hreply
    exact absurd hreply (by decide)
  · rw [List.mem_singleton.mp hother, TagReference.is_eq_true_iff, haddress] at hevent
    cases hevent.1

/-- An article that is marked as the root of a thread is not found as one. -/
theorem EventV3.not_threadHasRoot_articleNote :
    ¬ (articleNote [⟨""⟩] (some "root")).ThreadHasRoot Secp256k1.permissive
        Hex.referenceLower.toHex Nip19.noUrls := by
  intro hthread
  have htarget : (articleNote [⟨""⟩] (some "root")).repliesTo Secp256k1.permissive
      Hex.referenceLower.toHex Nip19.noUrls = some (.addr (articleAt [⟨""⟩])) := by
    rw [repliesTo_eq, references_articleNote]
    decide
  have hrootless : (articleNote [⟨""⟩] (some "root")).repliesToRoot Secp256k1.permissive
      Hex.referenceLower.toHex Nip19.noUrls = none := by
    rw [repliesToRoot_eq, references_articleNote]
    decide
  have hsome := hthread.rooted _ ⟨true, some "root", .addr (articleAt [⟨""⟩])⟩ htarget
    (by rw [references_articleNote]; decide) (.inl rfl)
  rw [hrootless] at hsome
  cases hsome

end Roots

end Types

end Gnostr
