/-
What an event refers to: `replies_to`, `replies_to_root` and `mentions` of
`types/src/nostr/versioned/event3.rs`, and the tags that they take.
-/
import Gnostr.Types.TagRoundTrip
import Gnostr.Types.Zap

namespace Gnostr

namespace Types

/-- If this event kind is feed displayable. -/
def EventKind.isFeedDisplayable : EventKind → Bool
  | .wellKnown kind =>
      match kind with
      | .textNote | .groupChatMessage | .groupChatThreadedReply | .groupChatThread
      | .groupChatReply | .encryptedDirectMessage | .repost | .dmChat | .genericRepost
      | .channelMessage | .fileMetadata | .liveChatMessage | .patches | .gitIssue
      | .gitReply | .gitStatusOpen | .gitStatusApplied | .gitStatusClosed
      | .gitStatusDraft | .communityPost | .longFormContent | .draftLongFormContent => true
      | _ => false
  | _ => false

/-- `kind == EventKind::Repost || kind == EventKind::GenericRepost` -/
def EventKind.isRepost (kind : EventKind) : Bool :=
  kind == .wellKnown .repost || kind == .wellKnown .genericRepost

namespace TagV3

/-- Get the marker, which is looked for in other places than the parsers do. -/
def marker (tag : TagV3) : String :=
  if tag.tagname = "e" then tag.getIndex 3
  else if tag.tagname = "a" then tag.getIndex 2
  else ""

section References

variable (curve : Secp256k1) (hex : Hex) (parser : UrlParser)

/-- The reference of an event tag. -/
def eventReference (id : Id) (rurl : Option UncheckedUrl) (marker : Option String) :
    EventReference :=
  .id id none (rurl.bind fun rru => (RelayUrl.tryFromStr parser rru.text).toOption).toList
    marker

/-- An event tag with this marker, as a step of a loop over the tags. -/
def markedEvent (name : String) (tag : TagV3) : Option EventReference :=
  match tag.parseEvent hex with
  | .ok (id, rurl, marker) =>
      if marker = some name then some (eventReference parser id rurl marker) else none
  | _ => none

/-- An address tag with this marker, as a step of a loop over the tags. -/
def markedAddress (name : String) (tag : TagV3) : Option EventReference :=
  match tag.parseAddress curve hex with
  | .ok (ea, marker) => if marker = some name then some (.addr ea) else none
  | _ => none

/-- The step of the last loop of `replies_to`, which asks an address tag for a marker
once more. -/
def lastUnmarked (tag : TagV3) : Option EventReference :=
  if tag.tagname = "e" then
    match tag.parseEvent hex with
    | .ok (id, rurl, marker) =>
        if marker = none then some (eventReference parser id rurl none) else none
    | _ => none
  else if tag.tagname = "a" then tag.markedAddress curve hex "root"
  else none

/-- The step of the last loop of `replies_to_root`. -/
def firstUnmarked (tag : TagV3) : Option EventReference :=
  match tag.parseEvent hex with
  | .ok (id, rurl, optmarker) =>
      if optmarker = none then some (eventReference parser id rurl none) else none
  | _ =>
      match tag.parseAddress curve hex with
      | .ok (ea, optmarker) => if optmarker = none then some (.addr ea) else none
      | _ => none

/-- The reference of a tag, whatever its marker is. -/
def reference (tag : TagV3) : Option EventReference :=
  match tag.parseEvent hex with
  | .ok (id, rurl, optmarker) => some (eventReference parser id rurl optmarker)
  | _ =>
      match tag.parseAddress curve hex with
      | .ok (ea, _) => some (.addr ea)
      | _ => none

end References

end TagV3

section Events

variable (curve : Secp256k1) (hex : Hex) (parser : UrlParser)

/-- `t.tagname() == "e" || t.tagname() == "a"` -/
def TagV3.isEventRef (tag : TagV3) : Bool := tag.tagname == "e" || tag.tagname == "a"

/-- Get a reference to another event that this event replies to. -/
def EventV3.repliesTo (event : EventV3) : Option EventReference :=
  if !event.kind.isFeedDisplayable then none
  else if event.kind.isRepost then none
  else if (event.tags.filter TagV3.isEventRef).length = 0 then none
  else
    (event.tags.findSome? (TagV3.markedEvent hex parser "reply")).or <|
      (event.tags.findSome? (TagV3.markedEvent hex parser "root")).or <|
        (event.tags.findSome? (TagV3.markedAddress curve hex "reply")).or <|
          (event.tags.findSome? (TagV3.markedAddress curve hex "root")).or <|
            event.tags.reverse.findSome? (TagV3.lastUnmarked curve hex parser)

/-- If this event replies to a thread, get the root of that thread. -/
def EventV3.repliesToRoot (event : EventV3) : Option EventReference :=
  if !event.kind.isFeedDisplayable then none
  else
    (event.tags.findSome? (TagV3.markedEvent hex parser "root")).or <|
      event.tags.findSome? (TagV3.firstUnmarked curve hex parser)

/-- The event tags and address tags without a marker that are neither the first nor the
last of them. -/
def EventV3.innerTags (event : EventV3) : List TagV3 :=
  let eTags := event.tags.filter fun t => t.isEventRef && t.marker == ""
  if 2 < eTags.length then (eTags.take (eTags.length - 1)).drop 1 else []

/-- If this event mentions others, get those others. -/
def EventV3.mentions (event : EventV3) : List EventReference :=
  if !event.kind.isFeedDisplayable then []
  else if event.kind.isRepost then event.tags.filterMap (TagV3.reference curve hex parser)
  else
    event.tags.filterMap (TagV3.markedEvent hex parser "mention") ++
      event.innerTags.filterMap (TagV3.reference curve hex parser)

end Events

/-- What an event tag or an address tag says. -/
structure TagReference where
  isAddress : Bool
  marker : Option String
  target : EventReference
deriving Repr, DecidableEq

/-- An event tag or an address tag with this marker. -/
def TagReference.is (isAddress : Bool) (marker : Option String)
    (found : TagReference) : Bool :=
  found.isAddress == isAddress && found.marker == marker

section Read

variable (curve : Secp256k1) (hex : Hex) (parser : UrlParser)

/-- What the parsers of the two sorts of tags read. -/
def TagV3.read (tag : TagV3) : Option TagReference :=
  match tag.parseEvent hex with
  | .ok (id, rurl, marker) => some ⟨false, marker, eventReference parser id rurl marker⟩
  | _ =>
      match tag.parseAddress curve hex with
      | .ok (ea, marker) => some ⟨true, marker, .addr ea⟩
      | _ => none

/-- What the tags of an event refer to, in their order. -/
def EventV3.references (event : EventV3) : List TagReference :=
  event.tags.filterMap (TagV3.read curve hex parser)

variable {curve hex parser}

/-- The marker of an event tag is its fourth string. -/
theorem TagV3.exists_of_parseEvent {tag : TagV3} {id : Id} {rurl : Option UncheckedUrl}
    {marker : Option String} (hparse : tag.parseEvent hex = .ok (id, rurl, marker)) :
    ∃ value rest, tag.fields = "e" :: value :: rest ∧ marker = rest[1]? := by
  unfold TagV3.parseEvent at hparse
  split at hparse
  · rename_i name value rest hfields
    split_ifs at hparse with hname
    obtain ⟨_, _, hpure⟩ := Outcome.bind_eq_ok_iff.mp hparse
    cases hpure
    exact ⟨value, rest, by rw [hfields, not_not.mp hname], rfl⟩
  · cases hparse

/-- The marker of an address tag is its fourth string as well. -/
theorem TagV3.exists_of_parseAddress {tag : TagV3} {ea : NAddr} {marker : Option String}
    (hparse : tag.parseAddress curve hex = .ok (ea, marker)) :
    ∃ value rest, tag.fields = "a" :: value :: rest ∧ marker = rest[1]? := by
  unfold TagV3.parseAddress at hparse
  split at hparse
  · rename_i name value rest hfields
    split_ifs at hparse with hname
    split at hparse
    · obtain ⟨_, _, hkind⟩ := Outcome.bind_eq_ok_iff.mp hparse
      dsimp only at hkind
      split_ifs at hkind
      obtain ⟨_, _, hpure⟩ := Outcome.bind_eq_ok_iff.mp hkind
      cases hpure
      exact ⟨value, rest, by rw [hfields, not_not.mp hname], rfl⟩
    · cases hparse
  · cases hparse

theorem TagV3.tagname_of_parseEvent {tag : TagV3}
    {found : Id × Option UncheckedUrl × Option String}
    (hparse : tag.parseEvent hex = .ok found) : tag.tagname = "e" := by
  obtain ⟨value, rest, hfields, -⟩ := exists_of_parseEvent hparse
  rw [tagname, getIndex_eq_getD, hfields]
  rfl

theorem TagV3.tagname_of_parseAddress {tag : TagV3} {found : NAddr × Option String}
    (hparse : tag.parseAddress curve hex = .ok found) : tag.tagname = "a" := by
  obtain ⟨value, rest, hfields, -⟩ := exists_of_parseAddress hparse
  rw [tagname, getIndex_eq_getD, hfields]
  rfl

/-- A tag of the one sort is none of the other. -/
theorem TagV3.parseEvent_ne_ok {tag : TagV3} {ea : NAddr} {marker : Option String}
    (hparse : tag.parseAddress curve hex = .ok (ea, marker))
    (found : Id × Option UncheckedUrl × Option String) :
    tag.parseEvent hex ≠ .ok found := by
  intro hevent
  have hname := tagname_of_parseEvent hevent
  rw [tagname_of_parseAddress hparse] at hname
  exact absurd hname (by decide)

theorem TagV3.read_of_parseEvent {tag : TagV3} {id : Id} {rurl : Option UncheckedUrl}
    {marker : Option String} (hparse : tag.parseEvent hex = .ok (id, rurl, marker)) :
    tag.read curve hex parser =
      some ⟨false, marker, eventReference parser id rurl marker⟩ := by
  rw [read, hparse]

theorem TagV3.read_of_parseAddress {tag : TagV3} {ea : NAddr} {marker : Option String}
    (hparse : tag.parseAddress curve hex = .ok (ea, marker)) :
    tag.read curve hex parser = some ⟨true, marker, .addr ea⟩ := by
  unfold read
  split
  · rename_i hevent
    exact absurd hevent (parseEvent_ne_ok hparse _)
  · rw [hparse]

/-- A step of a loop takes what is read of the tag if it passes a test. -/
def TagReference.take (test : TagReference → Bool) (found : TagReference) :
    Option EventReference :=
  if test found then some found.target else none

/-- A tag is read as one of the two sorts, or not at all. -/
theorem TagV3.read_cases (curve : Secp256k1) (hex : Hex) (tag : TagV3) :
    (∃ id rurl marker, tag.parseEvent hex = .ok (id, rurl, marker) ∧
        ∀ found, tag.parseAddress curve hex ≠ .ok found) ∨
      (∃ ea marker, tag.parseAddress curve hex = .ok (ea, marker) ∧
        ∀ found, tag.parseEvent hex ≠ .ok found) ∨
        (∀ found, tag.parseEvent hex ≠ .ok found) ∧
          ∀ found, tag.parseAddress curve hex ≠ .ok found := by
  by_cases hevent : ∃ found, tag.parseEvent hex = .ok found
  · obtain ⟨⟨id, rurl, marker⟩, hevent⟩ := hevent
    exact .inl ⟨id, rurl, marker, hevent, fun _ haddress =>
      parseEvent_ne_ok haddress _ hevent⟩
  · rw [not_exists] at hevent
    by_cases haddress : ∃ found, tag.parseAddress curve hex = .ok found
    · obtain ⟨⟨ea, marker⟩, haddress⟩ := haddress
      exact .inr (.inl ⟨ea, marker, haddress, hevent⟩)
    · exact .inr (.inr ⟨hevent, not_exists.mp haddress⟩)

theorem TagV3.read_eq_none {tag : TagV3} (hevent : ∀ found, tag.parseEvent hex ≠ .ok found)
    (haddress : ∀ found, tag.parseAddress curve hex ≠ .ok found) :
    tag.read curve hex parser = none := by
  unfold read
  split
  · exact absurd ‹_› (hevent _)
  · split
    · exact absurd ‹_› (haddress _)
    · rfl

/-- A step of a loop is known by what it does on the two sorts of tags. -/
theorem TagV3.step_eq {step : TagV3 → Option EventReference} {test : TagReference → Bool}
    (hevent : ∀ tag id rurl marker, tag.parseEvent hex = .ok (id, rurl, marker) →
      step tag =
        TagReference.take test ⟨false, marker, eventReference parser id rurl marker⟩)
    (haddress : ∀ tag ea marker, tag.parseAddress curve hex = .ok (ea, marker) →
      (∀ found, tag.parseEvent hex ≠ .ok found) →
        step tag = TagReference.take test ⟨true, marker, .addr ea⟩)
    (hneither : ∀ tag, (∀ found, tag.parseEvent hex ≠ .ok found) →
      (∀ found, tag.parseAddress curve hex ≠ .ok found) → step tag = none) (tag : TagV3) :
    step tag = (tag.read curve hex parser).bind (TagReference.take test) := by
  rcases tag.read_cases curve hex with ⟨id, rurl, marker, hparse, -⟩ |
    ⟨ea, marker, hparse, hnone⟩ | ⟨hnone, hnone'⟩
  · rw [hevent tag id rurl marker hparse, read_of_parseEvent hparse, Option.bind_some]
  · rw [haddress tag ea marker hparse hnone, read_of_parseAddress hparse, Option.bind_some]
  · rw [hneither tag hnone hnone', read_eq_none hnone hnone', Option.bind_none]

/-- A tag with this marker is taken, whatever it refers to. -/
theorem TagReference.take_is (isAddress : Bool) (name : String) (marker : Option String)
    (target : EventReference) :
    TagReference.take (TagReference.is isAddress (some name)) ⟨isAddress, marker, target⟩ =
      if marker = some name then some target else none := by
  rw [take, TagReference.is, beq_self_eq_true, Bool.true_and]
  by_cases hmarker : marker = some name
  · rw [if_pos hmarker, if_pos (beq_iff_eq.mpr hmarker)]
  · rw [if_neg hmarker, if_neg (fun hsame => hmarker (beq_iff_eq.mp hsame))]

theorem TagV3.markedEvent_eq (curve : Secp256k1) (name : String) (tag : TagV3) :
    tag.markedEvent hex parser name =
      (tag.read curve hex parser).bind
        (TagReference.take (TagReference.is false (some name))) := by
  have hnone : ∀ tag : TagV3, (∀ found, tag.parseEvent hex ≠ .ok found) →
      tag.markedEvent hex parser name = none := by
    intro tag hevent
    unfold markedEvent
    split
    · exact absurd ‹_› (hevent _)
    · rfl
  refine step_eq (fun tag id rurl marker hparse => ?_) (fun tag ea marker _ hevent => ?_)
    (fun tag hevent _ => hnone tag hevent) tag
  · rw [markedEvent, hparse, TagReference.take_is]
  · rw [hnone tag hevent]
    rfl

theorem TagV3.markedAddress_eq (parser : UrlParser) (name : String) (tag : TagV3) :
    tag.markedAddress curve hex name =
      (tag.read curve hex parser).bind
        (TagReference.take (TagReference.is true (some name))) := by
  have hnone : ∀ tag : TagV3, (∀ found, tag.parseAddress curve hex ≠ .ok found) →
      tag.markedAddress curve hex name = none := by
    intro tag haddress
    unfold markedAddress
    split
    · exact absurd ‹_› (haddress _)
    · rfl
  refine step_eq (fun tag id rurl marker hparse => ?_) (fun tag ea marker hparse _ => ?_)
    (fun tag _ haddress => hnone tag haddress) tag
  · rw [hnone tag fun found haddress => parseEvent_ne_ok haddress _ hparse]
    rfl
  · rw [markedAddress, hparse, TagReference.take_is]

/-- An event tag without a marker, or an address tag with the marker of a root. -/
def TagReference.isLast (found : TagReference) : Bool :=
  found.is false none || found.is true (some "root")

theorem TagV3.lastUnmarked_eq (tag : TagV3) :
    tag.lastUnmarked curve hex parser =
      (tag.read curve hex parser).bind (TagReference.take TagReference.isLast) := by
  refine step_eq (fun tag id rurl marker hparse => ?_) (fun tag ea marker hparse _ => ?_)
    (fun tag hevent haddress => ?_) tag
  · rw [lastUnmarked, if_pos (tagname_of_parseEvent hparse), hparse]
    cases marker <;> rfl
  · have hname := tagname_of_parseAddress hparse
    rw [lastUnmarked, if_neg (by rw [hname]; decide), if_pos hname,
      markedAddress_eq parser, read_of_parseAddress hparse]
    rfl
  · unfold lastUnmarked markedAddress
    split_ifs
    · split
      · exact absurd ‹_› (hevent _)
      · rfl
    · split
      · exact absurd ‹_› (haddress _)
      · rfl
    · rfl

theorem TagV3.firstUnmarked_eq (tag : TagV3) :
    tag.firstUnmarked curve hex parser =
      (tag.read curve hex parser).bind
        (TagReference.take fun found => found.marker == none) := by
  refine step_eq (fun tag id rurl marker hparse => ?_)
    (fun tag ea marker hparse hevent => ?_) (fun tag hevent haddress => ?_) tag
  · rw [firstUnmarked, hparse]
    cases marker <;> rfl
  · unfold firstUnmarked
    split
    · exact absurd ‹_› (hevent _)
    · rw [hparse]
      cases marker <;> rfl
  · unfold firstUnmarked
    split
    · exact absurd ‹_› (hevent _)
    · split
      · exact absurd ‹_› (haddress _)
      · rfl

theorem TagV3.reference_eq (tag : TagV3) :
    tag.reference curve hex parser =
      (tag.read curve hex parser).map TagReference.target := by
  rcases tag.read_cases curve hex with ⟨id, rurl, marker, hparse, -⟩ |
    ⟨ea, marker, hparse, hevent⟩ | ⟨hevent, haddress⟩
  · rw [reference, hparse, read_of_parseEvent hparse]
    rfl
  · rw [read_of_parseAddress hparse]
    unfold reference
    split
    · exact absurd ‹_› (hevent _)
    · rw [hparse]
      rfl
  · rw [read_eq_none hevent haddress]
    unfold reference
    split
    · exact absurd ‹_› (hevent _)
    · split
      · exact absurd ‹_› (haddress _)
      · rfl

/-- What is read was parsed by one of the two parsers. -/
theorem TagV3.exists_parse_of_read {tag : TagV3} {found : TagReference}
    (hread : tag.read curve hex parser = some found) :
    (∃ id rurl marker, tag.parseEvent hex = .ok (id, rurl, marker) ∧
        found = ⟨false, marker, eventReference parser id rurl marker⟩) ∨
      ∃ ea marker, tag.parseAddress curve hex = .ok (ea, marker) ∧
        found = ⟨true, marker, .addr ea⟩ := by
  rcases tag.read_cases curve hex with ⟨id, rurl, marker, hparse, -⟩ |
    ⟨ea, marker, hparse, -⟩ | ⟨hevent, haddress⟩
  · rw [read_of_parseEvent hparse] at hread
    exact .inl ⟨id, rurl, marker, hparse, (Option.some.inj hread).symm⟩
  · rw [read_of_parseAddress hparse] at hread
    exact .inr ⟨ea, marker, hparse, (Option.some.inj hread).symm⟩
  · rw [read_eq_none hevent haddress] at hread
    cases hread

/-- A tag that is read has one of the two names. -/
theorem TagV3.isEventRef_of_read {tag : TagV3} {found : TagReference}
    (hread : tag.read curve hex parser = some found) : tag.isEventRef = true := by
  rcases exists_parse_of_read hread with ⟨_, _, _, hparse, -⟩ | ⟨_, _, hparse, -⟩
  · rw [isEventRef, tagname_of_parseEvent hparse]
    rfl
  · rw [isEventRef, tagname_of_parseAddress hparse]
    rfl

/-- A loop over the tags returns the first target that passes the test. -/
theorem findSome?_eq_of_step {step : TagV3 → Option EventReference}
    {test : TagReference → Bool}
    (hstep : ∀ tag, step tag = (tag.read curve hex parser).bind (TagReference.take test))
    (tags : List TagV3) :
    tags.findSome? step =
      ((tags.filterMap (TagV3.read curve hex parser)).find? test).map
        TagReference.target := by
  induction tags with
  | nil => rfl
  | cons tag tags ih =>
      rw [List.findSome?_cons, hstep, List.filterMap_cons, ih]
      cases tag.read curve hex parser with
      | none => rfl
      | some found =>
          rw [Option.bind_some, TagReference.take, List.find?_cons]
          cases test found <;> rfl

end Read

section Sources

/-- The marked references, in the order of the four loops that look for them. -/
def markedSource (refs : List TagReference) : Option TagReference :=
  (refs.find? (TagReference.is false (some "reply"))).or <|
    (refs.find? (TagReference.is false (some "root"))).or <|
      (refs.find? (TagReference.is true (some "reply"))).or <|
        refs.find? (TagReference.is true (some "root"))

/-- What `replies_to` goes by, of all that the tags say. -/
def replySource (refs : List TagReference) : Option TagReference :=
  (markedSource refs).or (refs.reverse.find? (TagReference.is false none))

/-- What `replies_to_root` goes by. -/
def rootSource (refs : List TagReference) : Option TagReference :=
  (refs.find? (TagReference.is false (some "root"))).or <|
    refs.find? fun found => found.marker == none

/-- In the last loop no address tag is marked any more. -/
theorem or_find?_isLast (refs : List TagReference) :
    (refs.find? (TagReference.is true (some "root"))).or
        (refs.reverse.find? TagReference.isLast) =
      (refs.find? (TagReference.is true (some "root"))).or
        (refs.reverse.find? (TagReference.is false none)) := by
  cases hroot : refs.find? (TagReference.is true (some "root")) with
  | some found => rfl
  | none =>
      rw [List.find?_eq_none] at hroot
      rw [Option.none_or, Option.none_or, ← List.head?_filter, ← List.head?_filter]
      congr 1
      refine List.filter_congr fun found hfound => ?_
      have hnot := hroot found (List.mem_reverse.mp hfound)
      rw [TagReference.isLast, Bool.eq_false_iff.mpr hnot, Bool.or_false]

variable {curve : Secp256k1} {hex : Hex} {parser : UrlParser}

theorem EventV3.repliesTo_eq (event : EventV3) :
    event.repliesTo curve hex parser =
      if event.kind.isFeedDisplayable && !event.kind.isRepost then
        (replySource (event.references curve hex parser)).map TagReference.target
      else none := by
  have htargets : (event.tags.findSome? (TagV3.markedEvent hex parser "reply")).or
      ((event.tags.findSome? (TagV3.markedEvent hex parser "root")).or
        ((event.tags.findSome? (TagV3.markedAddress curve hex "reply")).or
          ((event.tags.findSome? (TagV3.markedAddress curve hex "root")).or
            (event.tags.reverse.findSome? (TagV3.lastUnmarked curve hex parser))))) =
      (replySource (event.references curve hex parser)).map TagReference.target := by
    rw [findSome?_eq_of_step (TagV3.markedEvent_eq curve "reply"),
      findSome?_eq_of_step (TagV3.markedEvent_eq curve "root"),
      findSome?_eq_of_step (TagV3.markedAddress_eq parser "reply"),
      findSome?_eq_of_step (TagV3.markedAddress_eq parser "root"),
      findSome?_eq_of_step TagV3.lastUnmarked_eq, List.filterMap_reverse, replySource,
      markedSource]
    simp only [Option.or_assoc, ← or_find?_isLast, Option.map_or]
    rfl
  rw [repliesTo, htargets]
  cases event.kind.isFeedDisplayable with
  | false => rfl
  | true =>
      cases event.kind.isRepost with
      | true => rfl
      | false =>
          simp only [Bool.not_true, Bool.false_eq_true, if_false, Bool.not_false,
            Bool.and_self, if_true]
          refine ite_eq_right_iff.mpr fun hzero => ?_
          -- no tag of either name means that nothing is read
          have hnone : event.references curve hex parser = [] := by
            rw [references, List.filterMap_eq_nil_iff]
            intro tag htag
            by_contra hread
            obtain ⟨found, hfound⟩ := Option.ne_none_iff_exists'.mp hread
            rw [List.length_eq_zero_iff, List.filter_eq_nil_iff] at hzero
            exact hzero tag htag (TagV3.isEventRef_of_read hfound)
          rw [hnone]
          rfl

theorem EventV3.repliesToRoot_eq (event : EventV3) :
    event.repliesToRoot curve hex parser =
      if event.kind.isFeedDisplayable then
        (rootSource (event.references curve hex parser)).map TagReference.target
      else none := by
  rw [repliesToRoot, findSome?_eq_of_step (TagV3.markedEvent_eq curve "root"),
    findSome?_eq_of_step TagV3.firstUnmarked_eq, rootSource, Option.map_or]
  cases event.kind.isFeedDisplayable <;> rfl

theorem filterMap_reference (tags : List TagV3) :
    tags.filterMap (TagV3.reference curve hex parser) =
      (tags.filterMap (TagV3.read curve hex parser)).map TagReference.target := by
  rw [List.map_filterMap]
  exact List.filterMap_congr fun tag _ => tag.reference_eq

theorem mem_filterMap_markedEvent_iff {name : String} {tags : List TagV3}
    {target : EventReference} :
    target ∈ tags.filterMap (TagV3.markedEvent hex parser name) ↔
      ∃ tag ∈ tags, ∃ found, tag.read curve hex parser = some found ∧
        found.is false (some name) = true ∧ found.target = target := by
  rw [List.mem_filterMap]
  refine exists_congr fun tag => and_congr_right fun _ => ?_
  rw [TagV3.markedEvent_eq curve, Option.bind_eq_some_iff]
  refine exists_congr fun found => and_congr_right fun _ => ?_
  rw [TagReference.take]
  split
  · rename_i htest
    rw [Option.some.injEq, and_iff_right htest]
  · rename_i htest
    exact iff_of_false (fun htarget => Option.some_ne_none _ htarget.symm)
      fun hboth => htest hboth.1

end Sources

end Types

end Gnostr
