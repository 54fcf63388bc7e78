/-
Filters of `types/src/nostr/filter.rs` and what it means for an event to match
one.  The code compares a tag name with a filter letter by its first letter
only, and takes a tag without a value for one with an empty value.
-/
import Gnostr.Types.EventKind
import Gnostr.Types.Keys

namespace Gnostr

namespace Types

/-- A tag, a list of strings. -/
structure TagV3 where
  fields : List String
deriving Repr, DecidableEq

namespace TagV3

/-- The string at an index, empty when there is none. -/
def getIndex (tag : TagV3) (index : ℕ) : String :=
  if index < tag.fields.length then tag.fields.getD index "" else ""

/-- The tag name, the first string. -/
def tagname (tag : TagV3) : String := tag.getIndex 0

/-- The tag value, after the tag name. -/
def value (tag : TagV3) : String := tag.getIndex 1

theorem getIndex_eq_getD (tag : TagV3) (index : ℕ) :
    tag.getIndex index = tag.fields[index]?.getD "" := by
  unfold getIndex
  split
  · rw [List.getD_eq_getElem?_getD]
  · rename_i hle
    rw [List.getElem?_eq_none (Nat.not_lt.mp hle), Option.getD_none]

end TagV3

/-- What a filter reads of an event. -/
structure Event where
  id : Id
  pubkey : PublicKey
  createdAt : Int64
  kind : EventKind
  tags : List TagV3
deriving Repr, DecidableEq

/-- A `BTreeMap` from letters to values, as the list of its entries. -/
structure TagMap where
  entries : List (Char × List String)
  sorted : entries.Pairwise fun first second => first.1 < second.1

/-- What events a client is looking for. -/
structure Filter where
  ids : List String
  authors : List String
  kinds : List EventKind
  tags : TagMap
  since : Option Int64
  until_ : Option Int64

namespace Filter

/-- `tag.tagname().starts_with(letter)` and the value is listed. -/
def tagMatches (entry : Char × List String) (tag : TagV3) : Bool :=
  tag.tagname.toList.head? == some entry.1 &&
    entry.2.any fun value => value == tag.value

/-- Does the event match the filter? -/
def eventMatches (hex : Hex) (filter : Filter) (event : Event) : Bool :=
  if !filter.ids.isEmpty && !filter.ids.contains (event.id.asHexString hex) then
    false
  else if !filter.authors.isEmpty &&
      !filter.authors.contains (event.pubkey.asHexString hex) then false
  else if !filter.kinds.isEmpty && !filter.kinds.contains event.kind then false
  else if filter.since.any fun since => decide (event.createdAt < since) then
    false
  else if filter.until_.any fun bound => decide (bound < event.createdAt) then
    false
  else filter.tags.entries.all fun entry => event.tags.any (tagMatches entry)

/-- The conditions on the fields other than tags. -/
structure FieldsMatch (hex : Hex) (filter : Filter) (event : Event) :
    Prop where
  ids : filter.ids ≠ [] → event.id.asHexString hex ∈ filter.ids
  authors : filter.authors ≠ [] → event.pubkey.asHexString hex ∈ filter.authors
  kinds : filter.kinds ≠ [] → event.kind ∈ filter.kinds
  since : ∀ since, filter.since = some since → since ≤ event.createdAt
  until_ : ∀ bound, filter.until_ = some bound → event.createdAt ≤ bound

/-- The name of the tag is the letter alone and its value is listed. -/
def TagHit (entry : Char × List String) (tag : TagV3) : Prop :=
  tag.fields[0]? = some (String.singleton entry.1) ∧
    ∃ value ∈ entry.2, tag.fields[1]? = some value

/-- The event satisfies all conditions of the filter. -/
def Matches (hex : Hex) (filter : Filter) (event : Event) : Prop :=
  FieldsMatch hex filter event ∧
    ∀ entry ∈ filter.tags.entries, ∃ tag ∈ event.tags, TagHit entry tag

/-- The letter begins a longer name, or the tag has no value and the empty one
is listed. -/
def TagMiss (entry : Char × List String) (tag : TagV3) : Prop :=
  (∃ rest, rest ≠ [] ∧ tag.tagname.toList = entry.1 :: rest ∧
      tag.value ∈ entry.2) ∨
    tag.tagname = String.singleton entry.1 ∧ tag.fields.length = 1 ∧
      "" ∈ entry.2

/-- Every other condition holds, but for some letter of the filter only tags
with a longer name or without a value are there. -/
def SpuriousMatch (hex : Hex) (filter : Filter) (event : Event) : Prop :=
  FieldsMatch hex filter event ∧
    (∀ entry ∈ filter.tags.entries,
      ∃ tag ∈ event.tags, TagHit entry tag ∨ TagMiss entry tag) ∧
    ∃ entry ∈ filter.tags.entries, ∀ tag ∈ event.tags, ¬ TagHit entry tag

theorem tagMatches_iff (entry : Char × List String) (tag : TagV3) :
    tagMatches entry tag = true ↔
      tag.tagname.toList.head? = some entry.1 ∧ tag.value ∈ entry.2 := by
  simp [tagMatches]

theorem singleton_eq_iff (c : Char) (text : String) :
    text = String.singleton c ↔ text.toList = [c] := by
  rw [← String.toList_inj, String.toList_singleton]

/-- The test of the code is true of the tags that fit and of those that only
seem to. -/
theorem tagMatches_iff_hit_or_miss (entry : Char × List String) (tag : TagV3) :
    tagMatches entry tag = true ↔ TagHit entry tag ∨ TagMiss entry tag := by
  rw [tagMatches_iff, TagHit, TagMiss, TagV3.value, TagV3.tagname,
    TagV3.getIndex_eq_getD, TagV3.getIndex_eq_getD]
  rcases tag with ⟨fields⟩
  rcases fields with _ | ⟨name, _ | ⟨value, rest⟩⟩
  · simp [singleton_eq_iff]
  · simp only [List.getElem?_cons_zero, Option.getD_some, Option.some.injEq,
      singleton_eq_iff]
    cases name.toList with
    | nil => simp
    | cons head tail => cases tail <;> simp
  · simp only [List.getElem?_cons_zero, List.getElem?_cons_succ,
      Option.getD_some, Option.some.injEq, singleton_eq_iff]
    cases name.toList with
    | nil => simp
    | cons head tail => cases tail <;> simp

theorem gate_eq_true_iff {gate rest : Bool} :
    (if gate = true then false else rest) = true ↔
      ¬ gate = true ∧ rest = true := by
  cases gate <;> simp

theorem not_listed_gate_iff {α : Type*} [BEq α] [LawfulBEq α] {listed : List α}
    {field : α} :
    ¬ (!listed.isEmpty && !listed.contains field) = true ↔
      (listed ≠ [] → field ∈ listed) := by
  simp

theorem not_bound_gate_iff {bound : Option Int64} {test : Int64 → Prop}
    [DecidablePred test] :
    ¬ (bound.any fun value => decide (test value)) = true ↔
      ∀ value, bound = some value → ¬ test value := by
  cases bound with
  | none => simp
  | some value => simp

/-- The gates before the tags are exactly the conditions on the fields. -/
theorem eventMatches_iff (hex : Hex) (filter : Filter) (event : Event) :
    eventMatches hex filter event = true ↔
      FieldsMatch hex filter event ∧
        ∀ entry ∈ filter.tags.entries,
          ∃ tag ∈ event.tags, TagHit entry tag ∨ TagMiss entry tag := by
  simp only [eventMatches, gate_eq_true_iff, not_listed_gate_iff,
    not_bound_gate_iff, Int64.not_lt, List.all_eq_true, List.any_eq_true,
    tagMatches_iff_hit_or_miss]
  constructor
  · rintro ⟨hids, hauthors, hkinds, hsince, huntil, hall⟩
    exact ⟨⟨hids, hauthors, hkinds, hsince, huntil⟩, hall⟩
  · rintro ⟨⟨hids, hauthors, hkinds, hsince, huntil⟩, hall⟩
    exact ⟨hids, hauthors, hkinds, hsince, huntil, hall⟩

/-- A match is always reported; what is reported is a match unless it is
spurious. -/
theorem eventMatches_iff_matches_iff (hex : Hex) (filter : Filter)
    (event : Event) :
    (eventMatches hex filter event = true ↔ Matches hex filter event) ↔
      ¬ SpuriousMatch hex filter event := by
  rw [eventMatches_iff]
  constructor
  · rintro hiff ⟨hfields, hall, entry, hentry, hnone⟩
    obtain ⟨tag, htag, hhit⟩ := (hiff.mp ⟨hfields, hall⟩).2 entry hentry
    exact hnone tag htag hhit
  · intro hspurious
    constructor
    · rintro ⟨hfields, hall⟩
      refine ⟨hfields, ?_⟩
      intro entry hentry
      by_contra hnone
      push Not at hnone
      exact hspurious ⟨hfields, hall, entry, hentry, hnone⟩
    · rintro ⟨hfields, hall⟩
      refine ⟨hfields, ?_⟩
      intro entry hentry
      obtain ⟨tag, htag, hhit⟩ := hall entry hentry
      exact ⟨tag, htag, Or.inl hhit⟩

/-- A filter on the letter `e` alone. -/
def letterFilter : Filter where
  ids := []
  authors := []
  kinds := []
  tags := ⟨[('e', ["x"])], List.pairwise_singleton _ _⟩
  since := none
  until_ := none

/-- An event that has a custom emoji and nothing else. -/
def emojiEvent : Event where
  id := ⟨Vector.replicate 32 0⟩
  pubkey := ⟨Vector.replicate 32 0⟩
  createdAt := 0
  kind := EventKind.ofU32 1
  tags := [⟨["emoji", "x"]⟩]

/-- The emoji tag is taken for an `e` tag. -/
theorem emoji_matches_letter :
    eventMatches Hex.reference letterFilter emojiEvent = true ∧
      ¬ Matches Hex.reference letterFilter emojiEvent := by
  constructor
  · decide +kernel
  · rintro ⟨_, hall⟩
    obtain ⟨tag, htag, hname, _⟩ :=
      hall ('e', ["x"]) (List.mem_singleton_self _)
    rw [emojiEvent, List.mem_singleton] at htag
    rw [htag] at hname
    revert hname
    decide +kernel

end Filter

end Types

end Gnostr
