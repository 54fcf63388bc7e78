/-
Patches of `types/src/nostr/nip34.rs`, whose commits are cut out of their content, and
how an event is displayed in `types/src/nostr/versioned/event3.rs`, with what is cut off
of its content.
-/
import Gnostr.Lib.Decimal
import Gnostr.Lib.TextPos
import Gnostr.Nip34.RepoState

namespace Gnostr

namespace Nip34

open Gnostr.Types
open String (utf8Len)

/-- `Display` of an event. -/
def display (hex : Hex) (event : EventV3) : Outcome Error String := do
  let content ← Outcome.unwrap
    (getRange event.content.toList 0 (min (utf8Len event.content.toList) 50))
  return "Event \x7b id: " ++ event.id.asHexString hex ++
    ", pubkey: " ++ event.pubkey.asHexString hex ++
    ", kind: " ++ String.ofList (decimal event.kind.toU32.toNat) ++
    ", created_at: " ++ String.ofList (decimalInt event.createdAt.toInt) ++
    ", content: " ++ String.ofList content ++ "... \x7d"

/-- Return a tag value by name. -/
def tagValue (event : EventV3) (tagName : String) : Outcome Error String :=
  Outcome.okOr .tagMismatch
    ((event.tags.find? fun tag => tag.tagname == tagName).map TagV3.value)

/-- The value of a tag, or else the commit that a patch begins with. -/
def idFromPatch (tagName : String) (event : EventV3) : Outcome Error String :=
  match tagValue event tagName with
  | .ok value => .ok value
  | _ =>
      if hasPrefix "From " event.content && decide (45 < utf8Len event.content.toList) then
        String.ofList <$> Outcome.unwrap (getRange event.content.toList 5 45)
      else .err .invalidOperation

/-- Extract the commit id from a patch event. -/
def getCommitIdFromPatch : EventV3 → Outcome Error String := idFromPatch "commit"

/-- Extract the parent commit id from a patch event. -/
def getParentCommitFromPatch : EventV3 → Outcome Error String :=
  idFromPatch "parent-commit"

/-- Nothing is cut out of the content in the middle of a character. -/
structure SlicesSafely (hex : Hex) (event : EventV3) : Prop where
  display_returns : (display hex event).Returns
  commit_returns : (getCommitIdFromPatch event).Returns
  parent_returns : (getParentCommitFromPatch event).Returns

section Slices

theorem display_returns_iff {hex : Hex} {event : EventV3} :
    (display hex event).Returns ↔
      utf8Len event.content.toList ≤ 50 ∨
        (splitAtByte event.content.toList 50).isSome = true := by
  have hreturns : (display hex event).Returns ↔ (getRange event.content.toList 0
      (min (utf8Len event.content.toList) 50)).isSome = true := by
    rw [display, Outcome.returns_bind_iff, Outcome.returns_unwrap_iff]
    exact and_iff_left fun _ _ => Outcome.returns_ok _
  rw [hreturns, getRange_isSome_iff, splitAtByte_zero]
  rcases Nat.le_total (utf8Len event.content.toList) 50 with hshort | hlong
  · rw [Nat.min_eq_left hshort, splitAtByte_length]
    exact iff_of_true ⟨Nat.zero_le _, rfl, rfl⟩ (.inl hshort)
  · rw [Nat.min_eq_right hlong, and_iff_right (Nat.zero_le _), Option.isSome_some,
      and_iff_right rfl]
    refine ⟨.inr, fun hcut => hcut.elim (fun hshort => ?_) id⟩
    have hlength := splitAtByte_length event.content.toList
    rw [Nat.le_antisymm hshort hlong] at hlength
    rw [hlength]
    rfl

theorem tagValue_eq_ok_iff {event : EventV3} {tagName : String} :
    (∃ value, tagValue event tagName = .ok value) ↔
      ∃ tag ∈ event.tags, tag.tagname = tagName := by
  rw [tagValue]
  cases hfound : event.tags.find? fun tag => tag.tagname == tagName with
  | some tag =>
      refine iff_of_true ⟨tag.value, rfl⟩ ⟨tag, List.mem_of_find?_eq_some hfound, ?_⟩
      have hname := List.find?_some hfound
      exact beq_iff_eq.mp hname
  | none =>
      rw [List.find?_eq_none] at hfound
      refine iff_of_false (fun ⟨_, hvalue⟩ => by cases hvalue) ?_
      rintro ⟨tag, htag, hname⟩
      exact hfound tag htag (beq_iff_eq.mpr hname)

/-- The commit is cut out behind five characters of one byte. -/
theorem getRange_commit_isSome_iff {content : String}
    (hstart : hasPrefix "From " content = true) :
    (getRange content.toList 5 45).isSome = true ↔
      (splitAtByte content.toList 45).isSome = true := by
  obtain ⟨rest, hrest⟩ := hasPrefix_iff.mp hstart
  have hfive : splitAtByte content.toList 5 = some ("From ".toList, rest) := by
    rw [← hrest]
    exact splitAtByte_append "From ".toList rest
  rw [getRange_isSome_iff, hfive]
  simp

theorem idFromPatch_returns_iff {tagName : String} {event : EventV3} :
    (idFromPatch tagName event).Returns ↔
      (∃ tag ∈ event.tags, tag.tagname = tagName) ∨
        hasPrefix "From " event.content = false ∨
          utf8Len event.content.toList ≤ 45 ∨
            (splitAtByte event.content.toList 45).isSome = true := by
  rw [← tagValue_eq_ok_iff]
  unfold idFromPatch
  split
  · rename_i value hvalue
    exact iff_of_true (Outcome.returns_ok _) (.inl ⟨value, hvalue⟩)
  · rename_i hnone
    rw [or_iff_right fun ⟨value, hvalue⟩ => hnone value hvalue]
    split
    · rename_i htest
      obtain ⟨hstart, hlong⟩ := Bool.and_eq_true_iff.mp htest
      rw [decide_eq_true_eq] at hlong
      rw [or_iff_right (by rw [hstart]; decide), or_iff_right (by omega),
        ← getRange_commit_isSome_iff hstart, Outcome.returns_map_iff,
        Outcome.returns_unwrap_iff]
    · rename_i htest
      refine iff_of_true (Outcome.returns_err _) ?_
      rw [Bool.and_eq_true, decide_eq_true_eq, not_and_or, Bool.not_eq_true] at htest
      exact htest.imp_right fun hshort => .inl (by omega)

/-- Every event is cut safely exactly when the content is no longer than what is shown
of it or has a place between two characters there; and each of the two commits is given
by a tag, or the content does not begin as a patch, or it ends at the commit or has a
place between two characters behind it. -/
theorem slicesSafely_iff (hex : Hex) (event : EventV3) :
    SlicesSafely hex event ↔
      (utf8Len event.content.toList ≤ 50 ∨
          (splitAtByte event.content.toList 50).isSome = true) ∧
        ∀ tagName ∈ ["commit", "parent-commit"],
          (∃ tag ∈ event.tags, tag.tagname = tagName) ∨
            hasPrefix "From " event.content = false ∨
              utf8Len event.content.toList ≤ 45 ∨
                (splitAtByte event.content.toList 45).isSome = true := by
  rw [List.forall_mem_cons, List.forall_mem_singleton, ← display_returns_iff,
    ← idFromPatch_returns_iff, ← idFromPatch_returns_iff]
  exact ⟨fun hsafe => ⟨hsafe.1, hsafe.2, hsafe.3⟩,
    fun ⟨hdisplay, hcommit, hparent⟩ => ⟨hdisplay, hcommit, hparent⟩⟩

/-- An event of this content, without tags. -/
def untaggedPatch (content : String) : EventV3 where
  id := ⟨Vector.replicate 32 9⟩
  pubkey := ⟨Vector.replicate 32 1⟩
  createdAt := 1700000000
  kind := .wellKnown .patches
  sig := ⟨Vector.replicate 64 0⟩
  content := content
  tags := []

/-- Two characters of two bytes, around the ends of what is cut out. -/
def wideContent : String :=
  String.ofList ("From ".toList ++ List.replicate 39 'a' ++ ['é', 'a', 'a', 'a', 'é'])

/-- The content is cut within a character, by all three functions. -/
theorem not_slicesSafely_untaggedPatch :
    ¬ SlicesSafely Hex.reference (untaggedPatch wideContent) ∧
      getCommitIdFromPatch (untaggedPatch wideContent) = .panic ∧
        getParentCommitFromPatch (untaggedPatch wideContent) = .panic := by
  refine ⟨fun hsafe => ?_, by decide +kernel, by decide +kernel⟩
  have hcut := display_returns_iff.mp hsafe.display_returns
  revert hcut
  decide +kernel

end Slices

end Nip34

end Gnostr
