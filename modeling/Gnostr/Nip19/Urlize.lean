/-
`NostrUrl::urlize` of `types/src/nostr/nostr_url.rs`: the text with `nostr:` in front
of every reference that has none there.
-/
import Gnostr.Lib.Marking
import Gnostr.Nip19.NostrUrl

namespace Gnostr

namespace Types

open String (utf8Len)

namespace NostrUrl

open NostrBech32 (IsReference bech32Finder urlFinder)

def scheme : List Char := "nostr:".toList

/-- The loop of `urlize`. -/
def urlizeFrom (engine : RegexEngine) (s : List Char) (cursor : ℕ)
    (output : List Char) : Outcome Error (List Char) :=
  match _hrest : getFrom s cursor with
  | none => .panic
  | some rest =>
      match _hspan : (bech32Finder engine).find rest with
      | none => .ok (output ++ rest)
      | some (relstart, relend) =>
          -- if it already has it, leave it alone
          if 6 ≤ relstart ∧
              getRange s (cursor + relstart - 6) (cursor + relstart) = some scheme then do
            let both ← Outcome.unwrap (getRange s cursor (cursor + relend))
            urlizeFrom engine s (cursor + relend) (output ++ both)
          else do
            let gap ← Outcome.unwrap (getRange s cursor (cursor + relstart))
            let word ← Outcome.unwrap (getRange s (cursor + relstart) (cursor + relend))
            urlizeFrom engine s (cursor + relend) (output ++ gap ++ scheme ++ word)
termination_by utf8Len s - cursor
decreasing_by
  all_goals
    have hlt := (bech32Finder engine).cursor_lt _hrest _hspan
    omega

/-- Add the scheme where it is missing. -/
def urlize (engine : RegexEngine) (s : List Char) : Outcome Error (List Char) :=
  urlizeFrom engine s 0 []

theorem findsAlone (engine : RegexEngine) :
    (bech32Finder engine).FindsAlone Char.isAlphanum IsReference where
  occurs_iff := by
    intro before word after
    refine and_congr_right fun _ => ⟨?_, fun hword => ⟨word, rfl, hword⟩⟩
    rintro ⟨body, rfl, hbody⟩
    exact hbody
  all := IsReference.isAlphanum

/-- There is no `o` in the data of a reference. -/
theorem isMark_scheme : IsMark Char.isAlphanum IsReference "nostr".toList ':' where
  ne_nil := by decide
  all := List.all_eq_true.mp (by decide)
  separator := by decide
  not_suffix := by
    rintro _ ⟨hrp, -, data, rfl, hlength, hdata⟩ hsuffix
    have hshort : "nostr".toList <:+ data := by
      refine List.suffix_of_suffix_length_le hsuffix
        ((List.suffix_cons '1' data).trans (List.suffix_append hrp.toList _)) ?_
      exact Nat.le_trans (by decide) hlength
    have ho := hdata 'o' (hshort.subset (by decide))
    revert ho
    decide

section Loop

variable {engine : RegexEngine}

theorem urlizeFrom_unfold (s : List Char) (cursor : ℕ) (output : List Char) :
    urlizeFrom engine s cursor output =
      match getFrom s cursor with
      | none => .panic
      | some rest =>
          match (bech32Finder engine).find rest with
          | none => .ok (output ++ rest)
          | some (relstart, relend) =>
              if 6 ≤ relstart ∧
                  getRange s (cursor + relstart - 6) (cursor + relstart) =
                    some scheme then
                Outcome.unwrap (getRange s cursor (cursor + relend)) >>= fun both =>
                  urlizeFrom engine s (cursor + relend) (output ++ both)
              else
                Outcome.unwrap (getRange s cursor (cursor + relstart)) >>= fun gap =>
                  Outcome.unwrap (getRange s (cursor + relstart) (cursor + relend)) >>=
                    fun word => urlizeFrom engine s (cursor + relend)
                      (output ++ gap ++ scheme ++ word) := by
  rw [urlizeFrom]
  split
  · rename_i hrest
    rw [hrest]
  · rename_i hrest
    rw [hrest]
    dsimp only
    split
    · rename_i hspan
      rw [hspan]
    · rename_i hspan
      rw [hspan]

/-- The bytes before a reference are looked at only if they are in the gap. -/
theorem behindScheme_iff (before gap after : List Char) :
    6 ≤ utf8Len gap ∧
        getRange (before ++ (gap ++ after)) (utf8Len before + utf8Len gap - 6)
          (utf8Len before + utf8Len gap) = some scheme ↔
      scheme <:+ gap := by
  have hscheme : utf8Len scheme = 6 := rfl
  constructor
  · rintro ⟨hlong, hrange⟩
    obtain ⟨start, stop, htext, hstart, hstop⟩ := getRange_eq_some_iff.mp hrange
    rw [hscheme] at hstop
    rw [← List.append_assoc] at htext
    obtain ⟨hfront, -⟩ := append_inj_of_utf8Len htext (by
      rw [String.utf8Len_append, String.utf8Len_append, hscheme, hstop])
    rcases List.append_eq_append_iff.mp hfront with ⟨between, rfl, hgap⟩ |
      ⟨between, rfl, hgap⟩
    · exact ⟨between, hgap.symm⟩
    · -- six bytes of the scheme are in the gap
      have hlength := congrArg utf8Len hgap
      rw [hscheme, String.utf8Len_append] at hlength
      have hbetween : between = [] := String.utf8Len_eq_zero.mp (by omega)
      exact ⟨[], by rw [hgap, hbetween]; rfl⟩
  · rintro ⟨start, rfl⟩
    have hrange := getRange_append (before ++ start) scheme after
    rw [String.utf8Len_append, hscheme] at hrange
    rw [String.utf8Len_append, hscheme]
    refine ⟨Nat.le_add_left 6 _, ?_⟩
    rw [← Nat.add_assoc, Nat.add_sub_cancel, ← hrange]
    simp only [List.append_assoc]

/-- One round of the loop: the gap is written, with the scheme at its end, and the
reference. -/
theorem urlizeFrom_of_foundAt (before : List Char) {gap word rest : List Char}
    (output : List Char) (hfound : (bech32Finder engine).FoundAt gap word rest) :
    urlizeFrom engine (before ++ (gap ++ (word ++ rest))) (utf8Len before) output =
      urlizeFrom engine (before ++ (gap ++ (word ++ rest)))
        (utf8Len (before ++ (gap ++ word))) (output ++ (addMark scheme gap ++ word)) := by
  have hspan : (bech32Finder engine).find (gap ++ (word ++ rest)) =
      some (utf8Len gap, utf8Len gap + utf8Len word) := hfound
  have hgap := getRange_append before gap (word ++ rest)
  have hword := getRange_append (before ++ gap) word rest
  have hboth := getRange_append before (gap ++ word) rest
  rw [List.append_assoc] at hgap
  rw [List.append_assoc, List.append_assoc, String.utf8Len_append, Nat.add_assoc] at hword
  rw [List.append_assoc, List.append_assoc, String.utf8Len_append] at hboth
  rw [urlizeFrom_unfold, getFrom_append]
  dsimp only
  rw [hspan]
  dsimp only
  rw [hboth, hgap, hword]
  by_cases hbehind : scheme <:+ gap
  · rw [if_pos ((behindScheme_iff before gap (word ++ rest)).mpr hbehind), addMark,
      if_pos hbehind]
    simp [String.utf8Len_append]
  · rw [if_neg (mt (behindScheme_iff before gap (word ++ rest)).mp hbehind), addMark,
      if_neg hbehind]
    simp [String.utf8Len_append]

/-- The loop writes the marked text. -/
theorem urlizeFrom_eq (before text output : List Char) :
    urlizeFrom engine (before ++ text) (utf8Len before) output =
      .ok (output ++ (bech32Finder engine).marked scheme text) := by
  induction text using @Finder.search_induction (bech32Finder engine)
    generalizing before output with
  | none text hnone =>
      rw [urlizeFrom_unfold, getFrom_append]
      dsimp only
      rw [hnone, Finder.marked_of_none hnone]
  | found gap word rest hfound ih =>
      have hrest := ih (before ++ (gap ++ word)) (output ++ (addMark scheme gap ++ word))
      simp only [List.append_assoc] at hrest
      rw [urlizeFrom_of_foundAt before output hfound, Finder.marked_of_foundAt _ hfound]
      simpa only [List.append_assoc] using hrest

theorem urlize_eq (engine : RegexEngine) (s : List Char) :
    urlize engine s = .ok ((bech32Finder engine).marked scheme s) :=
  urlizeFrom_eq [] s []

end Loop

/-- The text comes back with the scheme in front of some of its references and
nothing else changed, and a second pass changes nothing. -/
theorem urlize_idempotent_and_conservative (engine : RegexEngine) (s : List Char) :
    ∃ parts : List Part,
      urlize engine s = .ok (parts.flatMap (Part.written scheme)) ∧
        parts.flatMap Part.unmarked = s ∧
          (∀ before after, parts = before ++ .mark :: after →
            ∃ word rest, after = .kept word :: rest ∧ IsReference word) ∧
            urlize engine (parts.flatMap (Part.written scheme)) =
              .ok (parts.flatMap (Part.written scheme)) := by
  refine ⟨(bech32Finder engine).markParts scheme s, urlize_eq engine s,
    Finder.unmarked_markParts _ scheme s, fun before after hparts => ?_, ?_⟩
  · obtain ⟨word, rest, hafter, hword⟩ := Finder.exists_word_of_mark _ scheme s hparts
    obtain ⟨_, _, -, hoccurs⟩ := Finder.mem_words_iff.mp hword
    exact ⟨word, rest, hafter, ((findsAlone engine).occurs_iff.mp hoccurs).2⟩
  · rw [urlize_eq]
    exact congrArg Outcome.ok (Finder.marked_marked (findsAlone engine) isMark_scheme s)

/-- What the scan for references finds in the text, the scan for URLs finds in the
urlized text, in the same order. -/
def LeavesNoneBehind (engine : RegexEngine) (s : List Char) : Prop :=
  ∃ output, urlize engine s = .ok output ∧
    (((bech32Finder engine).words s).map (scheme ++ ·)).Sublist
      ((urlFinder engine).words output)

/-- A reference is left behind where it has the scheme already and a letter or a digit
stands in front of that. -/
theorem leavesNoneBehind_iff (engine : RegexEngine) (s : List Char) :
    LeavesNoneBehind engine s ↔
      ∀ before word after, s = before ++ (scheme ++ (word ++ after)) →
        StandsAlone Char.isAlphanum (before ++ scheme) after → IsReference word →
          ∀ c ∈ before.getLast?, c.isAlphanum = false := by
  have halone := findsAlone engine
  have hmarks : (urlFinder engine).FindsMarks Char.isAlphanum IsReference scheme := Iff.rfl
  have hwritten : LeavesNoneBehind engine s ↔
      (((bech32Finder engine).words s).map (scheme ++ ·)).Sublist
        ((urlFinder engine).words ((bech32Finder engine).marked scheme s)) := by
    rw [LeavesNoneBehind, urlize_eq]
    exact ⟨fun ⟨_, houtput, hfound⟩ => Outcome.ok.inj houtput ▸ hfound,
      fun hfound => ⟨_, rfl, hfound⟩⟩
  rw [hwritten]
  refine (hmarks.sublist_words_iff halone isMark_scheme s).trans
    ((Finder.forall_markStands_iff halone isMark_scheme s).trans ?_)
  constructor
  · intro hall before word after hs hstands hword
    exact hall before word after hs (halone.occurs_iff.mpr ⟨hstands, hword⟩)
  · intro hall before word after hs hoccurs
    obtain ⟨hstands, hword⟩ := halone.occurs_iff.mp hoccurs
    exact hall before word after hs hstands hword

/-- The scheme at the end of a longer word is taken for one, and makes no URL. -/
theorem not_leavesNoneBehind_gluedScheme :
    ¬ ∀ engine s, LeavesNoneBehind engine s := by
  intro hall
  have hfound := hall RegexEngine.reference "xnostr:npub1qqqqqqq".toList
  rw [leavesNoneBehind_iff] at hfound
  have hx := hfound ['x'] "npub1qqqqqqq".toList [] (by decide) (by decide)
    (by decide +kernel) 'x' rfl
  revert hx
  decide

end NostrUrl

end Types

end Gnostr
