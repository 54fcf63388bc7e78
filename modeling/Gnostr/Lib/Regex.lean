/-
Regular expressions with anchors and one group, the places of a text where they
match, and what a search for the leftmost match gives.
-/
import Gnostr.Lib.TextPos

namespace Gnostr

open String (utf8Len)

inductive Regex where
  /-- `^` -/
  | start
  /-- `$` -/
  | stop
  /-- A character class. -/
  | one (isIn : Char → Bool)
  /-- A character class, at least so many times. -/
  | atLeast (count : ℕ) (isIn : Char → Bool)
  /-- One of several words. -/
  | anyOf (words : List String)
  | seq (first second : Regex)
  | alt (first second : Regex)

namespace Regex

/-- The expression matches a part of a text, of which the rest is known as well. -/
def Matches : Regex → List Char → List Char → List Char → Prop
  | start, before, word, _ => word = [] ∧ before = []
  | stop, _, word, after => word = [] ∧ after = []
  | one isIn, _, word, _ => ∃ c, word = [c] ∧ isIn c = true
  | atLeast count isIn, _, word, _ =>
      count ≤ word.length ∧ ∀ c ∈ word, isIn c = true
  | anyOf words, _, word, _ => ∃ text ∈ words, word = text.toList
  | seq first second, before, word, after =>
      ∃ left right, word = left ++ right ∧
        first.Matches before left (right ++ after) ∧
        second.Matches (before ++ left) right after
  | alt first second, before, word, after =>
      first.Matches before word after ∨ second.Matches before word after

/-- The two parts of a list are found by trying every length. -/
theorem exists_append_iff {word : List Char}
    {holds : List Char → List Char → Prop} :
    (∃ left right, word = left ++ right ∧ holds left right) ↔
      ∃ count, count < word.length + 1 ∧
        holds (word.take count) (word.drop count) := by
  constructor
  · rintro ⟨left, right, rfl, hholds⟩
    refine ⟨left.length, ?_, ?_⟩
    · rw [List.length_append]
      omega
    · rwa [List.take_left, List.drop_left]
  · rintro ⟨count, _, hholds⟩
    exact ⟨_, _, (List.take_append_drop count word).symm, hholds⟩

def decideMatches : (regex : Regex) → (before word after : List Char) →
    Decidable (regex.Matches before word after)
  | start, before, word, _ => inferInstanceAs (Decidable (word = [] ∧ before = []))
  | stop, _, word, after => inferInstanceAs (Decidable (word = [] ∧ after = []))
  | one isIn, _, word, _ =>
      match word with
      | [] => isFalse nofun
      | [c] => decidable_of_iff (isIn c = true) (by simp [Matches])
      | _ :: _ :: _ => isFalse nofun
  | atLeast count isIn, _, word, _ =>
      decidable_of_iff (count ≤ word.length ∧ word.all isIn = true)
        (and_congr Iff.rfl List.all_eq_true)
  | anyOf words, _, word, _ =>
      inferInstanceAs (Decidable (∃ text ∈ words, word = text.toList))
  | seq first second, before, word, after =>
      have : ∀ count, Decidable
          (first.Matches before (word.take count) (word.drop count ++ after) ∧
            second.Matches (before ++ word.take count) (word.drop count) after) :=
        fun count =>
          have := first.decideMatches before (word.take count)
            (word.drop count ++ after)
          have := second.decideMatches (before ++ word.take count)
            (word.drop count) after
          inferInstance
      decidable_of_iff _ exists_append_iff.symm
  | alt first second, before, word, after =>
      have := first.decideMatches before word after
      have := second.decideMatches before word after
      inferInstanceAs (Decidable (_ ∨ _))

instance (regex : Regex) (before word after : List Char) :
    Decidable (regex.Matches before word after) :=
  regex.decideMatches before word after

end Regex

/-- An expression with one group in it. -/
structure GroupRegex where
  left : Regex
  group : Regex
  right : Regex

namespace GroupRegex

/-- A place of a text at which the expression matches. -/
structure Match (regex : GroupRegex) (text : List Char) where
  before : List Char
  left : List Char
  word : List Char
  right : List Char
  after : List Char
  text_eq : text = before ++ (left ++ (word ++ (right ++ after)))
  left_matches : regex.left.Matches before left (word ++ (right ++ after))
  group_matches : regex.group.Matches (before ++ left) word (right ++ after)
  right_matches : regex.right.Matches (before ++ left ++ word) right after

variable {regex : GroupRegex} {text : List Char}

/-- The span of the group, in bytes. -/
def Match.span (found : regex.Match text) : ℕ × ℕ :=
  (utf8Len (found.before ++ found.left),
    utf8Len (found.before ++ found.left) + utf8Len found.word)

end GroupRegex

/-- A library of regular expressions: `captures` gives the span of the group in
a match that begins no later than any other. -/
structure RegexEngine where
  /-- `\d` -/
  isDecimal : Char → Bool
  isDecimal_of_ascii : ∀ {c : Char}, c.toNat < 128 → isDecimal c = c.isDigit
  captures : GroupRegex → List Char → Option (ℕ × ℕ)
  exists_match_of_captures : ∀ {regex : GroupRegex} {text : List Char}
    {span : ℕ × ℕ}, captures regex text = some span →
    ∃ found : regex.Match text, span = found.span ∧
      ∀ other : regex.Match text, found.before.length ≤ other.before.length
  captures_ne_none : ∀ {regex : GroupRegex} {text : List Char},
    regex.Match text → captures regex text ≠ none

namespace RegexEngine

section Reference

/-- The places at which a list can be cut, from left to right. -/
def splits (word : List Char) : List (List Char × List Char) :=
  (List.range (word.length + 1)).map fun count =>
    (word.take count, word.drop count)

theorem mem_splits_iff {word left right : List Char} :
    (left, right) ∈ splits word ↔ word = left ++ right := by
  simp only [splits, List.mem_map, List.mem_range, Prod.mk.injEq]
  constructor
  · rintro ⟨count, _, rfl, rfl⟩
    exact (List.take_append_drop count word).symm
  · rintro rfl
    exact ⟨left.length, by rw [List.length_append]; omega, List.take_left,
      List.drop_left⟩

theorem pairwise_splits (word : List Char) :
    (splits word).Pairwise fun first second =>
      first.1.length ≤ second.1.length := by
  refine List.pairwise_map.mpr (List.pairwise_lt_range.imp ?_)
  intro first second hlt
  rw [List.length_take, List.length_take]
  omega

/-- What the expression and its group match from a place on. -/
structure Parts where
  left : List Char
  word : List Char
  right : List Char
  after : List Char

def parts (rest : List Char) : List Parts :=
  (splits rest).flatMap fun first =>
    (splits first.2).flatMap fun second =>
      (splits second.2).map fun third =>
        ⟨first.1, second.1, third.1, third.2⟩

theorem mem_parts_iff {rest : List Char} {found : Parts} :
    found ∈ parts rest ↔
      rest = found.left ++ (found.word ++ (found.right ++ found.after)) := by
  simp only [parts, List.mem_flatMap, List.mem_map, Prod.exists, mem_splits_iff]
  constructor
  · rintro ⟨left, _, rfl, word, _, rfl, right, after, rfl, rfl⟩
    rfl
  · rintro rfl
    exact ⟨_, _, rfl, _, _, rfl, _, _, rfl, rfl⟩

/-- The expression matches these parts of a text. -/
def Parts.Match (regex : GroupRegex) (before : List Char) (found : Parts) : Prop :=
  regex.left.Matches before found.left
      (found.word ++ (found.right ++ found.after)) ∧
    regex.group.Matches (before ++ found.left) found.word
      (found.right ++ found.after) ∧
    regex.right.Matches (before ++ found.left ++ found.word) found.right found.after

instance (regex : GroupRegex) (before : List Char) (found : Parts) :
    Decidable (found.Match regex before) :=
  inferInstanceAs (Decidable (_ ∧ _ ∧ _))

def spanAt (regex : GroupRegex) (place : List Char × List Char) :
    Option (ℕ × ℕ) :=
  ((parts place.2).find? fun found => found.Match regex place.1).map fun found =>
    (utf8Len (place.1 ++ found.left),
      utf8Len (place.1 ++ found.left) + utf8Len found.word)

/-- A match from a place on is found there. -/
theorem spanAt_ne_none {regex : GroupRegex} {text : List Char}
    (found : regex.Match text) {rest : List Char}
    (htext : text = found.before ++ rest) :
    spanAt regex (found.before, rest) ≠ none := by
  have hrest := List.append_cancel_left (htext.symm.trans found.text_eq)
  rw [spanAt, Ne, Option.map_eq_none_iff, List.find?_eq_none]
  intro hnone
  refine hnone ⟨found.left, found.word, found.right, found.after⟩
    (mem_parts_iff.mpr hrest) (decide_eq_true ?_)
  exact ⟨found.left_matches, found.group_matches, found.right_matches⟩

/-- Every place is tried, from left to right. -/
def reference : RegexEngine where
  isDecimal := Char.isDigit
  isDecimal_of_ascii _ := rfl
  captures regex text := (splits text).findSome? (spanAt regex)
  exists_match_of_captures := by
    intro regex text span hspan
    obtain ⟨tried, ⟨before, rest⟩, later, hsplits, hplace, htried⟩ :=
      List.findSome?_eq_some_iff.mp hspan
    have htext : text = before ++ rest := by
      rw [← mem_splits_iff, hsplits]
      exact List.mem_append_right _ List.mem_cons_self
    obtain ⟨found, hfound, rfl⟩ := Option.map_eq_some_iff.mp hplace
    have hmatch : found.Match regex before := by
      simpa using List.find?_some hfound
    have hrest := mem_parts_iff.mp (List.mem_of_find?_eq_some hfound)
    refine ⟨⟨before, found.left, found.word, found.right, found.after,
      htext.trans (congrArg (before ++ ·) hrest), hmatch.1, hmatch.2.1, hmatch.2.2⟩, rfl, ?_⟩
    intro other
    obtain ⟨otherRest, hother⟩ : ∃ otherRest, text = other.before ++ otherRest :=
      ⟨_, other.text_eq⟩
    have hmem := mem_splits_iff.mpr hother
    have hpairs := pairwise_splits text
    rw [hsplits] at hmem hpairs
    rcases List.mem_append.mp hmem with hearlier | hmem
    · exact absurd (htried _ hearlier) (spanAt_ne_none other hother)
    · rcases List.mem_cons.mp hmem with hsame | hlater
      · cases hsame
        exact Nat.le_refl _
      · exact List.rel_of_pairwise_cons (List.pairwise_append.mp hpairs).2.1 hlater
  captures_ne_none := by
    intro regex text found hnone
    rw [List.findSome?_eq_none_iff] at hnone
    exact spanAt_ne_none found found.text_eq
      (hnone _ (mem_splits_iff.mpr found.text_eq))

end Reference

end RegexEngine

end Gnostr
