/-
Searching a text again and again behind the last place found: the pieces it is
cut into are all places there are, in their order.
-/
import Gnostr.Lib.TextPos

namespace Gnostr

open String (utf8Len)

/-- A search for words that do not overlap.  `Occurs before word after` says that
the word counts between these two parts of a text; `find` gives the bytes of the
first one. -/
structure Finder where
  find : List Char → Option (ℕ × ℕ)
  Occurs : List Char → List Char → List Char → Prop
  ne_nil : ∀ {before word after : List Char}, Occurs before word after → word ≠ []
  exists_of_find : ∀ {text : List Char} {span : ℕ × ℕ}, find text = some span →
    ∃ before word after, text = before ++ (word ++ after) ∧
      Occurs before word after ∧
      span = (utf8Len before, utf8Len before + utf8Len word) ∧
      ∀ before' word' after', text = before' ++ (word' ++ after') →
        Occurs before' word' after' → before.length ≤ before'.length
  find_ne_none : ∀ {before word after : List Char}, Occurs before word after →
    find (before ++ (word ++ after)) ≠ none
  eq_or_after : ∀ {before word after before' word' after' : List Char},
    Occurs before word after → Occurs before' word' after' →
    before ++ (word ++ after) = before' ++ (word' ++ after') →
    before.length ≤ before'.length →
    before' = before ∧ word' = word ∧ after' = after ∨
      ∃ gap, before' = before ++ (word ++ gap) ∧ after = gap ++ (word' ++ after')
  occurs_after_iff : ∀ {before word gap word' after' : List Char},
    Occurs before word (gap ++ (word' ++ after')) →
    (Occurs (before ++ (word ++ gap)) word' after' ↔ Occurs gap word' after')

namespace Finder

variable (finder : Finder)

/-- The text before the first word, the word, and the text after it. -/
def cut (text : List Char) : Option (List Char × List Char × List Char) := do
  let span ← finder.find text
  let parts ← splitAtByte text span.1
  let rest ← splitAtByte parts.2 (span.2 - span.1)
  return (parts.1, rest.1, rest.2)

variable {finder}

/-- `find` found a word here. -/
def FoundAt (finder : Finder) (gap word rest : List Char) : Prop :=
  finder.find (gap ++ (word ++ rest)) =
    some (utf8Len gap, utf8Len gap + utf8Len word)

theorem cut_eq_none_iff {text : List Char} :
    finder.cut text = none ↔ finder.find text = none := by
  constructor
  · intro hcut
    by_contra hfind
    obtain ⟨span, hspan⟩ := Option.ne_none_iff_exists'.mp hfind
    obtain ⟨gap, word, rest, rfl, _, rfl, _⟩ := finder.exists_of_find hspan
    simp [cut, hspan, splitAtByte_append] at hcut
  · intro hfind
    rw [cut, hfind]
    rfl

theorem cut_eq_some_iff {text gap word rest : List Char} :
    finder.cut text = some (gap, word, rest) ↔
      text = gap ++ (word ++ rest) ∧ finder.FoundAt gap word rest := by
  constructor
  · intro hcut
    obtain ⟨span, hspan, hparts⟩ := Option.bind_eq_some_iff.mp hcut
    obtain ⟨gap', word', rest', rfl, _, rfl, _⟩ := finder.exists_of_find hspan
    simp only [splitAtByte_append, Nat.add_sub_cancel_left,
      Option.bind_eq_bind, Option.bind_some] at hparts
    cases hparts
    exact ⟨rfl, hspan⟩
  · rintro ⟨rfl, hfound⟩
    simp [cut, show finder.find (gap ++ (word ++ rest)) = _ from hfound,
      splitAtByte_append]

/-- The word that was found occurs, and every other one occurs behind it. -/
theorem FoundAt.occurs {gap word rest : List Char}
    (hfound : finder.FoundAt gap word rest) : finder.Occurs gap word rest := by
  obtain ⟨before, word', after, htext, hoccurs, hspan, _⟩ :=
    finder.exists_of_find hfound
  rw [Prod.mk.injEq] at hspan
  obtain ⟨rfl, hrest⟩ := append_inj_of_utf8Len htext hspan.1
  obtain ⟨rfl, rfl⟩ := append_inj_of_utf8Len hrest
    (Nat.add_left_cancel hspan.2)
  exact hoccurs

theorem FoundAt.eq_or_after {gap word rest before word' after : List Char}
    (hfound : finder.FoundAt gap word rest)
    (hoccurs : finder.Occurs before word' after)
    (htext : gap ++ (word ++ rest) = before ++ (word' ++ after)) :
    before = gap ∧ word' = word ∧ after = rest ∨
      ∃ gap', before = gap ++ (word ++ gap') ∧
        rest = gap' ++ (word' ++ after) ∧ finder.Occurs gap' word' after := by
  obtain ⟨gap₀, word₀, rest₀, htext₀, _, hspan, hleft⟩ :=
    finder.exists_of_find hfound
  rw [Prod.mk.injEq] at hspan
  obtain ⟨rfl, _⟩ := append_inj_of_utf8Len htext₀ hspan.1
  rcases finder.eq_or_after hfound.occurs hoccurs htext
    (hleft before word' after htext hoccurs) with hsame | ⟨gap', rfl, rfl⟩
  · exact Or.inl hsame
  · exact Or.inr ⟨gap', rfl, rfl,
      (finder.occurs_after_iff hfound.occurs).mp hoccurs⟩

/-- What is found is the first word that occurs. -/
theorem foundAt_iff {gap word rest : List Char} :
    finder.FoundAt gap word rest ↔
      finder.Occurs gap word rest ∧
        ∀ before word' after, gap ++ (word ++ rest) = before ++ (word' ++ after) →
          finder.Occurs before word' after → gap.length ≤ before.length := by
  constructor
  · intro hfound
    refine ⟨hfound.occurs, fun before word' after htext hoccurs => ?_⟩
    rcases hfound.eq_or_after hoccurs htext with ⟨rfl, -, -⟩ | ⟨gap', rfl, -, -⟩
    · exact Nat.le_refl _
    · rw [List.length_append]
      exact Nat.le_add_right _ _
  · rintro ⟨hoccurs, hfirst⟩
    obtain ⟨span, hspan⟩ :=
      Option.ne_none_iff_exists'.mp (finder.find_ne_none hoccurs)
    obtain ⟨before, word', after, htext, hoccurs', rfl, hleft⟩ :=
      finder.exists_of_find hspan
    have hle := hleft gap word rest rfl hoccurs
    have hge := hfirst before word' after htext hoccurs'
    rcases finder.eq_or_after hoccurs' hoccurs htext.symm hle with
      ⟨rfl, rfl, -⟩ | ⟨gap', rfl, -⟩
    · exact hspan
    · have hpos := List.length_pos_iff.mpr (finder.ne_nil hoccurs')
      rw [List.length_append, List.length_append] at hge
      omega

theorem stop_pos (finder : Finder) {text : List Char} {span : ℕ × ℕ}
    (hfind : finder.find text = some span) : 0 < span.2 := by
  obtain ⟨gap, word, rest, rfl, hoccurs, rfl, _⟩ := finder.exists_of_find hfind
  exact Nat.add_pos_right _ (Nat.pos_of_ne_zero
    (mt String.utf8Len_eq_zero.mp (finder.ne_nil hoccurs)))

/-- The cursor of a search that goes on moves within the text. -/
theorem cursor_lt (finder : Finder) {text rest : List Char} {cursor : ℕ} {span : ℕ × ℕ}
    (hrest : getFrom text cursor = some rest)
    (hfind : finder.find rest = some span) :
    cursor < cursor + span.2 ∧ cursor + span.2 ≤ utf8Len text := by
  have hpos := finder.stop_pos hfind
  obtain ⟨before, rfl, rfl⟩ := getFrom_eq_some_iff.mp hrest
  obtain ⟨gap, word, rest, rfl, _, rfl, _⟩ := finder.exists_of_find hfind
  simp only [String.utf8Len_append]
  omega

theorem FoundAt.length_lt {gap word rest : List Char}
    (hfound : finder.FoundAt gap word rest) :
    rest.length < (gap ++ (word ++ rest)).length := by
  have hword := List.length_pos_iff.mpr (finder.ne_nil hfound.occurs)
  rw [List.length_append, List.length_append]
  omega

/-- Induction along a search: nothing is found any more, or a word is found and
the search goes on behind it. -/
@[elab_as_elim]
theorem search_induction {motive : List Char → Prop}
    (none : ∀ text, finder.find text = none → motive text)
    (found : ∀ gap word rest, finder.FoundAt gap word rest → motive rest →
      motive (gap ++ (word ++ rest)))
    (text : List Char) : motive text := by
  induction hlength : text.length using Nat.strong_induction_on
    generalizing text with
  | _ length ih =>
      cases hcut : finder.cut text with
      | none => exact none text (cut_eq_none_iff.mp hcut)
      | some parts =>
          obtain ⟨rfl, hfound⟩ := cut_eq_some_iff.mp hcut
          exact found _ _ _ hfound
            (ih _ (hlength ▸ hfound.length_lt) _ rfl)

/-- The words that are found, each with the text before it, and the text after
all of them. -/
def pieces (finder : Finder) (text : List Char) :
    List (List Char × List Char) × List Char :=
  match _hcut : finder.cut text with
  | none => ([], text)
  | some (gap, word, rest) =>
      ((gap, word) :: (pieces finder rest).1, (pieces finder rest).2)
termination_by text.length
decreasing_by
  all_goals
    obtain ⟨rfl, hfound⟩ := cut_eq_some_iff.mp _hcut
    exact hfound.length_lt

theorem pieces_of_none {text : List Char} (hfind : finder.find text = none) :
    finder.pieces text = ([], text) := by
  rw [pieces]
  split
  · rfl
  · rename_i hcut
    rw [cut_eq_none_iff.mpr hfind] at hcut
    cases hcut

theorem pieces_of_foundAt {gap word rest : List Char}
    (hfound : finder.FoundAt gap word rest) :
    finder.pieces (gap ++ (word ++ rest)) =
      ((gap, word) :: (finder.pieces rest).1, (finder.pieces rest).2) := by
  have hcut := cut_eq_some_iff.mpr ⟨rfl, hfound⟩
  rw [pieces]
  split
  · rename_i hnone
    rw [hcut] at hnone
    cases hnone
  · rename_i hsome
    rw [hcut] at hsome
    cases hsome
    rfl

/-- The words found one after the other. -/
def words (finder : Finder) (text : List Char) : List (List Char) :=
  (finder.pieces text).1.map Prod.snd

theorem words_of_none {text : List Char} (hfind : finder.find text = none) :
    finder.words text = [] := by
  rw [words, pieces_of_none hfind]
  rfl

theorem words_of_foundAt {gap word rest : List Char}
    (hfound : finder.FoundAt gap word rest) :
    finder.words (gap ++ (word ++ rest)) = word :: finder.words rest := by
  rw [words, pieces_of_foundAt hfound]
  rfl

/-- A part of the text that no word begins in can be left out. -/
theorem words_append {front rest : List Char}
    (hafter : ∀ before word after, front ++ rest = before ++ (word ++ after) →
      finder.Occurs before word after → ∃ gap, before = front ++ gap ∧
        rest = gap ++ (word ++ after) ∧ finder.Occurs gap word after)
    (hback : ∀ gap word after, rest = gap ++ (word ++ after) →
      finder.Occurs gap word after → finder.Occurs (front ++ gap) word after) :
    finder.words (front ++ rest) = finder.words rest := by
  cases hcut : finder.cut rest with
  | none =>
      have hnone := cut_eq_none_iff.mp hcut
      have hwhole : finder.find (front ++ rest) = none := by
        by_contra hfind
        obtain ⟨span, hspan⟩ := Option.ne_none_iff_exists'.mp hfind
        obtain ⟨before, word, after, htext, hoccurs, -⟩ := finder.exists_of_find hspan
        obtain ⟨gap, -, rfl, hgap⟩ := hafter before word after htext hoccurs
        exact finder.find_ne_none hgap hnone
      rw [words_of_none hwhole, words_of_none hnone]
  | some parts =>
      obtain ⟨gap, word, rest⟩ := parts
      obtain ⟨rfl, hfound⟩ := cut_eq_some_iff.mp hcut
      have hwhole : finder.FoundAt (front ++ gap) word rest := by
        refine foundAt_iff.mpr ⟨hback gap word rest rfl hfound.occurs, ?_⟩
        intro before word' after htext hoccurs
        rw [List.append_assoc] at htext
        obtain ⟨gap', rfl, hrest, hgap'⟩ := hafter before word' after htext hoccurs
        rw [List.length_append, List.length_append]
        exact Nat.add_le_add_left
          ((foundAt_iff.mp hfound).2 gap' word' after hrest hgap') _
      rw [← List.append_assoc, words_of_foundAt hwhole, words_of_foundAt hfound]

/-- They are the words that occur. -/
theorem mem_words_iff {text word : List Char} :
    word ∈ finder.words text ↔ ∃ before after,
      text = before ++ (word ++ after) ∧ finder.Occurs before word after := by
  induction text using search_induction with
  | none text hnone =>
      rw [words_of_none hnone]
      refine iff_of_false List.not_mem_nil ?_
      rintro ⟨before, after, rfl, hoccurs⟩
      exact finder.find_ne_none hoccurs hnone
  | found gap word' rest hfound ih =>
      rw [words_of_foundAt hfound, List.mem_cons, ih]
      constructor
      · rintro (rfl | ⟨before, after, rfl, hoccurs⟩)
        · exact ⟨gap, rest, rfl, hfound.occurs⟩
        · refine ⟨gap ++ (word' ++ before), after, ?_,
            (finder.occurs_after_iff hfound.occurs).mpr hoccurs⟩
          rw [List.append_assoc, List.append_assoc]
      · rintro ⟨before, after, htext, hoccurs⟩
        rcases hfound.eq_or_after hoccurs htext with
          ⟨_, rfl, _⟩ | ⟨gap', _, rfl, hafter⟩
        · exact Or.inl rfl
        · exact Or.inr ⟨gap', after, rfl, hafter⟩

/-- All words but the first are those that have one before them. -/
theorem mem_tail_words_iff {text word : List Char} :
    word ∈ (finder.words text).tail ↔ ∃ before after,
      text = before ++ (word ++ after) ∧ finder.Occurs before word after ∧
        ∃ before' word' after', text = before' ++ (word' ++ after') ∧
          finder.Occurs before' word' after' ∧ before'.length < before.length := by
  cases hcut : finder.cut text with
  | none =>
      have hnone := cut_eq_none_iff.mp hcut
      rw [words_of_none hnone]
      refine iff_of_false List.not_mem_nil ?_
      rintro ⟨before, after, rfl, hoccurs, _⟩
      exact finder.find_ne_none hoccurs hnone
  | some parts =>
      obtain ⟨gap, first, rest⟩ := parts
      obtain ⟨rfl, hfound⟩ := cut_eq_some_iff.mp hcut
      rw [words_of_foundAt hfound, List.tail_cons, mem_words_iff]
      constructor
      · rintro ⟨before, after, rfl, hoccurs⟩
        have hpos := List.length_pos_iff.mpr (finder.ne_nil hfound.occurs)
        refine ⟨gap ++ (first ++ before), after, ?_,
          (finder.occurs_after_iff hfound.occurs).mpr hoccurs, gap, first,
          before ++ (word ++ after), rfl, hfound.occurs, ?_⟩
        · rw [List.append_assoc, List.append_assoc]
        · rw [List.length_append, List.length_append]
          omega
      · rintro ⟨before, after, htext, hoccurs, before', word', after', htext',
          hoccurs', hlt⟩
        rcases hfound.eq_or_after hoccurs htext with
          ⟨rfl, _, _⟩ | ⟨gap', _, rfl, hafter⟩
        · -- nothing comes before the first word
          have hle : before.length ≤ before'.length := by
            rcases hfound.eq_or_after hoccurs' htext' with
              ⟨rfl, _, _⟩ | ⟨gap', rfl, _, _⟩
            · exact Nat.le_refl _
            · rw [List.length_append]
              exact Nat.le_add_right _ _
          exact absurd hlt (Nat.not_lt.mpr hle)
        · exact ⟨gap', after, rfl, hafter⟩

end Finder

end Gnostr
