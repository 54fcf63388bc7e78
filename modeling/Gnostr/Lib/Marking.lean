/-
Putting a mark before every word of a text that has none there.  The words stay the
same ones, a second pass puts in nothing, and the search for a mark with a word
behind it finds them again unless the mark is the end of a longer run.
-/
import Gnostr.Lib.Delimited

namespace Gnostr

/-- The words that are found are the bodies that stand alone. -/
structure Finder.FindsAlone (finder : Finder) (isWord : Char → Bool)
    (IsBody : List Char → Prop) : Prop where
  occurs_iff : ∀ {before word after : List Char}, finder.Occurs before word after ↔
    StandsAlone isWord before after ∧ IsBody word
  all : ∀ {body : List Char}, IsBody body → ∀ c ∈ body, isWord c = true

/-- A mark is a run and a separator; no body ends with the run. -/
structure IsMark (isWord : Char → Bool) (IsBody : List Char → Prop) (run : List Char)
    (separator : Char) : Prop where
  ne_nil : run ≠ []
  all : ∀ c ∈ run, isWord c = true
  separator : isWord separator = false
  not_suffix : ∀ {body : List Char}, IsBody body → ¬ run <:+ body

/-- The text before a word, with a mark at its end. -/
def addMark (mark gap : List Char) : List Char :=
  if mark <:+ gap then gap else gap ++ mark

theorem suffix_addMark (mark gap : List Char) : mark <:+ addMark mark gap := by
  unfold addMark
  split
  · assumption
  · exact List.suffix_append gap mark

theorem addMark_addMark (mark gap : List Char) :
    addMark mark (addMark mark gap) = addMark mark gap :=
  if_pos (suffix_addMark mark gap)

/-- A part of a marked text. -/
inductive Part where
  | kept (chars : List Char)
  | mark
deriving Repr, DecidableEq

namespace Part

/-- What is written for a part. -/
def written (mark : List Char) : Part → List Char
  | kept chars => chars
  | .mark => mark

/-- What is left of a part when the marks are deleted. -/
def unmarked : Part → List Char
  | kept chars => chars
  | mark => []

end Part

namespace Finder

variable {finder : Finder}

/-- What a piece becomes. -/
def markPiece (mark : List Char) (piece : List Char × List Char) : List Part :=
  if mark <:+ piece.1 then [.kept (piece.1 ++ piece.2)]
  else [.kept piece.1, .mark, .kept piece.2]

/-- The parts of the marked text. -/
def markParts (finder : Finder) (mark text : List Char) : List Part :=
  (finder.pieces text).1.flatMap (markPiece mark) ++ [.kept (finder.pieces text).2]

/-- The text with a mark before every word. -/
def marked (finder : Finder) (mark text : List Char) : List Char :=
  (finder.markParts mark text).flatMap (Part.written mark)

theorem written_markPiece (mark : List Char) (piece : List Char × List Char) :
    (markPiece mark piece).flatMap (Part.written mark) =
      addMark mark piece.1 ++ piece.2 := by
  unfold markPiece addMark
  split
  · exact List.append_nil _
  · simp [Part.written]

theorem unmarked_markPiece (mark : List Char) (piece : List Char × List Char) :
    (markPiece mark piece).flatMap Part.unmarked = piece.1 ++ piece.2 := by
  unfold markPiece
  split
  · exact List.append_nil _
  · simp [Part.unmarked]

theorem markParts_of_none {mark text : List Char} (hnone : finder.find text = none) :
    finder.markParts mark text = [.kept text] := by
  rw [markParts, pieces_of_none hnone]
  rfl

theorem markParts_of_foundAt (mark : List Char) {gap word rest : List Char}
    (hfound : finder.FoundAt gap word rest) :
    finder.markParts mark (gap ++ (word ++ rest)) =
      markPiece mark (gap, word) ++ finder.markParts mark rest := by
  rw [markParts, pieces_of_foundAt hfound, List.flatMap_cons, List.append_assoc]
  rfl

theorem marked_of_none {mark text : List Char} (hnone : finder.find text = none) :
    finder.marked mark text = text := by
  rw [marked, markParts_of_none hnone]
  exact List.append_nil text

theorem marked_of_foundAt (mark : List Char) {gap word rest : List Char}
    (hfound : finder.FoundAt gap word rest) :
    finder.marked mark (gap ++ (word ++ rest)) =
      addMark mark gap ++ (word ++ finder.marked mark rest) := by
  rw [marked, markParts_of_foundAt mark hfound, List.flatMap_append, written_markPiece,
    List.append_assoc]
  rfl

/-- Without the marks it is the text. -/
theorem unmarked_markParts (finder : Finder) (mark text : List Char) :
    (finder.markParts mark text).flatMap Part.unmarked = text := by
  induction text using search_induction with
  | none text hnone =>
      rw [markParts_of_none hnone]
      exact List.append_nil text
  | found gap word rest hfound ih =>
      rw [markParts_of_foundAt mark hfound, List.flatMap_append, unmarked_markPiece, ih,
        List.append_assoc]

/-- A mark that was put in stands before a word. -/
theorem exists_word_of_mark (finder : Finder) (mark text : List Char)
    {before after : List Part}
    (hparts : finder.markParts mark text = before ++ .mark :: after) :
    ∃ word rest, after = .kept word :: rest ∧ word ∈ finder.words text := by
  induction text using search_induction generalizing before with
  | none text hnone =>
      rw [markParts_of_none hnone] at hparts
      have hmem : Part.mark ∈ [Part.kept text] := by
        rw [hparts]
        exact List.mem_append_right before List.mem_cons_self
      cases List.mem_singleton.mp hmem
  | found gap word rest hfound ih =>
      rw [markParts_of_foundAt mark hfound] at hparts
      rw [words_of_foundAt hfound]
      have hlater {later : List Part}
          (hrest : finder.markParts mark rest = later ++ .mark :: after) :
          ∃ found others, after = .kept found :: others ∧
            found ∈ word :: finder.words rest := by
        obtain ⟨found, others, hafter, hfound⟩ := ih hrest
        exact ⟨found, others, hafter, List.mem_cons_of_mem word hfound⟩
      unfold markPiece at hparts
      split at hparts
      · cases before with
        | nil => cases hparts
        | cons _ before => exact hlater (List.cons.inj hparts).2
      · rcases before with _ | ⟨_, _ | ⟨_, _ | ⟨_, before⟩⟩⟩
        · cases hparts
        · cases hparts
          exact ⟨word, _, rfl, List.mem_cons_self⟩
        · cases hparts
        · exact hlater (List.cons.inj (List.cons.inj (List.cons.inj hparts).2).2).2

section FindsAlone

variable {isWord : Char → Bool} {IsBody : List Char → Prop}

/-- Whether a word stands alone depends on the characters next to it only. -/
theorem FindsAlone.occurs_congr (halone : finder.FindsAlone isWord IsBody)
    {before before' word after after' : List Char}
    (hleft : before.getLast? = before'.getLast?) (hright : after.head? = after'.head?) :
    finder.Occurs before word after ↔ finder.Occurs before' word after' := by
  rw [halone.occurs_iff, halone.occurs_iff, standsAlone_iff, standsAlone_iff, hleft,
    hright]

theorem FindsAlone.isRun (halone : finder.FindsAlone isWord IsBody)
    {before word after : List Char} (hoccurs : finder.Occurs before word after) :
    IsRun isWord before word after :=
  ⟨(halone.occurs_iff.mp hoccurs).1, finder.ne_nil hoccurs,
    halone.all (halone.occurs_iff.mp hoccurs).2⟩

/-- The first word is the same one whatever comes behind the next character. -/
theorem FoundAt.congr_rest (halone : finder.FindsAlone isWord IsBody)
    {gap word rest rest' : List Char} (hfound : finder.FoundAt gap word rest)
    (hhead : rest.head? = rest'.head?) : finder.FoundAt gap word rest' := by
  have hoccurs : finder.Occurs gap word rest' :=
    (halone.occurs_congr rfl hhead).mp hfound.occurs
  refine foundAt_iff.mpr ⟨hoccurs, fun before word' after htext hoccurs' => ?_⟩
  by_contra hlt
  rcases finder.eq_or_after hoccurs' hoccurs htext.symm (Nat.le_of_not_le hlt) with
    ⟨rfl, -, -⟩ | ⟨between, rfl, rfl⟩
  · exact hlt (Nat.le_refl _)
  · have hsame : (between ++ (word ++ rest')).head? =
        (between ++ (word ++ rest)).head? := by
      obtain ⟨c, word, rfl⟩ := List.exists_cons_of_ne_nil (finder.ne_nil hoccurs)
      cases between <;> rfl
    have hearlier := (foundAt_iff.mp hfound).2 before word'
      (between ++ (word ++ rest)) (by simp only [List.append_assoc])
      ((halone.occurs_congr rfl hsame).mp hoccurs')
    exact hlt hearlier

/-- The mark of a word is a run of its own. -/
theorem FindsAlone.isRun_mark (halone : finder.FindsAlone isWord IsBody)
    {run : List Char} {separator : Char} (hmark : IsMark isWord IsBody run separator)
    {gap word rest : List Char} (hoccurs : finder.Occurs gap word rest)
    (behind : List Char) : IsRun isWord gap run (separator :: behind) where
  left := (halone.occurs_iff.mp hoccurs).1.left
  right := by
    rintro c ⟨⟩
    exact hmark.separator
  ne_nil := hmark.ne_nil
  all := hmark.all

/-- The first word stays the first one behind a mark. -/
theorem FoundAt.mark (halone : finder.FindsAlone isWord IsBody) {run : List Char}
    {separator : Char} (hmark : IsMark isWord IsBody run separator)
    {gap word rest : List Char} (hfound : finder.FoundAt gap word rest) :
    finder.FoundAt (gap ++ (run ++ [separator])) word rest := by
  have hword := halone.occurs_iff.mp hfound.occurs
  have hoccurs : finder.Occurs (gap ++ (run ++ [separator])) word rest := by
    refine halone.occurs_iff.mpr ⟨⟨?_, hword.1.right⟩, hword.2⟩
    rw [← List.append_assoc, List.getLast?_concat]
    rintro c ⟨⟩
    exact hmark.separator
  refine foundAt_iff.mpr ⟨hoccurs, fun before word' after htext hoccurs' => ?_⟩
  have hother := halone.isRun hoccurs'
  have hrun := halone.isRun_mark hmark hfound.occurs (word ++ rest)
  have htext' : gap ++ (run ++ separator :: (word ++ rest)) =
      before ++ (word' ++ after) := by
    rw [← htext]
    simp
  rcases Nat.le_total before.length gap.length with hle | hge
  · rcases hother.eq_or_length_lt hrun htext'.symm hle with ⟨-, rfl, -⟩ | hends
    · exact absurd List.suffix_rfl
        (hmark.not_suffix (halone.occurs_iff.mp hoccurs').2)
    · -- the other word would have been found before this one
      obtain ⟨between, rfl⟩ : before ++ word' <+: gap := by
        refine List.prefix_of_prefix_length_le
          ⟨after, (List.append_assoc _ _ _).trans htext'.symm⟩ ⟨_, rfl⟩ ?_
        rw [List.length_append]
        exact hends.le
      have hbetween : between ≠ [] := by
        rintro rfl
        simp at hends
      obtain ⟨c, between, rfl⟩ := List.exists_cons_of_ne_nil hbetween
      have hafter : after.head? = some c := by
        simp only [List.append_assoc] at htext'
        rw [← List.append_cancel_left (List.append_cancel_left htext')]
        rfl
      have hearlier := (foundAt_iff.mp hfound).2 before word'
        (c :: between ++ (word ++ rest)) (by simp)
        ((halone.occurs_congr rfl hafter).mp hoccurs')
      omega
  · rcases hrun.eq_or_length_lt hother htext' hge with ⟨-, rfl, -⟩ | hends
    · exact absurd List.suffix_rfl
        (hmark.not_suffix (halone.occurs_iff.mp hoccurs').2)
    · rw [List.length_append, List.length_append, List.length_singleton]
      omega

section Marked

variable {run : List Char} {separator : Char}

/-- Behind a word the text goes on as before. -/
theorem FindsAlone.head?_marked (halone : finder.FindsAlone isWord IsBody)
    {mark rest : List Char} (hrest : ∀ c ∈ rest.head?, isWord c = false) :
    (finder.marked mark rest).head? = rest.head? := by
  cases hcut : finder.cut rest with
  | none => rw [marked_of_none (cut_eq_none_iff.mp hcut)]
  | some parts =>
      obtain ⟨gap, word, rest⟩ := parts
      obtain ⟨rfl, hfound⟩ := cut_eq_some_iff.mp hcut
      rw [marked_of_foundAt mark hfound]
      cases gap with
      | nil =>
          obtain ⟨c, word, rfl⟩ := List.exists_cons_of_ne_nil (finder.ne_nil hfound.occurs)
          have hc := (halone.isRun hfound.occurs).all c List.mem_cons_self
          rw [hrest c rfl] at hc
          cases hc
      | cons c gap =>
          unfold addMark
          split <;> rfl

theorem FoundAt.marked (halone : finder.FindsAlone isWord IsBody)
    (hmark : IsMark isWord IsBody run separator) {gap word rest : List Char}
    (hfound : finder.FoundAt gap word rest) :
    finder.FoundAt (addMark (run ++ [separator]) gap) word
      (finder.marked (run ++ [separator]) rest) := by
  have hright := (halone.occurs_iff.mp hfound.occurs).1.right
  have hhead : (finder.marked (run ++ [separator]) rest).head? = rest.head? :=
    halone.head?_marked hright
  have hrest := hfound.congr_rest halone hhead.symm
  unfold addMark
  split
  · exact hrest
  · exact hrest.mark halone hmark

/-- A marked text has all its marks. -/
theorem marked_marked (halone : finder.FindsAlone isWord IsBody)
    (hmark : IsMark isWord IsBody run separator) (text : List Char) :
    finder.marked (run ++ [separator]) (finder.marked (run ++ [separator]) text) =
      finder.marked (run ++ [separator]) text := by
  induction text using search_induction with
  | none text hnone => rw [marked_of_none hnone, marked_of_none hnone]
  | found gap word rest hfound ih =>
      rw [marked_of_foundAt _ hfound, marked_of_foundAt _ (hfound.marked halone hmark),
        addMark_addMark, ih]

end Marked

section Marks

variable {run : List Char} {separator : Char}

/-- The words of a finder are marks with a body behind them. -/
def FindsMarks (marks : Finder) (isWord : Char → Bool) (IsBody : List Char → Prop)
    (mark : List Char) : Prop :=
  ∀ {before word after : List Char}, marks.Occurs before word after ↔
    StandsAlone isWord before after ∧ ∃ body, word = mark ++ body ∧ IsBody body

/-- A mark at the end of the text is not the end of a longer run. -/
def MarkStands (isWord : Char → Bool) (mark gap : List Char) : Prop :=
  ∀ start, gap = start ++ mark → ∀ c ∈ start.getLast?, isWord c = false

/-- The mark of a later word is behind the word before it. -/
theorem FoundAt.mark_behind (halone : finder.FindsAlone isWord IsBody)
    (hmark : IsMark isWord IsBody run separator)
    {gap word rest before gap' word' after : List Char}
    (hfound : finder.FoundAt gap word rest)
    (hbefore : before ++ (run ++ [separator]) = gap ++ (word ++ gap'))
    (hrest : rest = gap' ++ (word' ++ after))
    (hoccurs : finder.Occurs gap' word' after) :
    ∃ start, gap' = start ++ (run ++ [separator]) ∧
      before = gap ++ (word ++ start) ∧ start ≠ [] := by
  have hword := halone.occurs_iff.mp hfound.occurs
  obtain ⟨c, gap', rfl⟩ : ∃ c rest, gap' = c :: rest := by
    cases gap' with
    | nil =>
        obtain ⟨c, word', rfl⟩ := List.exists_cons_of_ne_nil (finder.ne_nil hoccurs)
        have hc := (halone.isRun hoccurs).all c List.mem_cons_self
        rw [hword.1.right c (by rw [hrest]; rfl)] at hc
        cases hc
    | cons c rest => exact ⟨c, rest, rfl⟩
  have hc : isWord c = false := hword.1.right c (by rw [hrest]; rfl)
  have hnot {list tail : List Char} (hlist : run = list ++ c :: tail) : False := by
    have hmem := hmark.all c (by
      rw [hlist]
      exact List.mem_append_right list List.mem_cons_self)
    rw [hc] at hmem
    cases hmem
  rw [← List.append_assoc gap] at hbefore
  rcases List.append_eq_append_iff.mp hbefore with
    ⟨between, hfront, hgap⟩ | ⟨start, hfront, hgap⟩
  · -- the run would be at the end of the word before it
    rcases List.eq_nil_or_concat gap' with rfl | ⟨gap', d, rfl⟩
    · obtain ⟨rfl, -⟩ := List.append_inj' hgap rfl
      rcases List.append_eq_append_iff.mp hfront with
        ⟨start, -, hword'⟩ | ⟨start, hgap', hrun⟩
      · exact absurd ⟨start, hword'.symm⟩ (hmark.not_suffix hword.2)
      · rcases List.eq_nil_or_concat start with rfl | ⟨start, d, rfl⟩
        · exact absurd ⟨[], hrun⟩ (hmark.not_suffix hword.2)
        · have hd := hmark.all d (by rw [hrun]; simp)
          have hlast := hword.1.left d (by
            rw [hgap', List.concat_eq_append, ← List.append_assoc, List.getLast?_concat]
            rfl)
          rw [hlast] at hd
          cases hd
    · rw [List.concat_eq_append, ← List.cons_append, ← List.append_assoc] at hgap
      exact (hnot (List.append_inj' hgap rfl).1).elim
  · refine ⟨start, hgap, by rw [hfront, List.append_assoc], ?_⟩
    rintro rfl
    obtain ⟨d, run', hrun⟩ := List.exists_cons_of_ne_nil hmark.ne_nil
    have hd := hmark.all d (by rw [hrun]; exact List.mem_cons_self)
    rw [hrun] at hgap
    rw [← (List.cons.inj hgap).1, hc] at hd
    cases hd

variable {marks : Finder}

theorem FindsMarks.exists_body (halone : finder.FindsAlone isWord IsBody)
    (hmark : IsMark isWord IsBody run separator)
    (hmarks : marks.FindsMarks isWord IsBody (run ++ [separator]))
    {before word after : List Char} (hoccurs : marks.Occurs before word after) :
    ∃ body, word = run ++ [separator] ++ body ∧
      finder.Occurs (before ++ (run ++ [separator])) body after := by
  obtain ⟨hstands, body, rfl, hbody⟩ := hmarks.mp hoccurs
  refine ⟨body, rfl, halone.occurs_iff.mpr ⟨⟨?_, hstands.right⟩, hbody⟩⟩
  rw [← List.append_assoc, List.getLast?_concat]
  rintro c ⟨⟩
  exact hmark.separator

theorem FindsMarks.occurs (halone : finder.FindsAlone isWord IsBody) {mark : List Char}
    (hmarks : marks.FindsMarks isWord IsBody mark) {start before body after : List Char}
    (hstart : ∀ c ∈ start.getLast?, isWord c = false)
    (hoccurs : finder.Occurs before body after) :
    marks.Occurs start (mark ++ body) after :=
  hmarks.mpr ⟨⟨hstart, (halone.occurs_iff.mp hoccurs).1.right⟩, body, rfl,
    (halone.occurs_iff.mp hoccurs).2⟩

/-- Where there are no words there are none behind a mark. -/
theorem FindsMarks.words_of_none (halone : finder.FindsAlone isWord IsBody)
    (hmark : IsMark isWord IsBody run separator)
    (hmarks : marks.FindsMarks isWord IsBody (run ++ [separator])) {text : List Char}
    (hnone : finder.find text = none) : marks.words text = [] := by
  rw [List.eq_nil_iff_forall_not_mem]
  intro word hword
  obtain ⟨before, after, rfl, hoccurs⟩ := mem_words_iff.mp hword
  obtain ⟨body, rfl, hbody⟩ := hmarks.exists_body halone hmark hoccurs
  have hfind := finder.find_ne_none hbody
  rw [List.append_assoc, ← List.append_assoc _ body] at hfind
  exact hfind hnone

/-- A word behind a mark that stands is found with its mark. -/
theorem FindsMarks.words_of_stands (halone : finder.FindsAlone isWord IsBody)
    (hmark : IsMark isWord IsBody run separator)
    (hmarks : marks.FindsMarks isWord IsBody (run ++ [separator]))
    {start word rest : List Char}
    (hfound : finder.FoundAt (start ++ (run ++ [separator])) word rest)
    (hstart : ∀ c ∈ start.getLast?, isWord c = false) :
    marks.words (start ++ (run ++ [separator]) ++ (word ++ rest)) =
      (run ++ [separator] ++ word) :: marks.words rest := by
  have hmarkFound : marks.FoundAt start (run ++ [separator] ++ word) rest := by
    refine foundAt_iff.mpr ⟨hmarks.occurs halone hstart hfound.occurs, ?_⟩
    intro before word' after htext hoccurs
    obtain ⟨body, rfl, hbody⟩ := hmarks.exists_body halone hmark hoccurs
    have hle := (foundAt_iff.mp hfound).2 _ body after (by simpa using htext) hbody
    simpa using hle
  rw [← words_of_foundAt hmarkFound]
  simp

/-- A word behind a mark that does not stand is passed over. -/
theorem FindsMarks.words_of_not_stands (halone : finder.FindsAlone isWord IsBody)
    (hmark : IsMark isWord IsBody run separator)
    (hmarks : marks.FindsMarks isWord IsBody (run ++ [separator]))
    {start word rest : List Char}
    (hfound : finder.FoundAt (start ++ (run ++ [separator])) word rest)
    (hstart : ¬ ∀ c ∈ start.getLast?, isWord c = false) :
    marks.words (start ++ (run ++ [separator]) ++ (word ++ rest)) = marks.words rest := by
  rw [← List.append_assoc]
  apply words_append
  · intro before word' after htext hoccurs
    obtain ⟨body, rfl, hbody⟩ := hmarks.exists_body halone hmark hoccurs
    have hstands := (hmarks.mp hoccurs).1.left
    rcases hfound.eq_or_after hbody (by simpa using htext) with
      ⟨hsame, -, -⟩ | ⟨gap', hbefore, hrest, hgap'⟩
    · rw [(List.append_inj' hsame rfl).1] at hstands
      exact absurd hstands hstart
    · obtain ⟨start', rfl, rfl, hne⟩ :=
        hfound.mark_behind halone hmark hbefore hrest hgap'
      rw [← List.append_assoc, List.getLast?_append_of_ne_nil _ hne] at hstands
      refine ⟨start', by simp, by simpa using hrest, ?_⟩
      exact hmarks.occurs halone hstands hbody
  · intro gap word' after hrest hoccurs
    obtain ⟨body, rfl, hbody⟩ := hmarks.exists_body halone hmark hoccurs
    have hright := (halone.occurs_iff.mp hfound.occurs).1.right
    have hne : gap ≠ [] := by
      rintro rfl
      obtain ⟨c, run', rfl⟩ := List.exists_cons_of_ne_nil hmark.ne_nil
      have hc := hmark.all c List.mem_cons_self
      rw [hright c (by rw [hrest]; rfl)] at hc
      cases hc
    refine hmarks.occurs halone ?_ hbody
    rw [List.getLast?_append_of_ne_nil _ hne]
    exact (hmarks.mp hoccurs).1.left

/-- No more words are found behind marks than there are. -/
theorem FindsMarks.length_words_le (halone : finder.FindsAlone isWord IsBody)
    (hmark : IsMark isWord IsBody run separator)
    (hmarks : marks.FindsMarks isWord IsBody (run ++ [separator])) (text : List Char) :
    (marks.words (finder.marked (run ++ [separator]) text)).length ≤
      (finder.words text).length := by
  induction text using @search_induction finder with
  | none text hnone =>
      rw [marked_of_none hnone, hmarks.words_of_none halone hmark hnone]
      exact Nat.zero_le _
  | found gap word rest hfound ih =>
      have hmarked := hfound.marked halone hmark
      obtain ⟨start, hgap⟩ := suffix_addMark (run ++ [separator]) gap
      rw [marked_of_foundAt _ hfound, words_of_foundAt hfound, List.length_cons]
      rw [← hgap] at hmarked ⊢
      by_cases hstart : ∀ c ∈ start.getLast?, isWord c = false
      · rw [hmarks.words_of_stands halone hmark hmarked hstart, List.length_cons]
        exact Nat.succ_le_succ ih
      · rw [hmarks.words_of_not_stands halone hmark hmarked hstart]
        exact ih.trans (Nat.le_succ _)

/-- The words of a text are found behind their marks in the marked text, in the same
order, exactly when no mark of the text is the end of a longer run. -/
theorem FindsMarks.sublist_words_iff (halone : finder.FindsAlone isWord IsBody)
    (hmark : IsMark isWord IsBody run separator)
    (hmarks : marks.FindsMarks isWord IsBody (run ++ [separator])) (text : List Char) :
    ((finder.words text).map (run ++ [separator] ++ ·)).Sublist
        (marks.words (finder.marked (run ++ [separator]) text)) ↔
      ∀ piece ∈ (finder.pieces text).1, MarkStands isWord (run ++ [separator]) piece.1 := by
  induction text using @search_induction finder with
  | none text hnone =>
      rw [Finder.words_of_none hnone, pieces_of_none hnone]
      exact iff_of_true (List.nil_sublist _) (List.forall_mem_nil _)
  | found gap word rest hfound ih =>
      have hmarked := hfound.marked halone hmark
      have hshort := hmarks.length_words_le halone hmark rest
      rw [marked_of_foundAt _ hfound, words_of_foundAt hfound, List.map_cons,
        pieces_of_foundAt hfound, List.forall_mem_cons, ← ih]
      by_cases hbehind : run ++ [separator] <:+ gap
      · obtain ⟨start, rfl⟩ := hbehind
        have hsame : addMark (run ++ [separator]) (start ++ (run ++ [separator])) =
            start ++ (run ++ [separator]) := if_pos (List.suffix_append _ _)
        rw [hsame] at hmarked ⊢
        by_cases hstart : ∀ c ∈ start.getLast?, isWord c = false
        · have hstands : MarkStands isWord (run ++ [separator])
              (start ++ (run ++ [separator])) := by
            intro other hother
            rwa [← List.append_cancel_right hother]
          rw [hmarks.words_of_stands halone hmark hmarked hstart, List.cons_sublist_cons,
            and_iff_right hstands]
        · rw [hmarks.words_of_not_stands halone hmark hmarked hstart]
          refine iff_of_false (fun hsub => ?_) fun hboth => hstart (hboth.1 start rfl)
          have hlength := hsub.length_le
          rw [List.length_cons, List.length_map] at hlength
          omega
      · have hstart := (halone.occurs_iff.mp hfound.occurs).1.left
        have hstands : MarkStands isWord (run ++ [separator]) gap := by
          rintro start rfl
          exact absurd (List.suffix_append _ _) hbehind
        have hadd : addMark (run ++ [separator]) gap = gap ++ (run ++ [separator]) :=
          if_neg hbehind
        rw [hadd] at hmarked ⊢
        rw [hmarks.words_of_stands halone hmark hmarked hstart, List.cons_sublist_cons,
          and_iff_right hstands]

/-- The marks of the pieces stand if every mark with a word behind it does. -/
theorem forall_markStands_iff (halone : finder.FindsAlone isWord IsBody)
    (hmark : IsMark isWord IsBody run separator) (text : List Char) :
    (∀ piece ∈ (finder.pieces text).1, MarkStands isWord (run ++ [separator]) piece.1) ↔
      ∀ before word after, text = before ++ (run ++ [separator] ++ (word ++ after)) →
        finder.Occurs (before ++ (run ++ [separator])) word after →
          ∀ c ∈ before.getLast?, isWord c = false := by
  induction text using @search_induction finder with
  | none text hnone =>
      rw [pieces_of_none hnone]
      refine iff_of_true (List.forall_mem_nil _) ?_
      rintro before word after rfl hoccurs
      have hfind := finder.find_ne_none hoccurs
      rw [List.append_assoc] at hfind
      exact absurd hnone hfind
  | found gap word rest hfound ih =>
      rw [pieces_of_foundAt hfound, List.forall_mem_cons, ih]
      constructor
      · rintro ⟨hgap, hrest⟩ before word' after htext hoccurs
        rcases hfound.eq_or_after hoccurs (by rw [htext, List.append_assoc before]) with
          ⟨hsame, -, -⟩ | ⟨gap', hbefore, hbehind, hgap'⟩
        · exact hgap before hsame.symm
        · obtain ⟨start, rfl, rfl, hne⟩ :=
            hfound.mark_behind halone hmark hbefore hbehind hgap'
          rw [← List.append_assoc, List.getLast?_append_of_ne_nil _ hne]
          exact hrest start word' after (by rw [hbehind, List.append_assoc]) hgap'
      · intro hall
        constructor
        · rintro start rfl
          exact hall start word rest (by simp) hfound.occurs
        · rintro before word' after rfl hoccurs c hc
          refine hall (gap ++ (word ++ before)) word' after (by simp) ?_ c ?_
          · have hlater := (finder.occurs_after_iff (by simpa using hfound.occurs)).mpr
              hoccurs
            simpa using hlater
          · have hne : before ≠ [] := by
              rintro rfl
              cases hc
            rwa [← List.append_assoc, List.getLast?_append_of_ne_nil _ hne]

end Marks

end FindsAlone

end Finder

end Gnostr
