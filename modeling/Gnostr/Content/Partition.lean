/-
Shattering as a partition of the content: every segment stands for the part
right behind the one before it.  All segments do but URLs that are not
recognised, the first one excepted.
-/
import Gnostr.Content.Content

namespace Gnostr

namespace Types

open String (utf8Len)
open NostrBech32 (IsReference TooShort urlFinder)

/-- The segments cover the content from one place to another without a gap: a
span begins at its place, and what it selects ends where the next segment
begins; the other segments stand for the text that was matched. -/
inductive Covers (curve : Secp256k1) (bech32 : Bech32) (engine : RegexEngine)
    (content : ShatteredContent) :
    List Char → List ContentSegment → List Char → Prop where
  | nil (place : List Char) : Covers curve bech32 engine content place [] place
  | plain {place text stop : List Char} {segments : List ContentSegment}
      {span : Span} (hstart : span.start = utf8Len place)
      (hslice : content.slice span = .ok (some text))
      (hrest : Covers curve bech32 engine content (place ++ text) segments stop) :
      Covers curve bech32 engine content place (.plain span :: segments) stop
  | hyperlink {place text stop : List Char} {segments : List ContentSegment}
      {span : Span} (hstart : span.start = utf8Len place)
      (hslice : content.slice span = .ok (some text))
      (hrest : Covers curve bech32 engine content (place ++ text) segments stop) :
      Covers curve bech32 engine content place (.hyperlink span :: segments) stop
  | nostrUrl {place word after stop : List Char} {segments : List ContentSegment}
      {value : NostrBech32}
      (hcontent : content.allocated = place ++ (urlText word ++ after))
      (halone : StandsAlone Char.isAlphanum place after)
      (hword : IsReference word)
      (hvalue : NostrBech32.tryFromString curve bech32 word = .ok (some value))
      (hrest : Covers curve bech32 engine content (place ++ urlText word)
        segments stop) :
      Covers curve bech32 engine content place (.nostrUrl ⟨value⟩ :: segments) stop
  | tagReference {place digits after stop : List Char}
      {segments : List ContentSegment} {index : ℕ}
      (hcontent : content.allocated = place ++ (tagText digits ++ after))
      (hdigits : IsTagIndex engine digits)
      (hindex : parseUsize digits = some index)
      (hrest : Covers curve bech32 engine content (place ++ tagText digits)
        segments stop) :
      Covers curve bech32 engine content place (.tagReference index :: segments) stop

variable {curve : Secp256k1} {bech32 : Bech32} {engine : RegexEngine}
  {links : LinkFinder} {content : ShatteredContent}

/-- A span at its place selects the text there. -/
theorem ShatteredContent.slice_of_eq {place text after : List Char}
    (hcontent : content.allocated = place ++ (text ++ after)) :
    content.slice ⟨utf8Len place, utf8Len place + utf8Len text⟩ =
      .ok (some text) := by
  have hstart : isCharBoundary content.allocated (utf8Len place) = true := by
    rw [isCharBoundary, hcontent, splitAtByte_append]
    rfl
  have hstop : isCharBoundary content.allocated
      (utf8Len place + utf8Len text) = true := by
    rw [isCharBoundary, hcontent, ← String.utf8Len_append, ← List.append_assoc,
      splitAtByte_append]
    rfl
  have hrange := getRange_append place text after
  rw [List.append_assoc, ← hcontent] at hrange
  rw [slice, hstart, hstop, hrange]
  rfl

namespace Covers

/-- Segments that cover adjacent parts cover both. -/
theorem append {place middle stop : List Char}
    {first second : List ContentSegment}
    (hfirst : Covers curve bech32 engine content place first middle)
    (hsecond : Covers curve bech32 engine content middle second stop) :
    Covers curve bech32 engine content place (first ++ second) stop := by
  induction hfirst with
  | nil place => exact hsecond
  | plain hstart hslice _ ih => exact .plain hstart hslice (ih hsecond)
  | hyperlink hstart hslice _ ih => exact .hyperlink hstart hslice (ih hsecond)
  | nostrUrl hcontent halone hword hvalue _ ih =>
      exact .nostrUrl hcontent halone hword hvalue (ih hsecond)
  | tagReference hcontent hdigits hindex _ ih =>
      exact .tagReference hcontent hdigits hindex (ih hsecond)

/-- A URL ends in one place only. -/
theorem urlText_append_inj {place word word' after after' : List Char}
    (halone : StandsAlone Char.isAlphanum place after) (hword : IsReference word)
    (halone' : StandsAlone Char.isAlphanum place after') (hword' : IsReference word')
    (htext : place ++ (urlText word ++ after) = place ++ (urlText word' ++ after')) :
    word' = word := by
  rcases NostrBech32.leadAndBody_nostr.eq_or_after ⟨halone, word, rfl, hword⟩
    ⟨halone', word', rfl, hword'⟩ htext (Nat.le_refl _) with
    ⟨_, hsame, _⟩ | ⟨gap, hlonger, _⟩
  · exact List.append_cancel_left hsame
  · have hlength := congrArg List.length hlonger
    simp at hlength

/-- The place where segments end is determined by them. -/
theorem append_iff {place middle stop : List Char}
    {first second : List ContentSegment}
    (hfirst : Covers curve bech32 engine content place first middle) :
    Covers curve bech32 engine content place (first ++ second) stop ↔
      Covers curve bech32 engine content middle second stop := by
  refine ⟨?_, hfirst.append⟩
  intro hboth
  induction hfirst with
  | nil place => exact hboth
  | plain _ hslice _ ih =>
      cases hboth with
      | plain _ hslice' hrest =>
          cases hslice.symm.trans hslice'
          exact ih hrest
  | hyperlink _ hslice _ ih =>
      cases hboth with
      | hyperlink _ hslice' hrest =>
          cases hslice.symm.trans hslice'
          exact ih hrest
  | nostrUrl hcontent halone hword _ _ ih =>
      cases hboth with
      | nostrUrl hcontent' halone' hword' _ hrest =>
          cases urlText_append_inj halone hword halone' hword'
            (hcontent.symm.trans hcontent')
          exact ih hrest
  | tagReference hcontent hdigits _ _ ih =>
      cases hboth with
      | tagReference hcontent' hdigits' _ hrest =>
          cases (tagText_append_inj hdigits hdigits'
            (List.append_cancel_left (hcontent.symm.trans hcontent'))).1
          exact ih hrest

end Covers

/-- Spans of links and of text between them, moved to their place. -/
theorem covers_linkSpans {spans : List LinkSpan} {place before text after : List Char}
    (hcontent : content.allocated = place ++ (before ++ (text ++ after)))
    (htile : LinkSpansTile (utf8Len before) text spans) :
    Covers curve bech32 engine content (place ++ before)
      (applyOffset (spans.filterMap linkSegment) (utf8Len place))
      (place ++ (before ++ text)) := by
  induction spans generalizing before text with
  | nil =>
      cases htile
      rw [List.append_nil]
      exact .nil _
  | cons span spans ih =>
      obtain ⟨rest, rfl, hstart, hstop, hrest⟩ := htile
      have hplace : content.allocated =
          place ++ before ++ (span.asStr ++ (rest ++ after)) := by
        rw [hcontent, List.append_assoc, List.append_assoc]
      have hcontent' : content.allocated =
          place ++ (before ++ span.asStr ++ (rest ++ after)) := by
        rw [hcontent, List.append_assoc, List.append_assoc]
      rw [hstop, ← String.utf8Len_append] at hrest
      have hcovers := ih hcontent' hrest
      rw [← List.append_assoc place, List.append_assoc before] at hcovers
      have hspan : (⟨span.start, span.stop⟩ : Span).offset (utf8Len place) =
          ⟨utf8Len (place ++ before),
            utf8Len (place ++ before) + utf8Len span.asStr⟩ := by
        rw [hstart, hstop, Span.offset, String.utf8Len_append, Nat.add_right_comm,
          Nat.add_comm (utf8Len before)]
      have hslice : content.slice ((⟨span.start, span.stop⟩ : Span).offset
          (utf8Len place)) = .ok (some span.asStr) := by
        rw [hspan]
        exact ShatteredContent.slice_of_eq hplace
      rcases linkSegment_cases span with hlink | hplain | ⟨hnone, hempty⟩
      · rw [List.filterMap_cons_some hlink]
        exact .hyperlink (congrArg Span.start hspan) hslice hcovers
      · rw [List.filterMap_cons_some hplain]
        exact .plain (congrArg Span.start hspan) hslice hcovers
      · rw [List.filterMap_cons_none hnone]
        rw [hempty, List.append_nil] at hcovers
        rwa [hempty]

theorem covers_shatterContent3 (links : LinkFinder) {place text after : List Char}
    (hcontent : content.allocated = place ++ (text ++ after)) :
    Covers curve bech32 engine content place
      (applyOffset (shatterContent3 links text) (utf8Len place)) (place ++ text) := by
  have hcovers : Covers curve bech32 engine content (place ++ [])
      (applyOffset (shatterContent3 links text) (utf8Len place))
      (place ++ ([] ++ text)) := covers_linkSpans hcontent (links.tile text)
  rwa [List.append_nil] at hcovers

/-- Every reference to a tag in the text has an index. -/
def TagsParse (engine : RegexEngine) (text : List Char) : Prop :=
  ∀ before digits after, text = before ++ (tagText digits ++ after) →
    IsTagIndex engine digits → parseUsize digits ≠ none

theorem tagsParse_of_none {text : List Char}
    (hnone : (tagFinder engine).find text = none) : TagsParse engine text := by
  rintro before digits after rfl hdigits
  exact absurd hnone
    ((tagFinder engine).find_ne_none ⟨digits, rfl, hdigits⟩)

/-- The first reference has an index, and those behind it do. -/
theorem tagsParse_iff_of_foundAt {gap digits rest : List Char}
    (hdigits : IsTagIndex engine digits)
    (hfound : (tagFinder engine).FoundAt gap (tagText digits) rest) :
    TagsParse engine (gap ++ (tagText digits ++ rest)) ↔
      parseUsize digits ≠ none ∧ TagsParse engine rest := by
  constructor
  · intro hparse
    refine ⟨hparse gap digits rest rfl hdigits, ?_⟩
    rintro before digits' after rfl hdigits'
    refine hparse (gap ++ (tagText digits ++ before)) digits' after ?_ hdigits'
    rw [List.append_assoc, List.append_assoc]
  · rintro ⟨hfirst, hrest⟩ before digits' after htext hdigits'
    rcases hfound.eq_or_after ⟨digits', rfl, hdigits'⟩ htext with
      ⟨rfl, _, rfl⟩ | ⟨gap', _, rfl, _⟩
    · cases (tagText_append_inj hdigits hdigits' (List.append_cancel_left htext)).1
      exact hfirst
    · exact hrest gap' digits' after rfl hdigits'

/-- What pass 2 gives for a part of any content covers that part. -/
def CoversPart (curve : Secp256k1) (bech32 : Bech32) (engine : RegexEngine)
    (before text : List Char) (segments : List ContentSegment) : Prop :=
  ∀ (content : ShatteredContent) (place after : List Char),
    content.allocated = place ++ (before ++ (text ++ after)) →
    Covers curve bech32 engine content (place ++ before)
      (applyOffset segments (utf8Len place)) (place ++ (before ++ text))

theorem coversPart_shatterContent3 (curve : Secp256k1) (bech32 : Bech32)
    (engine : RegexEngine) (links : LinkFinder) (before text : List Char) :
    CoversPart curve bech32 engine before text
      (applyOffset (shatterContent3 links text) (utf8Len before)) := by
  intro content place after hcontent
  rw [← List.append_assoc] at hcontent
  rw [applyOffset_applyOffset, ← String.utf8Len_append, ← List.append_assoc]
  exact covers_shatterContent3 links hcontent

/-- A gap, a reference and the rest are covered together. -/
theorem CoversPart.cons {before gap digits rest : List Char}
    {first second : List ContentSegment} {index : ℕ}
    (hfirst : CoversPart curve bech32 engine before gap first)
    (hdigits : IsTagIndex engine digits) (hindex : parseUsize digits = some index)
    (hsecond : CoversPart curve bech32 engine
      (before ++ (gap ++ tagText digits)) rest second) :
    CoversPart curve bech32 engine before (gap ++ (tagText digits ++ rest))
      (first ++ .tagReference index :: second) := by
  intro content place after hcontent
  have hfirst' := hfirst content place (tagText digits ++ (rest ++ after)) (by
    simpa using hcontent)
  have hsecond' := hsecond content place after (by simpa using hcontent)
  have htag : content.allocated =
      place ++ (before ++ gap) ++ (tagText digits ++ (rest ++ after)) := by
    simpa using hcontent
  rw [applyOffset_append, applyOffset_tagReference_cons]
  refine hfirst'.append (.tagReference htag hdigits hindex ?_)
  simpa using hsecond'

/-- Pass 2 covers its part, or it panics at an index that does not fit. -/
theorem shatterContent2From_cases (curve : Secp256k1) (bech32 : Bech32)
    (engine : RegexEngine) (links : LinkFinder) (before text : List Char)
    (segments : List ContentSegment) :
    (TagsParse engine text ∧ ∃ out,
      shatterContent2From engine links (before ++ text) (utf8Len before) segments =
        .ok (segments ++ out) ∧ CoversPart curve bech32 engine before text out) ∨
    (¬ TagsParse engine text ∧
      shatterContent2From engine links (before ++ text) (utf8Len before) segments =
        .panic) := by
  induction text using Finder.search_induction generalizing before segments with
  | none text hnone =>
      exact Or.inl ⟨tagsParse_of_none hnone, _,
        shatterContent2From_of_none links before segments hnone,
        coversPart_shatterContent3 curve bech32 engine links before text⟩
  | found gap word rest hfound ih =>
      obtain ⟨digits, rfl, hdigits⟩ := hfound.occurs
      rw [tagsParse_iff_of_foundAt hdigits hfound,
        shatterContent2From_of_foundAt links before segments hfound]
      cases hindex : parseUsize digits with
      | none => exact Or.inr ⟨fun hparse => hparse.1 rfl, rfl⟩
      | some index =>
          rw [Outcome.unwrap_some, Outcome.ok_bind]
          have hrest := ih (before ++ (gap ++ tagText digits))
            (segments ++ applyOffset (shatterContent3 links gap) (utf8Len before) ++
              [.tagReference index])
          have htext : before ++ (gap ++ tagText digits) ++ rest =
              before ++ (gap ++ (tagText digits ++ rest)) := by
            simp
          rw [htext] at hrest
          rcases hrest with ⟨hparse, out, hout, hcovers⟩ | ⟨hparse, hpanic⟩
          · refine Or.inl ⟨⟨nofun, hparse⟩, _, ?_,
              (coversPart_shatterContent3 curve bech32 engine links before gap).cons
                hdigits hindex hcovers⟩
            rw [hout]
            simp
          · exact Or.inr ⟨fun hboth => hparse hboth.2, hpanic⟩

theorem shatterContent2_cases (curve : Secp256k1) (bech32 : Bech32)
    (engine : RegexEngine) (links : LinkFinder) (text : List Char) :
    (TagsParse engine text ∧ ∃ out, shatterContent2 engine links text = .ok out ∧
      CoversPart curve bech32 engine [] text out) ∨
    (¬ TagsParse engine text ∧ shatterContent2 engine links text = .panic) :=
  shatterContent2From_cases curve bech32 engine links [] text []

/-- A URL has no number sign, and a reference to a tag no letter. -/
theorem tagsParse_urlText_iff {gap word rest : List Char} (hword : IsReference word) :
    TagsParse engine (gap ++ (urlText word ++ rest)) ↔
      TagsParse engine gap ∧ TagsParse engine rest := by
  constructor
  · intro hparse
    constructor
    · rintro before digits after rfl hdigits
      refine hparse before digits (after ++ (urlText word ++ rest)) ?_ hdigits
      rw [List.append_assoc, List.append_assoc]
    · rintro before digits after rfl hdigits
      refine hparse (gap ++ (urlText word ++ before)) digits after ?_ hdigits
      rw [List.append_assoc, List.append_assoc]
  · rintro ⟨hgap, hrest⟩ before digits after htext hdigits
    have hsign : '#' ∉ urlText word := by
      intro hmem
      rcases List.mem_append.mp hmem with hmem | hmem
      · exact absurd hmem (by decide)
      · exact absurd (hword.isAlphanum _ hmem) (by decide)
    have hletter : 'n' ∉ tagText digits := by
      have hmem := hdigits.not_mem (c := 'n') (by decide) (by decide)
      simp [tagText, hmem]
    rcases List.append_eq_append_iff.mp htext with
      ⟨between, rfl, hbetween⟩ | ⟨between, rfl, hbetween⟩
    · rcases List.append_eq_append_iff.mp hbetween with
        ⟨before, rfl, hafter⟩ | ⟨inner, hinner, hafter⟩
      · exact hrest before digits after hafter hdigits
      · cases inner with
        | nil => exact hrest [] digits after hafter.symm hdigits
        | cons c inner =>
            -- the reference would begin within the URL
            have hc : c = '#' := (List.cons.inj hafter).1.symm
            refine absurd ?_ hsign
            rw [hinner, hc]
            simp
    · rcases List.append_eq_append_iff.mp hbetween with
        ⟨after, rfl, _⟩ | ⟨inner, hinner, hafter⟩
      · exact hgap before digits after rfl hdigits
      · cases inner with
        | nil =>
            rw [List.append_nil] at hinner
            exact hgap before digits [] (by rw [hinner, List.append_nil]) hdigits
        | cons c inner =>
            -- the URL would begin within the reference
            have hc : c = 'n' := (List.cons.inj hafter).1.symm
            refine absurd ?_ hletter
            rw [hinner, hc]
            simp

/-- No pass panics on this content. -/
def Readable (curve : Secp256k1) (bech32 : Bech32) (engine : RegexEngine)
    (content : List Char) : Prop :=
  TagsParse engine content ∧ ∀ url ∈ (urlFinder engine).words content,
    ∀ word, url = urlText word → (NostrBech32.tryFromString curve bech32 word).Returns

/-- The URL is that of an object. -/
def Recognised (curve : Secp256k1) (bech32 : Bech32) (url : List Char) : Prop :=
  ∀ word, url = urlText word →
    ∃ value, NostrBech32.tryFromString curve bech32 word = .ok (some value)

/-- The URLs whose spans must be moved: the first one of the content is at its
place. -/
def movedUrls (before : List Char) (urls : List (List Char)) : List (List Char) :=
  if before = [] then urls.tail else urls

theorem forall_movedUrls_cons_iff {before url : List Char} {urls : List (List Char)}
    {holds : List Char → Prop} :
    (∀ other ∈ movedUrls before (url :: urls), holds other) ↔
      (before = [] ∨ holds url) ∧ ∀ other ∈ urls, holds other := by
  unfold movedUrls
  split
  · rename_i hbefore
    rw [List.tail_cons, and_iff_right (Or.inl hbefore)]
  · rename_i hbefore
    rw [List.forall_mem_cons, or_iff_right hbefore]

/-- A search behind this text finds what occurs in the whole. -/
def Resumes (engine : RegexEngine) (before content : List Char) : Prop :=
  ∀ gap word rest, content = gap ++ (word ++ rest) →
    (urlFinder engine).Occurs gap word rest →
    (urlFinder engine).Occurs (before ++ gap) word rest

theorem resumes_nil (engine : RegexEngine) (content : List Char) :
    Resumes engine [] content := fun _ _ _ _ hoccurs => hoccurs

theorem Resumes.after {before gap word rest : List Char}
    (hresumes : Resumes engine before (gap ++ (word ++ rest)))
    (hoccurs : (urlFinder engine).Occurs gap word rest) :
    Resumes engine (before ++ (gap ++ word)) rest := by
  rintro gap' word' rest' rfl hoccurs'
  have hwhole := hresumes gap word (gap' ++ (word' ++ rest')) rfl hoccurs
  have hafter := ((urlFinder engine).occurs_after_iff hwhole).mpr hoccurs'
  simpa using hafter

theorem readable_iff_of_foundAt {gap word rest : List Char}
    (hword : IsReference word)
    (hfound : (urlFinder engine).FoundAt gap (urlText word) rest) :
    Readable curve bech32 engine (gap ++ (urlText word ++ rest)) ↔
      TagsParse engine gap ∧
        (NostrBech32.tryFromString curve bech32 word).Returns ∧
          Readable curve bech32 engine rest := by
  rw [Readable, tagsParse_urlText_iff hword, Finder.words_of_foundAt hfound,
    List.forall_mem_cons, Readable]
  have hfirst : (∀ other, urlText word = urlText other →
      (NostrBech32.tryFromString curve bech32 other).Returns) ↔
        (NostrBech32.tryFromString curve bech32 word).Returns := by
    constructor
    · exact fun hreturns => hreturns word rfl
    · intro hreturns other hother
      rwa [← List.append_cancel_left hother]
  rw [hfirst]
  tauto

theorem recognised_urlText_iff {word : List Char} :
    Recognised curve bech32 (urlText word) ↔
      ∃ value, NostrBech32.tryFromString curve bech32 word = .ok (some value) := by
  constructor
  · exact fun hrecognised => hrecognised word rfl
  · intro hvalue other hother
    rwa [← List.append_cancel_left hother]

/-- A URL is at its place when it is recognised or the first of the content. -/
theorem covers_urlSegment_iff {before gap word rest stop : List Char}
    {nbech : Option NostrBech32} {out : List ContentSegment}
    (hcontent : content.allocated = before ++ gap ++ (urlText word ++ rest))
    (hoccurs : (urlFinder engine).Occurs (before ++ gap) (urlText word) rest)
    (hnbech : NostrBech32.tryFromString curve bech32 word = .ok nbech) :
    Covers curve bech32 engine content (before ++ gap)
        (urlSegment ⟨utf8Len gap, utf8Len gap + utf8Len (urlText word)⟩ nbech :: out)
        stop ↔
      (before = [] ∨ nbech ≠ none) ∧
        Covers curve bech32 engine content (before ++ gap ++ urlText word) out stop := by
  cases nbech with
  | some value =>
      rw [and_iff_right (Or.inr nofun)]
      obtain ⟨halone, word', hsame, hword⟩ := hoccurs
      cases List.append_cancel_left hsame
      have hsegment : Covers curve bech32 engine content (before ++ gap)
          [.nostrUrl ⟨value⟩] _ := .nostrUrl hcontent halone hword hnbech (.nil _)
      exact hsegment.append_iff
  | none =>
      rw [or_iff_left (not_not_intro rfl)]
      by_cases hbefore : before = []
      · subst hbefore
        rw [and_iff_right rfl]
        have hslice := ShatteredContent.slice_of_eq hcontent
        have hsegment : Covers curve bech32 engine content ([] ++ gap) _ _ :=
          .plain rfl hslice (.nil _)
        exact hsegment.append_iff
      · -- the span counts from the beginning of what is left
        refine iff_of_false ?_ fun hboth => hbefore hboth.1
        intro hcovers
        cases hcovers with
        | plain hstart _ _ =>
            rw [String.utf8Len_append] at hstart
            exact hbefore (String.utf8Len_eq_zero.mp (Nat.right_eq_add.mp hstart))

/-- One turn of pass 1 covers its gap, and its URL under the condition above; the
turns behind it have the rest. -/
theorem covers_urlTurn_iff {before gap word rest stop : List Char}
    {nbech : Option NostrBech32} {inner out : List ContentSegment}
    (hcontent : content.allocated = before ++ (gap ++ (urlText word ++ rest)))
    (hoccurs : (urlFinder engine).Occurs (before ++ gap) (urlText word) rest)
    (hnbech : NostrBech32.tryFromString curve bech32 word = .ok nbech)
    (hinner : CoversPart curve bech32 engine [] gap inner) :
    Covers curve bech32 engine content before
        (applyOffset inner (utf8Len before) ++
          urlSegment ⟨utf8Len gap, utf8Len gap + utf8Len (urlText word)⟩ nbech :: out)
        stop ↔
      (before = [] ∨ nbech ≠ none) ∧
        Covers curve bech32 engine content (before ++ (gap ++ urlText word)) out stop := by
  have hgap := hinner content before (urlText word ++ rest) hcontent
  rw [List.append_nil, List.nil_append] at hgap
  rw [hgap.append_iff, covers_urlSegment_iff (by simpa using hcontent) hoccurs hnbech,
    List.append_assoc]

/-- Pass 1 covers what is left of the content exactly when the URLs that must be
moved are recognised, or it panics. -/
theorem shatterContent1From_cases (links : LinkFinder) (text before : List Char)
    (segments : List ContentSegment) (hresumes : Resumes engine before text) :
    (Readable curve bech32 engine text ∧ ∃ out,
      shatterContent1From curve bech32 engine links text (utf8Len before) segments =
        .ok (segments ++ out) ∧
      ∀ content : ShatteredContent, content.allocated = before ++ text →
        (Covers curve bech32 engine content before out (before ++ text) ↔
          ∀ url ∈ movedUrls before ((urlFinder engine).words text),
            Recognised curve bech32 url)) ∨
    (¬ Readable curve bech32 engine text ∧
      shatterContent1From curve bech32 engine links text (utf8Len before) segments =
        .panic) := by
  -- over the searches for a URL: each one resumes behind the URL before it
  induction text using Finder.search_induction generalizing before segments with
  | none text hnone =>
      have hwords := Finder.words_of_none hnone
      rw [shatterContent1From_of_none _ _ hnone, Readable, hwords]
      rcases shatterContent2_cases curve bech32 engine links text with
        ⟨hparse, inner, hinner, hcovers⟩ | ⟨hparse, hpanic⟩
      · refine Or.inl ⟨⟨hparse, List.forall_mem_nil _⟩, _, by rw [hinner]; rfl, ?_⟩
        intro content hcontent
        have hpart := hcovers content before [] (by simpa using hcontent)
        rw [List.append_nil] at hpart
        refine iff_of_true hpart ?_
        simp [movedUrls]
      · exact Or.inr ⟨fun hreadable => hparse hreadable.1, by rw [hpanic]; rfl⟩
  | found gap url rest hfound ih =>
      obtain ⟨word, rfl, hword⟩ : ∃ word, url = urlText word ∧ IsReference word :=
        hfound.occurs.2
      have hoccurs := hresumes gap _ rest rfl hfound.occurs
      have hlength : utf8Len before + utf8Len (gap ++ urlText word) =
          utf8Len (before ++ (gap ++ urlText word)) := by
        rw [String.utf8Len_append before]
      -- no URL behind this one is the first
      have hmoved : movedUrls (before ++ (gap ++ urlText word))
          ((urlFinder engine).words rest) = (urlFinder engine).words rest := by
        refine if_neg ?_
        simp [urlText_ne_nil]
      rw [readable_iff_of_foundAt hword hfound,
        shatterContent1From_of_foundAt _ _ hfound, hlength]
      rcases shatterContent2_cases curve bech32 engine links gap with
        ⟨hparse, inner, hinner, hcovers⟩ | ⟨hparse, hpanic⟩
      · rw [hinner, Outcome.ok_bind]
        cases hnbech : NostrBech32.tryFromString curve bech32 word with
        | ok nbech =>
            have hrest := ih (before ++ (gap ++ urlText word))
              (segments ++ applyOffset inner (utf8Len before) ++
                [urlSegment ⟨utf8Len gap, utf8Len gap + utf8Len (urlText word)⟩ nbech])
              (hresumes.after hfound.occurs)
            rw [hmoved] at hrest
            rw [Outcome.ok_bind, Finder.words_of_foundAt hfound]
            rcases hrest with ⟨hreadable, out, hout, hiff⟩ | ⟨hreadable, hpanic⟩
            · refine Or.inl ⟨⟨hparse, Outcome.returns_ok _, hreadable⟩,
                applyOffset inner (utf8Len before) ++
                  urlSegment ⟨utf8Len gap, utf8Len gap + utf8Len (urlText word)⟩ nbech ::
                    out, ?_, ?_⟩
              · rw [hout]
                simp
              · intro content hcontent
                have htext : before ++ (gap ++ urlText word) ++ rest =
                    before ++ (gap ++ (urlText word ++ rest)) := by
                  simp
                have hiff' := hiff content (hcontent.trans htext.symm)
                rw [htext] at hiff'
                rw [covers_urlTurn_iff hcontent hoccurs hnbech hcovers, hiff',
                  forall_movedUrls_cons_iff, recognised_urlText_iff, hnbech]
                simp only [Outcome.ok.injEq, Option.ne_none_iff_exists']
            · exact Or.inr ⟨fun hboth => hreadable hboth.2.2, hpanic⟩
        | err error =>
            exact absurd hnbech (NostrBech32.tryFromString_ne_err curve bech32 word error)
        | panic =>
            exact Or.inr ⟨fun hreadable => Outcome.not_returns_panic hreadable.2.1, rfl⟩
      · exact Or.inr ⟨fun hreadable => hparse hreadable.1, by rw [hpanic]; rfl⟩

/-- A URL that stands in the content. -/
def UrlAt (content before word after : List Char) : Prop :=
  content = before ++ (urlText word ++ after) ∧
    StandsAlone Char.isAlphanum before after ∧ IsReference word

/-- What shattering needs: indices that fit, objects that can be read, and no URL
behind the first one that is none. -/
structure Shatterable (curve : Secp256k1) (bech32 : Bech32) (engine : RegexEngine)
    (content : List Char) : Prop where
  tags : ∀ before digits after, content = before ++ (tagText digits ++ after) →
    IsTagIndex engine digits → parseUsize digits ≠ none
  objects : ∀ before word after, UrlAt content before word after →
    ¬ TooShort bech32 hrpNprofile word ∧ ¬ TooShort bech32 hrpNrelay word
  recognised : ∀ before word after, UrlAt content before word after →
    (∃ before' word' after', UrlAt content before' word' after' ∧
      before'.length < before.length) →
    ∃ value, NostrBech32.tryFromString curve bech32 word = .ok (some value)

theorem readable_iff {content : List Char} :
    Readable curve bech32 engine content ↔
      TagsParse engine content ∧ ∀ before word after,
        UrlAt content before word after →
        ¬ TooShort bech32 hrpNprofile word ∧ ¬ TooShort bech32 hrpNrelay word := by
  refine and_congr Iff.rfl ?_
  simp only [← NostrBech32.returns_tryFromString_iff curve]
  constructor
  · rintro hall before word after ⟨htext, halone, hword⟩
    exact hall _ (Finder.mem_words_iff.mpr
      ⟨before, after, htext, halone, word, rfl, hword⟩) word rfl
  · rintro hall url hurl word rfl
    obtain ⟨before, after, htext, halone, word', hsame, hword⟩ :=
      Finder.mem_words_iff.mp hurl
    cases List.append_cancel_left hsame
    exact hall before word after ⟨htext, halone, hword⟩

theorem forall_recognised_iff {content : List Char} :
    (∀ url ∈ movedUrls [] ((urlFinder engine).words content),
      Recognised curve bech32 url) ↔
    ∀ before word after, UrlAt content before word after →
      (∃ before' word' after', UrlAt content before' word' after' ∧
        before'.length < before.length) →
      ∃ value, NostrBech32.tryFromString curve bech32 word = .ok (some value) := by
  rw [movedUrls, if_pos rfl]
  simp only [Finder.mem_tail_words_iff]
  constructor
  · rintro hall before word after ⟨htext, halone, hword⟩
      ⟨before', word', after', ⟨htext', halone', hword'⟩, hlt⟩
    exact recognised_urlText_iff.mp (hall _ ⟨before, after, htext,
      ⟨halone, word, rfl, hword⟩, before', _, after', htext',
      ⟨halone', word', rfl, hword'⟩, hlt⟩)
  · rintro hall _ ⟨before, after, htext, ⟨halone, word, rfl, hword⟩, before', _,
      after', htext', ⟨halone', word', rfl, hword'⟩, hlt⟩
    exact recognised_urlText_iff.mpr (hall before word after ⟨htext, halone, hword⟩
      ⟨before', word', after', ⟨htext', halone', hword'⟩, hlt⟩)

/-- The segments tile the content. -/
def IsPartition (curve : Secp256k1) (bech32 : Bech32) (engine : RegexEngine)
    (result : ShatteredContent) : Prop :=
  Covers curve bech32 engine result [] result.segments result.allocated

/-- Shattering panics, or it gives segments that cover the content under the
condition on its URLs. -/
theorem new_cases (curve : Secp256k1) (bech32 : Bech32) (engine : RegexEngine)
    (links : LinkFinder) (content : List Char) :
    (Readable curve bech32 engine content ∧ ∃ out,
      ShatteredContent.new curve bech32 engine links content = .ok ⟨out, content⟩ ∧
      (IsPartition curve bech32 engine ⟨out, content⟩ ↔
        ∀ url ∈ movedUrls [] ((urlFinder engine).words content),
          Recognised curve bech32 url)) ∨
    (¬ Readable curve bech32 engine content ∧
      ShatteredContent.new curve bech32 engine links content = .panic) := by
  rcases shatterContent1From_cases links content [] [] (resumes_nil engine content) with
    ⟨hreadable, out, hout, hiff⟩ | ⟨hreadable, hpanic⟩
  · exact Or.inl ⟨hreadable, out, congrArg (· >>= _) hout, hiff ⟨out, content⟩ rfl⟩
  · exact Or.inr ⟨hreadable, congrArg (· >>= _) hpanic⟩

theorem exists_new_isPartition_iff (links : LinkFinder) (content : List Char) :
    (∃ result, ShatteredContent.new curve bech32 engine links content = .ok result ∧
      result.allocated = content ∧ IsPartition curve bech32 engine result) ↔
      Readable curve bech32 engine content ∧
        ∀ url ∈ movedUrls [] ((urlFinder engine).words content),
          Recognised curve bech32 url := by
  rcases new_cases curve bech32 engine links content with
    ⟨hreadable, out, hnew, hiff⟩ | ⟨hreadable, hpanic⟩
  · rw [and_iff_right hreadable, ← hiff, hnew]
    constructor
    · rintro ⟨result, hresult, _, hcovers⟩
      cases hresult
      exact hcovers
    · exact fun hcovers => ⟨_, rfl, rfl, hcovers⟩
  · rw [hpanic]
    refine iff_of_false ?_ fun hboth => hreadable hboth.1
    rintro ⟨result, hresult, _⟩
    cases hresult

/-- Shattering gives a partition of the content exactly when the indices of all
references to tags fit, no profile and no relay in it has a payload of less than
two bytes, and every URL but the first is recognised. -/
theorem shattering_partitions_iff (curve : Secp256k1) (bech32 : Bech32)
    (engine : RegexEngine) (links : LinkFinder) (content : List Char) :
    (∃ result, ShatteredContent.new curve bech32 engine links content = .ok result ∧
      result.allocated = content ∧ IsPartition curve bech32 engine result) ↔
      Shatterable curve bech32 engine content := by
  rw [exists_new_isPartition_iff, readable_iff, forall_recognised_iff]
  constructor
  · rintro ⟨⟨htags, hobjects⟩, hrecognised⟩
    exact ⟨htags, hobjects, hrecognised⟩
  · rintro ⟨htags, hobjects, hrecognised⟩
    exact ⟨⟨htags, hobjects⟩, hrecognised⟩

/-- Shattering returns exactly when the indices of all references to tags fit and
no profile and no relay in the content has a payload of less than two bytes. -/
theorem shattering_returns_iff (curve : Secp256k1) (bech32 : Bech32)
    (engine : RegexEngine) (links : LinkFinder) (content : List Char) :
    (ShatteredContent.new curve bech32 engine links content).Returns ↔
      (∀ before digits after, content = before ++ (tagText digits ++ after) →
        IsTagIndex engine digits → parseUsize digits ≠ none) ∧
      ∀ before word after, UrlAt content before word after →
        ¬ TooShort bech32 hrpNprofile word ∧ ¬ TooShort bech32 hrpNrelay word := by
  have hreads : Readable curve bech32 engine content ↔ _ := readable_iff
  refine Iff.trans ?_ hreads
  rcases new_cases curve bech32 engine links content with
    ⟨hreadable, out, hnew, _⟩ | ⟨hreadable, hpanic⟩
  · rw [hnew]
    exact iff_of_true (Outcome.returns_ok _) hreadable
  · rw [hpanic]
    exact iff_of_false Outcome.not_returns_panic hreadable

/-- A finder that finds no links, for texts without one. -/
def noLinks : LinkFinder where
  spans text := [⟨0, utf8Len text, text, false⟩]
  tile text := ⟨[], (List.append_nil text).symm, rfl, (Nat.zero_add _).symm, rfl⟩

/-- The second of two URLs of secret keys, which are none, is misplaced. -/
theorem secret_urls_misplaced :
    ¬ ∃ result, ShatteredContent.new Secp256k1.permissive Bech32.reference
        RegexEngine.reference noLinks
          "nostr:nsec1qqqqqqq nostr:nsec1qqqqqqq".toList = .ok result ∧
      result.allocated = "nostr:nsec1qqqqqqq nostr:nsec1qqqqqqq".toList ∧
        IsPartition Secp256k1.permissive Bech32.reference RegexEngine.reference
          result := by
  rw [exists_new_isPartition_iff, forall_recognised_iff]
  rintro ⟨_, hrecognised⟩
  have hsecret : IsReference "nsec1qqqqqqq".toList := by
    decide +kernel
  obtain ⟨value, hvalue⟩ := hrecognised "nostr:nsec1qqqqqqq ".toList
    "nsec1qqqqqqq".toList [] ⟨by decide, by decide, hsecret⟩
    ⟨[], "nsec1qqqqqqq".toList, " nostr:nsec1qqqqqqq".toList,
      ⟨by decide, by decide, hsecret⟩, by decide⟩
  have hnone : NostrBech32.tryFromString Secp256k1.permissive Bech32.reference
      "nsec1qqqqqqq".toList = .ok none := by
    decide +kernel
  rw [hnone] at hvalue
  cases hvalue

/-- An index of twenty digits is not parsed. -/
theorem long_tag_index_panics :
    ¬ (ShatteredContent.new Secp256k1.permissive Bech32.reference
        RegexEngine.reference noLinks "#[99999999999999999999]".toList).Returns := by
  have hcases := new_cases Secp256k1.permissive Bech32.reference
    RegexEngine.reference noLinks "#[99999999999999999999]".toList
  have hparse : ¬ TagsParse RegexEngine.reference "#[99999999999999999999]".toList := by
    intro hparse
    refine hparse [] "99999999999999999999".toList [] ?_ ⟨?_, ?_⟩ ?_
    · decide
    · decide
    · exact List.all_eq_true.mp (by decide +kernel)
    · decide +kernel
  rcases hcases with ⟨hreadable, _⟩ | ⟨_, hpanic⟩
  · exact absurd hreadable.1 hparse
  · rw [hpanic]
    exact Outcome.not_returns_panic

end Types

end Gnostr
