/-
Content of `types/src/nostr/content.rs`: breaking it into URLs, references to
tags, hyperlinks and plain text, in three passes that each count the bytes of a
part of the text from its own beginning.
-/
import Gnostr.Nip19.NostrUrl

namespace Gnostr

namespace Types

open String (utf8Len)

/-- A range of bytes that can be moved. -/
structure Span where
  start : ℕ
  stop : ℕ
deriving Repr, DecidableEq

def Span.offset (span : Span) (offset : ℕ) : Span :=
  ⟨span.start + offset, span.stop + offset⟩

theorem Span.offset_offset (span : Span) (first second : ℕ) :
    (span.offset first).offset second = span.offset (second + first) := by
  rw [offset, offset, offset, Nat.add_comm second, ← Nat.add_assoc, ← Nat.add_assoc]

/-- A segment of content. -/
inductive ContentSegment where
  | nostrUrl (url : NostrUrl)
  | tagReference (index : ℕ)
  | hyperlink (span : Span)
  | plain (span : Span)
deriving Repr, DecidableEq

/-- A span of text that is a link or is not one. -/
structure LinkSpan where
  start : ℕ
  stop : ℕ
  asStr : List Char
  isLink : Bool

/-- The spans are the parts of a text one after the other. -/
def LinkSpansTile : ℕ → List Char → List LinkSpan → Prop
  | _, text, [] => text = []
  | pos, text, span :: spans =>
      ∃ rest, text = span.asStr ++ rest ∧ span.start = pos ∧
        span.stop = pos + utf8Len span.asStr ∧ LinkSpansTile span.stop rest spans

/-- The finder of hyperlinks: `spans` gives the links of a text and the text
between them. -/
structure LinkFinder where
  spans : List Char → List LinkSpan
  tile : ∀ text, LinkSpansTile 0 text (spans text)

/-- `parse` to an unsigned integer of 64 bits. -/
def parseUsize (text : List Char) : Option ℕ :=
  let digits := if text.head? = some '+' then text.tail else text
  let value := digits.foldl (fun value c => 10 * value + (c.toNat - '0'.toNat)) 0
  if digits ≠ [] ∧ digits.all Char.isDigit = true ∧ value < 2 ^ 64 then some value
  else none

/-- `\#\[\d+\]` -/
def tagRegex (engine : RegexEngine) : Regex :=
  .seq (.anyOf ["#["]) (.seq (.atLeast 1 engine.isDecimal) (.anyOf ["]"]))

/-- The whole expression is the group. -/
def tagRe (engine : RegexEngine) : GroupRegex where
  left := .anyOf [""]
  group := tagRegex engine
  right := .anyOf [""]

/-- What is between the brackets. -/
def IsTagIndex (engine : RegexEngine) (digits : List Char) : Prop :=
  digits ≠ [] ∧ ∀ c ∈ digits, engine.isDecimal c = true

def tagText (digits : List Char) : List Char := '#' :: '[' :: (digits ++ [']'])

section Tags

variable {engine : RegexEngine}

theorem matches_tagRegex_iff {before word after : List Char} :
    (tagRegex engine).Matches before word after ↔
      ∃ digits, word = tagText digits ∧ IsTagIndex engine digits := by
  constructor
  · rintro ⟨_, _, rfl, ⟨opening, hopening, rfl⟩, digits, _, rfl,
      ⟨hlength, hdigits⟩, closing, hclosing, rfl⟩
    cases List.mem_singleton.mp hopening
    cases List.mem_singleton.mp hclosing
    exact ⟨digits, rfl, List.ne_nil_of_length_pos hlength, hdigits⟩
  · rintro ⟨digits, rfl, hdigits, hall⟩
    exact ⟨_, _, rfl, ⟨"#[", List.mem_singleton_self _, rfl⟩, digits, _, rfl,
      ⟨List.length_pos_iff.mpr hdigits, hall⟩, "]", List.mem_singleton_self _, rfl⟩

theorem IsTagIndex.not_mem {digits : List Char} (hdigits : IsTagIndex engine digits)
    {c : Char} (hascii : c.toNat < 128) (hc : c.isDigit = false) : c ∉ digits := by
  intro hmem
  have hdecimal := hdigits.2 c hmem
  rw [engine.isDecimal_of_ascii hascii, hc] at hdecimal
  cases hdecimal

/-- The brackets tell where a reference ends. -/
theorem tagText_append_inj {digits digits' after after' : List Char}
    (hdigits : IsTagIndex engine digits) (hdigits' : IsTagIndex engine digits')
    (htext : tagText digits ++ after = tagText digits' ++ after') :
    digits' = digits ∧ after' = after := by
  have hrest : digits ++ (']' :: after) = digits' ++ (']' :: after') := by
    simpa [tagText] using htext
  have hclosing : engine.isDecimal ']' = false :=
    engine.isDecimal_of_ascii (by decide)
  have htake := congrArg (List.takeWhile engine.isDecimal) hrest
  rw [List.takeWhile_append_of_pos hdigits.2, List.takeWhile_append_of_pos hdigits'.2,
    List.takeWhile_cons_of_neg (by rw [hclosing]; exact Bool.false_ne_true),
    List.takeWhile_cons_of_neg (by rw [hclosing]; exact Bool.false_ne_true),
    List.append_nil, List.append_nil] at htake
  subst htake
  exact ⟨rfl, (List.cons.inj (List.append_cancel_left hrest)).2.symm⟩

/-- A reference is a number sign, and there is none in it further on. -/
theorem IsTagIndex.not_mem_tail {digits : List Char}
    (hdigits : IsTagIndex engine digits) : '#' ∉ (tagText digits).tail := by
  have hmem := hdigits.not_mem (c := '#') (by decide) (by decide)
  simp [tagText, hmem]

theorem tags_eq_or_after {before word after before' word' after' : List Char}
    (hword : ∃ digits, word = tagText digits ∧ IsTagIndex engine digits)
    (hword' : ∃ digits, word' = tagText digits ∧ IsTagIndex engine digits)
    (htext : before ++ (word ++ after) = before' ++ (word' ++ after'))
    (hle : before.length ≤ before'.length) :
    before' = before ∧ word' = word ∧ after' = after ∨
      ∃ gap, before' = before ++ (word ++ gap) ∧
        after = gap ++ (word' ++ after') := by
  obtain ⟨digits, rfl, hdigits⟩ := hword
  obtain ⟨digits', rfl, hdigits'⟩ := hword'
  obtain ⟨gap, rfl⟩ : before <+: before' :=
    List.prefix_of_prefix_length_le ⟨_, htext⟩ ⟨_, rfl⟩ hle
  rw [List.append_assoc] at htext
  have hrest := List.append_cancel_left htext
  rcases List.append_eq_append_iff.mp hrest with
    ⟨between, rfl, hafter⟩ | ⟨between, hinner, hafter⟩
  · exact Or.inr ⟨between, rfl, hafter⟩
  · cases gap with
    | nil =>
        obtain ⟨rfl, rfl⟩ := tagText_append_inj hdigits hdigits' hrest
        exact Or.inl ⟨List.append_nil _, rfl, rfl⟩
    | cons c gap =>
        -- the second number sign would be in the first reference
        cases between with
        | nil =>
            refine Or.inr ⟨[], ?_, ?_⟩
            · rw [hinner, List.append_nil, List.append_nil]
            · exact hafter.symm
        | cons d between =>
            refine absurd ?_ hdigits.not_mem_tail
            have hd : d = '#' := (List.cons.inj hafter).1.symm
            rw [hinner, hd]
            simp

/-- A reference is a match wherever it stands. -/
def tagMatch (before after : List Char) {word : List Char}
    (hword : ∃ digits, word = tagText digits ∧ IsTagIndex engine digits) :
    (tagRe engine).Match (before ++ (word ++ after)) where
  before := before
  left := []
  word := word
  right := []
  after := after
  text_eq := rfl
  left_matches := ⟨"", List.mem_singleton_self _, rfl⟩
  group_matches := matches_tagRegex_iff.mpr hword
  right_matches := ⟨"", List.mem_singleton_self _, rfl⟩

/-- The references in a text. -/
def tagFinder (engine : RegexEngine) : Finder where
  find := engine.captures (tagRe engine)
  Occurs _ word _ := ∃ digits, word = tagText digits ∧ IsTagIndex engine digits
  ne_nil := by
    rintro _ word _ ⟨digits, rfl, _⟩
    exact List.cons_ne_nil _ _
  exists_of_find := by
    intro text span hspan
    obtain ⟨found, rfl, hleast⟩ := engine.exists_match_of_captures hspan
    obtain ⟨empty, hempty, hleft⟩ := found.left_matches
    cases List.mem_singleton.mp hempty
    refine ⟨found.before ++ found.left, found.word, found.right ++ found.after,
      found.text_eq.trans (List.append_assoc _ _ _).symm,
      matches_tagRegex_iff.mp found.group_matches, rfl, ?_⟩
    rintro before word after rfl hword
    rw [hleft, String.toList_empty, List.append_nil]
    exact hleast (tagMatch before after hword)
  find_ne_none := fun hword => engine.captures_ne_none (tagMatch _ _ hword)
  eq_or_after := tags_eq_or_after
  occurs_after_iff := fun _ => Iff.rfl

end Tags

/-- Spans are moved, the other segments have none. -/
def applyOffset (segments : List ContentSegment) (offset : ℕ) :
    List ContentSegment :=
  segments.map fun
    | .hyperlink span => .hyperlink (span.offset offset)
    | .plain span => .plain (span.offset offset)
    | segment => segment

theorem applyOffset_append (first second : List ContentSegment) (offset : ℕ) :
    applyOffset (first ++ second) offset =
      applyOffset first offset ++ applyOffset second offset :=
  List.map_append

theorem applyOffset_tagReference_cons (index : ℕ) (segments : List ContentSegment)
    (offset : ℕ) :
    applyOffset (.tagReference index :: segments) offset =
      .tagReference index :: applyOffset segments offset := rfl

/-- Two moves are one. -/
theorem applyOffset_applyOffset (segments : List ContentSegment)
    (first second : ℕ) :
    applyOffset (applyOffset segments first) second =
      applyOffset segments (second + first) := by
  rw [applyOffset, applyOffset, applyOffset, List.map_map]
  refine List.map_congr_left fun segment _ => ?_
  cases segment with
  | nostrUrl url => rfl
  | tagReference index => rfl
  | hyperlink span =>
      exact congrArg ContentSegment.hyperlink (span.offset_offset first second)
  | plain span =>
      exact congrArg ContentSegment.plain (span.offset_offset first second)

/-- What is pushed for a span: an empty one between two links is left out. -/
def linkSegment (span : LinkSpan) : Option ContentSegment :=
  if span.isLink then some (.hyperlink ⟨span.start, span.stop⟩)
  else if !span.asStr.isEmpty then some (.plain ⟨span.start, span.stop⟩)
  else none

theorem linkSegment_cases (span : LinkSpan) :
    linkSegment span = some (.hyperlink ⟨span.start, span.stop⟩) ∨
      linkSegment span = some (.plain ⟨span.start, span.stop⟩) ∨
        linkSegment span = none ∧ span.asStr = [] := by
  unfold linkSegment
  split
  · exact Or.inl rfl
  · split
    · exact Or.inr (Or.inl rfl)
    · rename_i hempty
      exact Or.inr (Or.inr ⟨rfl, by simpa using hempty⟩)

/-- Pass 3, hyperlinks. -/
def shatterContent3 (links : LinkFinder) (content : List Char) :
    List ContentSegment :=
  (links.spans content).filterMap linkSegment

/-- The loop of pass 2, from the end of the last reference on. -/
def shatterContent2From (engine : RegexEngine) (links : LinkFinder)
    (content : List Char) (pos : ℕ) (segments : List ContentSegment) :
    Outcome Error (List ContentSegment) :=
  match _hrest : getFrom content pos with
  | none => .panic
  | some rest =>
      match _hspan : (tagFinder engine).find rest with
      | none => .ok (segments ++ applyOffset (shatterContent3 links rest) pos)
      | some (start, stop) => do
          let gap ← Outcome.unwrap (getRange content pos (pos + start))
          let digits ← Outcome.unwrap
            (getRange content (pos + start + 2) (pos + stop - 1))
          let u ← Outcome.unwrap (parseUsize digits)
          shatterContent2From engine links content (pos + stop)
            (segments ++ applyOffset (shatterContent3 links gap) pos ++
              [.tagReference u])
termination_by utf8Len content - pos
decreasing_by
  have hlt := (tagFinder engine).cursor_lt _hrest _hspan
  omega

theorem shatterContent2From_unfold (engine : RegexEngine) (links : LinkFinder)
    (content : List Char) (pos : ℕ) (segments : List ContentSegment) :
    shatterContent2From engine links content pos segments =
      match getFrom content pos with
      | none => .panic
      | some rest =>
          match (tagFinder engine).find rest with
          | none => .ok (segments ++ applyOffset (shatterContent3 links rest) pos)
          | some (start, stop) =>
              Outcome.unwrap (getRange content pos (pos + start)) >>= fun gap =>
                Outcome.unwrap (getRange content (pos + start + 2) (pos + stop - 1))
                  >>= fun digits => Outcome.unwrap (parseUsize digits) >>= fun u =>
                    shatterContent2From engine links content (pos + stop)
                      (segments ++ applyOffset (shatterContent3 links gap) pos ++
                        [.tagReference u]) := by
  rw [shatterContent2From]
  split
  · rename_i hrest
    rw [hrest]
  · rename_i hrest
    rw [hrest]
    dsimp only
    split
    · rename_i hspan
      rw [hspan]
    · rename_i hspan
      rw [hspan]

theorem shatterContent2From_of_none {engine : RegexEngine} (links : LinkFinder)
    (before : List Char) {text : List Char} (segments : List ContentSegment)
    (hnone : (tagFinder engine).find text = none) :
    shatterContent2From engine links (before ++ text) (utf8Len before) segments =
      .ok (segments ++ applyOffset (shatterContent3 links text) (utf8Len before)) := by
  rw [shatterContent2From_unfold, getFrom_append]
  dsimp only
  rw [hnone]

theorem shatterContent2From_of_foundAt {engine : RegexEngine} (links : LinkFinder)
    (before : List Char) {gap digits rest : List Char}
    (segments : List ContentSegment)
    (hfound : (tagFinder engine).FoundAt gap (tagText digits) rest) :
    shatterContent2From engine links
        (before ++ (gap ++ (tagText digits ++ rest))) (utf8Len before) segments =
      Outcome.unwrap (parseUsize digits) >>= fun u =>
        shatterContent2From engine links
          (before ++ (gap ++ (tagText digits ++ rest)))
          (utf8Len (before ++ (gap ++ tagText digits)))
          (segments ++ applyOffset (shatterContent3 links gap) (utf8Len before) ++
            [.tagReference u]) := by
  have hgap := getRange_append before gap (tagText digits ++ rest)
  have hdigits := getRange_append (before ++ (gap ++ ['#', '['])) digits (']' :: rest)
  have hlength : utf8Len (tagText digits) = utf8Len digits + 3 := by
    simp [tagText, show '#'.utf8Size = 1 from rfl, show '['.utf8Size = 1 from rfl,
      show ']'.utf8Size = 1 from rfl]
  have hstart : utf8Len (before ++ (gap ++ ['#', '['])) =
      utf8Len before + utf8Len gap + 2 := by
    simp [show '#'.utf8Size = 1 from rfl, show '['.utf8Size = 1 from rfl,
      Nat.add_assoc]
  have hstop : utf8Len before + (utf8Len gap + utf8Len (tagText digits)) - 1 =
      utf8Len before + utf8Len gap + 2 + utf8Len digits := by
    omega
  have hend : utf8Len before + (utf8Len gap + utf8Len (tagText digits)) =
      utf8Len (before ++ (gap ++ tagText digits)) := by
    rw [String.utf8Len_append, String.utf8Len_append]
  have htext : before ++ (gap ++ ['#', '[']) ++ digits ++ (']' :: rest) =
      before ++ (gap ++ (tagText digits ++ rest)) := by
    simp [tagText]
  rw [htext, hstart, ← hstop] at hdigits
  rw [List.append_assoc] at hgap
  rw [shatterContent2From_unfold, getFrom_append]
  dsimp only
  rw [hfound]
  dsimp only
  rw [hgap, Outcome.unwrap_some, Outcome.ok_bind, hdigits, Outcome.unwrap_some,
    Outcome.ok_bind, hend]

/-- Pass 2, references to tags. -/
def shatterContent2 (engine : RegexEngine) (links : LinkFinder)
    (content : List Char) : Outcome Error (List ContentSegment) :=
  shatterContent2From engine links content 0 []

/-- What is pushed for a URL. -/
def urlSegment (span : Span) : Option NostrBech32 → ContentSegment
  | some nbech => .nostrUrl ⟨nbech⟩
  | none => .plain span

/-- The loop of pass 1, on what is left of the content.  The span of a URL that
is not recognised counts from the beginning of what is left. -/
def shatterContent1From (curve : Secp256k1) (bech32 : Bech32) (engine : RegexEngine)
    (links : LinkFinder) (content : List Char) (offset : ℕ)
    (segments : List ContentSegment) : Outcome Error (List ContentSegment) :=
  match _hspan : (NostrBech32.urlFinder engine).find content with
  | none => do
      let inner ← shatterContent2 engine links content
      return segments ++ applyOffset inner offset
  | some (start, stop) => do
      let gap ← Outcome.unwrap (getRange content 0 start)
      let inner ← shatterContent2 engine links gap
      let word ← Outcome.unwrap (getRange content (start + 6) stop)
      let nbech ← NostrBech32.tryFromString curve bech32 word
      match _hrest : getFrom content stop with
      | none => .panic
      | some rest =>
          shatterContent1From curve bech32 engine links rest (offset + stop)
            (segments ++ applyOffset inner offset ++ [urlSegment ⟨start, stop⟩ nbech])
termination_by content.length
decreasing_by
  exact length_lt_of_getFrom _hrest
    ((NostrBech32.urlFinder engine).stop_pos _hspan)

/-- The text of a URL. -/
def urlText (word : List Char) : List Char := "nostr:".toList ++ word

theorem urlText_append (word rest : List Char) :
    urlText word ++ rest = "nostr:".toList ++ (word ++ rest) :=
  List.append_assoc _ _ _

theorem urlText_ne_nil (word : List Char) : urlText word ≠ [] :=
  List.append_ne_nil_of_left_ne_nil (by decide) word

theorem utf8Len_urlText (word : List Char) :
    utf8Len (urlText word) = utf8Len "nostr:".toList + utf8Len word :=
  String.utf8Len_append _ _

section Pass1

variable {curve : Secp256k1} {bech32 : Bech32} {engine : RegexEngine}
  {links : LinkFinder}

theorem shatterContent1From_of_none {content : List Char} (offset : ℕ)
    (segments : List ContentSegment)
    (hnone : (NostrBech32.urlFinder engine).find content = none) :
    shatterContent1From curve bech32 engine links content offset segments =
      shatterContent2 engine links content >>= fun inner =>
        .ok (segments ++ applyOffset inner offset) := by
  rw [shatterContent1From]
  split
  · rfl
  · rename_i hspan
    rw [hnone] at hspan
    cases hspan

theorem shatterContent1From_of_foundAt {gap word rest : List Char} (offset : ℕ)
    (segments : List ContentSegment)
    (hfound : (NostrBech32.urlFinder engine).FoundAt gap (urlText word) rest) :
    shatterContent1From curve bech32 engine links (gap ++ (urlText word ++ rest))
        offset segments =
      shatterContent2 engine links gap >>= fun inner =>
        NostrBech32.tryFromString curve bech32 word >>= fun nbech =>
          shatterContent1From curve bech32 engine links rest
            (offset + utf8Len (gap ++ urlText word))
            (segments ++ applyOffset inner offset ++
              [urlSegment ⟨utf8Len gap, utf8Len gap + utf8Len (urlText word)⟩
                nbech]) := by
  have hgap := getRange_append [] gap (urlText word ++ rest)
  have hword := getRange_append (gap ++ "nostr:".toList) word rest
  have hrest := getFrom_append (gap ++ urlText word) rest
  have hscheme : utf8Len "nostr:".toList = 6 := rfl
  rw [List.nil_append, String.utf8Len_nil, Nat.zero_add] at hgap
  rw [List.append_assoc, String.utf8Len_append] at hrest
  have htext : gap ++ "nostr:".toList ++ word ++ rest =
      gap ++ (urlText word ++ rest) := by
    rw [urlText_append, List.append_assoc, List.append_assoc]
  have hstop : utf8Len (gap ++ "nostr:".toList) + utf8Len word =
      utf8Len gap + utf8Len (urlText word) := by
    rw [utf8Len_urlText, String.utf8Len_append, Nat.add_assoc]
  rw [htext, hstop, String.utf8Len_append, hscheme] at hword
  rw [shatterContent1From]
  split
  · rename_i hnone
    rw [hfound] at hnone
    cases hnone
  · rename_i hspan
    cases hfound.symm.trans hspan
    rw [hgap, Outcome.unwrap_some, Outcome.ok_bind]
    refine bind_congr fun inner => ?_
    rw [hword, Outcome.unwrap_some, Outcome.ok_bind, String.utf8Len_append]
    refine bind_congr fun nbech => ?_
    split
    · rename_i hnone
      rw [hrest] at hnone
      cases hnone
    · rename_i hget
      cases hrest.symm.trans hget
      rfl

end Pass1

/-- Pass 1, URLs. -/
def shatterContent1 (curve : Secp256k1) (bech32 : Bech32) (engine : RegexEngine)
    (links : LinkFinder) (content : List Char) :
    Outcome Error (List ContentSegment) :=
  shatterContent1From curve bech32 engine links content 0 []

/-- A sequence of segments, and the content their spans refer to. -/
structure ShatteredContent where
  segments : List ContentSegment
  allocated : List Char
deriving Repr, DecidableEq

/-- `is_char_boundary`. -/
def isCharBoundary (text : List Char) (pos : ℕ) : Bool :=
  (splitAtByte text pos).isSome

namespace ShatteredContent

/-- Break content into segments. -/
def new (curve : Secp256k1) (bech32 : Bech32) (engine : RegexEngine)
    (links : LinkFinder) (content : List Char) : Outcome Error ShatteredContent := do
  let segments ← shatterContent1 curve bech32 engine links content
  return ⟨segments, content⟩

/-- The part of the content in a span. -/
def slice (content : ShatteredContent) (span : Span) :
    Outcome Error (Option (List Char)) :=
  if isCharBoundary content.allocated span.start &&
      isCharBoundary content.allocated span.stop then
    some <$> Outcome.unwrap (getRange content.allocated span.start span.stop)
  else .ok none

end ShatteredContent

end Types

end Gnostr
