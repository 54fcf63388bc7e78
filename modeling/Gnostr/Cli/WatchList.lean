/-
The relay watch list of `watch_list.rs`: an array of URLs that is read character by
character.  The part before the closing bracket is never collected, and a text without one
is read beyond its end.
-/
import Gnostr.Lib.Outcome
import Mathlib.Data.List.DropRight

namespace Gnostr

namespace Cli

/-- The loop over the characters; a part that a separator ends is pushed so many times. -/
def collectParts (pushes : ℕ) (part : List Char) (collected : List (List Char)) :
    List Char → Outcome Empty (List (List Char))
  | [] => .panic
  | c :: chars =>
      if c = ']' then .ok collected
      else if c = ',' ∨ c = ' ' then
        if part = [] then collectParts pushes part collected chars
        else collectParts pushes [] (collected ++ List.replicate pushes part) chars
      else collectParts pushes (part ++ [c]) collected chars

/-- An empty text has no parts; of others so many characters are skipped. -/
def collectUrls (pushes skipped : ℕ) (urlsStr : List Char) :
    Outcome Empty (List (List Char)) :=
  if urlsStr = [] then .ok [] else collectParts pushes [] [] (urlsStr.drop skipped)

def parseJson (urlsStr : List Char) : Outcome Empty (List (List Char)) :=
  collectUrls 2 1 urlsStr

def parseUrls (urlsStr : List Char) : Outcome Empty (List (List Char)) :=
  collectUrls 1 1 urlsStr

def strippedUrls (urlsStr : List Char) : Outcome Empty (List (List Char)) :=
  collectUrls 1 2 urlsStr

section Spec

/-- A URL without commas, spaces, quotes and brackets. -/
def PlainUrl (url : List Char) : Prop := ∀ c ∈ url, c ∉ [',', ' ', '"', '[', ']']

def quoted (url : List Char) : List Char := '"' :: url ++ ['"']

theorem quoted_ne_nil (url : List Char) : quoted url ≠ [] := List.cons_ne_nil _ _

/-- The elements behind the first, each with a comma and perhaps a space before it. -/
def moreElements (more : List (Bool × List Char)) : List Char :=
  more.flatMap fun element =>
    ',' :: (if element.1 = true then [' '] else []) ++ quoted element.2

/-- The text is an array of these URLs. -/
def UrlArray (urls : List (List Char)) (text : List Char) : Prop :=
  (∀ url ∈ urls, PlainUrl url) ∧
    match urls with
    | [] => text = ['[', ']']
    | url :: urls => ∃ more : List (Bool × List Char), urls = more.map Prod.snd ∧
        text = '[' :: quoted url ++ moreElements more ++ [']']

/-- A part without the quotes around it. -/
def unquoted (part : List Char) : List Char :=
  (part.dropWhile (· = '"')).rdropWhile (· = '"')

/-- The result is these URLs, up to quotes. -/
def Yields (result : Outcome Empty (List (List Char))) (urls : List (List Char)) : Prop :=
  ∃ parts, result = .ok parts ∧ parts.map unquoted = urls

/-- What is promised of the three functions: the elements of an array, and a result for any
other text. -/
structure ReadsWatchList (text : List Char) : Prop where
  elements : ∀ urls, UrlArray urls text →
    Yields (parseUrls text) urls ∧ Yields (parseJson text) urls ∧
      Yields (strippedUrls text) urls
  returns : (¬ ∃ urls, UrlArray urls text) →
    (parseUrls text).Returns ∧ (parseJson text).Returns ∧ (strippedUrls text).Returns

end Spec

section Loop

/-- The loop comes back if it finds a closing bracket. -/
theorem collectParts_returns_iff {pushes : ℕ} {part : List Char}
    {collected : List (List Char)} {chars : List Char} :
    (collectParts pushes part collected chars).Returns ↔ ']' ∈ chars := by
  induction chars generalizing part collected with
  | nil => simp [collectParts, Outcome.Returns]
  | cons c chars ih =>
      by_cases hclose : c = ']'
      · simp [collectParts, hclose]
      · have hmem : ']' ∈ c :: chars ↔ ']' ∈ chars := by simp [Ne.symm hclose]
        rw [collectParts, if_neg hclose, hmem]
        split_ifs
        · exact ih
        · exact ih
        · exact ih

theorem collectUrls_returns_iff {pushes skipped : ℕ} {text : List Char} :
    (collectUrls pushes skipped text).Returns ↔ text = [] ∨ ']' ∈ text.drop skipped := by
  rw [collectUrls]
  split_ifs with hempty
  · simp [hempty]
  · rw [collectParts_returns_iff]
    simp [hempty]

/-- A word without separators is added to the part. -/
theorem collectParts_word {word : List Char} (hword : ∀ c ∈ word, c ∉ [',', ' ', ']'])
    (pushes : ℕ) (part : List Char) (collected : List (List Char)) (chars : List Char) :
    collectParts pushes part collected (word ++ chars) =
      collectParts pushes (part ++ word) collected chars := by
  induction word generalizing part with
  | nil => simp
  | cons c word ih =>
      have hc := hword c List.mem_cons_self
      simp only [List.mem_cons, List.not_mem_nil, or_false, not_or] at hc
      rw [List.cons_append, collectParts, if_neg hc.2.2,
        if_neg (not_or.mpr ⟨hc.1, hc.2.1⟩),
        ih (fun d hd => hword d (List.mem_cons_of_mem c hd)), List.append_assoc]
      rfl

theorem notMem_of_plainUrl {url : List Char} (hurl : PlainUrl url) :
    ∀ c ∈ quoted url, c ∉ [',', ' ', ']'] := by
  intro c hc
  simp only [quoted, List.cons_append, List.mem_cons, List.mem_append, List.not_mem_nil,
    or_false] at hc
  rcases hc with rfl | hc | rfl
  · decide
  · have hplain := hurl c hc
    simp only [List.mem_cons, List.not_mem_nil, or_false, not_or] at hplain ⊢
    exact ⟨hplain.1, hplain.2.1, hplain.2.2.2.2⟩
  · decide

/-- What is collected from words with separators between them: all but the last. -/
theorem collectParts_words (pushes : ℕ) {word : List Char} (hne : word ≠ [])
    (hword : ∀ c ∈ word, c ∉ [',', ' ', ']']) {more : List (Bool × List Char)}
    (hmore : ∀ element ∈ more, PlainUrl element.2) (collected : List (List Char)) :
    collectParts pushes [] collected (word ++ (moreElements more ++ [']'])) =
      .ok (collected ++ (word :: more.map fun element => quoted element.2).dropLast.flatMap
        (List.replicate pushes)) := by
  induction more generalizing word collected with
  | nil =>
      rw [collectParts_word hword]
      simp [moreElements, collectParts]
  | cons element more ih =>
      have hnext := ih (quoted_ne_nil element.2)
        (notMem_of_plainUrl (hmore element List.mem_cons_self))
        (fun later hlater => hmore later (List.mem_cons_of_mem element hlater))
        (collected ++ List.replicate pushes word)
      have hspace : ∀ chars,
          collectParts pushes [] (collected ++ List.replicate pushes word)
              ((if element.1 = true then [' '] else []) ++ chars) =
            collectParts pushes [] (collected ++ List.replicate pushes word) chars := by
        intro chars
        split_ifs
        · rfl
        · rfl
      have htext : moreElements (element :: more) ++ [']'] =
          ',' :: ((if element.1 = true then [' '] else []) ++
            (quoted element.2 ++ (moreElements more ++ [']']))) := by
        simp [moreElements]
      have hcomma : ',' ≠ ']' := by decide
      rw [htext, collectParts_word hword, List.nil_append, collectParts, if_neg hcomma,
        if_pos (.inl rfl), if_neg hne, hspace, hnext, List.map_cons,
        List.dropLast_cons_of_ne_nil (List.cons_ne_nil _ _), List.flatMap_cons,
        List.append_assoc]

end Loop

section Main

/-- Of an array with elements, all but the last are returned. -/
theorem parseUrls_of_urlArray {url : List Char} {urls : List (List Char)} {text : List Char}
    (harray : UrlArray (url :: urls) text) :
    parseUrls text = .ok ((url :: urls).map quoted).dropLast := by
  obtain ⟨hplain, more, rfl, rfl⟩ := harray
  have hword := notMem_of_plainUrl (hplain url List.mem_cons_self)
  have hmore : ∀ element ∈ more, PlainUrl element.2 := fun element helement =>
    hplain _ (List.mem_cons_of_mem _ (List.mem_map_of_mem helement))
  have hwords := collectParts_words 1 (quoted_ne_nil url) hword hmore []
  have htext : '[' :: quoted url ++ moreElements more ++ [']'] =
      '[' :: (quoted url ++ (moreElements more ++ [']'])) := by simp
  have honce : List.replicate 1 = fun part : List Char => [part] := rfl
  rw [htext, parseUrls, collectUrls, if_neg (List.cons_ne_nil _ _), List.drop_one,
    List.tail_cons, hwords, honce, List.flatMap_singleton', List.nil_append, List.map_cons,
    List.map_map]
  rfl

/-- No array is read as promised. -/
theorem not_readsWatchList_of_urlArray {urls : List (List Char)} {text : List Char}
    (harray : UrlArray urls text) : ¬ ReadsWatchList text := by
  intro hreads
  obtain ⟨⟨parts, hparts, hcount⟩, -, stripped, hstripped, -⟩ := hreads.elements urls harray
  cases urls with
  | nil =>
      obtain rfl := harray.2
      cases hstripped
  | cons url urls =>
      rw [parseUrls_of_urlArray harray] at hparts
      obtain rfl := Outcome.ok.inj hparts
      have hlength := congrArg List.length hcount
      simp at hlength

/-- The watch list is read as promised exactly if it is no array and empty or with a bracket
behind its second character. -/
theorem readsWatchList_iff (text : List Char) :
    ReadsWatchList text ↔
      (¬ ∃ urls, UrlArray urls text) ∧ (text = [] ∨ ']' ∈ text.drop 2) := by
  have hreturns : ((parseUrls text).Returns ∧ (parseJson text).Returns ∧
      (strippedUrls text).Returns) ↔ (text = [] ∨ ']' ∈ text.drop 2) := by
    simp only [parseUrls, parseJson, strippedUrls, collectUrls_returns_iff]
    have hlater : ']' ∈ text.drop 2 → ']' ∈ text.drop 1 := fun hmem =>
      (List.drop_sublist_drop_left text (by decide : 1 ≤ 2)).subset hmem
    tauto
  constructor
  · intro hreads
    have hother : ¬ ∃ urls, UrlArray urls text := fun ⟨urls, harray⟩ =>
      not_readsWatchList_of_urlArray harray hreads
    exact ⟨hother, hreturns.mp (hreads.returns hother)⟩
  · rintro ⟨hother, hbracket⟩
    exact ⟨fun urls harray => absurd ⟨urls, harray⟩ hother, fun _ => hreturns.mpr hbracket⟩

theorem not_readsWatchList_relay :
    ¬ ReadsWatchList "[\"wss://relay.damus.io\"]".toList := by
  have hplain : PlainUrl "wss://relay.damus.io".toList := by
    intro c hc
    simpa using List.all_eq_true.mp
      (by decide : "wss://relay.damus.io".toList.all
        (fun c => !decide (c ∈ [',', ' ', '"', '[', ']'])) = true) c hc
  have harray : UrlArray ["wss://relay.damus.io".toList]
      "[\"wss://relay.damus.io\"]".toList :=
    ⟨by simpa using hplain, [], rfl, by decide⟩
  exact not_readsWatchList_of_urlArray harray

end Main

end Cli

end Gnostr
