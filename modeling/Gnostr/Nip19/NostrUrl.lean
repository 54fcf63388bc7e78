/-
Finding references in a text: the rest of `types/src/nostr/nostr_url.rs`.  What
can go wrong is the payload of a profile or of a relay that is shorter than two
bytes, and nothing else.
-/
import Gnostr.Lib.Delimited
import Gnostr.Nip19.NostrBech32

namespace Gnostr

namespace Types

open String (utf8Len)

namespace NostrBech32

/-- `[ac-hj-np-z02-9]` -/
def isBech32Char (c : Char) : Bool :=
  c == 'a' || ('c' ≤ c && c ≤ 'h') || ('j' ≤ c && c ≤ 'n') ||
    ('p' ≤ c && c ≤ 'z') || c == '0' || ('2' ≤ c && c ≤ '9')

/-- `nsec|npub|nprofile|note|nevent|nrelay|naddr` -/
def referenceHrps : List String :=
  ["nsec", "npub", "nprofile", "note", "nevent", "nrelay", "naddr"]

/-- `(?:nsec|npub|nprofile|note|nevent|nrelay|naddr)1[ac-hj-np-z02-9]{7,}` -/
def referenceRegex : Regex :=
  .seq (.anyOf referenceHrps) (.seq (.anyOf ["1"]) (.atLeast 7 isBech32Char))

/-- `(?:^|[^a-zA-Z0-9])(` … `)(?:$|[^a-zA-Z0-9])` -/
def bech32Re : GroupRegex := .delimited Char.isAlphanum referenceRegex

/-- The same with `nostr:` at the beginning of the group. -/
def nostrUrlRegex : Regex := .seq (.anyOf ["nostr:"]) referenceRegex

def nostrUrlRe : GroupRegex := .delimited Char.isAlphanum nostrUrlRegex

/-- What the expression for a reference matches. -/
def IsReference (word : List Char) : Prop :=
  ∃ hrp ∈ referenceHrps, ∃ data : List Char,
    word = hrp.toList ++ ('1' :: data) ∧ 7 ≤ data.length ∧
      ∀ c ∈ data, isBech32Char c = true

theorem matches_referenceRegex_iff (before word after : List Char) :
    referenceRegex.Matches before word after ↔ IsReference word := by
  constructor
  · rintro ⟨_, _, rfl, ⟨hrp, hhrp, rfl⟩, _, data, rfl, ⟨one, hone, rfl⟩,
      hlength, hdata⟩
    cases List.mem_singleton.mp hone
    exact ⟨hrp, hhrp, data, rfl, hlength, hdata⟩
  · rintro ⟨hrp, hhrp, data, rfl, hlength, hdata⟩
    exact ⟨_, _, rfl, ⟨hrp, hhrp, rfl⟩, _, data, rfl,
      ⟨"1", List.mem_singleton_self _, rfl⟩, hlength, hdata⟩

theorem matches_nostrUrlRegex_iff (before word after : List Char) :
    nostrUrlRegex.Matches before word after ↔
      ∃ body, word = "nostr:".toList ++ body ∧ IsReference body := by
  constructor
  · rintro ⟨_, body, rfl, ⟨scheme, hscheme, rfl⟩, hbody⟩
    cases List.mem_singleton.mp hscheme
    exact ⟨body, rfl, (matches_referenceRegex_iff _ _ _).mp hbody⟩
  · rintro ⟨body, rfl, hbody⟩
    exact ⟨_, body, rfl, ⟨"nostr:", List.mem_singleton_self _, rfl⟩,
      (matches_referenceRegex_iff _ _ _).mpr hbody⟩

instance (word : List Char) : Decidable (IsReference word) :=
  decidable_of_iff _ (matches_referenceRegex_iff [] word [])

theorem toNat_lt_of_isBech32Char {c : Char} (hc : isBech32Char c = true) :
    c.toNat < 128 := by
  simp only [isBech32Char, Bool.or_eq_true, Bool.and_eq_true, beq_iff_eq,
    decide_eq_true_eq, Char.le_def, UInt32.le_iff_toNat_le, Char.reduceVal,
    UInt32.reduceToNat] at hc
  change c.val.toNat < 128
  rcases hc with ((((rfl | hc) | hc) | hc) | rfl) | hc
  · decide
  · omega
  · omega
  · omega
  · decide
  · omega

theorem isAlphanum_of_isBech32Char {c : Char} (hc : isBech32Char c = true) :
    c.isAlphanum = true := by
  have htable : ∀ n < 128, isBech32Char (Char.ofNat n) = true →
      (Char.ofNat n).isAlphanum = true := by
    decide +kernel
  have hentry := htable c.toNat (toNat_lt_of_isBech32Char hc)
  rw [Char.ofNat_toNat] at hentry
  exact hentry hc

theorem IsReference.isAlphanum {word : List Char} (hword : IsReference word) :
    ∀ c ∈ word, c.isAlphanum = true := by
  have hhrps : ∀ hrp ∈ referenceHrps, hrp.toList.all Char.isAlphanum = true := by
    decide
  obtain ⟨hrp, hhrp, data, rfl, _, hdata⟩ := hword
  intro c hc
  rcases List.mem_append.mp hc with hc | hc
  · exact List.all_eq_true.mp (hhrps hrp hhrp) c hc
  · rcases List.mem_cons.mp hc with rfl | hc
    · decide
    · exact isAlphanum_of_isBech32Char (hdata c hc)

theorem IsReference.length_le {word : List Char} (hword : IsReference word) :
    8 ≤ word.length := by
  obtain ⟨hrp, _, data, rfl, hlength, _⟩ := hword
  rw [List.length_append, List.length_cons]
  omega

theorem IsReference.ne_nil {word : List Char} (hword : IsReference word) :
    word ≠ [] :=
  List.ne_nil_of_length_pos (Nat.lt_of_lt_of_le (by decide) hword.length_le)

/-- A reference stands alone. -/
theorem leadAndBody : LeadAndBody Char.isAlphanum [] IsReference :=
  ⟨IsReference.ne_nil, IsReference.isAlphanum, Or.inl rfl⟩

/-- A reference behind the scheme stands alone: the scheme is no reference. -/
theorem leadAndBody_nostr :
    LeadAndBody Char.isAlphanum "nostr:".toList IsReference := by
  refine ⟨IsReference.ne_nil, IsReference.isAlphanum, Or.inr ?_⟩
  refine ⟨"nostr".toList, ':', rfl, by decide, List.all_eq_true.mp (by decide),
    by decide, ?_⟩
  intro hreference
  exact absurd hreference.length_le (by decide)

def bech32Finder (engine : RegexEngine) : Finder :=
  leadAndBody.finder engine fun before word after =>
    (matches_referenceRegex_iff before word after).trans
      ⟨fun hword => ⟨word, rfl, hword⟩, fun ⟨_, heq, hbody⟩ => heq ▸ hbody⟩

def urlFinder (engine : RegexEngine) : Finder :=
  leadAndBody_nostr.finder engine matches_nostrUrlRegex_iff

/-- Start and end position of the next reference. -/
def findNostrBech32Pos (engine : RegexEngine) (s : List Char) : Option (ℕ × ℕ) :=
  engine.captures bech32Re s

/-- Start and end position of the next URL. -/
def findNostrUrlPos (engine : RegexEngine) (s : List Char) : Option (ℕ × ℕ) :=
  engine.captures nostrUrlRe s

theorem find_bech32Finder (engine : RegexEngine) :
    (bech32Finder engine).find = findNostrBech32Pos engine := rfl

theorem find_urlFinder (engine : RegexEngine) :
    (urlFinder engine).find = findNostrUrlPos engine := rfl

end NostrBech32

/-- The loop of `find_all_in_string`: what is found is tried and left out when it
is nothing after all; the search goes on behind it. -/
def findAllFrom {α : Type} (finder : Finder)
    (tryFrom : List Char → Outcome Error (Option α)) (s : List Char) (cursor : ℕ)
    (output : List α) : Outcome Error (List α) :=
  match _hrest : getFrom s cursor with
  | none => .panic
  | some rest =>
      match _hspan : finder.find rest with
      | none => .ok output
      | some (relstart, relend) => do
          let word ← Outcome.unwrap (getRange s (cursor + relstart) (cursor + relend))
          let value ← tryFrom word
          findAllFrom finder tryFrom s (cursor + relend) (output ++ value.toList)
termination_by utf8Len s - cursor
decreasing_by
  have hlt := finder.cursor_lt _hrest _hspan
  omega

section FindAll

variable {α : Type} {finder : Finder}
  {tryFrom : List Char → Outcome Error (Option α)}

/-- One round of the loop. -/
def pushFound (tryFrom : List Char → Outcome Error (Option α)) (output : List α)
    (word : List Char) : Outcome Error (List α) := do
  let value ← tryFrom word
  return output ++ value.toList

theorem findAllFrom_unfold (s : List Char) (cursor : ℕ) (output : List α) :
    findAllFrom finder tryFrom s cursor output =
      match getFrom s cursor with
      | none => .panic
      | some rest =>
          match finder.find rest with
          | none => .ok output
          | some (relstart, relend) =>
              Outcome.unwrap (getRange s (cursor + relstart) (cursor + relend)) >>=
                fun word => tryFrom word >>= fun value =>
                  findAllFrom finder tryFrom s (cursor + relend)
                    (output ++ value.toList) := by
  rw [findAllFrom]
  split
  · rename_i hrest
    rw [hrest]
  · rename_i hrest
    rw [hrest]
    dsimp only
    split
    · rename_i hspan
      rw [hspan]
    · rename_i hspan
      rw [hspan]

theorem findAllFrom_of_none {s : List Char} {cursor : ℕ} {rest : List Char}
    (output : List α) (hrest : getFrom s cursor = some rest)
    (hnone : finder.find rest = none) :
    findAllFrom finder tryFrom s cursor output = .ok output := by
  rw [findAllFrom_unfold, hrest]
  dsimp only
  rw [hnone]

theorem findAllFrom_of_foundAt (before : List Char) {gap word rest : List Char}
    (output : List α) (hfound : finder.FoundAt gap word rest) :
    findAllFrom finder tryFrom (before ++ (gap ++ (word ++ rest))) (utf8Len before)
        output =
      pushFound tryFrom output word >>= fun output =>
        findAllFrom finder tryFrom (before ++ (gap ++ (word ++ rest)))
          (utf8Len (before ++ (gap ++ word))) output := by
  have hword := getRange_append (before ++ gap) word rest
  have hend : utf8Len before + (utf8Len gap + utf8Len word) =
      utf8Len (before ++ (gap ++ word)) := by
    rw [String.utf8Len_append, String.utf8Len_append]
  rw [String.utf8Len_append, List.append_assoc, List.append_assoc, Nat.add_assoc]
    at hword
  rw [findAllFrom_unfold, getFrom_append]
  dsimp only
  rw [hfound]
  dsimp only
  rw [hword, Outcome.unwrap_some, Outcome.ok_bind, pushFound, bind_assoc, hend]
  rfl

/-- The loop goes through the words that are found in the text. -/
theorem findAllFrom_eq (before text : List Char) (output : List α) :
    findAllFrom finder tryFrom (before ++ text) (utf8Len before) output =
      (finder.words text).foldlM (pushFound tryFrom) output := by
  induction text using Finder.search_induction generalizing before output with
  | none text hnone =>
      rw [findAllFrom_of_none output (getFrom_append before text) hnone,
        Finder.words_of_none hnone]
      rfl
  | found gap word rest hfound ih =>
      rw [findAllFrom_of_foundAt before output hfound,
        Finder.words_of_foundAt hfound, List.foldlM_cons]
      refine bind_congr fun next => ?_
      rw [← ih (before ++ (gap ++ word)) next]
      simp

/-- The loop comes back when everything it tries does. -/
theorem returns_foldlM_pushFound_iff
    (htry : ∀ word error, tryFrom word ≠ .err error) (words : List (List Char))
    (output : List α) :
    (words.foldlM (pushFound tryFrom) output).Returns ↔
      ∀ word ∈ words, (tryFrom word).Returns := by
  induction words generalizing output with
  | nil => exact iff_of_true (Outcome.returns_ok _) (List.forall_mem_nil _)
  | cons word words ih =>
      rw [List.foldlM_cons, List.forall_mem_cons, pushFound]
      cases hvalue : tryFrom word with
      | ok value =>
          rw [Outcome.ok_bind, Outcome.pure_eq, Outcome.ok_bind, ih,
            and_iff_right (Outcome.returns_ok _)]
      | err error => exact absurd hvalue (htry word error)
      | panic =>
          exact iff_of_false Outcome.not_returns_panic
            fun hreturns => Outcome.not_returns_panic hreturns.1

/-- It comes back when every word that occurs in the text can be tried. -/
theorem returns_findAllFrom_iff
    (htry : ∀ word error, tryFrom word ≠ .err error) (s : List Char) :
    (findAllFrom finder tryFrom s 0 []).Returns ↔
      ∀ before word after, s = before ++ (word ++ after) →
        finder.Occurs before word after → (tryFrom word).Returns := by
  have hloop : findAllFrom finder tryFrom s 0 [] =
      (finder.words s).foldlM (pushFound tryFrom) [] := findAllFrom_eq [] s []
  rw [hloop, returns_foldlM_pushFound_iff htry]
  constructor
  · intro hwords before word after htext hoccurs
    exact hwords word (Finder.mem_words_iff.mpr ⟨before, after, htext, hoccurs⟩)
  · intro hoccurs word hword
    obtain ⟨before, after, htext, hword⟩ := Finder.mem_words_iff.mp hword
    exact hoccurs before word after htext hword

end FindAll

namespace NostrBech32

/-- `find_all_in_string`. -/
def findAllInString (curve : Secp256k1) (bech32 : Bech32) (engine : RegexEngine)
    (s : List Char) : Outcome Error (List NostrBech32) :=
  findAllFrom (bech32Finder engine) (tryFromString curve bech32) s 0 []

theorem ifOk_ne_err {α : Type} (wrap : α → NostrBech32) (x : Outcome Error α)
    (error : Error) : ifOk wrap x ≠ .err error := by
  cases x <;> exact nofun

theorem returns_ifOk_iff {α : Type} {wrap : α → NostrBech32} {x : Outcome Error α} :
    (ifOk wrap x).Returns ↔ x.Returns := by
  cases x with
  | ok value => exact iff_of_true (Outcome.returns_ok _) (Outcome.returns_ok _)
  | err error => exact iff_of_true (Outcome.returns_ok _) (Outcome.returns_err _)
  | panic => exact iff_of_false Outcome.not_returns_panic Outcome.not_returns_panic

theorem tryFromString_ne_err (curve : Secp256k1) (bech32 : Bech32)
    (chars : List Char) (error : Error) :
    tryFromString curve bech32 chars ≠ .err error := by
  simp only [tryFromString]
  split_ifs <;> first | exact ifOk_ne_err _ _ _ | exact nofun

/-- A valid bech32 string of this kind, with a payload of less than two bytes. -/
def TooShort (bech32 : Bech32) (hrp : String) (chars : List Char) : Prop :=
  startsWith (hrp ++ "1") chars = true ∧
    ∃ tlv, decodeBech32 bech32 hrp (String.ofList chars) = .ok tlv ∧ tlv.length < 2

theorem not_tooShort_iff (bech32 : Bech32) (hrp : String) {chars : List Char}
    (hstarts : startsWith (hrp ++ "1") chars = true) :
    ¬ TooShort bech32 hrp chars ↔
      ∀ tlv, decodeBech32 bech32 hrp (String.ofList chars) = .ok tlv →
        2 ≤ tlv.length := by
  rw [TooShort, and_iff_right hstarts, not_exists]
  refine forall_congr' fun tlv => ?_
  rw [not_and, Nat.not_lt]

/-- A text has only one of two labels that do not begin with each other. -/
theorem not_tooShort_of_startsWith {label : String} {chars : List Char}
    (hstarts : startsWith label chars = true) (bech32 : Bech32) {hrp : String}
    (hdiffer : ¬ label.toList <+: (hrp ++ "1").toList ∧
      ¬ (hrp ++ "1").toList <+: label.toList) : ¬ TooShort bech32 hrp chars := by
  rintro ⟨hstarts', _⟩
  rw [startsWith, List.isPrefixOf_iff_prefix] at hstarts hstarts'
  rcases List.prefix_or_prefix_of_prefix hstarts hstarts' with hbegins | hbegins
  · exact hdiffer.1 hbegins
  · exact hdiffer.2 hbegins

/-- The readers of a profile and of a relay need two bytes, the others nothing. -/
theorem returns_tryFromString_iff (curve : Secp256k1) (bech32 : Bech32)
    (chars : List Char) :
    (tryFromString curve bech32 chars).Returns ↔
      ¬ TooShort bech32 hrpNprofile chars ∧ ¬ TooShort bech32 hrpNrelay chars := by
  simp only [tryFromString]
  split_ifs with hnaddr hnevent hnote hnprofile hnpub hnrelay hncryptsec
  · refine iff_of_true (returns_ifOk_iff.mpr
      (NAddr.returns_tryFromBech32String curve bech32 _)) ⟨?_, ?_⟩
    · exact not_tooShort_of_startsWith hnaddr bech32 (by decide)
    · exact not_tooShort_of_startsWith hnaddr bech32 (by decide)
  · refine iff_of_true (returns_ifOk_iff.mpr
      (NEvent.returns_tryFromBech32String curve bech32 _)) ⟨?_, ?_⟩
    · exact not_tooShort_of_startsWith hnevent bech32 (by decide)
    · exact not_tooShort_of_startsWith hnevent bech32 (by decide)
  · refine iff_of_true (returns_ifOk_iff.mpr
      (Id.returns_tryFromBech32String bech32 _)) ⟨?_, ?_⟩
    · exact not_tooShort_of_startsWith hnote bech32 (by decide)
    · exact not_tooShort_of_startsWith hnote bech32 (by decide)
  · rw [returns_ifOk_iff, Profile.returns_tryFromBech32String_iff,
      not_tooShort_iff bech32 hrpNprofile hnprofile, and_iff_left]
    exact not_tooShort_of_startsWith hnprofile bech32 (by decide)
  · refine iff_of_true (returns_ifOk_iff.mpr
      (PublicKey.returns_tryFromBech32String curve bech32 _ true)) ⟨?_, ?_⟩
    · exact not_tooShort_of_startsWith hnpub bech32 (by decide)
    · exact not_tooShort_of_startsWith hnpub bech32 (by decide)
  · rw [returns_ifOk_iff, Nrelay.returns_tryFromBech32String_iff,
      not_tooShort_iff bech32 hrpNrelay hnrelay, and_iff_right]
    exact not_tooShort_of_startsWith hnrelay bech32 (by decide)
  · refine iff_of_true (Outcome.returns_ok _) ⟨?_, ?_⟩
    · exact not_tooShort_of_startsWith hncryptsec bech32 (by decide)
    · exact not_tooShort_of_startsWith hncryptsec bech32 (by decide)
  · refine iff_of_true (Outcome.returns_ok _) ⟨?_, ?_⟩
    · exact fun hshort => hnprofile hshort.1
    · exact fun hshort => hnrelay hshort.1

/-- A text holds a reference that the readers do not come back from. -/
theorem returns_findAllInString_iff (curve : Secp256k1) (bech32 : Bech32)
    (engine : RegexEngine) (s : List Char) :
    (findAllInString curve bech32 engine s).Returns ↔
      ∀ before word after, s = before ++ (word ++ after) →
        StandsAlone Char.isAlphanum before after → IsReference word →
        ¬ TooShort bech32 hrpNprofile word ∧ ¬ TooShort bech32 hrpNrelay word := by
  rw [findAllInString, returns_findAllFrom_iff (tryFromString_ne_err curve bech32)]
  simp only [returns_tryFromString_iff]
  constructor
  · intro hall before word after htext halone hword
    exact hall before word after htext ⟨halone, word, rfl, hword⟩
  · rintro hall before word after htext ⟨halone, _, rfl, hword⟩
    exact hall before word after htext halone hword

end NostrBech32

/-- A URL that begins with `nostr:`. -/
structure NostrUrl where
  bech32 : NostrBech32
deriving Repr, DecidableEq

namespace NostrUrl

open NostrBech32 (startsWith urlFinder IsReference TooShort)

/-- Try to convert a string; there must not be leading or trailing junk. -/
def tryFromString (curve : Secp256k1) (bech32 : Bech32) (s : List Char) :
    Outcome Error (Option NostrUrl) :=
  if !startsWith "nostr:" s then .ok none
  else do
    let rest ← Outcome.unwrap (getFrom s 6)
    Option.map NostrUrl.mk <$> NostrBech32.tryFromString curve bech32 rest

/-- `find_all_in_string`. -/
def findAllInString (curve : Secp256k1) (bech32 : Bech32) (engine : RegexEngine)
    (s : List Char) : Outcome Error (List NostrUrl) :=
  findAllFrom (urlFinder engine) (tryFromString curve bech32) s 0 []

theorem tryFromString_append (curve : Secp256k1) (bech32 : Bech32)
    (word : List Char) :
    tryFromString curve bech32 ("nostr:".toList ++ word) =
      Option.map NostrUrl.mk <$> NostrBech32.tryFromString curve bech32 word := by
  have hrest := getFrom_append "nostr:".toList word
  rw [show utf8Len "nostr:".toList = 6 from rfl] at hrest
  rw [tryFromString, hrest]
  rfl

theorem tryFromString_ne_err (curve : Secp256k1) (bech32 : Bech32)
    (s : List Char) (error : Error) : tryFromString curve bech32 s ≠ .err error := by
  unfold tryFromString
  split
  · exact nofun
  · cases getFrom s 6 with
    | none => exact nofun
    | some rest =>
        rw [Outcome.unwrap_some, Outcome.ok_bind]
        have hinner := NostrBech32.tryFromString_ne_err curve bech32 rest error
        cases hvalue : NostrBech32.tryFromString curve bech32 rest with
        | ok value => exact nofun
        | err other =>
            rintro ⟨⟩
            exact hinner hvalue
        | panic => exact nofun

/-- A text holds a URL that the readers do not come back from. -/
theorem returns_findAllInString_iff (curve : Secp256k1) (bech32 : Bech32)
    (engine : RegexEngine) (s : List Char) :
    (findAllInString curve bech32 engine s).Returns ↔
      ∀ before word after, s = before ++ ("nostr:".toList ++ word ++ after) →
        StandsAlone Char.isAlphanum before after → IsReference word →
        ¬ TooShort bech32 hrpNprofile word ∧ ¬ TooShort bech32 hrpNrelay word := by
  rw [findAllInString, returns_findAllFrom_iff (tryFromString_ne_err curve bech32)]
  simp only [← NostrBech32.returns_tryFromString_iff curve]
  constructor
  · intro hall before word after htext halone hword
    have hreturns := hall before _ after htext ⟨halone, word, rfl, hword⟩
    rwa [tryFromString_append, Outcome.returns_map_iff] at hreturns
  · rintro hall before _ after htext ⟨halone, word, rfl, hword⟩
    rw [tryFromString_append, Outcome.returns_map_iff]
    exact hall before word after htext halone hword

end NostrUrl

open NostrBech32 (IsReference TooShort)

/-- Scanning a text comes back exactly when no profile and no relay in it has a
payload of less than two bytes. -/
theorem scanning_returns_iff (curve : Secp256k1) (bech32 : Bech32)
    (engine : RegexEngine) (s : List Char) :
    ((NostrBech32.tryFromString curve bech32 s).Returns ↔
      ¬ TooShort bech32 hrpNprofile s ∧ ¬ TooShort bech32 hrpNrelay s) ∧
    ((NostrUrl.findAllInString curve bech32 engine s).Returns ↔
      ∀ before word after, s = before ++ ("nostr:".toList ++ word ++ after) →
        StandsAlone Char.isAlphanum before after → IsReference word →
        ¬ TooShort bech32 hrpNprofile word ∧ ¬ TooShort bech32 hrpNrelay word) :=
  ⟨NostrBech32.returns_tryFromString_iff curve bech32 s,
    NostrUrl.returns_findAllInString_iff curve bech32 engine s⟩

/-- A profile without a payload, and a URL of a profile of one byte. -/
theorem short_profiles_panic :
    ¬ (NostrBech32.tryFromString Secp256k1.permissive Bech32.reference
        "nprofile1p2zuer".toList).Returns ∧
      ¬ (NostrUrl.findAllInString Secp256k1.permissive Bech32.reference
        RegexEngine.reference "nostr:nprofile1qqqsnhxh".toList).Returns := by
  constructor
  · rw [NostrBech32.returns_tryFromString_iff]
    exact fun hlong => hlong.1 ⟨by decide +kernel, [], by decide +kernel, by decide⟩
  · rw [NostrUrl.returns_findAllInString_iff]
    intro hall
    have hlong := hall [] "nprofile1qqqsnhxh".toList [] (by decide) (by decide)
      (by decide +kernel)
    exact hlong.1 ⟨by decide +kernel, [0], by decide +kernel, by decide⟩

end Types

end Gnostr
