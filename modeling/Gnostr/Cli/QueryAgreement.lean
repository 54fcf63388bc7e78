/-
The two builders of a query filter, that of the command line and that of the crawler: they
agree when no generic tag is asked for, the hashtags have no white space around them and
none is empty, and the kinds are bare numbers.
-/
import Gnostr.Cli.FilterMap
import Gnostr.Lib.Lines
import Gnostr.Nip19.EntityRoundTrip

namespace Gnostr

namespace Cli

open Types Crawler

section Spec

variable (curve : Secp256k1) (parser : UrlParser) (hex : HexCrate) (bech32 : Bech32)

/-- The items of a list, if it is given, are 64 hexadecimal digits each. -/
def HexListed (given : Option String) : Prop :=
  ∀ text, given = some text → ∀ item ∈ splitCsv text,
    IsHex32 hex.toHex item ∧ ∀ c ∈ item.toList, (Hex.hexDigitValue c).isSome = true

/-- What the two builders are asked for: hexadecimal keys and ids, decimal kinds, a limit,
and a generic tag of one letter that has no name of its own. -/
structure QueryDomain (args : QueryArgs) : Prop where
  limit : ∃ number : Int32, args.limit = some number ∧ ¬ number < 0
  authors : HexListed hex args.authors
  ids : HexListed hex args.ids
  mentions : HexListed hex args.mentions
  references : HexListed hex args.references
  kinds : ∀ text, args.kinds = some text → ∀ item ∈ splitCsv text,
    item.toList.all Char.isDigit = true
  generic : ∀ tag val, args.generic = some (tag, val) →
    ∃ letter, letter ∉ ['t', 'p', 'e'] ∧ tag = String.singleton letter

/-- The same arguments on the command line. -/
def subCommandOf (args : QueryArgs) : QuerySubCommand :=
  { args with generic := args.generic.map fun generic => [generic.1, generic.2] }

/-- Both build a filter, and the map is read as the same one in whatever order it keeps its
members. -/
def BuildersAgree (args : QueryArgs) : Prop :=
  ∃ filter members limit, buildFilter hex args = .ok filter ∧
    buildFilterMap curve parser hex.toHex bech32 (subCommandOf args) =
      .ok (members, limit) ∧
    ∀ order, order.Perm members →
      LimitedFilter.ofJson hex.toHex (.obj order) = some filter

def pieces (text : String) : List (List Char) := text.toList.splitOn ','

def hashtagPieces (text : String) : List String := (pieces text).map String.ofList

/-- What is given has no generic tag, no white space around a hashtag or a kind, no empty
hashtag or kind, and no kind that is too large. -/
structure ReadAlike (args : QueryArgs) : Prop where
  generic : args.generic = none
  hashtag : ∀ text, args.hashtag = some text → ∀ piece ∈ pieces text,
    piece ≠ [] ∧ trimChars piece = piece
  kinds : ∀ text, args.kinds = some text → ∀ piece ∈ pieces text,
    (parseUnsigned (2 ^ 32) piece).isSome = true

end Spec

section Keys

variable {curve : Secp256k1} {parser : UrlParser} {hex : HexCrate} {bech32 : Bech32}

theorem isWhiteSpace_of_hexDigit {c : Char} (hc : (Hex.hexDigitValue c).isSome = true) :
    isWhiteSpace c = false := by
  by_cases hupper : c.isUpper = true
  · have hrange := of_decide_eq_true hupper
    have hlow : 65 ≤ c.toNat := hrange.1
    have hhigh : c.toNat ≤ 90 := hrange.2
    exact isWhiteSpace_eq_false (by omega) (by omega)
  · rw [Hex.hexDigitValue, if_neg hupper] at hc
    have hmem : c ∈ Hex.hexDigits := by
      by_contra hnot
      rw [List.idxOf?_eq_none_iff.mpr hnot] at hc
      cases hc
    have hall : Hex.hexDigits.all (fun c => !isWhiteSpace c) = true := by decide
    simpa using List.all_eq_true.mp hall c hmem

/-- Hexadecimal digits are passed on as they are. -/
theorem parseKeyOrIdToHexString_of_hexDigits {item : String}
    (hitem : ∀ c ∈ item.toList, (Hex.hexDigitValue c).isSome = true) :
    parseKeyOrIdToHexString curve parser hex.toHex bech32 item = .ok item := by
  have htrim : trimChars item.toList = item.toList :=
    trimChars_of_forall fun c hc => isWhiteSpace_of_hexDigit (hitem c hc)
  have hn : 'n' ∉ item.toList := fun hmem => absurd (hitem 'n' hmem) (by decide)
  have hlabel : ∀ label : List Char, 'n' ∈ label →
      label.isPrefixOf item.toList = false := by
    intro label hlabel
    rw [Bool.eq_false_iff]
    exact fun hbegins => hn ((List.isPrefixOf_iff_prefix.mp hbegins).subset hlabel)
  have hscheme : item.toList.dropPrefix? "nostr://".toList = none := by
    have hnone := hlabel "nostr://".toList (by decide)
    rw [isPrefixOf_eq_isSome_dropPrefix?] at hnone
    simpa using hnone
  rw [parseKeyOrIdToHexString, htrim, hscheme]
  dsimp only
  rw [hlabel "npub".toList (by decide), hlabel "nsec".toList (by decide),
    hlabel "note".toList (by decide), hlabel "nprofile".toList (by decide),
    String.ofList_toList]
  rfl

theorem keyListJson_of_hexListed {given : Option String} (hgiven : HexListed hex given)
    {text : String} (htext : given = some text) :
    keyListJson curve parser hex.toHex bech32 text =
      .ok (serializeStrings (splitCsv text)) := by
  have hmap : normalizeKeyList curve parser hex.toHex bech32 text =
      .ok (splitCsv text) := by
    rw [normalizeKeyList, Outcome.mapM_eq_ok_iff, List.forall₂_same]
    exact fun item hitem =>
      parseKeyOrIdToHexString_of_hexDigits (hgiven text htext item hitem).2
  rw [keyListJson, hmap]
  rfl

end Keys

section Pieces

theorem mapM_of_forall_pure {m : Type → Type} [Monad m] [LawfulMonad m] {α β : Type}
    {list : List α} {f : α → m β} {g : α → β} (hall : ∀ a ∈ list, f a = pure (g a)) :
    list.mapM f = pure (list.map g) := by
  induction list with
  | nil => rfl
  | cons a list ih =>
      rw [List.forall_mem_cons] at hall
      simp [List.mapM_cons, hall.1, ih hall.2]

theorem isSome_of_mapM_isSome {α β : Type} {list : List α} {f : α → Option β}
    (hsome : (list.mapM f).isSome = true) : ∀ a ∈ list, (f a).isSome = true := by
  induction list with
  | nil => exact fun a ha => absurd ha List.not_mem_nil
  | cons a list ih =>
      rw [List.mapM_cons] at hsome
      cases ha : f a with
      | none =>
          rw [ha] at hsome
          cases hsome
      | some b =>
          cases hrest : list.mapM f with
          | none =>
              rw [ha, hrest] at hsome
              cases hsome
          | some bs =>
              rw [hrest] at ih
              exact List.forall_mem_cons.mpr ⟨ha ▸ rfl, ih rfl⟩

/-- The pieces that are left when they are trimmed and the empty ones dropped. -/
def trimmedPieces (text : String) : List (List Char) :=
  ((pieces text).map trimChars).filter (· ≠ [])

theorem trimmedPieces_eq_iff {text : String} :
    trimmedPieces text = pieces text ↔
      ∀ piece ∈ pieces text, piece ≠ [] ∧ trimChars piece = piece := by
  constructor
  · intro hsame
    have hkept : trimmedPieces text = (pieces text).map trimChars := by
      apply List.filter_sublist.eq_of_length
      rw [← trimmedPieces, hsame, List.length_map]
    have htrim : (pieces text).map trimChars = (pieces text).map id := by
      rw [← hkept, hsame, List.map_id]
    intro piece hpiece
    rw [← hsame] at hpiece
    refine ⟨by simpa using (List.mem_filter.mp hpiece).2, ?_⟩
    rw [hsame] at hpiece
    exact List.map_inj_left.mp htrim piece hpiece
  · intro hall
    have htrim : (pieces text).map trimChars = pieces text := by
      rw [List.map_congr_left fun piece hpiece => (hall piece hpiece).2, List.map_id']
    rw [trimmedPieces, htrim, List.filter_eq_self]
    exact fun piece hpiece => decide_eq_true (hall piece hpiece).1

theorem splitCsv_eq_hashtagPieces_iff {text : String} :
    splitCsv text = hashtagPieces text ↔
      ∀ piece ∈ pieces text, piece ≠ [] ∧ trimChars piece = piece := by
  rw [← trimmedPieces_eq_iff]
  exact (List.map_injective_iff.mpr fun _ _ => String.ofList_inj.mp).eq_iff

theorem isWhiteSpace_of_isDigit {c : Char} (hc : c.isDigit = true) :
    isWhiteSpace c = false := by
  rw [Char.isDigit_iff_toNat] at hc
  have hlow : 48 ≤ c.toNat := hc.1
  have hhigh : c.toNat ≤ 57 := hc.2
  exact isWhiteSpace_eq_false (by omega) (by omega)

theorem toLower_of_isDigit {c : Char} (hc : c.isDigit = true) : c.toLower = c := by
  rw [Char.isDigit_iff_toNat] at hc
  have hhigh : c.toNat ≤ 57 := hc.2
  apply dif_neg
  rintro ⟨hupper, -⟩
  have hlow : 65 ≤ c.toNat := hupper
  omega

/-- There is no label before digits. -/
theorem stripKindLabel_of_digits {part : List Char}
    (hdigits : part.all Char.isDigit = true) : stripKindLabel part = part := by
  have htrim : trimChars part = part := trimChars_of_forall fun c hc =>
    isWhiteSpace_of_isDigit (List.all_eq_true.mp hdigits c hc)
  have hlower : part.map Char.toLower = part := by
    rw [List.map_congr_left fun c hc =>
      toLower_of_isDigit (List.all_eq_true.mp hdigits c hc), List.map_id']
  have hletter : (kindLabels.all fun label =>
      label.toList.any fun c => !c.isDigit) = true := by decide
  have hnone : (kindLabels.find? fun label => label.toList.isPrefixOf part) = none := by
    rw [List.find?_eq_none]
    intro label hlabel hbegins
    obtain ⟨c, hc, hother⟩ := List.any_eq_true.mp (List.all_eq_true.mp hletter label hlabel)
    have hdigit := List.all_eq_true.mp hdigits c
      ((List.isPrefixOf_iff_prefix.mp hbegins).subset hc)
    rw [hdigit] at hother
    cases hother
  rw [stripKindLabel, htrim, hlower, hnone]

/-- What is read as a number has no white space, and no piece that is read is empty. -/
theorem trimmed_of_parseSigned {bound : ℕ} {piece : List Char}
    (hparsed : (parseSigned bound piece).isSome = true) :
    piece ≠ [] ∧ trimChars piece = piece := by
  have hdigits : ∀ digits, (digitsValue digits).isSome = true →
      digits ≠ [] ∧ ∀ c ∈ digits, isWhiteSpace c = false := by
    intro digits hsome
    rw [digitsValue] at hsome
    split_ifs at hsome with hall
    · exact ⟨hall.1, fun c hc => isWhiteSpace_of_isDigit (List.all_eq_true.mp hall.2 c hc)⟩
    · cases hsome
  suffices hpiece : piece ≠ [] ∧ ∀ c ∈ piece, isWhiteSpace c = false from
    ⟨hpiece.1, trimChars_of_forall hpiece.2⟩
  have hsigned : ∀ c, isWhiteSpace c = false → piece.head? = some c →
      (digitsValue piece.tail).isSome = true →
        piece ≠ [] ∧ ∀ c ∈ piece, isWhiteSpace c = false := by
    intro c hc hhead hsome
    obtain ⟨rest, rfl⟩ := List.head?_eq_some_iff.mp hhead
    exact ⟨List.cons_ne_nil c rest, List.forall_mem_cons.mpr ⟨hc, (hdigits rest hsome).2⟩⟩
  rw [parseSigned] at hparsed
  split_ifs at hparsed with hminus
  · rw [Option.isSome_map] at hparsed
    exact hsigned '-' (by decide) hminus (Option.isSome_of_isSome_filter _ _ hparsed)
  · rw [Option.isSome_map, parseUnsigned] at hparsed
    split_ifs at hparsed with hplus
    · exact hsigned '+' (by decide) hplus (Option.isSome_of_isSome_filter _ _ hparsed)
    · exact hdigits piece (Option.isSome_of_isSome_filter _ _ hparsed)

end Pieces

section Kinds

/-- Both read numbers of the kinds, and the same ones. -/
def KindsAgree (text : String) : Prop :=
  ∃ kinds json, buildKinds text = .ok kinds ∧ kindsJson text = .ok json ∧
    deserializeList deserializeEventKind json = some kinds

/-- The pieces are trimmed to themselves when they are read as they stand. -/
theorem pieces_of_parseSigned {text : String} {bound : ℕ}
    (hdigits : ∀ item ∈ splitCsv text, item.toList.all Char.isDigit = true)
    (hparsed : ∀ piece ∈ pieces text, (parseSigned bound piece).isSome = true) :
    trimmedPieces text = pieces text ∧
      ∀ piece ∈ pieces text, piece.all Char.isDigit = true := by
  have hsame : trimmedPieces text = pieces text :=
    trimmedPieces_eq_iff.mpr fun piece hpiece =>
      trimmed_of_parseSigned (hparsed piece hpiece)
  refine ⟨hsame, fun piece hpiece => ?_⟩
  rw [← hsame] at hpiece
  have hitem := hdigits (String.ofList piece) (List.mem_map_of_mem hpiece)
  rwa [String.toList_ofList] at hitem

/-- The number of a piece that is one. -/
def kindNumber (piece : List Char) : ℕ := (parseUnsigned (2 ^ 32) piece).getD 0

/-- An unsigned number is a signed one. -/
theorem parseSigned_of_parseUnsigned {bound more value : ℕ} (hle : bound ≤ more)
    {piece : List Char} (hvalue : parseUnsigned bound piece = some value) :
    parseSigned more piece = some (value : ℤ) := by
  have hminus : piece.head? ≠ some '-' := by
    intro hminus
    rw [parseUnsigned_of_minus hminus] at hvalue
    cases hvalue
  rw [parseSigned_of_not_minus hminus, parseUnsigned_mono hle hvalue]
  rfl

theorem deserializeEventKind_of_lt {number : ℕ} (hlt : number < 2 ^ 32) :
    deserializeEventKind (.int number) = some (EventKind.ofU32 (UInt32.ofNat number)) := by
  rw [deserializeEventKind, if_pos ⟨by omega, by omega⟩, Int.toNat_natCast]

theorem deserializeKinds_of_lt {pieces : List (List Char)} {number : List Char → ℕ}
    (hlt : ∀ piece ∈ pieces, number piece < 2 ^ 32) :
    deserializeList deserializeEventKind
        (.arr ((pieces.map fun piece => (number piece : ℤ)).map .int)) =
      some (pieces.map fun piece => EventKind.ofU32 (UInt32.ofNat (number piece))) := by
  rw [deserializeList]
  induction pieces with
  | nil => rfl
  | cons piece pieces ih =>
      rw [List.forall_mem_cons] at hlt
      simp only [List.map_cons, List.mapM_cons, deserializeEventKind_of_lt hlt.1, ih hlt.2,
        Option.bind_eq_bind, Option.bind_some, Option.pure_def]

/-- The command line reads the pieces as they stand. -/
theorem isSome_of_kindsJson {text : String} {json : Json}
    (hjson : kindsJson text = .ok json) :
    ∀ piece ∈ pieces text, (parseSigned (2 ^ 63) piece).isSome = true := by
  rw [kindsJson] at hjson
  apply isSome_of_mapM_isSome
  rw [pieces]
  split at hjson
  · rename_i kindInts hmap
    rw [hmap]
    rfl
  · cases hjson

/-- The crawler reads the trimmed pieces as numbers of 32 bits. -/
theorem isSome_of_buildKinds {text : String} {kinds : List EventKind}
    (hdigits : ∀ piece ∈ trimmedPieces text, piece.all Char.isDigit = true)
    (hbuilt : buildKinds text = .ok kinds) :
    ∀ piece ∈ trimmedPieces text, (parseUnsigned (2 ^ 32) piece).isSome = true := by
  rw [buildKinds] at hbuilt
  change ((trimmedPieces text).mapM _ >>= _) = _ at hbuilt
  intro piece hpiece
  cases hmap : (trimmedPieces text).mapM fun part => parseU32 (stripKindLabel part) with
  | error error =>
      rw [hmap] at hbuilt
      cases hbuilt
  | ok kindInts =>
      have hread := (List.forall₂_and_left _ _).mp
        ((forall₂_of_mapM_eq_ok hmap).imp fun part number hnumber =>
          And.intro (Exists.intro number hnumber) hnumber)
      obtain ⟨number, hnumber⟩ := hread.1 piece hpiece
      rw [stripKindLabel_of_digits (hdigits piece hpiece), parseU32] at hnumber
      cases hvalue : parseUnsigned (2 ^ 32) piece with
      | none =>
          rw [hvalue] at hnumber
          cases hnumber
      | some value => rfl

/-- They agree when the pieces are numbers as they stand. -/
theorem kindsAgree_iff {text : String}
    (hdigits : ∀ item ∈ splitCsv text, item.toList.all Char.isDigit = true) :
    KindsAgree text ↔
      ∀ piece ∈ pieces text, (parseUnsigned (2 ^ 32) piece).isSome = true := by
  constructor
  · rintro ⟨kinds, json, hbuilt, hjson, -⟩
    obtain ⟨hsame, hall⟩ := pieces_of_parseSigned hdigits (isSome_of_kindsJson hjson)
    rw [← hsame] at hall ⊢
    exact isSome_of_buildKinds hall hbuilt
  · intro hparsed
    have hvalue : ∀ piece ∈ pieces text,
        parseUnsigned (2 ^ 32) piece = some (kindNumber piece) := by
      intro piece hpiece
      obtain ⟨number, hnumber⟩ := Option.isSome_iff_exists.mp (hparsed piece hpiece)
      rw [kindNumber, hnumber, Option.getD_some]
    have hsigned : ∀ piece ∈ pieces text,
        parseSigned (2 ^ 63) piece = some (kindNumber piece : ℤ) := by
      intro piece hpiece
      exact parseSigned_of_parseUnsigned (by decide) (hvalue piece hpiece)
    obtain ⟨hsame, hall⟩ := pieces_of_parseSigned hdigits fun piece hpiece =>
      Option.isSome_of_eq_some (hsigned piece hpiece)
    refine ⟨(pieces text).map fun piece =>
        EventKind.ofU32 (UInt32.ofNat (kindNumber piece)),
      .arr (((pieces text).map fun piece => (kindNumber piece : ℤ)).map .int), ?_, ?_, ?_⟩
    · rw [buildKinds]
      change ((trimmedPieces text).mapM _ >>= _) = _
      rw [hsame, mapM_of_forall_pure (g := fun piece => UInt32.ofNat (kindNumber piece))]
      · exact congrArg Except.ok (List.map_map ..)
      · intro piece hpiece
        rw [stripKindLabel_of_digits (hall piece hpiece), parseU32, hvalue piece hpiece]
        rfl
    · have hmap := mapM_of_forall_pure (m := Option) hsigned
      simp only [pieces, Option.pure_def] at hmap
      rw [kindsJson, hmap, pieces]
    · exact deserializeKinds_of_lt fun piece hpiece =>
        lt_of_parseUnsigned (hvalue piece hpiece)

end Kinds

section Map

variable {curve : Secp256k1} {parser : UrlParser} {hex : HexCrate} {bech32 : Bech32}
  {args : QueryArgs} {number : Int32}

/-- The members besides the kinds, with all that may be given. -/
def fields (args : QueryArgs) (number : Int32) : List (String × Option Json) :=
  [("limit", some (.int number.toInt)),
    ("authors", args.authors.map fun text => serializeStrings (splitCsv text)),
    ("ids", args.ids.map fun text => serializeStrings (splitCsv text)),
    ("#t", args.hashtag.map hashtagJson),
    ("#p", args.mentions.map fun text => serializeStrings (splitCsv text)),
    ("#e", args.references.map fun text => serializeStrings (splitCsv text))]

/-- In the domain only the kinds can fail. -/
theorem buildFilterMap_eq (hdomain : QueryDomain hex args) (hgeneric : args.generic = none)
    (hlimit : args.limit = some number) :
    buildFilterMap curve parser hex.toHex bech32 (subCommandOf args) =
      (insertGiven "kinds" kindsJson args.kinds (membersOf (fields args number)) >>=
        fun filt => .ok (filt, number)) := by
  have hstart : insertMember "limit" (.int number.toInt) [] =
      membersOf [("limit", some (.int number.toInt))] := rfl
  rw [buildFilterMap, subCommandOf]
  dsimp only
  rw [hlimit, hgeneric, Option.getD_some, hstart,
    insertGiven_of_ok (fun text => keyListJson_of_hexListed hdomain.authors),
    Outcome.ok_bind, insertOptional_membersOf (by simp),
    insertGiven_of_ok (fun text => keyListJson_of_hexListed hdomain.ids),
    Outcome.ok_bind, insertOptional_membersOf (by simp)]
  dsimp only [Option.map_none, insertGeneric]
  rw [insertGiven_of_ok (fun text _ => rfl), Outcome.ok_bind,
    insertOptional_membersOf (by simp),
    insertGiven_of_ok (fun text => keyListJson_of_hexListed hdomain.mentions),
    Outcome.ok_bind, insertOptional_membersOf (by simp),
    insertGiven_of_ok (fun text => keyListJson_of_hexListed hdomain.references),
    Outcome.ok_bind, insertOptional_membersOf (by simp)]
  rfl

/-- The entries of the tags that the map has, with these hashtags. -/
def tagEntries (args : QueryArgs) (hashtags : String → List String) :
    List (Char × List String) :=
  (args.hashtag.map fun text => ('t', hashtags text)).toList ++
    (args.mentions.map fun text => ('p', splitCsv text)).toList ++
    (args.references.map fun text => ('e', splitCsv text)).toList

def tagsOf (args : QueryArgs) (hashtags : String → List String) : TagMap :=
  (tagEntries args hashtags).foldl (fun tags entry => tags.insert entry.1 entry.2) .empty

theorem buildTags_eq (hgeneric : args.generic = none) :
    buildTags args = tagsOf args splitCsv := by
  rw [buildTags, hgeneric, tagsOf, tagEntries]
  cases args.hashtag <;> cases args.mentions <;> cases args.references <;> rfl

theorem nodup_letters (args : QueryArgs) (hashtags : String → List String) :
    ((tagEntries args hashtags).map Prod.fst).Nodup := by
  rw [tagEntries]
  cases args.hashtag <;> cases args.mentions <;> cases args.references <;> simp

theorem get_tagsOf (hashtags : String → List String) :
    (tagsOf args hashtags).get 't' = args.hashtag.map hashtags := by
  rw [tagsOf, tagEntries]
  have hempty : TagMap.empty.get 't' = none := rfl
  cases args.hashtag <;> cases args.mentions <;> cases args.references <;>
    simp [TagMap.get_insert, hempty]

/-- The tags are the same exactly when the hashtags are. -/
theorem tagsOf_eq_iff : tagsOf args hashtagPieces = tagsOf args splitCsv ↔
    ∀ text, args.hashtag = some text →
      ∀ piece ∈ pieces text, piece ≠ [] ∧ trimChars piece = piece := by
  simp only [← splitCsv_eq_hashtagPieces_iff]
  constructor
  · intro hsame text htext
    have hvalues := congrArg (TagMap.get · 't') hsame
    rw [get_tagsOf, get_tagsOf, htext] at hvalues
    exact (Option.some.inj hvalues).symm
  · intro hsame
    rw [tagsOf, tagsOf, tagEntries, tagEntries]
    cases htext : args.hashtag with
    | none => rfl
    | some text => rw [Option.map_some, Option.map_some, hsame text htext]

/-- In whatever order the members stand, the tags are read from theirs. -/
theorem deserializeTagMap_of_perm {kinds : Option Json} {order : List (String × Json)}
    (hperm : order.Perm (membersOf (fields args number ++ [("kinds", kinds)]))) :
    deserializeTagMap order = some (tagsOf args hashtagPieces) := by
  have hmembers : ((membersOf (fields args number ++ [("kinds", kinds)])).filter
      fun member => !filterFields.contains member.1) =
        (tagEntries args hashtagPieces).map
          fun entry => (tagKey entry.1, serializeStrings entry.2) := by
    rw [filter_membersOf fun name => !filterFields.contains name, fields, tagEntries]
    cases args.hashtag <;> cases args.mentions <;> cases args.references <;> rfl
  have hfilter := hperm.filter fun member => !filterFields.contains member.1
  rw [hmembers] at hfilter
  -- the members in their order are entries in some order
  have hcomp := congrFun (congrFun (List.eq_map_comp_perm fun entry : Char × List String =>
    (tagKey entry.1, serializeStrings entry.2)) _) _ ▸ hfilter
  obtain ⟨entries, horder, hentries⟩ := hcomp
  rw [deserializeTagMap, horder, foldlM_visitTagEntry_eq,
    TagMap.foldl_insert_perm (nodup_letters args hashtagPieces) hentries]
  rfl

theorem elim_hexListed {given : Option String} (hgiven : HexListed hex given) :
    (given.map fun text => serializeStrings (splitCsv text)).elim (some [])
        (deserializeList (deserializeHex32 hex.toHex)) =
      some (given.elim [] splitCsv) := by
  cases given with
  | none => rfl
  | some text =>
      have hread := (@mapM_visitHex32_eq_some_iff hex.toHex (splitCsv text) _).mpr
        ⟨fun item hitem => (hgiven text rfl item hitem).1, rfl⟩
      change ((splitCsv text).map Json.str).mapM (deserializeHex32 hex.toHex) = _
      rw [List.mapM_map]
      exact hread

theorem deserializeOption_limit (hlimit : ¬ number < 0) :
    deserializeOption deserializeUsize (.int number.toInt) =
      some (some (UInt64.ofNat number.toInt.toNat)) := by
  have hlow : 0 ≤ number.toInt := not_lt.mp (Int32.lt_iff_toInt_lt.not.mp hlimit)
  have hhigh : number.toInt < 2 ^ 64 := number.toInt_lt.trans (by decide)
  change some <$> deserializeUsize (.int number.toInt) = _
  rw [deserializeUsize, if_pos ⟨hlow, hhigh⟩]
  rfl

/-- What the map with its kinds is read as. -/
theorem ofJson_eq (hdomain : QueryDomain hex args) (hlimit : args.limit = some number)
    {kinds : Option Json} {order : List (String × Json)}
    (hperm : order.Perm (membersOf (fields args number ++ [("kinds", kinds)]))) :
    LimitedFilter.ofJson hex.toHex (.obj order) =
      (kinds.elim (some []) (deserializeList deserializeEventKind)).bind fun kinds =>
        some ⟨⟨args.ids.elim [] splitCsv, args.authors.elim [] splitCsv, kinds,
          tagsOf args hashtagPieces, none, none⟩,
          some (UInt64.ofNat number.toInt.toNat)⟩ := by
  obtain ⟨_, hnumber, hnonneg⟩ := hdomain.limit
  obtain rfl := Option.some.inj (hlimit.symm.trans hnumber)
  have hids := @deserializeField_of_perm _ _ _ hperm "ids" _ rfl []
    (deserializeList (deserializeHex32 hex.toHex))
  have hauthors := @deserializeField_of_perm _ _ _ hperm "authors" _ rfl []
    (deserializeList (deserializeHex32 hex.toHex))
  have hkinds := @deserializeField_of_perm _ _ _ hperm "kinds" _ rfl []
    (deserializeList deserializeEventKind)
  have hsince := @deserializeField_of_missing _ _ _ hperm "since" rfl none
    (deserializeOption deserializeUnixtime)
  have huntil := @deserializeField_of_missing _ _ _ hperm "until" rfl none
    (deserializeOption deserializeUnixtime)
  have hlimited := @deserializeField_of_perm _ _ _ hperm "limit" _ rfl none
    (deserializeOption deserializeUsize)
  rw [elim_hexListed hdomain.ids] at hids
  rw [elim_hexListed hdomain.authors] at hauthors
  rw [Option.elim_some, deserializeOption_limit hnonneg] at hlimited
  rw [LimitedFilter.ofJson, hids, hauthors, hkinds, hsince, huntil, hlimited,
    deserializeTagMap_of_perm hperm]
  rfl

theorem mapM_hex32TryFromStr_of_hexListed {given : Option String} {invalid : String}
    (hgiven : HexListed hex given) :
    (given.elim [] splitCsv).mapM (hex32TryFromStr hex invalid) =
      .ok (given.elim [] splitCsv) := by
  cases given with
  | none => rfl
  | some text =>
      have hread : ∀ item ∈ splitCsv text,
          hex32TryFromStr hex invalid item = pure item := by
        intro item hitem
        obtain ⟨hsize, bytes, hbytes, hlength⟩ := (hgiven text rfl item hitem).1
        exact hex32TryFromStr_eq_ok_iff.mpr
          ⟨rfl, hsize, ⟨bytes.toArray, hlength⟩, by simpa using hbytes⟩
      rw [Option.elim_some, mapM_of_forall_pure hread, List.map_id']
      rfl

/-- In the domain the crawler fails on kinds only. -/
theorem buildFilter_eq (hdomain : QueryDomain hex args)
    (hlimit : args.limit = some number) :
    buildFilter hex args = args.kinds.elim (.ok []) buildKinds >>= fun kinds =>
      .ok ⟨⟨args.ids.elim [] splitCsv, args.authors.elim [] splitCsv, kinds,
        buildTags args, none, none⟩, some (UInt64.ofNat number.toInt.toNat)⟩ := by
  obtain ⟨_, hnumber, hnonneg⟩ := hdomain.limit
  obtain rfl := Option.some.inj (hlimit.symm.trans hnumber)
  rw [buildFilter, publicKeyHexTryFromStr, idHexTryFromStr,
    mapM_hex32TryFromStr_of_hexListed hdomain.authors,
    mapM_hex32TryFromStr_of_hexListed hdomain.ids, hlimit, Option.mapM_some, limitTryFrom,
    if_neg hnonneg]
  rfl

end Map

section Generic

variable {curve : Secp256k1} {parser : UrlParser} {hex : HexCrate} {bech32 : Bech32}
  {args : QueryArgs} {name : String} {member : String × Json}
  {filt inserted : List (String × Json)}

theorem mem_insertMember {value : Json} (hmem : member ∈ filt) (hne : member.1 ≠ name) :
    member ∈ insertMember name value filt :=
  List.mem_append_left _ (List.mem_filter.mpr ⟨hmem, bne_iff_ne.mpr hne⟩)

/-- A criterion leaves the members of other names. -/
theorem mem_insertGiven {serialize : String → Outcome AnyhowError Json}
    {given : Option String} (hinsert : insertGiven name serialize given filt = .ok inserted)
    (hmem : member ∈ filt) (hne : member.1 ≠ name) : member ∈ inserted := by
  cases given with
  | none =>
      cases hinsert
      exact hmem
  | some text =>
      obtain ⟨value, -, rfl⟩ := Outcome.map_eq_ok_iff.mp hinsert
      exact mem_insertMember hmem hne

/-- The generic tag stays in the map, under a name that no other criterion has. -/
theorem mem_buildFilterMap_of_generic {members : List (String × Json)} {limit : Int32}
    {letter : Char} {val : String} (hletter : letter ∉ ['t', 'p', 'e'])
    (hgeneric : args.generic = some (String.singleton letter, val))
    (hbuild : buildFilterMap curve parser hex.toHex bech32 (subCommandOf args) =
      .ok (members, limit)) : (tagKey letter, .str val) ∈ members := by
  have hkey : "#" ++ String.singleton letter = tagKey letter := by
    rw [← String.toList_inj, toList_tagKey, String.toList_append, String.toList_singleton]
    rfl
  have hne : ∀ other ∈ ['t', 'p', 'e'], tagKey letter ≠ tagKey other := by
    intro other hother heq
    have hchars := congrArg String.toList heq
    rw [toList_tagKey, toList_tagKey, List.cons_inj_right, List.singleton_inj] at hchars
    exact hletter (hchars ▸ hother)
  rw [buildFilterMap, subCommandOf] at hbuild
  obtain ⟨withAuthors, -, hbuild⟩ := Outcome.bind_eq_ok_iff.mp hbuild
  obtain ⟨withIds, -, hbuild⟩ := Outcome.bind_eq_ok_iff.mp hbuild
  obtain ⟨withHashtags, hhashtags, hbuild⟩ := Outcome.bind_eq_ok_iff.mp hbuild
  obtain ⟨withMentions, hmentions, hbuild⟩ := Outcome.bind_eq_ok_iff.mp hbuild
  obtain ⟨withReferences, hreferences, hbuild⟩ := Outcome.bind_eq_ok_iff.mp hbuild
  obtain ⟨withKinds, hkinds, hbuild⟩ := Outcome.bind_eq_ok_iff.mp hbuild
  obtain rfl := (Prod.ext_iff.mp (Outcome.ok.inj hbuild)).1
  have hstart : (tagKey letter, Json.str val) ∈ insertGeneric
      (args.generic.map fun generic => [generic.1, generic.2]) withIds := by
    rw [hgeneric, ← hkey]
    exact List.mem_append_right _ (List.mem_singleton_self _)
  have hmem := mem_insertGiven hhashtags hstart (hne 't' (by simp))
  have hmem := mem_insertGiven hmentions hmem (hne 'p' (by simp))
  have hmem := mem_insertGiven hreferences hmem (hne 'e' (by simp))
  apply mem_insertGiven hkinds hmem
  intro heq
  have hfield := contains_tagKey letter
  rw [show tagKey letter = "kinds" from heq] at hfield
  cases hfield

/-- A map with a generic tag is read as no filter. -/
theorem ofJson_eq_none_of_mem {members : List (String × Json)} {letter : Char}
    {val : String} (hmem : (tagKey letter, .str val) ∈ members) :
    LimitedFilter.ofJson hex.toHex (.obj members) = none := by
  have hfield : (tagKey letter, Json.str val) ∈
      members.filter fun member => !filterFields.contains member.1 := by
    rw [List.mem_filter, contains_tagKey]
    exact ⟨hmem, rfl⟩
  have htags : deserializeTagMap members = none := foldlM_visitTagEntry_of_mem hfield rfl _
  simp [LimitedFilter.ofJson, htags]

end Generic

section Agreement

variable {curve : Secp256k1} {parser : UrlParser} {hex : HexCrate} {bech32 : Bech32}
  {args : QueryArgs}

theorem generic_eq_none_of_buildersAgree (hdomain : QueryDomain hex args)
    (hagree : BuildersAgree curve parser hex bech32 args) : args.generic = none := by
  obtain ⟨filter, members, limit, -, hmap, hread⟩ := hagree
  cases hgeneric : args.generic with
  | none => rfl
  | some generic =>
      obtain ⟨letter, hletter, htag⟩ := hdomain.generic generic.1 generic.2 hgeneric
      have hmem := mem_buildFilterMap_of_generic hletter
        (hgeneric.trans (congrArg (fun tag => some (tag, generic.2)) htag)) hmap
      have hnone := hread members (List.Perm.refl members)
      rw [ofJson_eq_none_of_mem hmem] at hnone
      cases hnone

/-- The kinds that both read. -/
def KindsRead (given : Option String) (kinds : List EventKind) : Prop :=
  ∃ member, Outcome.ok member = given.elim (.ok none) (some <$> kindsJson ·) ∧
    given.elim (.ok []) buildKinds = .ok kinds ∧
    member.elim (some []) (deserializeList deserializeEventKind) = some kinds

theorem exists_kindsRead_iff {given : Option String} (hdigits : ∀ text, given = some text →
      ∀ item ∈ splitCsv text, item.toList.all Char.isDigit = true) :
    (∃ kinds, KindsRead given kinds) ↔ ∀ text, given = some text →
      ∀ piece ∈ pieces text, (parseUnsigned (2 ^ 32) piece).isSome = true := by
  cases given with
  | none => exact iff_of_true ⟨[], none, rfl, rfl, rfl⟩ fun text htext => nomatch htext
  | some text =>
      have hkinds := kindsAgree_iff (hdigits text rfl)
      constructor
      · rintro ⟨kinds, member, hmember, hbuilt, hread⟩ _ ⟨⟩
        obtain ⟨json, hjson, rfl⟩ := Outcome.map_eq_ok_iff.mp hmember.symm
        exact hkinds.mp ⟨kinds, json, hbuilt, hjson, hread⟩
      · intro hpieces
        obtain ⟨kinds, json, hbuilt, hjson, hread⟩ := hkinds.mpr (hpieces text rfl)
        exact ⟨kinds, some json, (Outcome.map_eq_ok_iff.mpr ⟨json, hjson, rfl⟩).symm,
          hbuilt, hread⟩

/-- The map is built exactly when the kinds are read. -/
theorem buildFilterMap_eq_ok_iff (hdomain : QueryDomain hex args)
    (hgeneric : args.generic = none) {number : Int32} (hlimit : args.limit = some number)
    {members : List (String × Json)} {limit : Int32} :
    buildFilterMap curve parser hex.toHex bech32 (subCommandOf args) =
        .ok (members, limit) ↔
      ∃ member, Outcome.ok member = args.kinds.elim (.ok none) (some <$> kindsJson ·) ∧
        members = membersOf (fields args number ++ [("kinds", member)]) ∧
        limit = number := by
  have hnew : "kinds" ∉ (fields args number).map Prod.fst := by simp [fields]
  rw [buildFilterMap_eq hdomain hgeneric hlimit]
  cases args.kinds with
  | none =>
      have hnone := insertOptional_membersOf hnew none
      constructor
      · rintro ⟨⟩
        exact ⟨none, rfl, hnone, rfl⟩
      · rintro ⟨member, ⟨⟩, rfl, rfl⟩
        rw [← hnone]
        rfl
  | some text =>
      have hsome : ∀ json, insertMember "kinds" json (membersOf (fields args number)) =
          membersOf (fields args number ++ [("kinds", some json)]) := fun json =>
        insertOptional_membersOf hnew (some json)
      constructor
      · intro hbuild
        obtain ⟨filt, hfilt, hpair⟩ := Outcome.bind_eq_ok_iff.mp hbuild
        obtain ⟨json, hjson, rfl⟩ := Outcome.map_eq_ok_iff.mp hfilt
        cases hpair
        exact ⟨some json, (Outcome.map_eq_ok_iff.mpr ⟨json, hjson, rfl⟩).symm,
          hsome json, rfl⟩
      · rintro ⟨member, hmember, rfl, rfl⟩
        obtain ⟨json, hjson, rfl⟩ := Outcome.map_eq_ok_iff.mp hmember.symm
        rw [insertGiven, hjson, Outcome.map_ok, Outcome.ok_bind, hsome]

/-- The two builders agree exactly when there is no generic tag and every piece of the
hashtags and of the kinds stands as it is read. -/
theorem buildersAgree_iff_readAlike (hdomain : QueryDomain hex args) :
    BuildersAgree curve parser hex bech32 args ↔ ReadAlike args := by
  obtain ⟨number, hlimit, -⟩ := hdomain.limit
  constructor
  · intro hagree
    have hgeneric := generic_eq_none_of_buildersAgree hdomain hagree
    obtain ⟨filter, members, limit, hfilter, hmap, hread⟩ := hagree
    obtain ⟨kindsMember, hmember, rfl, rfl⟩ :=
      (buildFilterMap_eq_ok_iff hdomain hgeneric hlimit).mp hmap
    have hread := hread _ (List.Perm.refl _)
    rw [ofJson_eq hdomain hlimit (List.Perm.refl _)] at hread
    obtain ⟨kinds, hkinds, hsame⟩ := Option.bind_eq_some_iff.mp hread
    obtain rfl := Option.some.inj hsame
    rw [buildFilter_eq hdomain hlimit, buildTags_eq hgeneric] at hfilter
    cases hbuilt : args.kinds.elim (.ok []) buildKinds with
    | error error =>
        rw [hbuilt] at hfilter
        cases hfilter
    | ok typed =>
        rw [hbuilt] at hfilter
        have hfields := Except.ok.inj hfilter
        injection hfields with hfilter
        injection hfilter with _ _ htyped htags
        refine ⟨hgeneric, tagsOf_eq_iff.mp htags.symm, ?_⟩
        exact (exists_kindsRead_iff hdomain.kinds).mp
          ⟨kinds, kindsMember, hmember, htyped ▸ hbuilt, hkinds⟩
  · intro halike
    obtain ⟨kinds, kindsMember, hmember, hbuilt, hkinds⟩ :=
      (exists_kindsRead_iff hdomain.kinds).mpr halike.kinds
    have hfilter := buildFilter_eq hdomain hlimit
    have hmap := (@buildFilterMap_eq_ok_iff curve parser hex bech32 args hdomain
      halike.generic number hlimit _ number).mpr ⟨kindsMember, hmember, rfl, rfl⟩
    rw [hbuilt] at hfilter
    refine ⟨_, _, number, hfilter, hmap, fun order hperm => ?_⟩
    rw [ofJson_eq hdomain hlimit hperm, hkinds, buildTags_eq halike.generic,
      tagsOf_eq_iff.mpr halike.hashtag]
    rfl

/-- A query for the notes of an author with two hashtags. -/
def notesQuery : QueryArgs :=
  ⟨some (String.ofList (List.replicate 64 'a')), none, some 10, none, some "gnostr,nostr",
    none, none, some "1,30023"⟩

theorem buildersAgree_notesQuery :
    BuildersAgree .permissive Nip19.noUrls referenceCrate .reference notesQuery := by
  have hauthor : splitCsv (String.ofList (List.replicate 64 'a')) =
      [String.ofList (List.replicate 64 'a')] := by decide +kernel
  have hkinds : splitCsv "1,30023" = ["1", "30023"] := by decide +kernel
  have hdomain : QueryDomain referenceCrate notesQuery := by
    refine ⟨⟨10, rfl, by decide⟩, ?_, nofun, nofun, nofun, ?_, nofun⟩
    · rintro _ ⟨⟩ item hitem
      rw [hauthor, List.mem_singleton] at hitem
      subst hitem
      refine ⟨⟨by decide +kernel, ?_⟩, ?_⟩
      · exact ⟨List.replicate 32 0xaa, by decide +kernel, rfl⟩
      · intro c hc
        rw [String.toList_ofList] at hc
        rw [List.eq_of_mem_replicate hc]
        decide
    · rintro _ ⟨⟩ item hitem
      rw [hkinds] at hitem
      revert item
      decide +kernel
  rw [buildersAgree_iff_readAlike hdomain]
  refine ⟨rfl, ?_, ?_⟩
  · rintro _ ⟨⟩
    decide +kernel
  · rintro _ ⟨⟩
    decide +kernel

/-- A query for notes that are labelled as in English. -/
def labelledQuery : QueryArgs :=
  ⟨none, none, some 1, some ("l", "en"), none, none, none, none⟩

/-- The map has a text where the filter has a list. -/
theorem not_forall_buildersAgree : ¬ ∀ args, QueryDomain referenceCrate args →
    BuildersAgree .permissive Nip19.noUrls referenceCrate .reference args := by
  intro hall
  have hdomain : QueryDomain referenceCrate labelledQuery := by
    refine ⟨⟨1, rfl, by decide⟩, nofun, nofun, nofun, nofun, nofun, ?_⟩
    rintro _ _ ⟨⟩
    exact ⟨'l', by decide, rfl⟩
  have hnone := generic_eq_none_of_buildersAgree hdomain (hall labelledQuery hdomain)
  cases hnone

end Agreement

end Cli

end Gnostr
