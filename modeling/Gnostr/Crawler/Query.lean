/-
The query the crawler sends to relays, `build_filter` and `build_gnostr_query` of
`crawler/src/query/mod.rs`.  An error stands as the text that is shown for it.
-/
import Gnostr.Types.Messages

namespace Gnostr

namespace Crawler

open Gnostr.Types

/-- A hex codec and its message for a text that it does not decode. -/
structure HexCrate extends Hex where
  errorText : String → String

/-- What a query may ask for. -/
structure QueryArgs where
  authors : Option String
  ids : Option String
  limit : Option Int32
  generic : Option (String × String)
  hashtag : Option String
  mentions : Option String
  references : Option String
  kinds : Option String

def splitCsv (value : String) : List String :=
  (((value.toList.splitOn ',').map trimChars).filter (· ≠ [])).map String.ofList

/-- 64 hexadecimal digits, kept as they are. -/
def hex32TryFromStr (hex : HexCrate) (invalid s : String) : Except String String :=
  if s.utf8ByteSize ≠ 64 then .error invalid
  else
    match hex.decode s with
    | none => .error ("Hex Decode Error: " ++ hex.errorText s)
    | some vec => if vec.length ≠ 32 then .error invalid else .ok s

/-- `PublicKeyHex::try_from_str`. -/
def publicKeyHexTryFromStr (hex : HexCrate) : String → Except String String :=
  hex32TryFromStr hex "Invalid Public Key"

/-- `IdHex::try_from_str`. -/
def idHexTryFromStr (hex : HexCrate) : String → Except String String :=
  hex32TryFromStr hex "Invalid event Id"

/-- What may stand before the number of a kind. -/
def kindLabels : List String :=
  ["nip:", "nip=", "nip/", "nip ", "nips:", "nips=", "nips/", "nips ", "kind:", "kind=",
    "kind/", "kind ", "kinds:", "kinds=", "kinds/", "kinds "]

/-- `strip_kind_prefix`. -/
def stripKindLabel (value : List Char) : List Char :=
  let trimmed := trimChars value
  let lowered := trimmed.map Char.toLower
  match kindLabels.find? fun label => label.toList.isPrefixOf lowered with
  | some label => trimChars (trimmed.drop label.length)
  | none => trimmed

/-- The message for a text that is no number below the bound.  Digits are read up to the
first that makes the number too large, or up to a character that is none. -/
def parseIntErrorText (bound : ℕ) (text : List Char) : String :=
  let digits := (if text.head? = some '+' then text.tail else text).takeWhile Char.isDigit
  if text = [] then "cannot parse integer from empty string"
  else if bound ≤ Nat.ofDigitChars 10 digits 0 then
    "number too large to fit in target type"
  else "invalid digit found in string"

/-- `parse::<u32>`. -/
def parseU32 (text : List Char) : Except String UInt32 :=
  match parseUnsigned (2 ^ 32) text with
  | some value => .ok (UInt32.ofNat value)
  | none => .error (parseIntErrorText (2 ^ 32) text)

/-- The default filter asks for nothing. -/
def noFilter : LimitedFilter := ⟨⟨[], [], [], .empty, none, none⟩, none⟩

/-- `usize::try_from`. -/
def limitTryFrom (limit : Int32) : Except String UInt64 :=
  if limit < 0 then .error "limit must be greater than or equal to zero"
  else .ok (UInt64.ofNat limit.toInt.toNat)

def buildTags (args : QueryArgs) : TagMap :=
  let tags : TagMap := .empty
  let tags :=
    match args.generic with
    | some (tag, val) =>
        match (trimChars tag.toList).head? with
        | some tag => tags.insert tag (splitCsv (trim val))
        | none => tags
    | none => tags
  let tags := args.hashtag.elim tags fun hashtag => tags.insert 't' (splitCsv hashtag)
  let tags := args.mentions.elim tags fun mentions => tags.insert 'p' (splitCsv mentions)
  args.references.elim tags fun references => tags.insert 'e' (splitCsv references)

def buildKinds (kinds : String) : Except String (List EventKind) := do
  let parts := ((kinds.toList.splitOn ',').map trimChars).filter (· ≠ [])
  let kindInts ← parts.mapM fun part => parseU32 (stripKindLabel part)
  return kindInts.map EventKind.ofU32

def buildFilter (hex : HexCrate) (args : QueryArgs) : Except String LimitedFilter := do
  let authors ← (args.authors.elim [] splitCsv).mapM (publicKeyHexTryFromStr hex)
  let ids ← (args.ids.elim [] splitCsv).mapM (idHexTryFromStr hex)
  let limit ← args.limit.mapM limitTryFrom
  let kinds ← args.kinds.elim (.ok []) buildKinds
  return { noFilter with authors, ids, limit, tags := buildTags args, kinds }

def buildGnostrQuery (hex : HexCrate) (args : QueryArgs) : Except String String := do
  let filter ← buildFilter hex args
  let query := ClientMessageV3.req ⟨"gnostr-query"⟩ [filter]
  return query.toJsonString hex.toHex

section Kinds

/-- Only white space is trimmed to nothing. -/
theorem isWhiteSpace_of_trimChars_eq_nil {chars : List Char}
    (htrim : trimChars chars = []) : ∀ c ∈ chars, isWhiteSpace c = true := by
  have hrest := List.rdropWhile_eq_nil_iff.mp htrim
  by_cases hnil : chars.dropWhile isWhiteSpace = []
  · exact List.dropWhile_eq_nil_iff.mp hnil
  · have hhead := hrest _ (List.head_mem hnil)
    rw [List.head_dropWhile_not isWhiteSpace hnil] at hhead
    cases hhead

/-- A blank parameter names no kinds. -/
theorem buildKinds_of_blank {kinds : String} (hblank : trim kinds = "") :
    buildKinds kinds = .ok [] := by
  have htrim : trimChars kinds.toList = [] := by
    rw [← String.toList_ofList (l := trimChars kinds.toList)]
    exact congrArg String.toList hblank
  have hcomma : ',' ∉ kinds.toList := by
    intro hmem
    exact absurd (isWhiteSpace_of_trimChars_eq_nil htrim ',' hmem) (by decide)
  rw [buildKinds, List.splitOn_eq_singleton hcomma, List.map_singleton, htrim]
  rfl

theorem buildGnostrQuery_of_blank (hex : HexCrate) (args : QueryArgs) {kinds : String}
    (hblank : trim kinds = "") :
    buildGnostrQuery hex { args with kinds := some kinds } =
      buildGnostrQuery hex { args with kinds := none } := by
  simp only [buildGnostrQuery, buildFilter, Option.elim, buildKinds_of_blank hblank]
  rfl

end Kinds

/-- A query is an array that begins with a word in quotation marks. -/
theorem quote_mem_of_buildGnostrQuery {hex : HexCrate} {args : QueryArgs}
    {queryString : String} (hbuild : buildGnostrQuery hex args = .ok queryString) :
    '"' ∈ queryString.toList := by
  unfold buildGnostrQuery at hbuild
  cases hfilter : buildFilter hex args with
  | error error =>
      rw [hfilter] at hbuild
      cases hbuild
  | ok filter =>
      rw [hfilter] at hbuild
      obtain rfl := Except.ok.inj hbuild
      rw [ClientMessageV3.toJsonString, String.toList_ofList, ClientMessageV3.toJson,
        Json.render_arr_cons, Json.render]
      exact List.mem_cons_of_mem _ List.mem_cons_self

/-- The query of a test of the crawler. -/
example :
    buildGnostrQuery ⟨Hex.reference, fun _ => ""⟩
        ⟨none, none, some 10, none, some "gnostr ", none, none, some "kind:1,nip=2, 3"⟩ =
      .ok ("[\"REQ\",\"gnostr-query\",\x7b\"kinds\":[1,2,3],\"#t\":[\"gnostr\"]," ++
        "\"limit\":10\x7d]") := by
  decide +kernel

end Crawler

end Gnostr
