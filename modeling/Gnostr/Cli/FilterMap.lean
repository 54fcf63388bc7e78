/-
The filter that the command line builds for a query as a JSON map: `build_filter_map` of
`sub_commands/query.rs` and `parse_key_or_id_to_hex_string` of `utils`.
-/
import Gnostr.Crawler.FilterMeaning
import Gnostr.Nip19.Nip19

namespace Gnostr

namespace Cli

open Types Crawler

/-- `anyhow::Error`: an error of a crate, or a message. -/
inductive AnyhowError
  | types (error : Types.Error)
  | message (text : String)

/-- What a query may ask for, besides the relays and the search term. -/
structure QuerySubCommand where
  authors : Option String
  ids : Option String
  limit : Option Int32
  generic : Option (List String)
  hashtag : Option String
  mentions : Option String
  references : Option String
  kinds : Option String

section Keys

variable (curve : Secp256k1) (parser : UrlParser) (hex : Hex) (bech32 : Bech32)

/-- Convert NIP-19 ids or nostr URLs into hex, preserving raw hex inputs. -/
def parseKeyOrIdToHexString (input : String) : Outcome AnyhowError String :=
  let input := trimChars input.toList
  let input :=
    match input.dropPrefix? "nostr://".toList with
    | some rest => rest.takeWhile (· ≠ '/')
    | none => input
  let text := String.ofList input
  if "npub".toList.isPrefixOf input then
    ((·.asHexString hex) <$> PublicKey.tryFromBech32String curve bech32 text true).mapErr
      .types
  else if "nsec".toList.isPrefixOf input then
    (do
      let data ← decodeBech32 bech32 hrpNsec text
      let secret ← Outcome.okOr .keyOrSignature (SecretKey.fromSlice curve data)
      return hex.encode secret.bytes.toList : Outcome Types.Error String).mapErr .types
  else if "note".toList.isPrefixOf input then
    ((·.asHexString hex) <$> Id.tryFromBech32String bech32 text).mapErr .types
  else if "nprofile".toList.isPrefixOf input then do
    match ← (Nip19.decode curve parser hex bech32 text).mapErr .types with
    | .profile profile => return profile.publicKey.asHexString hex
    | _ => .err (.message "Invalid nprofile format for conversion")
  else .ok text

def normalizeKeyList (values : String) : Outcome AnyhowError (List String) :=
  (splitCsv values).mapM (parseKeyOrIdToHexString curve parser hex bech32)

/-- `insert` of a JSON map; the order of its members is left open. -/
def insertMember (name : String) (value : Json) (members : List (String × Json)) :
    List (String × Json) :=
  (members.filter fun member => member.1 != name) ++ [(name, value)]

/-- The member that a criterion adds if it is given. -/
def insertGiven (name : String) (serialize : String → Outcome AnyhowError Json)
    (given : Option String) (filt : List (String × Json)) :
    Outcome AnyhowError (List (String × Json)) :=
  match given with
  | none => .ok filt
  | some text => (fun value => insertMember name value filt) <$> serialize text

def keyListJson (values : String) : Outcome AnyhowError Json :=
  serializeStrings <$> normalizeKeyList curve parser hex bech32 values

def hashtagJson (hashtag : String) : Json :=
  serializeStrings ((hashtag.toList.splitOn ',').map String.ofList)

/-- `json!` of the numbers that `parse::<i64>` reads. -/
def kindsJson (kinds : String) : Outcome AnyhowError Json :=
  match (kinds.toList.splitOn ',').mapM (parseSigned (2 ^ 63)) with
  | some kindInts => .ok (.arr (kindInts.map .int))
  | none => .err (.message "Error parsing kinds. Ensure they are integers.")

def insertGeneric (generic : Option (List String)) (filt : List (String × Json)) :
    List (String × Json) :=
  match generic with
  | some [tag, val] => insertMember ("#" ++ tag) (.str val) filt
  | _ => filt

def buildFilterMap (args : QuerySubCommand) :
    Outcome AnyhowError (List (String × Json) × Int32) := do
  let limitCheck := args.limit.getD 1
  let filt := insertMember "limit" (.int limitCheck.toInt) []
  let filt ← insertGiven "authors" (keyListJson curve parser hex bech32) args.authors filt
  let filt ← insertGiven "ids" (keyListJson curve parser hex bech32) args.ids filt
  let filt := insertGeneric args.generic filt
  let filt ← insertGiven "#t" (fun hashtag => .ok (hashtagJson hashtag)) args.hashtag filt
  let filt ← insertGiven "#p" (keyListJson curve parser hex bech32) args.mentions filt
  let filt ← insertGiven "#e" (keyListJson curve parser hex bech32) args.references filt
  let filt ← insertGiven "kinds" kindsJson args.kinds filt
  return (filt, limitCheck)

end Keys

section Members

/-- The members that the given criteria add. -/
def membersOf (fields : List (String × Option Json)) : List (String × Json) :=
  fields.flatMap fun field => optionalMember field.1 field.2

theorem membersOf_append (fields more : List (String × Option Json)) :
    membersOf (fields ++ more) = membersOf fields ++ membersOf more :=
  List.flatMap_append

theorem filter_membersOf (p : String → Bool) (fields : List (String × Option Json)) :
    ((membersOf fields).filter fun member => p member.1) =
      membersOf (fields.filter fun field => p field.1) := by
  induction fields with
  | nil => rfl
  | cons field fields ih =>
      rw [membersOf, List.flatMap_cons, ← membersOf, List.filter_append,
        filter_optionalMember p, ih, List.filter_cons]
      split_ifs
      · rfl
      · rfl

/-- The map with a member that may be left out. -/
def insertOptional (name : String) (value : Option Json) (filt : List (String × Json)) :
    List (String × Json) :=
  value.elim filt fun value => insertMember name value filt

/-- A member of a new name is added to the others. -/
theorem insertOptional_membersOf {fields : List (String × Option Json)} {name : String}
    (hnew : name ∉ fields.map Prod.fst) (value : Option Json) :
    insertOptional name value (membersOf fields) =
      membersOf (fields ++ [(name, value)]) := by
  have hkept : (fields.filter fun field => field.1 != name) = fields := by
    rw [List.filter_eq_self]
    intro field hfield
    rw [bne_iff_ne]
    rintro rfl
    exact hnew (List.mem_map_of_mem hfield)
  rw [membersOf_append]
  cases value with
  | none => exact (List.append_nil _).symm
  | some value =>
      rw [insertOptional, Option.elim_some, insertMember,
        filter_membersOf fun other => other != name, hkept]
      rfl

theorem insertGiven_of_ok {name : String} {serialize : String → Outcome AnyhowError Json}
    {given : Option String} {value : String → Json}
    (hvalue : ∀ text, given = some text → serialize text = .ok (value text))
    (filt : List (String × Json)) :
    insertGiven name serialize given filt =
      .ok (insertOptional name (given.map value) filt) := by
  cases given with
  | none => rfl
  | some text =>
      rw [insertGiven, hvalue text rfl]
      rfl

/-- In whatever order the members stand, a field is read from its member. -/
theorem deserializeField_of_perm {α : Type} {fields : List (String × Option Json)}
    {order : List (String × Json)} (hperm : order.Perm (membersOf fields)) {name : String}
    {value : Option Json}
    (hfield : (fields.filter fun field => field.1 == name) = [(name, value)]) (default : α)
    (deserialize : Json → Option α) :
    deserializeField order name default deserialize =
      value.elim (some default) deserialize := by
  apply deserializeField_of_filter_eq
  have hfilter := hperm.filter fun member => member.1 == name
  rw [filter_membersOf fun other => other == name, hfield] at hfilter
  rw [membersOf, List.flatMap_singleton] at hfilter
  cases value with
  | none => exact List.perm_nil.mp hfilter
  | some value => exact List.perm_singleton.mp hfilter

theorem deserializeField_of_missing {α : Type} {fields : List (String × Option Json)}
    {order : List (String × Json)} (hperm : order.Perm (membersOf fields)) {name : String}
    (hmissing : (fields.filter fun field => field.1 == name) = []) (default : α)
    (deserialize : Json → Option α) :
    deserializeField order name default deserialize = some default := by
  have hfilter := hperm.filter fun member => member.1 == name
  rw [filter_membersOf fun other => other == name, hmissing] at hfilter
  rw [deserializeField, List.perm_nil.mp hfilter]

/-- The entries of the tags are inserted. -/
theorem foldlM_visitTagEntry_eq (entries : List (Char × List String)) (tags : TagMap) :
    (entries.map fun entry => (tagKey entry.1, serializeStrings entry.2)).foldlM
      visitTagEntry tags =
        some (entries.foldl (fun tags entry => tags.insert entry.1 entry.2) tags) := by
  induction entries generalizing tags with
  | nil => rfl
  | cons entry entries ih =>
      rw [List.map_cons, List.foldlM_cons, visitTagEntry_tagKey, Option.bind_eq_bind,
        Option.bind_some, ih, List.foldl_cons]

/-- A value that is no list of strings is an error, in whatever order the members stand. -/
theorem foldlM_visitTagEntry_of_mem {members : List (String × Json)} {name : String}
    {value : Json} (hmem : (name, value) ∈ members)
    (hvalue : deserializeList deserializeString value = none) (tags : TagMap) :
    members.foldlM visitTagEntry tags = none := by
  induction members generalizing tags with
  | nil => cases hmem
  | cons member members ih =>
      rw [List.foldlM_cons]
      rcases List.mem_cons.mp hmem with rfl | hlater
      · rw [visitTagEntry, hvalue]
        rfl
      · cases hvisit : visitTagEntry tags member with
        | none => rfl
        | some tags => exact ih hlater tags

end Members

end Cli

end Gnostr
