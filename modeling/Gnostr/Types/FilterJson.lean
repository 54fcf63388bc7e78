/-
The JSON of a filter, of `types/src/nostr/filter.rs`: empty lists and missing
bounds are left out, and the tags stand among the other members under a name of
`#` and their letter.
-/
import Gnostr.Types.EventV3
import Mathlib.Data.Char

namespace Gnostr

namespace Types

/-- A filter with its limit, which matching does not read. -/
structure LimitedFilter extends Filter where
  limit : Option UInt64

namespace TagMap

/-- Insert into entries in the order of their letters; the values of a letter that
is there are replaced. -/
def insertEntry (letter : Char) (values : List String) :
    List (Char × List String) → List (Char × List String)
  | [] => [(letter, values)]
  | first :: rest =>
      if letter < first.1 then (letter, values) :: first :: rest
      else if letter = first.1 then (letter, values) :: rest
      else first :: insertEntry letter values rest

theorem mem_insertEntry {letter : Char} {values : List String}
    {entries : List (Char × List String)} {entry : Char × List String}
    (hentry : entry ∈ insertEntry letter values entries) :
    entry = (letter, values) ∨ entry ∈ entries := by
  induction entries with
  | nil => exact .inl (List.mem_singleton.mp hentry)
  | cons first rest ih =>
      unfold insertEntry at hentry
      split_ifs at hentry
      · exact List.mem_cons.mp hentry
      · exact (List.mem_cons.mp hentry).imp_right (List.mem_cons_of_mem first)
      · rcases List.mem_cons.mp hentry with rfl | hentry
        · exact .inr List.mem_cons_self
        · exact (ih hentry).imp_right (List.mem_cons_of_mem first)

theorem sorted_insertEntry (letter : Char) (values : List String)
    {entries : List (Char × List String)}
    (hsorted : entries.Pairwise fun first second => first.1 < second.1) :
    (insertEntry letter values entries).Pairwise
      fun first second => first.1 < second.1 := by
  induction entries with
  | nil => exact List.pairwise_singleton _ _
  | cons first rest ih =>
      obtain ⟨hfirst, hrest⟩ := List.pairwise_cons.mp hsorted
      unfold insertEntry
      split_ifs with hlt heq
      · refine List.pairwise_cons.mpr ⟨?_, hsorted⟩
        intro entry hentry
        rcases List.mem_cons.mp hentry with rfl | hentry
        · exact hlt
        · exact hlt.trans (hfirst entry hentry)
      · refine List.pairwise_cons.mpr ⟨?_, hrest⟩
        intro entry hentry
        rw [heq]
        exact hfirst entry hentry
      · refine List.pairwise_cons.mpr ⟨?_, ih hrest⟩
        intro entry hentry
        rcases mem_insertEntry hentry with rfl | hentry
        · exact lt_of_le_of_ne (not_lt.mp hlt) (Ne.symm heq)
        · exact hfirst entry hentry

/-- `BTreeMap::insert`. -/
def insert (tags : TagMap) (letter : Char) (values : List String) : TagMap :=
  ⟨insertEntry letter values tags.entries, sorted_insertEntry letter values tags.sorted⟩

/-- `BTreeMap::new`. -/
def empty : TagMap := ⟨[], List.Pairwise.nil⟩

theorem ext_entries {first second : TagMap} (hsame : first.entries = second.entries) :
    first = second := by
  cases first
  cases second
  cases hsame
  rfl

/-- A letter behind all others is inserted at the end. -/
theorem insertEntry_of_forall_lt {letter : Char} (values : List String)
    {entries : List (Char × List String)}
    (hlast : ∀ entry ∈ entries, entry.1 < letter) :
    insertEntry letter values entries = entries ++ [(letter, values)] := by
  induction entries with
  | nil => rfl
  | cons first rest ih =>
      have hfirst := hlast first List.mem_cons_self
      rw [insertEntry, if_neg (lt_asymm hfirst), if_neg hfirst.ne',
        ih fun entry hentry => hlast entry (List.mem_cons_of_mem first hentry)]
      rfl

end TagMap

section Members

/-- A member that may be left out. -/
def optionalMember (name : String) (value : Option Json) : List (String × Json) :=
  (value.map fun value => (name, value)).toList

/-- A list that is left out when it is empty. -/
def nonEmptyArr {α : Type} (serialize : α → Json) (values : List α) : Option Json :=
  if values.isEmpty then none else some (.arr (values.map serialize))

/-- A field of the record, or its default when there is no member of the name.
Two members of one name are an error. -/
def deserializeField {α : Type} (members : List (String × Json)) (name : String)
    (default : α) (deserialize : Json → Option α) : Option α :=
  match members.filter fun member => member.1 == name with
  | [] => some default
  | [member] => deserialize member.2
  | _ => none

def deserializeList {α : Type} (deserialize : Json → Option α) :
    Json → Option (List α)
  | .arr items => items.mapM deserialize
  | _ => none

def deserializeOption {α : Type} (deserialize : Json → Option α) :
    Json → Option (Option α)
  | .null => some none
  | value => some <$> deserialize value

theorem deserializeField_of_filter_eq {α : Type} {members : List (String × Json)}
    {name : String} {value : Option Json} {default : α}
    {deserialize : Json → Option α}
    (hfilter : (members.filter fun member => member.1 == name) =
      optionalMember name value) :
    deserializeField members name default deserialize =
      value.elim (some default) deserialize := by
  rw [deserializeField, hfilter]
  cases value <;> rfl

theorem filter_optionalMember (p : String → Bool) (name : String)
    (value : Option Json) :
    ((optionalMember name value).filter fun member => p member.1) =
      if p name = true then optionalMember name value else [] := by
  cases value with
  | none => simp [optionalMember]
  | some value =>
      rw [optionalMember, Option.map_some, Option.toList_some, List.filter_singleton]
      cases p name <;> rfl

end Members

section Serialize

variable (hex : Hex)

/-- `format!("#{tag}")`. -/
def tagKey (letter : Char) : String := String.ofList ['#', letter]

def serializeStrings (values : List String) : Json := .arr (values.map .str)

/-- `serialize_tags`. -/
def serializeTagMap (tags : TagMap) : List (String × Json) :=
  tags.entries.map fun entry => (tagKey entry.1, serializeStrings entry.2)

def serializeUsize (number : UInt64) : Json := .int number.toNat

/-- The members of a filter, in the order of the fields. -/
def LimitedFilter.members (filter : LimitedFilter) : List (String × Json) :=
  optionalMember "ids" (nonEmptyArr .str filter.ids) ++
    optionalMember "authors" (nonEmptyArr .str filter.authors) ++
    optionalMember "kinds" (nonEmptyArr serializeEventKind filter.kinds) ++
    serializeTagMap filter.tags ++
    optionalMember "since" (filter.since.map serializeUnixtime) ++
    optionalMember "until" (filter.until_.map serializeUnixtime) ++
    optionalMember "limit" (filter.limit.map serializeUsize)

def LimitedFilter.toJson (filter : LimitedFilter) : Json := .obj filter.members

/-- `visit_str` of `IdHex` and of `PublicKeyHex`: 64 hexadecimal digits, which are
kept as they are. -/
def visitHex32 (v : String) : Option String :=
  if v.utf8ByteSize ≠ 64 then none
  else
    (hex.decode v).bind fun vec =>
      if vec.length ≠ 32 then none else some v

def deserializeHex32 (value : Json) : Option String :=
  (deserializeString value).bind (visitHex32 hex)

def deserializeUsize : Json → Option UInt64
  | .int number =>
      if 0 ≤ number ∧ number < 2 ^ 64 then some (UInt64.ofNat number.toNat) else none
  | _ => none

/-- One entry of the map that `deserialize_tags` visits.  Its value must be a list
of strings, even under a name that is then left out. -/
def visitTagEntry (tags : TagMap) (entry : String × Json) : Option TagMap := do
  let values ← deserializeList deserializeString entry.2
  match entry.1.toList with
  | ['#', ch] => return tags.insert ch values
  | _ => return tags

/-- The names of the fields; every other member is left to the tags. -/
def filterFields : List String :=
  ["ids", "authors", "kinds", "since", "until", "limit"]

/-- `deserialize_tags`. -/
def deserializeTagMap (members : List (String × Json)) : Option TagMap :=
  (members.filter fun member => !filterFields.contains member.1).foldlM
    visitTagEntry TagMap.empty

/-- The filter that is read from a value. -/
def LimitedFilter.ofJson : Json → Option LimitedFilter
  | .obj members => do
      let ids ← deserializeField members "ids" []
        (deserializeList (deserializeHex32 hex))
      let authors ← deserializeField members "authors" []
        (deserializeList (deserializeHex32 hex))
      let kinds ← deserializeField members "kinds" []
        (deserializeList deserializeEventKind)
      let since ← deserializeField members "since" none
        (deserializeOption deserializeUnixtime)
      let until_ ← deserializeField members "until" none
        (deserializeOption deserializeUnixtime)
      let limit ← deserializeField members "limit" none
        (deserializeOption deserializeUsize)
      let tags ← deserializeTagMap members
      return ⟨⟨ids, authors, kinds, tags, since, until_⟩, limit⟩
  | _ => none

end Serialize

section RoundTrip

variable {hex : Hex}

/-- 64 hexadecimal digits. -/
def IsHex32 (hex : Hex) (v : String) : Prop :=
  v.utf8ByteSize = 64 ∧ ∃ vec, hex.decode v = some vec ∧ vec.length = 32

theorem visitHex32_eq_some_iff {v w : String} :
    visitHex32 hex v = some w ↔ IsHex32 hex v ∧ v = w := by
  unfold visitHex32 IsHex32
  by_cases hsize : v.utf8ByteSize = 64
  · rw [if_neg (not_not_intro hsize)]
    cases hvec : hex.decode v with
    | none => simp
    | some vec =>
        by_cases hlength : vec.length = 32
        · simp [hsize, hlength]
        · simp [hlength]
  · simp [hsize]

theorem mapM_visitHex32_eq_some_iff {values result : List String} :
    values.mapM (visitHex32 hex) = some result ↔
      (∀ v ∈ values, IsHex32 hex v) ∧ values = result := by
  induction values generalizing result with
  | nil => simp
  | cons v values ih =>
      rw [List.mapM_cons, List.forall_mem_cons, Option.bind_eq_bind,
        Option.bind_eq_some_iff]
      constructor
      · rintro ⟨w, hv, hrest⟩
        obtain ⟨others, hothers, hresult⟩ := Option.bind_eq_some_iff.mp hrest
        obtain ⟨hhex, rfl⟩ := visitHex32_eq_some_iff.mp hv
        obtain ⟨hall, rfl⟩ := ih.mp hothers
        exact ⟨⟨hhex, hall⟩, Option.some.inj hresult⟩
      · rintro ⟨⟨hhex, hall⟩, rfl⟩
        refine ⟨v, visitHex32_eq_some_iff.mpr ⟨hhex, rfl⟩, ?_⟩
        rw [ih.mpr ⟨hall, rfl⟩]
        rfl

/-- A list comes back as the list of what its items come back as. -/
theorem elim_nonEmptyArr {α : Type} (serialize : α → Json)
    (deserialize : Json → Option α) (values : List α) :
    (nonEmptyArr serialize values).elim (some []) (deserializeList deserialize) =
      values.mapM fun value => deserialize (serialize value) := by
  cases values with
  | nil => rfl
  | cons value values =>
      show (List.map serialize (value :: values)).mapM deserialize = _
      rw [List.mapM_map]
      rfl

theorem elim_option {α : Type} {serialize : α → Json} {deserialize : Json → Option α}
    (hback : ∀ value, deserializeOption deserialize (serialize value) =
      some (some value)) (value : Option α) :
    (value.map serialize).elim (some none) (deserializeOption deserialize) =
      some value := by
  cases value with
  | none => rfl
  | some value => exact hback value

theorem deserializeOption_serializeUnixtime (time : Int64) :
    deserializeOption deserializeUnixtime (serializeUnixtime time) =
      some (some time) := by
  show some <$> deserializeUnixtime (serializeUnixtime time) = _
  rw [deserializeUnixtime_serializeUnixtime]
  rfl

theorem deserializeOption_serializeUsize (number : UInt64) :
    deserializeOption deserializeUsize (serializeUsize number) =
      some (some number) := by
  have hlt := number.toNat_lt
  have hback : deserializeUsize (serializeUsize number) = some number := by
    rw [serializeUsize, deserializeUsize, if_pos ⟨by omega, by omega⟩,
      Int.toNat_natCast, UInt64.ofNat_toNat]
  show some <$> deserializeUsize (serializeUsize number) = _
  rw [hback]
  rfl

theorem toList_tagKey (letter : Char) : (tagKey letter).toList = ['#', letter] :=
  String.toList_ofList

/-- No field has a name that begins with `#`. -/
theorem filter_serializeTagMap {name : String} (hname : name.toList.head? ≠ some '#')
    (tags : TagMap) :
    ((serializeTagMap tags).filter fun member => member.1 == name) = [] := by
  rw [List.filter_eq_nil_iff]
  intro member hmember
  obtain ⟨entry, _, rfl⟩ := List.mem_map.mp hmember
  rw [beq_iff_eq]
  rintro rfl
  rw [toList_tagKey] at hname
  exact hname rfl

theorem LimitedFilter.filter_members {name : String}
    (hname : name.toList.head? ≠ some '#') (filter : LimitedFilter) :
    (filter.members.filter fun member => member.1 == name) =
      (if ("ids" == name) = true then
        optionalMember "ids" (nonEmptyArr .str filter.ids) else []) ++
      (if ("authors" == name) = true then
        optionalMember "authors" (nonEmptyArr .str filter.authors) else []) ++
      (if ("kinds" == name) = true then
        optionalMember "kinds" (nonEmptyArr serializeEventKind filter.kinds)
        else []) ++
      (if ("since" == name) = true then
        optionalMember "since" (filter.since.map serializeUnixtime) else []) ++
      (if ("until" == name) = true then
        optionalMember "until" (filter.until_.map serializeUnixtime) else []) ++
      (if ("limit" == name) = true then
        optionalMember "limit" (filter.limit.map serializeUsize) else []) := by
  simp only [LimitedFilter.members, List.filter_append,
    filter_optionalMember (fun other => other == name),
    filter_serializeTagMap hname, List.append_nil]

/-- The name of a tag is not that of a field. -/
theorem contains_tagKey (letter : Char) :
    filterFields.contains (tagKey letter) = false := by
  have hnone : (filterFields.all fun name => name.toList.head? != some '#') = true := by
    decide +kernel
  rw [List.contains_eq_mem, decide_eq_false_iff_not]
  intro hfield
  have hhead := List.all_eq_true.mp hnone _ hfield
  rw [toList_tagKey] at hhead
  simp at hhead

/-- Behind the known fields only the tags are left. -/
theorem LimitedFilter.filter_members_tags (filter : LimitedFilter) :
    (filter.members.filter fun member => !filterFields.contains member.1) =
      serializeTagMap filter.tags := by
  have htags : ((serializeTagMap filter.tags).filter fun member =>
      !filterFields.contains member.1) = serializeTagMap filter.tags := by
    rw [List.filter_eq_self]
    intro member hmember
    obtain ⟨entry, _, rfl⟩ := List.mem_map.mp hmember
    rw [contains_tagKey]
    rfl
  simp only [LimitedFilter.members, List.filter_append,
    filter_optionalMember (fun other => !filterFields.contains other), htags]
  simp [filterFields]

theorem visitTagEntry_tagKey (tags : TagMap) (entry : Char × List String) :
    visitTagEntry tags (tagKey entry.1, serializeStrings entry.2) =
      some (tags.insert entry.1 entry.2) := by
  have hvalues : deserializeList deserializeString (serializeStrings entry.2) =
      some entry.2 := by
    show (entry.2.map Json.str).mapM deserializeString = some entry.2
    rw [List.mapM_map]
    exact List.mapM_pure.trans (by simp)
  rw [visitTagEntry, hvalues, Option.bind_eq_bind, Option.bind_some]
  dsimp only
  rw [toList_tagKey]
  rfl

/-- The entries are inserted in their order, each behind the ones before it. -/
theorem foldlM_visitTagEntry (tags : TagMap) (rest : List (Char × List String))
    (result : TagMap) (hresult : result.entries = tags.entries ++ rest) :
    (rest.map fun entry => (tagKey entry.1, serializeStrings entry.2)).foldlM
      visitTagEntry tags = some result := by
  induction rest generalizing tags with
  | nil =>
      rw [List.append_nil] at hresult
      rw [TagMap.ext_entries hresult]
      rfl
  | cons entry rest ih =>
      have hsorted := result.sorted
      rw [hresult, List.pairwise_append] at hsorted
      have hinsert : (tags.insert entry.1 entry.2).entries = tags.entries ++ [entry] :=
        TagMap.insertEntry_of_forall_lt entry.2 fun other hother =>
          hsorted.2.2 other hother entry List.mem_cons_self
      rw [List.map_cons, List.foldlM_cons, visitTagEntry_tagKey, Option.bind_eq_bind,
        Option.bind_some]
      apply ih
      rw [hinsert, hresult, List.append_assoc]
      rfl

theorem LimitedFilter.deserializeTagMap_members (filter : LimitedFilter) :
    deserializeTagMap filter.members = some filter.tags := by
  rw [deserializeTagMap, filter.filter_members_tags]
  exact foldlM_visitTagEntry TagMap.empty filter.tags.entries filter.tags rfl

/-- The kinds as the ones that their numbers name. -/
def LimitedFilter.canonicalKinds (filter : LimitedFilter) : LimitedFilter :=
  { filter with kinds := filter.kinds.map fun kind => EventKind.ofU32 kind.toU32 }

/-- The ids and the authors are 64 hexadecimal digits each. -/
def LimitedFilter.HexLists (hex : Hex) (filter : LimitedFilter) : Prop :=
  (∀ id ∈ filter.ids, IsHex32 hex id) ∧ ∀ author ∈ filter.authors, IsHex32 hex author

section Fields

variable (filter : LimitedFilter)

theorem LimitedFilter.deserializeField_ids :
    deserializeField filter.members "ids" [] (deserializeList (deserializeHex32 hex)) =
      filter.ids.mapM (visitHex32 hex) := by
  have hfilter : (filter.members.filter fun member => member.1 == "ids") =
      optionalMember "ids" (nonEmptyArr .str filter.ids) :=
    (filter.filter_members (by decide +kernel)).trans (by simp)
  rw [deserializeField_of_filter_eq hfilter, elim_nonEmptyArr]
  rfl

theorem LimitedFilter.deserializeField_authors :
    deserializeField filter.members "authors" []
        (deserializeList (deserializeHex32 hex)) =
      filter.authors.mapM (visitHex32 hex) := by
  have hfilter : (filter.members.filter fun member => member.1 == "authors") =
      optionalMember "authors" (nonEmptyArr .str filter.authors) :=
    (filter.filter_members (by decide +kernel)).trans (by simp)
  rw [deserializeField_of_filter_eq hfilter, elim_nonEmptyArr]
  rfl

theorem LimitedFilter.deserializeField_kinds :
    deserializeField filter.members "kinds" []
        (deserializeList deserializeEventKind) =
      some (filter.kinds.map fun kind => EventKind.ofU32 kind.toU32) := by
  have hfilter : (filter.members.filter fun member => member.1 == "kinds") =
      optionalMember "kinds" (nonEmptyArr serializeEventKind filter.kinds) :=
    (filter.filter_members (by decide +kernel)).trans (by simp)
  rw [deserializeField_of_filter_eq hfilter, elim_nonEmptyArr]
  simp only [deserializeEventKind_serializeEventKind]
  exact List.mapM_pure

theorem LimitedFilter.deserializeField_since :
    deserializeField filter.members "since" none
        (deserializeOption deserializeUnixtime) = some filter.since := by
  have hfilter : (filter.members.filter fun member => member.1 == "since") =
      optionalMember "since" (filter.since.map serializeUnixtime) :=
    (filter.filter_members (by decide +kernel)).trans (by simp)
  rw [deserializeField_of_filter_eq hfilter, elim_option deserializeOption_serializeUnixtime]

theorem LimitedFilter.deserializeField_until :
    deserializeField filter.members "until" none
        (deserializeOption deserializeUnixtime) = some filter.until_ := by
  have hfilter : (filter.members.filter fun member => member.1 == "until") =
      optionalMember "until" (filter.until_.map serializeUnixtime) :=
    (filter.filter_members (by decide +kernel)).trans (by simp)
  rw [deserializeField_of_filter_eq hfilter, elim_option deserializeOption_serializeUnixtime]

theorem LimitedFilter.deserializeField_limit :
    deserializeField filter.members "limit" none
        (deserializeOption deserializeUsize) = some filter.limit := by
  have hfilter : (filter.members.filter fun member => member.1 == "limit") =
      optionalMember "limit" (filter.limit.map serializeUsize) :=
    (filter.filter_members (by decide +kernel)).trans (by simp)
  rw [deserializeField_of_filter_eq hfilter, elim_option deserializeOption_serializeUsize]

end Fields

/-- A filter is read back exactly when its ids and authors are hexadecimal, its
kinds as the ones that their numbers name. -/
theorem LimitedFilter.ofJson_toJson_eq_some_iff {filter result : LimitedFilter} :
    ofJson hex filter.toJson = some result ↔
      filter.HexLists hex ∧ filter.canonicalKinds = result := by
  unfold LimitedFilter.toJson LimitedFilter.ofJson
  dsimp only
  rw [filter.deserializeField_ids, filter.deserializeField_authors,
    filter.deserializeField_kinds, filter.deserializeField_since,
    filter.deserializeField_until, filter.deserializeField_limit,
    filter.deserializeTagMap_members]
  simp only [Option.bind_eq_bind, Option.bind_some]
  rw [Option.bind_eq_some_iff]
  constructor
  · rintro ⟨ids, hids, hrest⟩
    obtain ⟨authors, hauthors, hresult⟩ := Option.bind_eq_some_iff.mp hrest
    obtain ⟨hidsHex, rfl⟩ := mapM_visitHex32_eq_some_iff.mp hids
    obtain ⟨hauthorsHex, rfl⟩ := mapM_visitHex32_eq_some_iff.mp hauthors
    exact ⟨⟨hidsHex, hauthorsHex⟩, Option.some.inj hresult⟩
  · rintro ⟨⟨hids, hauthors⟩, rfl⟩
    refine ⟨filter.ids, mapM_visitHex32_eq_some_iff.mpr ⟨hids, rfl⟩, ?_⟩
    rw [mapM_visitHex32_eq_some_iff.mpr ⟨hauthors, rfl⟩]
    rfl

section Depth

theorem fits_optionalMember {depth : ℕ} {name : String} {value : Option Json}
    (hfits : ∀ value' ∈ value, value'.fits depth = true) :
    ((optionalMember name value).all fun member => member.2.fits depth) = true := by
  cases value with
  | none => rfl
  | some value => simpa [optionalMember] using hfits value rfl

theorem fits_nonEmptyArr {α : Type} {serialize : α → Json} {depth : ℕ}
    (hfits : ∀ value, (serialize value).fits depth = true) (values : List α) :
    ∀ value ∈ nonEmptyArr serialize values, value.fits (depth + 1) = true := by
  intro value hvalue
  unfold nonEmptyArr at hvalue
  split at hvalue
  · cases hvalue
  · cases hvalue
    rw [Json.fits, List.all_map, List.all_eq_true]
    exact fun value _ => hfits value

/-- A filter is an object of arrays. -/
theorem LimitedFilter.fits_toJson (filter : LimitedFilter) (depth : ℕ) :
    filter.toJson.fits (depth + 2) = true := by
  have hnumber : ∀ {α : Type} (serialize : α → Json) (value : Option α),
      (∀ value, (serialize value).fits (depth + 1) = true) →
      ∀ value' ∈ value.map serialize, value'.fits (depth + 1) = true := by
    intro α serialize value hfits value' hvalue
    obtain ⟨number, _, rfl⟩ := Option.map_eq_some_iff.mp hvalue
    exact hfits number
  have husize : ∀ number, (serializeUsize number).fits (depth + 1) = true := by
    intro number
    have hlt := number.toNat_lt
    rw [serializeUsize, Json.fits]
    exact decide_eq_true ⟨by omega, by omega⟩
  have htags : ((serializeTagMap filter.tags).all fun member =>
      member.2.fits (depth + 1)) = true := by
    rw [serializeTagMap, List.all_map, List.all_eq_true]
    intro entry _
    rw [Function.comp_apply, serializeStrings, Json.fits, List.all_map, List.all_eq_true]
    exact fun value _ => fits_str depth value
  rw [LimitedFilter.toJson, Json.fits]
  simp only [LimitedFilter.members, List.all_append, htags, Bool.and_eq_true]
  exact ⟨⟨⟨⟨⟨⟨fits_optionalMember (fits_nonEmptyArr (fits_str depth) _),
    fits_optionalMember (fits_nonEmptyArr (fits_str depth) _)⟩,
    fits_optionalMember (fits_nonEmptyArr (fits_serializeEventKind depth) _)⟩,
    trivial⟩,
    fits_optionalMember (hnumber _ _ (fits_serializeUnixtime (depth + 1)))⟩,
    fits_optionalMember (hnumber _ _ (fits_serializeUnixtime (depth + 1)))⟩,
    fits_optionalMember (hnumber _ _ husize)⟩

end Depth

end RoundTrip

end Types

end Gnostr
