/-
What the filter of a query means, `build_filter` of `crawler/src/query/mod.rs` beside the
events that were asked for.  The criteria on ids, authors, kinds and tags are independent
of each other; a list that is given and empty asks for nothing and is no condition of the
filter, and of two criteria with one letter the filter keeps the later one.
-/
import Gnostr.Crawler.Query
import Gnostr.Types.FilterOps
import Mathlib.Data.Set.Basic

namespace Gnostr

namespace Crawler

open Gnostr.Types

section Criteria

/-- Conditions on the id, the author, the kind and the tags of an event. -/
structure Criteria where
  ids : Set (Vector UInt8 32)
  authors : Set (Vector UInt8 32)
  kinds : Set EventKind
  tags : Set (List TagV3)

namespace Criteria

variable {first second : Criteria}

def Admits (criteria : Criteria) (event : Event) : Prop :=
  event.id.bytes ∈ criteria.ids ∧ event.pubkey.bytes ∈ criteria.authors ∧
    event.kind ∈ criteria.kinds ∧ event.tags ∈ criteria.tags

/-- One of the conditions cannot be met. -/
def Barren (criteria : Criteria) : Prop :=
  criteria.ids = ∅ ∨ criteria.authors = ∅ ∨ criteria.kinds = ∅ ∨ criteria.tags = ∅

def eventOf (id author : Vector UInt8 32) (kind : EventKind) (tags : List TagV3) : Event :=
  ⟨⟨id⟩, ⟨author⟩, 0, kind, tags⟩

/-- The conditions are independent. -/
theorem barren_iff (criteria : Criteria) :
    criteria.Barren ↔ ∀ event, ¬ criteria.Admits event := by
  constructor
  · rintro (hids | hauthors | hkinds | htags) event ⟨hid, hauthor, hkind, htag⟩
    · simp [hids] at hid
    · simp [hauthors] at hauthor
    · simp [hkinds] at hkind
    · simp [htags] at htag
  · intro hnone
    by_contra hnot
    simp only [Barren, not_or, ← Ne.eq_def, ← Set.nonempty_iff_ne_empty] at hnot
    obtain ⟨⟨id, hid⟩, ⟨author, hauthor⟩, ⟨kind, hkind⟩, tags, htags⟩ := hnot
    exact hnone (eventOf id author kind tags) ⟨hid, hauthor, hkind, htags⟩

/-- Criteria that some event meets are told apart by the events they admit. -/
theorem eq_of_forall_admits_iff (hbarren : ¬ first.Barren)
    (hsame : ∀ event, first.Admits event ↔ second.Admits event) : first = second := by
  rw [barren_iff] at hbarren
  push Not at hbarren
  obtain ⟨event, hadmits⟩ := hbarren
  have hadmits' := (hsame event).mp hadmits
  obtain ⟨hid, hauthor, hkind, htags⟩ := hadmits
  obtain ⟨hid', hauthor', hkind', htags'⟩ := hadmits'
  have hids : first.ids = second.ids := by
    ext id
    have hiff := hsame (eventOf id event.pubkey.bytes event.kind event.tags)
    simpa [Admits, eventOf, *] using hiff
  have hauthors : first.authors = second.authors := by
    ext author
    have hiff := hsame (eventOf event.id.bytes author event.kind event.tags)
    simpa [Admits, eventOf, *] using hiff
  have hkinds : first.kinds = second.kinds := by
    ext kind
    have hiff := hsame (eventOf event.id.bytes event.pubkey.bytes kind event.tags)
    simpa [Admits, eventOf, *] using hiff
  have htags : first.tags = second.tags := by
    ext tags
    have hiff := hsame (eventOf event.id.bytes event.pubkey.bytes event.kind tags)
    simpa [Admits, eventOf, *] using hiff
  cases first
  cases second
  simp_all

/-- The same events are admitted by the same criteria, and by two that admit none. -/
theorem forall_admits_iff :
    (∀ event, first.Admits event ↔ second.Admits event) ↔
      first = second ∨ first.Barren ∧ second.Barren := by
  constructor
  · intro hsame
    by_cases hbarren : first.Barren
    · refine Or.inr ⟨hbarren, ?_⟩
      rw [barren_iff] at hbarren ⊢
      exact fun event hadmits => hbarren event ((hsame event).mpr hadmits)
    · exact Or.inl (eq_of_forall_admits_iff hbarren hsame)
  · rintro (rfl | ⟨hfirst, hsecond⟩) event
    · exact Iff.rfl
    · rw [barren_iff] at hfirst hsecond
      exact iff_of_false (hfirst event) (hsecond event)

end Criteria

end Criteria

section Asked

/-- A text of one of the items is read as the bytes. -/
def Lists (hex : HexCrate) (given : Option String) (bytes : Vector UInt8 32) : Prop :=
  ∀ text, given = some text → ∃ item ∈ splitCsv text, hex.decode item = some bytes.toList

/-- There is a tag of exactly this name with one of the values. -/
def HasTag (tags : List TagV3) (name : String) (values : List String) : Prop :=
  ∃ tag ∈ tags, tag.fields[0]? = some name ∧
    ∃ value ∈ values, tag.fields[1]? = some value

/-- The event satisfies every criterion that is given. -/
structure Asked (hex : HexCrate) (args : QueryArgs) (event : Event) : Prop where
  authors : Lists hex args.authors event.pubkey.bytes
  ids : Lists hex args.ids event.id.bytes
  kinds : ∀ text, args.kinds = some text →
    ∃ kinds, buildKinds text = .ok kinds ∧ event.kind ∈ kinds
  generic : ∀ tag val, args.generic = some (tag, val) →
    HasTag event.tags (trim tag) (splitCsv (trim val))
  hashtag : ∀ text, args.hashtag = some text → HasTag event.tags "t" (splitCsv text)
  mentions : ∀ text, args.mentions = some text → HasTag event.tags "p" (splitCsv text)
  references : ∀ text, args.references = some text → HasTag event.tags "e" (splitCsv text)

/-- A filter has conditions on tags with a name of one letter, and on no others. -/
def Expressible (args : QueryArgs) : Prop :=
  ∀ tag val, args.generic = some (tag, val) →
    ∃ letter : Char, letter.isAlpha = true ∧ trim tag = String.singleton letter

/-- The limit that is given is a number of events. -/
def LimitedTo (given : Option Int32) (limit : Option UInt64) : Prop :=
  (∀ number, given = some number → ¬ number < 0) ∧
    limit = given.map fun number => UInt64.ofNat number.toInt.toNat

/-- What was asked for can be expressed, and is what the filter matches. -/
def MeansAsAsked (hex : HexCrate) (args : QueryArgs) (filter : LimitedFilter) : Prop :=
  Expressible args ∧ LimitedTo args.limit filter.limit ∧
    ∀ event, filter.Matches hex.toHex event ↔ Asked hex args event

end Asked

section Conditions

variable (hex : HexCrate) (args : QueryArgs)

/-- What is given lists something. -/
def Nonblank (given : Option String) : Prop :=
  ∀ text, given = some text → splitCsv text ≠ []

/-- What is listed in upper case is listed in lower case too. -/
def LowerCased (given : Option String) : Prop :=
  ∀ text, given = some text → ∀ item ∈ splitCsv text, ∀ bytes,
    hex.decode item = some bytes → hex.encode bytes ∈ splitCsv text

/-- Something is listed, and nothing of it in lower case. -/
def UpperCased (given : Option String) : Prop :=
  ∃ text, given = some text ∧ splitCsv text ≠ [] ∧
    ∀ bytes : Vector UInt8 32, hex.encode bytes.toList ∉ splitCsv text

/-- What is given by name for the tags of a letter. -/
def namedValues (letter : Char) : Option (List String) :=
  if letter = 'e' then args.references.map splitCsv
  else if letter = 'p' then args.mentions.map splitCsv
  else if letter = 't' then args.hashtag.map splitCsv
  else none

/-- One of the lists that are given by name is empty. -/
def NamedBlank : Prop :=
  ¬ (Nonblank args.hashtag ∧ Nonblank args.mentions ∧ Nonblank args.references)

/-- The list that replaces the generic one is a part of it. -/
def GenericKept : Prop :=
  ∀ tag val letter, args.generic = some (tag, val) → trim tag = String.singleton letter →
    ∀ values, namedValues args letter = some values → values ⊆ splitCsv (trim val)

/-- Every list that is given is a condition of the filter. -/
structure Plain : Prop where
  authors : Nonblank args.authors ∧ LowerCased hex args.authors
  ids : Nonblank args.ids ∧ LowerCased hex args.ids
  kinds : Nonblank args.kinds
  generic : NamedBlank args ∨ GenericKept args

/-- One of the lists that are given is empty, so nothing is asked for. -/
def AsksNothing : Prop :=
  ¬ Nonblank args.authors ∨ ¬ Nonblank args.ids ∨ ¬ Nonblank args.kinds ∨
    NamedBlank args ∨ ∃ tag val, args.generic = some (tag, val) ∧ splitCsv (trim val) = []

/-- One of the lists that the filter keeps has nothing that an event could have. -/
def KeepsNothing : Prop :=
  UpperCased hex args.authors ∨ UpperCased hex args.ids ∨ NamedBlank args ∨
    ∃ tag val letter, args.generic = some (tag, val) ∧ trim tag = String.singleton letter ∧
      namedValues args letter = none ∧ splitCsv (trim val) = []

end Conditions

/-- A list that is mapped without an error is mapped element by element. -/
theorem forall₂_of_mapM_eq_ok {α β ε : Type} {f : α → Except ε β} {list : List α}
    {mapped : List β} (hmap : list.mapM f = .ok mapped) :
    List.Forall₂ (fun a b => f a = .ok b) list mapped := by
  induction list generalizing mapped with
  | nil =>
      cases hmap
      exact List.Forall₂.nil
  | cons a list ih =>
      rw [List.mapM_cons] at hmap
      cases ha : f a with
      | error error =>
          rw [ha] at hmap
          cases hmap
      | ok b =>
          rw [ha] at hmap
          cases hlist : list.mapM f with
          | error error =>
              rw [hlist] at hmap
              cases hmap
          | ok rest =>
              rw [hlist] at hmap
              obtain rfl := Except.ok.inj hmap
              exact List.Forall₂.cons ha (ih hlist)

section Ids

/-- The ids that a list of the filter lets through. -/
def keptIds (hex : HexCrate) (texts : List String) : Set (Vector UInt8 32) :=
  {bytes | texts ≠ [] → hex.encode bytes.toList ∈ texts}

/-- The ids that are listed. -/
def askedIds (hex : HexCrate) (given : Option String) : Set (Vector UInt8 32) :=
  {bytes | Lists hex given bytes}

variable {hex : HexCrate} {invalid : String} {given : Option String} {texts : List String}

theorem hex32TryFromStr_eq_ok_iff {item text : String} :
    hex32TryFromStr hex invalid item = .ok text ↔
      item = text ∧ item.utf8ByteSize = 64 ∧
        ∃ bytes : Vector UInt8 32, hex.decode item = some bytes.toList := by
  unfold hex32TryFromStr
  split_ifs with hsize
  · simp [hsize]
  · cases hdecode : hex.decode item with
    | none => simp
    | some vec =>
        dsimp only
        split_ifs with hlength
        · simp only [Option.some.injEq, false_iff, not_and, not_exists]
          rintro - - bytes rfl
          exact hlength bytes.length_toList
        · simp only [Except.ok.injEq, Option.some.injEq, iff_self_and]
          rintro -
          exact ⟨not_ne_iff.mp hsize, ⟨vec.toArray, not_ne_iff.mp hlength⟩, rfl⟩

theorem mapM_hex32TryFromStr {items : List String}
    (hread : items.mapM (hex32TryFromStr hex invalid) = .ok texts) :
    texts = items ∧
      ∀ item ∈ items, ∃ bytes : Vector UInt8 32, hex.decode item = some bytes.toList := by
  have hitems := forall₂_of_mapM_eq_ok hread
  clear hread
  induction hitems with
  | nil => simp
  | cons hitem _ ih =>
      obtain ⟨rfl, -, hdecode⟩ := hex32TryFromStr_eq_ok_iff.mp hitem
      obtain ⟨rfl, hall⟩ := ih
      exact ⟨rfl, List.forall_mem_cons.mpr ⟨hdecode, hall⟩⟩

/-- Every item of the list is an id. -/
def AllDecode (hex : HexCrate) (given : Option String) : Prop :=
  ∀ text, given = some text →
    ∀ item ∈ splitCsv text, ∃ bytes : Vector UInt8 32, hex.decode item = some bytes.toList

theorem of_mapM_elim
    (hread : (given.elim [] splitCsv).mapM (hex32TryFromStr hex invalid) = .ok texts) :
    texts = given.elim [] splitCsv ∧ AllDecode hex given := by
  obtain ⟨htexts, hall⟩ := mapM_hex32TryFromStr hread
  refine ⟨htexts, ?_⟩
  rintro text rfl
  exact hall

/-- The filter lets the listed ids through exactly when there are some, and each of them is
listed as the filter compares it. -/
theorem keptIds_eq_askedIds_iff (hall : AllDecode hex given) :
    keptIds hex (given.elim [] splitCsv) = askedIds hex given ↔
      Nonblank given ∧ LowerCased hex given := by
  cases given with
  | none => simp [keptIds, askedIds, Lists, Nonblank, LowerCased]
  | some text =>
      simp only [Set.ext_iff, keptIds, askedIds, Lists, Nonblank, LowerCased,
        Set.mem_ofPred_eq, Option.elim_some, Option.some.injEq, forall_eq']
      constructor
      · intro hsame
        have hne : splitCsv text ≠ [] := by
          intro hnil
          have hzero := hsame (Vector.replicate 32 0)
          simp [hnil] at hzero
        refine ⟨hne, fun item hitem bytes hdecode => ?_⟩
        obtain ⟨vec, hvec⟩ := hall text rfl item hitem
        obtain rfl := Option.some.inj (hdecode.symm.trans hvec)
        exact (hsame vec).mpr ⟨item, hitem, hvec⟩ hne
      · rintro ⟨hne, hlower⟩ bytes
        constructor
        · intro hmem
          exact ⟨_, hmem hne, hex.decode_encode _⟩
        · rintro ⟨item, hitem, hdecode⟩ -
          exact hlower item hitem _ hdecode

theorem keptIds_eq_empty_iff :
    keptIds hex (given.elim [] splitCsv) = ∅ ↔ UpperCased hex given := by
  cases given with
  | none => simp [keptIds, UpperCased]
  | some text =>
      by_cases hnil : splitCsv text = []
      · simp [keptIds, UpperCased, hnil]
      · simp [keptIds, UpperCased, hnil, Set.eq_empty_iff_forall_notMem]

theorem askedIds_eq_empty_iff (hall : AllDecode hex given) :
    askedIds hex given = ∅ ↔ ¬ Nonblank given := by
  cases given with
  | none => simp [askedIds, Lists, Nonblank]
  | some text =>
      by_cases hnil : splitCsv text = []
      · simp [askedIds, Lists, Nonblank, hnil]
      · obtain ⟨item, hitem⟩ := List.exists_mem_of_ne_nil _ hnil
        obtain ⟨bytes, hbytes⟩ := hall text rfl item hitem
        have hmem : bytes ∈ askedIds hex (some text) := by
          rintro _ ⟨⟩
          exact ⟨item, hitem, hbytes⟩
        refine iff_of_false (Set.nonempty_iff_ne_empty.mp ⟨bytes, hmem⟩) ?_
        simpa [Nonblank] using hnil

end Ids

section Kinds

/-- The kinds that a list of the filter lets through. -/
def keptKinds (kinds : List EventKind) : Set EventKind := {kind | kinds ≠ [] → kind ∈ kinds}

/-- The kinds that are listed. -/
def askedKinds (given : Option String) : Set EventKind :=
  {kind | ∀ text, given = some text → ∃ kinds, buildKinds text = .ok kinds ∧ kind ∈ kinds}

variable {given : Option String} {kinds : List EventKind}

theorem buildKinds_eq_nil_iff {text : String} (hbuild : buildKinds text = .ok kinds) :
    kinds = [] ↔ splitCsv text = [] := by
  unfold buildKinds at hbuild
  unfold splitCsv
  generalize ((text.toList.splitOn ',').map trimChars).filter (· ≠ []) = parts at *
  dsimp only at hbuild
  cases hparts : parts.mapM fun part => parseU32 (stripKindLabel part) with
  | error error =>
      rw [hparts] at hbuild
      cases hbuild
  | ok numbers =>
      rw [hparts] at hbuild
      obtain rfl := Except.ok.inj hbuild
      have hlength := (forall₂_of_mapM_eq_ok hparts).length_eq
      simp only [← List.length_eq_zero_iff, List.length_map, hlength]

theorem askedKinds_some {text : String} (hbuild : buildKinds text = .ok kinds) :
    askedKinds (some text) = {kind | kind ∈ kinds} := by
  simp [askedKinds, hbuild]

variable (hbuild : given.elim (.ok []) buildKinds = .ok kinds)

include hbuild

theorem keptKinds_eq_askedKinds_iff :
    keptKinds kinds = askedKinds given ↔ Nonblank given := by
  cases given with
  | none =>
      cases hbuild
      simp [keptKinds, askedKinds, Nonblank]
  | some text =>
      have hbuild : buildKinds text = .ok kinds := hbuild
      have hnil := buildKinds_eq_nil_iff hbuild
      simp only [askedKinds_some hbuild, Nonblank, Option.some.injEq, forall_eq', ← hnil.not]
      constructor
      · rintro hsame rfl
        have hzero := Set.ext_iff.mp hsame (EventKind.ofU32 0)
        simp [keptKinds] at hzero
      · intro hne
        ext kind
        simp [keptKinds, hne]

theorem askedKinds_eq_empty_iff : askedKinds given = ∅ ↔ ¬ Nonblank given := by
  cases given with
  | none =>
      have hmem : EventKind.ofU32 0 ∈ askedKinds none := nofun
      refine iff_of_false (Set.nonempty_iff_ne_empty.mp ⟨_, hmem⟩) ?_
      simp [Nonblank]
  | some text =>
      have hbuild : buildKinds text = .ok kinds := hbuild
      simp only [askedKinds_some hbuild, Nonblank, Option.some.injEq, forall_eq', not_not,
        ← buildKinds_eq_nil_iff hbuild]
      simp [Set.eq_empty_iff_forall_notMem, List.eq_nil_iff_forall_not_mem]

omit hbuild

theorem keptKinds_ne_empty : keptKinds kinds ≠ ∅ := by
  rw [← Set.nonempty_iff_ne_empty]
  cases kinds with
  | nil => exact ⟨EventKind.ofU32 0, fun hne => absurd rfl hne⟩
  | cons kind kinds => exact ⟨kind, fun _ => List.mem_cons_self⟩

end Kinds

section Tags

/-- The tags that the filter lets through. -/
def keptTags (args : QueryArgs) : Set (List TagV3) :=
  {tags | ∀ entry ∈ (buildTags args).entries, ∃ tag ∈ tags, Filter.TagHit entry tag}

/-- The tags that have what is given by name. -/
def namedTags (args : QueryArgs) : Set (List TagV3) :=
  {tags | ∀ letter values, namedValues args letter = some values →
    HasTag tags (String.singleton letter) values}

/-- The tags that have the generic criterion. -/
def genericTags (args : QueryArgs) : Set (List TagV3) :=
  {tags | ∀ tag val, args.generic = some (tag, val) →
    HasTag tags (trim tag) (splitCsv (trim val))}

/-- The generic criterion, as far as the code looks at it. -/
def genericValues (args : QueryArgs) (letter : Char) : Option (List String) :=
  args.generic.bind fun generic =>
    if (trimChars generic.1.toList).head? = some letter then some (splitCsv (trim generic.2))
    else none

variable {args : QueryArgs} {letter : Char} {values : List String}

/-- The map with the generic criterion alone. -/
def genericMap (args : QueryArgs) : TagMap :=
  buildTags { args with hashtag := none, mentions := none, references := none }

theorem get_genericMap (args : QueryArgs) (letter : Char) :
    (genericMap args).get letter = genericValues args letter := by
  obtain ⟨authors, ids, limit, generic, hashtag, mentions, references, kinds⟩ := args
  cases generic with
  | none => rfl
  | some generic =>
      obtain ⟨tag, val⟩ := generic
      simp only [genericMap, buildTags, genericValues, Option.elim_none, Option.bind_some]
      cases hhead : (trimChars tag.toList).head? with
      | none => rfl
      | some first =>
          simp only [TagMap.get_insert, Option.some.injEq, @eq_comm _ letter]
          rfl

theorem get_elim_insert (given : Option String) (tags : TagMap) (name letter : Char) :
    (given.elim tags fun text => tags.insert name (splitCsv text)).get letter =
      (if letter = name then given.map splitCsv else none).or (tags.get letter) := by
  cases given with
  | none => simp
  | some text =>
      rw [Option.elim_some, TagMap.get_insert]
      split_ifs <;> rfl

/-- What is given by name replaces what is given under the letter. -/
theorem get_buildTags (args : QueryArgs) (letter : Char) :
    (buildTags args).get letter =
      (namedValues args letter).or (genericValues args letter) := by
  rw [← get_genericMap]
  change (args.references.elim _ fun text => TagMap.insert _ 'e' (splitCsv text)).get
    letter = _
  rw [get_elim_insert, get_elim_insert, get_elim_insert, namedValues]
  by_cases he : letter = 'e'
  · simp [he, genericMap, buildTags]
  · by_cases hp : letter = 'p'
    · simp [hp, genericMap, buildTags]
    · by_cases ht : letter = 't' <;> simp [he, hp, ht, genericMap, buildTags]

theorem mem_keptTags_iff {tags : List TagV3} :
    tags ∈ keptTags args ↔ ∀ letter values,
      (namedValues args letter).or (genericValues args letter) = some values →
        HasTag tags (String.singleton letter) values := by
  simp only [← get_buildTags, ← TagMap.mem_entries_iff]
  exact Prod.forall

theorem mem_letters_of_namedValues (hnamed : namedValues args letter = some values) :
    letter ∈ ['e', 'p', 't'] := by
  unfold namedValues at hnamed
  split_ifs at hnamed <;> simp_all

theorem namedBlank_iff : NamedBlank args ↔ ∃ letter, namedValues args letter = some [] := by
  constructor
  · intro hblank
    by_contra hnone
    push Not at hnone
    refine hblank ⟨?_, ?_, ?_⟩
    · intro text htext hnil
      exact hnone 't' (by simp [namedValues, htext, hnil])
    · intro text htext hnil
      exact hnone 'p' (by simp [namedValues, htext, hnil])
    · intro text htext hnil
      exact hnone 'e' (by simp [namedValues, htext, hnil])
  · rintro ⟨letter, hnamed⟩ ⟨hhashtag, hmentions, hreferences⟩
    unfold namedValues at hnamed
    split_ifs at hnamed with he hp ht
    · obtain ⟨text, htext, hnil⟩ := Option.map_eq_some_iff.mp hnamed
      exact hreferences text htext hnil
    · obtain ⟨text, htext, hnil⟩ := Option.map_eq_some_iff.mp hnamed
      exact hmentions text htext hnil
    · obtain ⟨text, htext, hnil⟩ := Option.map_eq_some_iff.mp hnamed
      exact hhashtag text htext hnil

theorem not_hasTag_nil (tags : List TagV3) (name : String) : ¬ HasTag tags name [] := by
  rintro ⟨tag, -, -, value, hvalue, -⟩
  cases hvalue

theorem HasTag.cons {tags : List TagV3} {name : String} (hhas : HasTag tags name values)
    (tag : TagV3) : HasTag (tag :: tags) name values := by
  obtain ⟨other, hother, hhit⟩ := hhas
  exact ⟨other, List.mem_cons_of_mem _ hother, hhit⟩

/-- One tag for each letter that a value is chosen for. -/
def tagsFor (choose : Char → Option String) : List TagV3 :=
  ['e', 'p', 't'].filterMap fun letter =>
    (choose letter).map fun value => ⟨[String.singleton letter, value]⟩

theorem hasTag_tagsFor_iff {choose : Char → Option String} :
    HasTag (tagsFor choose) (String.singleton letter) values ↔
      letter ∈ ['e', 'p', 't'] ∧ ∃ value ∈ values, choose letter = some value := by
  constructor
  · rintro ⟨tag, htag, hname, value, hvalue, hsecond⟩
    obtain ⟨other, hother, htag⟩ := List.mem_filterMap.mp htag
    obtain ⟨chosen, hchosen, rfl⟩ := Option.map_eq_some_iff.mp htag
    have hletter : other = letter := by
      simpa [← String.toList_inj] using hname
    obtain rfl : chosen = value := by simpa using hsecond
    exact ⟨hletter ▸ hother, chosen, hvalue, hletter ▸ hchosen⟩
  · rintro ⟨hletter, value, hvalue, hchosen⟩
    refine ⟨⟨[String.singleton letter, value]⟩, ?_, rfl, value, hvalue, rfl⟩
    exact List.mem_filterMap.mpr ⟨letter, hletter, by simp [hchosen]⟩

/-- The first value of each list that is given by name. -/
def firstValues (args : QueryArgs) (letter : Char) : Option String :=
  (namedValues args letter).bind List.head?

theorem tagsFor_firstValues (hblank : ¬ NamedBlank args) :
    tagsFor (firstValues args) ∈ namedTags args := by
  rw [namedBlank_iff, not_exists] at hblank
  intro letter values hnamed
  rw [hasTag_tagsFor_iff]
  refine ⟨mem_letters_of_namedValues hnamed, ?_⟩
  cases values with
  | nil => exact absurd hnamed (hblank letter)
  | cons value values => exact ⟨value, List.mem_cons_self, by simp [firstValues, hnamed]⟩

theorem namedTags_eq_empty_iff : namedTags args = ∅ ↔ NamedBlank args := by
  constructor
  · intro hempty
    by_contra hblank
    exact Set.eq_empty_iff_forall_notMem.mp hempty _ (tagsFor_firstValues hblank)
  · intro hblank
    obtain ⟨letter, hnamed⟩ := namedBlank_iff.mp hblank
    rw [Set.eq_empty_iff_forall_notMem]
    exact fun tags htags => not_hasTag_nil _ _ (htags letter [] hnamed)

section Generic

variable {tag val : String} (hgeneric : args.generic = some (tag, val))

include hgeneric

theorem mem_genericTags_iff {tags : List TagV3} :
    tags ∈ genericTags args ↔ HasTag tags (trim tag) (splitCsv (trim val)) := by
  simp [genericTags, hgeneric]

theorem namedTags_inter_genericTags_eq_empty_iff :
    namedTags args ∩ genericTags args = ∅ ↔
      NamedBlank args ∨ splitCsv (trim val) = [] := by
  constructor
  · intro hempty
    by_contra hnot
    rw [not_or] at hnot
    obtain ⟨value, hvalue⟩ := List.exists_mem_of_ne_nil _ hnot.2
    have hnamed : ⟨[trim tag, value]⟩ :: tagsFor (firstValues args) ∈ namedTags args :=
      fun letter values hvalues => (tagsFor_firstValues hnot.1 letter values hvalues).cons _
    have hmem : ⟨[trim tag, value]⟩ :: tagsFor (firstValues args) ∈ genericTags args := by
      rw [mem_genericTags_iff hgeneric]
      exact ⟨_, List.mem_cons_self, rfl, value, hvalue, rfl⟩
    exact Set.eq_empty_iff_forall_notMem.mp hempty _ ⟨hnamed, hmem⟩
  · rintro (hblank | hnil)
    · rw [namedTags_eq_empty_iff.mpr hblank, Set.empty_inter]
    · rw [Set.eq_empty_iff_forall_notMem]
      rintro tags ⟨-, hmem⟩
      rw [mem_genericTags_iff hgeneric, hnil] at hmem
      exact not_hasTag_nil _ _ hmem

variable (htag : trim tag = String.singleton letter)

include htag

theorem genericValues_eq (other : Char) :
    genericValues args other =
      if other = letter then some (splitCsv (trim val)) else none := by
  have hchars : trimChars tag.toList = [letter] := by
    simpa [trim] using congrArg String.toList htag
  rw [genericValues, hgeneric, Option.bind_some, hchars]
  simp only [List.head?_cons, Option.some.injEq, @eq_comm _ letter]

/-- A generic criterion that nothing replaces is kept. -/
theorem keptTags_of_namedValues_eq_none (hnone : namedValues args letter = none) :
    keptTags args = namedTags args ∩ genericTags args := by
  ext tags
  rw [Set.mem_inter_iff, mem_genericTags_iff hgeneric, mem_keptTags_iff, htag]
  constructor
  · intro hkept
    constructor
    · intro other values hvalues
      exact hkept other values (by rw [hvalues, Option.some_or])
    · apply hkept letter
      rw [hnone, Option.none_or, genericValues_eq hgeneric htag, if_pos rfl]
  · rintro ⟨hnamed, hhas⟩ other values hvalues
    rcases Option.or_eq_some_iff.mp hvalues with hvalues | ⟨-, hvalues⟩
    · exact hnamed other values hvalues
    · rw [genericValues_eq hgeneric htag] at hvalues
      split_ifs at hvalues with heq
      rw [heq, ← Option.some.inj hvalues]
      exact hhas

/-- A generic criterion with the letter of a later one is gone. -/
theorem keptTags_of_namedValues_eq_some (hnamed : namedValues args letter = some values) :
    keptTags args = namedTags args := by
  ext tags
  rw [mem_keptTags_iff]
  constructor
  · intro hkept other values hvalues
    exact hkept other values (by rw [hvalues, Option.some_or])
  · intro hmem other values hvalues
    rcases Option.or_eq_some_iff.mp hvalues with hvalues | ⟨hnone, hvalues⟩
    · exact hmem other values hvalues
    · rw [genericValues_eq hgeneric htag] at hvalues
      split_ifs at hvalues with heq
      rw [heq, hnamed] at hnone
      cases hnone

/-- The later list stands for both exactly when it is a part of the generic one. -/
theorem namedTags_subset_genericTags_iff (hnamed : namedValues args letter = some values) :
    namedTags args ⊆ genericTags args ↔
      NamedBlank args ∨ values ⊆ splitCsv (trim val) := by
  constructor
  · intro hsubset
    by_contra hnot
    rw [not_or, List.subset_def] at hnot
    obtain ⟨hblank, hvalues⟩ := hnot
    push Not at hvalues
    obtain ⟨value, hvalue, hmissing⟩ := hvalues
    -- the value that is not in the generic list, on the only tag of its letter
    have hmem : tagsFor (Function.update (firstValues args) letter (some value)) ∈
        namedTags args := by
      intro other values' hvalues'
      rw [hasTag_tagsFor_iff]
      refine ⟨mem_letters_of_namedValues hvalues', ?_⟩
      by_cases heq : other = letter
      · subst heq
        obtain rfl := Option.some.inj (hnamed.symm.trans hvalues')
        exact ⟨value, hvalue, Function.update_self ..⟩
      · rw [Function.update_of_ne heq]
        exact (hasTag_tagsFor_iff.mp (tagsFor_firstValues hblank other values' hvalues')).2
    have hgeneric' := hsubset hmem
    rw [mem_genericTags_iff hgeneric, htag, hasTag_tagsFor_iff,
      Function.update_self] at hgeneric'
    obtain ⟨-, found, hfound, hsame⟩ := hgeneric'
    exact hmissing (Option.some.inj hsame ▸ hfound)
  · rintro (hblank | hsubset) tags htags
    · rw [namedTags_eq_empty_iff.mpr hblank] at htags
      cases htags
    · rw [mem_genericTags_iff hgeneric, htag]
      obtain ⟨found, hfound, hname, value, hvalue, hsecond⟩ := htags letter values hnamed
      exact ⟨found, hfound, hname, value, hsubset hvalue, hsecond⟩

end Generic

theorem keptTags_of_generic_eq_none (hnone : args.generic = none) :
    keptTags args = namedTags args ∧ genericTags args = Set.univ := by
  have hvalues : ∀ letter, genericValues args letter = none := by simp [genericValues, hnone]
  constructor
  · ext tags
    simp only [mem_keptTags_iff, hvalues, Option.or_none]
    rfl
  · simp [genericTags, hnone]

/-- The filter means the tags that were asked for exactly when no list by name leaves
something else than the generic one. -/
theorem keptTags_eq_iff (hexpressible : Expressible args) :
    keptTags args = namedTags args ∩ genericTags args ↔
      NamedBlank args ∨ GenericKept args := by
  cases hgeneric : args.generic with
  | none =>
      obtain ⟨hkept, huniv⟩ := keptTags_of_generic_eq_none hgeneric
      have hright : GenericKept args := by simp [GenericKept, hgeneric]
      simp [hkept, huniv, hright]
  | some generic =>
      obtain ⟨tag, val⟩ := generic
      obtain ⟨letter, -, htag⟩ := hexpressible tag val hgeneric
      have hright : GenericKept args ↔ ∀ values, namedValues args letter = some values →
          values ⊆ splitCsv (trim val) := by
        constructor
        · intro hkept
          exact hkept tag val letter hgeneric htag
        · rintro hsubset tag' val' letter' hgeneric' htag'
          rw [hgeneric, Option.some.injEq, Prod.mk.injEq] at hgeneric'
          obtain ⟨rfl, rfl⟩ := hgeneric'
          rw [htag, ← String.toList_inj, String.toList_singleton, String.toList_singleton,
            List.singleton_inj] at htag'
          exact htag' ▸ hsubset
      rw [hright]
      cases hnamed : namedValues args letter with
      | none => simp [keptTags_of_namedValues_eq_none hgeneric htag hnamed]
      | some values =>
          rw [keptTags_of_namedValues_eq_some hgeneric htag hnamed,
            @eq_comm _ (namedTags args), Set.inter_eq_left,
            namedTags_subset_genericTags_iff hgeneric htag hnamed]
          simp

theorem keptTags_eq_empty_iff (hexpressible : Expressible args) :
    keptTags args = ∅ ↔ NamedBlank args ∨
      ∃ tag val letter, args.generic = some (tag, val) ∧ trim tag = String.singleton letter ∧
        namedValues args letter = none ∧ splitCsv (trim val) = [] := by
  cases hgeneric : args.generic with
  | none =>
      rw [(keptTags_of_generic_eq_none hgeneric).1, namedTags_eq_empty_iff]
      simp
  | some generic =>
      obtain ⟨tag, val⟩ := generic
      obtain ⟨letter, -, htag⟩ := hexpressible tag val hgeneric
      have hletter : ∀ other, trim tag = String.singleton other ↔ other = letter := by
        intro other
        rw [htag, ← String.toList_inj, String.toList_singleton, String.toList_singleton,
          List.singleton_inj, eq_comm]
      simp only [Option.some.injEq, Prod.mk.injEq]
      cases hnamed : namedValues args letter with
      | none =>
          rw [keptTags_of_namedValues_eq_none hgeneric htag hnamed,
            namedTags_inter_genericTags_eq_empty_iff hgeneric]
          refine or_congr_right
            ⟨fun hnil => ⟨tag, val, letter, ⟨rfl, rfl⟩, htag, hnamed, hnil⟩, ?_⟩
          rintro ⟨_, _, _, ⟨rfl, rfl⟩, -, -, hnil⟩
          exact hnil
      | some values =>
          rw [keptTags_of_namedValues_eq_some hgeneric htag hnamed, namedTags_eq_empty_iff]
          refine ⟨Or.inl, ?_⟩
          rintro (hblank | ⟨_, _, other, ⟨rfl, rfl⟩, hother, hnone, -⟩)
          · exact hblank
          · rw [(hletter other).mp hother, hnamed] at hnone
            cases hnone

theorem namedTags_inter_eq_empty_iff :
    namedTags args ∩ genericTags args = ∅ ↔ NamedBlank args ∨
      ∃ tag val, args.generic = some (tag, val) ∧ splitCsv (trim val) = [] := by
  cases hgeneric : args.generic with
  | none =>
      rw [(keptTags_of_generic_eq_none hgeneric).2, Set.inter_univ, namedTags_eq_empty_iff]
      simp
  | some generic =>
      obtain ⟨tag, val⟩ := generic
      rw [namedTags_inter_genericTags_eq_empty_iff hgeneric]
      simp

end Tags

section Meaning

variable {hex : HexCrate} {args : QueryArgs} {filter : LimitedFilter} {event : Event}

/-- The conditions of the filter. -/
def keptCriteria (hex : HexCrate) (args : QueryArgs) (filter : LimitedFilter) : Criteria :=
  ⟨keptIds hex filter.ids, keptIds hex filter.authors, keptKinds filter.kinds, keptTags args⟩

/-- The criteria that are given. -/
def askedCriteria (hex : HexCrate) (args : QueryArgs) : Criteria :=
  ⟨askedIds hex args.ids, askedIds hex args.authors, askedKinds args.kinds,
    namedTags args ∩ genericTags args⟩

/-- What is known of the filter of a query that is accepted. -/
structure BuiltFrom (hex : HexCrate) (args : QueryArgs) (filter : LimitedFilter) : Prop where
  authors : filter.authors = args.authors.elim [] splitCsv ∧ AllDecode hex args.authors
  ids : filter.ids = args.ids.elim [] splitCsv ∧ AllDecode hex args.ids
  kinds : args.kinds.elim (.ok []) buildKinds = .ok filter.kinds
  limit : LimitedTo args.limit filter.limit
  tags : filter.tags = buildTags args
  since : filter.since = none
  until_ : filter.until_ = none

theorem limitedTo_of_mapM {given : Option Int32} {limit : Option UInt64}
    (hlimit : given.mapM limitTryFrom = .ok limit) : LimitedTo given limit := by
  cases given with
  | none =>
      cases hlimit
      exact ⟨nofun, rfl⟩
  | some number =>
      by_cases hneg : number < 0
      · simp [limitTryFrom, hneg] at hlimit
      · simp only [Option.mapM_some, limitTryFrom, hneg, if_false] at hlimit
        obtain rfl := Except.ok.inj hlimit
        refine ⟨?_, rfl⟩
        rintro _ ⟨⟩
        exact hneg

theorem builtFrom_of_buildFilter (hbuild : buildFilter hex args = .ok filter) :
    BuiltFrom hex args filter := by
  unfold buildFilter at hbuild
  cases hauthors : (args.authors.elim [] splitCsv).mapM (publicKeyHexTryFromStr hex) with
  | error error =>
      rw [hauthors] at hbuild
      cases hbuild
  | ok authors =>
      cases hids : (args.ids.elim [] splitCsv).mapM (idHexTryFromStr hex) with
      | error error =>
          rw [hauthors, hids] at hbuild
          cases hbuild
      | ok ids =>
          cases hlimit : args.limit.mapM limitTryFrom with
          | error error =>
              rw [hauthors, hids, hlimit] at hbuild
              cases hbuild
          | ok limit =>
              cases hkinds : args.kinds.elim (.ok []) buildKinds with
              | error error =>
                  rw [hauthors, hids, hlimit, hkinds] at hbuild
                  cases hbuild
              | ok kinds =>
                  rw [hauthors, hids, hlimit, hkinds] at hbuild
                  obtain rfl := Except.ok.inj hbuild
                  exact ⟨of_mapM_elim hauthors, of_mapM_elim hids, hkinds,
                    limitedTo_of_mapM hlimit, rfl, rfl, rfl⟩

theorem matches_iff_admits (hbuilt : BuiltFrom hex args filter) :
    filter.Matches hex.toHex event ↔ (keptCriteria hex args filter).Admits event := by
  constructor
  · rintro ⟨hfields, htags⟩
    rw [hbuilt.tags] at htags
    exact ⟨hfields.ids, hfields.authors, hfields.kinds, htags⟩
  · rintro ⟨hids, hauthors, hkinds, htags⟩
    refine ⟨⟨hids, hauthors, hkinds, ?_, ?_⟩, hbuilt.tags ▸ htags⟩
    · simp [hbuilt.since]
    · simp [hbuilt.until_]

theorem asked_iff_admits : Asked hex args event ↔ (askedCriteria hex args).Admits event := by
  have hnamed : event.tags ∈ namedTags args ↔
      (∀ text, args.hashtag = some text → HasTag event.tags "t" (splitCsv text)) ∧
      (∀ text, args.mentions = some text → HasTag event.tags "p" (splitCsv text)) ∧
      ∀ text, args.references = some text → HasTag event.tags "e" (splitCsv text) := by
    constructor
    · intro hmem
      refine ⟨?_, ?_, ?_⟩
      · intro text htext
        exact hmem 't' _ (by simp [namedValues, htext])
      · intro text htext
        exact hmem 'p' _ (by simp [namedValues, htext])
      · intro text htext
        exact hmem 'e' _ (by simp [namedValues, htext])
    · rintro ⟨hhashtag, hmentions, hreferences⟩ letter values hvalues
      unfold namedValues at hvalues
      split_ifs at hvalues with he hp ht
      · obtain ⟨text, htext, rfl⟩ := Option.map_eq_some_iff.mp hvalues
        exact he ▸ hreferences text htext
      · obtain ⟨text, htext, rfl⟩ := Option.map_eq_some_iff.mp hvalues
        exact hp ▸ hmentions text htext
      · obtain ⟨text, htext, rfl⟩ := Option.map_eq_some_iff.mp hvalues
        exact ht ▸ hhashtag text htext
  constructor
  · intro hasked
    exact ⟨hasked.ids, hasked.authors, hasked.kinds,
      hnamed.mpr ⟨hasked.hashtag, hasked.mentions, hasked.references⟩, hasked.generic⟩
  · rintro ⟨hids, hauthors, hkinds, htags, hgeneric⟩
    obtain ⟨hhashtag, hmentions, hreferences⟩ := hnamed.mp htags
    exact ⟨hauthors, hids, hkinds, hgeneric, hhashtag, hmentions, hreferences⟩

theorem keptCriteria_eq_iff (hbuilt : BuiltFrom hex args filter)
    (hexpressible : Expressible args) :
    keptCriteria hex args filter = askedCriteria hex args ↔ Plain hex args := by
  rw [keptCriteria, askedCriteria, Criteria.mk.injEq, hbuilt.ids.1, hbuilt.authors.1,
    keptIds_eq_askedIds_iff hbuilt.ids.2, keptIds_eq_askedIds_iff hbuilt.authors.2,
    keptKinds_eq_askedKinds_iff hbuilt.kinds, keptTags_eq_iff hexpressible]
  constructor
  · rintro ⟨hids, hauthors, hkinds, hgeneric⟩
    exact ⟨hauthors, hids, hkinds, hgeneric⟩
  · intro hplain
    exact ⟨hplain.ids, hplain.authors, hplain.kinds, hplain.generic⟩

theorem barren_keptCriteria_iff (hbuilt : BuiltFrom hex args filter)
    (hexpressible : Expressible args) :
    (keptCriteria hex args filter).Barren ↔ KeepsNothing hex args := by
  rw [Criteria.Barren, keptCriteria, hbuilt.ids.1, hbuilt.authors.1, keptIds_eq_empty_iff,
    keptIds_eq_empty_iff, keptTags_eq_empty_iff hexpressible, KeepsNothing]
  simp only [keptKinds_ne_empty, false_or]
  exact or_left_comm

theorem barren_askedCriteria_iff (hbuilt : BuiltFrom hex args filter) :
    (askedCriteria hex args).Barren ↔ AsksNothing args := by
  rw [Criteria.Barren, askedCriteria, askedIds_eq_empty_iff hbuilt.ids.2,
    askedIds_eq_empty_iff hbuilt.authors.2, askedKinds_eq_empty_iff hbuilt.kinds,
    namedTags_inter_eq_empty_iff, AsksNothing]
  exact or_left_comm

/-- The filter of a query means what was asked for exactly when the name of the generic
criterion is one letter, and either every list that is given is a condition of the filter
that says the same, or neither lets any event through. -/
theorem meansAsAsked_iff (hbuild : buildFilter hex args = .ok filter) :
    MeansAsAsked hex args filter ↔
      Expressible args ∧ (Plain hex args ∨ KeepsNothing hex args ∧ AsksNothing args) := by
  have hbuilt := builtFrom_of_buildFilter hbuild
  apply and_congr_right
  intro hexpressible
  rw [and_iff_right hbuilt.limit]
  simp only [matches_iff_admits hbuilt, asked_iff_admits]
  rw [Criteria.forall_admits_iff, keptCriteria_eq_iff hbuilt hexpressible,
    barren_keptCriteria_iff hbuilt hexpressible, barren_askedCriteria_iff hbuilt]

def referenceCrate : HexCrate := ⟨Hex.reference, fun _ => ""⟩

/-- A query for notes in a language with a hashtag. -/
def languageQuery : QueryArgs :=
  ⟨none, none, some 10, some (" l", "en,de"), some "gnostr ", none, none, some "kind:1"⟩

theorem meansAsAsked_languageQuery :
    MeansAsAsked referenceCrate languageQuery
      { noFilter with
        limit := some 10
        kinds := [EventKind.ofU32 1]
        tags := (TagMap.empty.insert 'l' ["en", "de"]).insert 't' ["gnostr"] } := by
  rw [meansAsAsked_iff rfl]
  have htag : trim " l" = String.singleton 'l' := by decide +kernel
  have hsplit : splitCsv "gnostr " ≠ [] := by decide +kernel
  have hkinds : splitCsv "kind:1" ≠ [] := by decide +kernel
  refine ⟨?_, Or.inl ⟨⟨?_, ?_⟩, ⟨?_, ?_⟩, ?_, Or.inr ?_⟩⟩
  · rintro _ _ ⟨⟩
    exact ⟨'l', rfl, htag⟩
  · exact nofun
  · exact nofun
  · exact nofun
  · exact nofun
  · rintro _ ⟨⟩
    exact hkinds
  · rintro _ _ letter ⟨⟩ hletter values hvalues
    rw [htag, ← String.toList_inj, String.toList_singleton, String.toList_singleton,
      List.singleton_inj] at hletter
    rw [← hletter] at hvalues
    cases hvalues

/-- A query for two hashtags, one of them as the generic criterion. -/
def hashtagsQuery : QueryArgs :=
  ⟨none, none, none, some ("t", "rust"), some "gnostr", none, none, none⟩

/-- The filter has one of them, and a note with that one alone matches it. -/
theorem exists_not_meansAsAsked : ∃ filter,
    buildFilter referenceCrate hashtagsQuery = .ok filter ∧
      ¬ MeansAsAsked referenceCrate hashtagsQuery filter := by
  refine ⟨{ noFilter with tags := TagMap.empty.insert 't' ["gnostr"] }, rfl, ?_⟩
  rintro ⟨-, -, hmeans⟩
  have hmatches := (hmeans ⟨⟨Vector.replicate 32 0⟩, ⟨Vector.replicate 32 0⟩, 0,
    EventKind.ofU32 1, [⟨["t", "gnostr"]⟩]⟩).mp ⟨⟨nofun, nofun, nofun, nofun, nofun⟩, ?_⟩
  · obtain ⟨tag, htag, -, value, hvalue, hsecond⟩ := hmatches.generic "t" "rust" rfl
    have hvalues : splitCsv (trim "rust") = ["rust"] := by decide +kernel
    rw [hvalues, List.mem_singleton] at hvalue
    rw [List.mem_singleton.mp htag, hvalue] at hsecond
    revert hsecond
    decide +kernel
  · intro entry hentry
    rw [List.mem_singleton.mp hentry]
    exact ⟨_, List.mem_cons_self, rfl, _, List.mem_cons_self, rfl⟩

end Meaning

end Crawler

end Gnostr
