/-
How a tag of the second version is read from an array of strings, of
`types/src/nostr/versioned/tag2.rs`, and for which arrays the tag is written as the
array it was read from.
-/
import Gnostr.Lib.Lines
import Gnostr.Types.TagV2

namespace Gnostr

namespace Types

/-- An element of a sequence of strings.  It can be borrowed when its text stands
in the input as it is, without an escape. -/
structure SeqElement where
  text : String
  borrowed : Bool
deriving Repr, DecidableEq

/-- `next_element` of a `&str`. -/
def SeqElement.borrow (element : SeqElement) : Option String :=
  if element.borrowed then some element.text else none

theorem SeqElement.borrow_eq_some_iff {element : SeqElement} {text : String} :
    element.borrow = some text ↔ element.borrowed = true ∧ element.text = text := by
  unfold borrow
  cases element.borrowed <;> simp

/-- `PublicKeyHex::try_from_string`: 64 hexadecimal digits, kept as they are. -/
def PublicKeyHex.tryFromString (hex : Hex) (s : String) : Outcome Error PublicKeyHex :=
  if s.utf8ByteSize ≠ 64 then .err .invalidPublicKey
  else do
    let vec ← Outcome.okOr Error.hexDecode (hex.decode s)
    if vec.length ≠ 32 then .err .invalidPublicKey
    else return ⟨s⟩

/-- The text of a key is the text it was made of. -/
theorem PublicKeyHex.text_of_tryFromString {hex : Hex} {s : String}
    {pubkey : PublicKeyHex} (hpubkey : tryFromString hex s = .ok pubkey) :
    pubkey.text = s := by
  unfold tryFromString at hpubkey
  split at hpubkey
  · cases hpubkey
  · obtain ⟨vec, _, hvec⟩ := Outcome.bind_eq_ok_iff.mp hpubkey
    split at hvec
    · cases hvec
    · cases hvec
      rfl

section Visitor

variable (hex : Hex)

/-- The tag of a name, the value behind it and the strings behind that.  Without a
value only the name is kept. -/
def visitValue (tagname : String) (make : String → List String → Option TagV2) :
    List String → Option TagV2
  | [] => some (.other tagname [])
  | value :: rest => make value rest

/-- 32 bytes as hexadecimal digits. -/
def deserializeId (text : String) : Option Id := do
  let vec ← hex.decode text
  Id.mk <$> tryIntoArray 32 vec

/-- The branch of an address: its value is borrowed and split at colons.  When it
is no address the other strings are kept, the value is not. -/
def visitAddress (tagname : String) : List SeqElement → Option TagV2
  | [] => some (.other tagname [])
  | value :: rest => do
      let a ← value.borrow
      let fields := rest.map SeqElement.text
      let aParseFail := TagV2.other tagname fields
      match a.toList.splitOn ':' with
      | kindText :: authorText :: d :: _ =>
          match parseUnsigned (2 ^ 32) kindText with
          | none => return aParseFail
          | some kindnum =>
              match PublicKeyHex.tryFromString hex (String.ofList authorText) with
              | .ok pubkey =>
                  return .address (EventKind.ofU32 (UInt32.ofNat kindnum)) pubkey
                    (String.ofList d) (fields[0]?.map UncheckedUrl.mk) fields[1]?
                    (fields.drop 2)
              | _ => return aParseFail
      | _ => return aParseFail

/-- The branch of a delegation: three strings, of which the first two are
checked. -/
def visitDelegation (tagname : String) : List String → Option TagV2 :=
  visitValue tagname fun pubkeyText rest => do
    let pubkey ← (PublicKeyHex.tryFromString hex pubkeyText).toOption
    match rest with
    | [] => return .other tagname [pubkey.text]
    | conditionsText :: rest => do
        let conditions ← (DelegationConditions.tryFromStr conditionsText).toOption
        match rest with
        | [] => return .other tagname [pubkey.text, conditions.asString]
        | sig :: trailing => return .delegation pubkey conditions ⟨sig⟩ trailing

/-- The branch of a kind number, which is kept as a string when it is none. -/
def visitKind (tagname : String) : List String → Option TagV2 :=
  visitValue tagname fun number rest =>
    match parseUnsigned (2 ^ 32) number.toList with
    | some kindnum => some (.kind (EventKind.ofU32 (UInt32.ofNat kindnum)) rest)
    | none => some (.other tagname (number :: rest))

/-- The branches on the other names. -/
def visitFields (tagname : String) (fields : List String) : Option TagV2 :=
  if tagname = "content-warning" then
    visitValue tagname (fun warning rest => some (.contentWarning warning rest)) fields
  else if tagname = "delegation" then visitDelegation hex tagname fields
  else if tagname = "e" then
    visitValue tagname (fun text rest => do
      let id ← deserializeId hex text
      return .event id (rest[0]?.map UncheckedUrl.mk) rest[1]? (rest.drop 2)) fields
  else if tagname = "E" then
    visitValue tagname (fun text rest => do
      let id ← deserializeId hex text
      return .eventParent id (rest[0]?.map UncheckedUrl.mk) (rest.drop 1)) fields
  else if tagname = "expiration" then
    -- an integer is asked for, and every element is a string
    visitValue tagname (fun _ _ => none) fields
  else if tagname = "p" then
    visitValue tagname (fun text rest => do
      let pubkey ← (PublicKeyHex.tryFromString hex text).toOption
      return .pubkey pubkey (rest[0]?.map UncheckedUrl.mk) rest[1]? (rest.drop 2)) fields
  else if tagname = "t" then
    visitValue tagname (fun hashtag rest => some (.hashtag hashtag rest)) fields
  else if tagname = "r" then
    visitValue tagname (fun url rest =>
      some (.reference ⟨url⟩ rest[0]? (rest.drop 1))) fields
  else if tagname = "g" then
    visitValue tagname (fun geohash rest => some (.geohash geohash rest)) fields
  else if tagname = "d" then
    match fields with
    | [] => some (.identifier "" [])
    | d :: rest => some (.identifier d rest)
  else if tagname = "k" then visitKind tagname fields
  else if tagname = "subject" then
    visitValue tagname (fun subject rest => some (.subject subject rest)) fields
  else if tagname = "nonce" then
    visitValue tagname (fun nonce rest =>
      some (.nonce nonce rest[0]? (rest.drop 1))) fields
  else if tagname = "parameter" then
    some (.parameter (fields[0]?.getD "") (fields.drop 1))
  else if tagname = "title" then
    visitValue tagname (fun title rest => some (.title title rest)) fields
  else some (.other tagname fields)

/-- `visit_seq`, the tag that is read from a sequence of strings. -/
def visitSeq : List SeqElement → Option TagV2
  | [] => some .empty
  | first :: rest => do
      let tagname ← first.borrow
      if tagname = "a" then visitAddress hex tagname rest
      else visitFields hex tagname (rest.map SeqElement.text)

end Visitor

section Kept

variable (hex : Hex)

/-- An address in the form that is written: a number without a sign or leading
zeros, a public key, and an identifier without a colon. -/
def IsAddressText (value : String) : Prop :=
  ∃ number < 2 ^ 32, ∃ author d,
    value.toList.splitOn ':' = [decimal number, author, d] ∧
      ∃ pubkey, PublicKeyHex.tryFromString hex (String.ofList author) = .ok pubkey

/-- The text of 32 bytes, in lower case. -/
def IsIdText (text : String) : Prop := ∃ id : Id, id.asHexString hex = text

/-- The strings behind a name are accepted, and all of them are kept. -/
def FieldsKept (tagname : String) (fields : List String) : Prop :=
  if tagname = "delegation" then
    (∀ pubkey ∈ fields[0]?, ∃ key, PublicKeyHex.tryFromString hex pubkey = .ok key) ∧
      ∀ conditions ∈ fields[1]?, ∃ parsed,
        DelegationConditions.tryFromStr conditions = .ok parsed
  else if tagname = "e" ∨ tagname = "E" then ∀ id ∈ fields[0]?, IsIdText hex id
  else if tagname = "expiration" then fields = []
  else if tagname = "p" then
    ∀ pubkey ∈ fields[0]?, ∃ key, PublicKeyHex.tryFromString hex pubkey = .ok key
  else if tagname = "d" ∨ tagname = "parameter" then fields ≠ []
  else if tagname = "k" then
    ∀ number ∈ fields[0]?, ∀ kindnum,
      parseUnsigned (2 ^ 32) number.toList = some kindnum →
        number.toList = decimal kindnum
  else True

/-- A sequence of strings whose first is the name of a tag. -/
def SeqKept (first : SeqElement) (rest : List SeqElement) : Prop :=
  first.borrowed = true ∧
    if first.text = "a" then
      ∀ value ∈ rest[0]?, value.borrowed = true ∧ IsAddressText hex value.text
    else FieldsKept hex first.text (rest.map SeqElement.text)

end Kept

section Written

variable {hex : Hex} {tagname : String} {fields : List String}

/-- A tag was read, and it is written as an array of these strings. -/
def WrittenAs (hex : Hex) (tag : Option TagV2) (texts : List String) : Prop :=
  tag.map (serializeTagV2 hex) = some (.arr (texts.map .str))

theorem writtenAs_some_iff {tag : TagV2} {texts : List String} :
    WrittenAs hex (some tag) texts ↔
      serializeTagV2 hex tag = .arr (texts.map .str) := by
  rw [WrittenAs, Option.map_some, Option.some.injEq]

theorem not_writtenAs_none {texts : List String} : ¬ WrittenAs hex none texts := by
  intro hwritten
  cases hwritten

theorem writtenAs_other_iff {data : List String} :
    WrittenAs hex (some (.other tagname data)) (tagname :: fields) ↔
      data = fields := by
  rw [writtenAs_some_iff, serializeTagV2, List.map_cons, Json.arr.injEq,
    List.cons_inj_right]
  exact (List.map_injective_iff.mpr fun _ _ => Json.str.inj).eq_iff

/-- An optional url, an optional marker and what trails are written as the
strings they were taken from. -/
theorem serializedElement_slots (rest : List String) :
    serializedElement ((rest[0]?.map UncheckedUrl.mk).map UncheckedUrl.text)
        (rest[1]?.isSome || !(rest.drop 2).isEmpty) ++
      serializedElement rest[1]? (!(rest.drop 2).isEmpty) ++
        (rest.drop 2).map .str = rest.map .str := by
  rcases rest with _ | ⟨url, _ | ⟨marker, trailing⟩⟩ <;> rfl

/-- The same with one optional string. -/
theorem serializedElement_slot (rest : List String) :
    serializedElement rest[0]? (!(rest.drop 1).isEmpty) ++
      (rest.drop 1).map .str = rest.map .str := by
  cases rest <;> rfl

/-- A branch keeps every array exactly when it keeps those with a value. -/
theorem writtenAs_visitValue_iff
    {make : String → List String → Option TagV2} :
    WrittenAs hex (visitValue tagname make fields) (tagname :: fields) ↔
      ∀ value ∈ fields[0]?, WrittenAs hex (make value (fields.drop 1))
        (tagname :: value :: fields.drop 1) := by
  cases fields with
  | nil => simp [visitValue, writtenAs_other_iff]
  | cons value rest => simp [visitValue]

theorem toOption_tryFromString {text : String} {pubkey : PublicKeyHex}
    (hpubkey : PublicKeyHex.tryFromString hex text = .ok pubkey) :
    (PublicKeyHex.tryFromString hex text).toOption = some ⟨text⟩ := by
  have htext := PublicKeyHex.text_of_tryFromString hpubkey
  rw [hpubkey, Outcome.toOption_ok, ← htext]

/-- A call that gives nothing ends the reading. -/
theorem not_writtenAs_bind {ε α : Type} {x : Outcome ε α}
    {next : α → Option TagV2} {texts : List String}
    (hfails : ¬ ∃ value, x = .ok value) :
    ¬ WrittenAs hex (x.toOption.bind next) texts := by
  have hnone : x.toOption = none := by
    cases x with
    | ok value => exact absurd ⟨value, rfl⟩ hfails
    | err error => rfl
    | panic => rfl
  rw [hnone, Option.bind_none]
  exact not_writtenAs_none

/-- The conditions keep the string they were read from. -/
theorem asString_of_tryFromStr {s : String} {conditions : DelegationConditions}
    (hparsed : DelegationConditions.tryFromStr s = .ok conditions) :
    conditions.asString = s := by
  obtain ⟨output, _, houtput⟩ := Outcome.bind_eq_ok_iff.mp hparsed
  cases houtput
  rfl

theorem writtenAs_visitDelegation_iff :
    WrittenAs hex (visitDelegation hex "delegation" fields)
        ("delegation" :: fields) ↔
      (∀ pubkey ∈ fields[0]?,
        ∃ key, PublicKeyHex.tryFromString hex pubkey = .ok key) ∧
        ∀ conditions ∈ fields[1]?, ∃ parsed,
          DelegationConditions.tryFromStr conditions = .ok parsed := by
  rw [visitDelegation, writtenAs_visitValue_iff]
  cases fields with
  | nil => simp
  | cons pubkeyText rest =>
      simp only [List.getElem?_cons_zero, Option.mem_some_iff, forall_eq',
        List.drop_one, List.tail_cons, List.getElem?_cons_succ, Option.bind_eq_bind]
      by_cases hpubkey : ∃ key, PublicKeyHex.tryFromString hex pubkeyText = .ok key
      · obtain ⟨key, hkey⟩ := hpubkey
        rw [toOption_tryFromString hkey, Option.bind_some]
        refine Iff.trans ?_ (and_iff_right ⟨key, hkey⟩).symm
        cases rest with
        | nil => simp [writtenAs_other_iff]
        | cons conditionsText rest =>
            simp only [List.getElem?_cons_zero, Option.mem_some_iff, forall_eq']
            by_cases hparsed : ∃ parsed,
                DelegationConditions.tryFromStr conditionsText = .ok parsed
            · obtain ⟨parsed, hparse⟩ := hparsed
              have htext := asString_of_tryFromStr hparse
              rw [hparse, Outcome.toOption_ok, Option.bind_some]
              refine iff_of_true ?_ ⟨parsed, rfl⟩
              cases rest with
              | nil =>
                  rw [htext]
                  exact writtenAs_other_iff.mpr rfl
              | cons sig trailing =>
                  refine writtenAs_some_iff.mpr ?_
                  rw [serializeTagV2, htext]
                  rfl
            · exact iff_of_false (not_writtenAs_bind hparsed) hparsed
      · exact iff_of_false (not_writtenAs_bind hpubkey) fun hkept => hpubkey hkept.1

/-- An id is written in lower case. -/
theorem writtenAs_deserializeId_iff {text : String} {rest : List String}
    {make : Id → TagV2}
    (hmake : ∀ id, serializeTagV2 hex (make id) =
      .arr (.str tagname :: .str (id.asHexString hex) :: rest.map .str)) :
    WrittenAs hex ((deserializeId hex text).bind fun id => some (make id))
        (tagname :: text :: rest) ↔ IsIdText hex text := by
  constructor
  · intro hwritten
    cases hid : deserializeId hex text with
    | none =>
        rw [hid, Option.bind_none] at hwritten
        exact absurd hwritten not_writtenAs_none
    | some id =>
        rw [hid, Option.bind_some, writtenAs_some_iff, hmake] at hwritten
        simp only [List.map_cons, Json.arr.injEq, List.cons.injEq, true_and,
          Json.str.injEq, and_true] at hwritten
        exact ⟨id, hwritten⟩
  · rintro ⟨id, rfl⟩
    have hid : deserializeId hex (id.asHexString hex) = some id := by
      rw [deserializeId, Id.asHexString, hex.decode_encode, Option.bind_eq_bind,
        Option.bind_some, tryIntoArray_toList]
      rfl
    rw [hid, Option.bind_some, writtenAs_some_iff, hmake]
    rfl

end Written

section Address

variable {hex : Hex} {rest : List SeqElement}

theorem toList_addressString (kind : EventKind) (pubkey : PublicKeyHex)
    (d : String) : (addressString kind pubkey d).toList =
      [':'].intercalate [decimal kind.toU32.toNat, pubkey.text.toList, d.toList] := by
  simp [addressString, List.intercalate]

/-- A text that was split gives these parts when joined exactly when it has no
others. -/
theorem intercalate_eq_iff {text first second third : List Char}
    (hparts : ∀ part ∈ [first, second, third], ':' ∉ part) :
    [':'].intercalate [first, second, third] = text ↔
      text.splitOn ':' = [first, second, third] := by
  constructor
  · rintro rfl
    exact List.splitOn_intercalate ':' hparts (List.cons_ne_nil _ _)
  · intro hsplit
    rw [← hsplit, List.intercalate_splitOn]

/-- What `visit_seq` keeps of a text that is no address. -/
theorem not_writtenAs_aParseFail (value : SeqElement) :
    ¬ WrittenAs hex (some (.other "a" (rest.map SeqElement.text)))
      ("a" :: value.text :: rest.map SeqElement.text) := by
  rw [writtenAs_other_iff]
  exact List.ne_cons_self

/-- The number of a kind is written as it was read. -/
theorem decimal_toU32_ofU32 {kindnum : ℕ} (hlt : kindnum < 2 ^ 32) :
    decimal (EventKind.ofU32 (UInt32.ofNat kindnum)).toU32.toNat = decimal kindnum := by
  rw [EventKind.toU32_ofU32, UInt32.toNat_ofNat_of_lt' hlt]

/-- An address that was read is written as its text exactly when the text has three
parts, the first of which is the number in its shortest form. -/
theorem writtenAs_address_iff {text : String} {pubkey : PublicKeyHex}
    {kindText authorText d : List Char} {more : List (List Char)} {kindnum : ℕ}
    (hsplit : text.toList.splitOn ':' = kindText :: authorText :: d :: more)
    (hkind : parseUnsigned (2 ^ 32) kindText = some kindnum)
    (hpubkey : PublicKeyHex.tryFromString hex (String.ofList authorText) = .ok pubkey)
    (fields : List String) :
    WrittenAs hex (some (.address (EventKind.ofU32 (UInt32.ofNat kindnum)) pubkey
        (String.ofList d) (fields[0]?.map UncheckedUrl.mk) fields[1]?
        (fields.drop 2))) ("a" :: text :: fields) ↔
      IsAddressText hex text := by
  have hlt := lt_of_parseUnsigned hkind
  have htext := PublicKeyHex.text_of_tryFromString hpubkey
  have hparts : ∀ part ∈ [decimal kindnum, authorText, d], ':' ∉ part := by
    intro part hpart
    rcases List.mem_cons.mp hpart with rfl | hpart
    · exact not_mem_decimal (by decide) kindnum
    · refine not_mem_of_mem_splitOn (hsplit ▸ List.mem_cons_of_mem _ ?_)
      exact List.mem_append_left more hpart
  rw [writtenAs_some_iff, serializeTagV2, List.append_assoc, List.append_assoc,
    ← List.append_assoc (serializedElement _ _), serializedElement_slots]
  simp only [List.map_cons, List.cons_append, List.nil_append, Json.arr.injEq,
    List.cons.injEq, true_and, Json.str.injEq, and_true]
  rw [← String.toList_inj, toList_addressString, decimal_toU32_ofU32 hlt, htext,
    String.toList_ofList, String.toList_ofList, intercalate_eq_iff hparts]
  constructor
  · intro hthree
    exact ⟨kindnum, hlt, authorText, d, hthree, pubkey, hpubkey⟩
  · rintro ⟨number, hnumber, author, d', hthree, _⟩
    rw [hsplit] at hthree
    simp only [List.cons.injEq] at hthree
    obtain ⟨rfl, rfl, rfl, rfl⟩ := hthree
    rw [parseUnsigned_decimal hnumber, Option.some.injEq] at hkind
    rw [hsplit, hkind]

theorem writtenAs_visitAddress_iff (value : SeqElement) :
    WrittenAs hex (visitAddress hex "a" (value :: rest))
        ("a" :: value.text :: rest.map SeqElement.text) ↔
      value.borrowed = true ∧ IsAddressText hex value.text := by
  have hfail : ¬ WrittenAs hex (some (.other "a" (rest.map SeqElement.text)))
      ("a" :: value.text :: rest.map SeqElement.text) :=
    not_writtenAs_aParseFail value
  rw [visitAddress, Option.bind_eq_bind]
  cases hborrow : value.borrow with
  | none =>
      rw [Option.bind_none]
      refine iff_of_false not_writtenAs_none fun hkept => ?_
      rw [SeqElement.borrow_eq_some_iff.mpr ⟨hkept.1, rfl⟩] at hborrow
      cases hborrow
  | some a =>
      obtain ⟨hborrowed, rfl⟩ := SeqElement.borrow_eq_some_iff.mp hborrow
      rw [Option.bind_some, and_iff_right hborrowed]
      dsimp only
      split
      · rename_i kindText authorText d more hsplit
        split
        · rename_i hkind
          refine iff_of_false hfail ?_
          rintro ⟨number, hnumber, author, d', hthree, _⟩
          rw [hsplit, List.cons.injEq] at hthree
          rw [hthree.1, parseUnsigned_decimal hnumber] at hkind
          cases hkind
        · rename_i kindnum hkind
          split
          · rename_i pubkey hpubkey
            exact writtenAs_address_iff hsplit hkind hpubkey _
          · rename_i hnone
            refine iff_of_false hfail ?_
            rintro ⟨number, _, author, d', hthree, pubkey, hpubkey⟩
            rw [hsplit] at hthree
            simp only [List.cons.injEq] at hthree
            exact hnone pubkey (hthree.2.1 ▸ hpubkey)
      · rename_i hshort
        refine iff_of_false hfail ?_
        rintro ⟨number, _, author, d', hthree, _⟩
        exact hshort _ _ _ _ hthree

end Address

section Main

variable (hex : Hex)

/-- A decimal number is written as it was read exactly when it is in its shortest
form. -/
theorem writtenAs_visitKind_iff {hex : Hex} {fields : List String} :
    WrittenAs hex (visitKind "k" fields) ("k" :: fields) ↔
      ∀ number ∈ fields[0]?, ∀ kindnum,
        parseUnsigned (2 ^ 32) number.toList = some kindnum →
          number.toList = decimal kindnum := by
  rw [visitKind, writtenAs_visitValue_iff]
  refine forall₂_congr fun number _ => ?_
  cases hnumber : parseUnsigned (2 ^ 32) number.toList with
  | none => exact iff_of_true (writtenAs_other_iff.mpr rfl) (by simp)
  | some kindnum =>
      rw [writtenAs_some_iff, serializeTagV2]
      simp only [List.map_cons, List.cons_append, List.nil_append, Json.arr.injEq,
        List.cons.injEq, true_and, Json.str.injEq, and_true, Option.some.injEq,
        forall_eq']
      rw [← String.toList_inj, String.toList_ofList,
        decimal_toU32_ofU32 (lt_of_parseUnsigned hnumber)]
      exact eq_comm

/-- A branch that checks nothing keeps every string. -/
theorem writtenAs_visitValue {hex : Hex} {tagname : String}
    {make : String → List String → TagV2}
    (hmake : ∀ value rest, serializeTagV2 hex (make value rest) =
      .arr (.str tagname :: .str value :: rest.map .str)) (fields : List String) :
    WrittenAs hex (visitValue tagname (fun value rest => some (make value rest))
      fields) (tagname :: fields) := by
  refine writtenAs_visitValue_iff.mpr fun value _ => ?_
  rw [writtenAs_some_iff, hmake]
  rfl

theorem writtenAs_id_iff {hex : Hex} {tagname : String}
    {make : Id → List String → TagV2}
    (hmake : ∀ id rest, serializeTagV2 hex (make id rest) =
      .arr (.str tagname :: .str (id.asHexString hex) :: rest.map .str))
    (fields : List String) :
    WrittenAs hex (visitValue tagname (fun text rest => do
        let id ← deserializeId hex text
        return make id rest) fields) (tagname :: fields) ↔
      ∀ id ∈ fields[0]?, IsIdText hex id := by
  refine writtenAs_visitValue_iff.trans (forall₂_congr fun text _ => ?_)
  exact writtenAs_deserializeId_iff fun id => hmake id _

theorem writtenAs_pubkey_iff {hex : Hex} (fields : List String) :
    WrittenAs hex (visitValue "p" (fun text rest => do
        let pubkey ← (PublicKeyHex.tryFromString hex text).toOption
        return .pubkey pubkey (rest[0]?.map UncheckedUrl.mk) rest[1]? (rest.drop 2))
        fields) ("p" :: fields) ↔
      ∀ pubkey ∈ fields[0]?, ∃ key, PublicKeyHex.tryFromString hex pubkey = .ok key := by
  refine writtenAs_visitValue_iff.trans (forall₂_congr fun text _ => ?_)
  by_cases hpubkey : ∃ key, PublicKeyHex.tryFromString hex text = .ok key
  · obtain ⟨key, hkey⟩ := hpubkey
    refine iff_of_true ?_ ⟨key, hkey⟩
    rw [toOption_tryFromString hkey, Option.bind_eq_bind, Option.bind_some,
      Option.pure_def, writtenAs_some_iff, serializeTagV2, List.append_assoc,
      List.append_assoc, ← List.append_assoc (serializedElement _ _),
      serializedElement_slots]
    rfl
  · exact iff_of_false (not_writtenAs_bind hpubkey) hpubkey

/-- One step down the names that the code compares with. -/
theorem writtenAs_ite_iff {hex : Hex} {p kept : Prop} [Decidable p]
    {found others : Option TagV2} {texts : List String}
    (hfound : p → (WrittenAs hex found texts ↔ kept))
    (hothers : ¬ p → (WrittenAs hex others texts ↔ kept)) :
    WrittenAs hex (if p then found else others) texts ↔ kept := by
  by_cases hp : p
  · rw [if_pos hp]
    exact hfound hp
  · rw [if_neg hp]
    exact hothers hp

/-- The branches on the names whose strings are all kept, whatever they are. -/
theorem writtenAs_iff_of_visitValue {hex : Hex} {name tagname : String}
    {make : String → List String → TagV2}
    (hmake : ∀ value rest, serializeTagV2 hex (make value rest) =
      .arr (.str name :: .str value :: rest.map .str))
    (hkept : ∀ fields, FieldsKept hex name fields) (fields : List String)
    (hname : tagname = name) :
    WrittenAs hex (visitValue tagname (fun value rest => some (make value rest))
      fields) (tagname :: fields) ↔ FieldsKept hex tagname fields := by
  rw [hname]
  exact iff_of_true (writtenAs_visitValue hmake fields) (hkept fields)

theorem writtenAs_visitFields_iff {hex : Hex} (tagname : String)
    (fields : List String) :
    WrittenAs hex (visitFields hex tagname fields) (tagname :: fields) ↔
      FieldsKept hex tagname fields := by
  unfold visitFields
  refine writtenAs_ite_iff
    (writtenAs_iff_of_visitValue (fun _ _ => rfl) (by simp [FieldsKept]) fields) ?_
  intro _
  refine writtenAs_ite_iff ?_ fun hdelegation => ?_
  · rintro rfl
    exact writtenAs_visitDelegation_iff
  refine writtenAs_ite_iff ?_ fun hevent => ?_
  · rintro rfl
    refine (writtenAs_id_iff ?_ fields).trans (by simp [FieldsKept])
    intro id rest
    rw [serializeTagV2, List.append_assoc, List.append_assoc,
      ← List.append_assoc (serializedElement _ _), serializedElement_slots]
    rfl
  refine writtenAs_ite_iff ?_ fun hparent => ?_
  · rintro rfl
    refine (writtenAs_id_iff ?_ fields).trans (by simp [FieldsKept])
    intro id rest
    rw [serializeTagV2, List.append_assoc]
    cases rest <;> rfl
  refine writtenAs_ite_iff ?_ fun hexpiration => ?_
  · rintro rfl
    refine writtenAs_visitValue_iff.trans ?_
    cases fields with
    | nil => simp [FieldsKept]
    | cons time rest => simp [FieldsKept, not_writtenAs_none]
  refine writtenAs_ite_iff ?_ fun hpubkey => ?_
  · rintro rfl
    exact (writtenAs_pubkey_iff fields).trans (by simp [FieldsKept])
  refine writtenAs_ite_iff
    (writtenAs_iff_of_visitValue (fun _ _ => rfl) (by simp [FieldsKept]) fields) ?_
  intro _
  refine writtenAs_ite_iff (writtenAs_iff_of_visitValue ?_ (by simp [FieldsKept])
    fields) ?_
  · intro url rest
    rw [serializeTagV2, List.append_assoc, serializedElement_slot]
    rfl
  intro _
  refine writtenAs_ite_iff
    (writtenAs_iff_of_visitValue (fun _ _ => rfl) (by simp [FieldsKept]) fields) ?_
  intro _
  refine writtenAs_ite_iff ?_ fun hidentifier => ?_
  · rintro rfl
    cases fields with
    | nil => simp [FieldsKept, writtenAs_some_iff, serializeTagV2]
    | cons d rest => simp [FieldsKept, writtenAs_some_iff, serializeTagV2]
  refine writtenAs_ite_iff ?_ fun hkind => ?_
  · rintro rfl
    exact writtenAs_visitKind_iff.trans (by simp [FieldsKept])
  refine writtenAs_ite_iff
    (writtenAs_iff_of_visitValue (fun _ _ => rfl) (by simp [FieldsKept]) fields) ?_
  intro _
  refine writtenAs_ite_iff (writtenAs_iff_of_visitValue ?_ (by simp [FieldsKept])
    fields) ?_
  · intro nonce rest
    rw [serializeTagV2, List.append_assoc, serializedElement_slot]
    rfl
  intro _
  refine writtenAs_ite_iff ?_ fun hparameter => ?_
  · rintro rfl
    cases fields with
    | nil => simp [FieldsKept, writtenAs_some_iff, serializeTagV2]
    | cons param rest => simp [FieldsKept, writtenAs_some_iff, serializeTagV2]
  refine writtenAs_ite_iff
    (writtenAs_iff_of_visitValue (fun _ _ => rfl) (by simp [FieldsKept]) fields) ?_
  intro _
  refine iff_of_true (writtenAs_other_iff.mpr rfl) ?_
  simp [FieldsKept, hdelegation, hevent, hparent, hexpiration, hpubkey, hidentifier,
    hkind, hparameter]

/-- An array of strings that begins with the name of a tag is read to a tag and
written as it was exactly when its strings are kept. -/
theorem writtenAs_visitSeq_iff (first : SeqElement) (rest : List SeqElement) :
    WrittenAs hex (visitSeq hex (first :: rest))
        ((first :: rest).map SeqElement.text) ↔ SeqKept hex first rest := by
  rw [visitSeq, SeqKept, List.map_cons, Option.bind_eq_bind]
  cases hborrow : first.borrow with
  | none =>
      rw [Option.bind_none]
      refine iff_of_false not_writtenAs_none fun hkept => ?_
      rw [SeqElement.borrow_eq_some_iff.mpr ⟨hkept.1, rfl⟩] at hborrow
      cases hborrow
  | some tagname =>
      obtain ⟨hborrowed, rfl⟩ := SeqElement.borrow_eq_some_iff.mp hborrow
      rw [Option.bind_some, and_iff_right hborrowed]
      by_cases hname : first.text = "a"
      · rw [if_pos hname, if_pos hname, hname]
        cases rest with
        | nil => simp [visitAddress, writtenAs_other_iff]
        | cons value rest => simpa using writtenAs_visitAddress_iff value
      · rw [if_neg hname, if_neg hname]
        exact writtenAs_visitFields_iff first.text _

/-- An address that is none loses its value. -/
theorem address_loses_value :
    visitSeq Hex.reference [⟨"a", true⟩, ⟨"30023", true⟩, ⟨"wss://relay", true⟩] =
        some (.other "a" ["wss://relay"]) ∧
      ¬ WrittenAs Hex.reference
        (visitSeq Hex.reference
          [⟨"a", true⟩, ⟨"30023", true⟩, ⟨"wss://relay", true⟩])
        ["a", "30023", "wss://relay"] := by
  have hread : visitSeq Hex.reference
      [⟨"a", true⟩, ⟨"30023", true⟩, ⟨"wss://relay", true⟩] =
        some (.other "a" ["wss://relay"]) := by
    have hsplit : ['3', '0', '0', '2', '3'].splitOn ':' =
        [['3', '0', '0', '2', '3']] := by
      decide
    simp [visitSeq, visitAddress, SeqElement.borrow, hsplit]
  refine ⟨hread, ?_⟩
  rw [hread, writtenAs_other_iff]
  decide

end Main

end Types

end Gnostr
