/-
Events, pre-events and rumors of `types/src/nostr/versioned/event3.rs`: the text
that is hashed and signed, the JSON that is sent, and the reading of that JSON.
-/
import Gnostr.Types.Signature
import Gnostr.Types.TagV2

namespace Gnostr

namespace Types

/-- Data used to construct an event. -/
structure PreEventV3 where
  pubkey : PublicKey
  createdAt : Int64
  kind : EventKind
  tags : List TagV3
  content : String
deriving Repr, DecidableEq

/-- An event without a signature. -/
structure RumorV3 where
  id : Id
  pubkey : PublicKey
  createdAt : Int64
  kind : EventKind
  content : String
  tags : List TagV3
deriving Repr, DecidableEq

/-- The main event type. -/
structure EventV3 where
  id : Id
  pubkey : PublicKey
  createdAt : Int64
  kind : EventKind
  sig : Signature
  content : String
  tags : List TagV3
deriving Repr, DecidableEq

section Serialize

variable (hex : Hex)

def serializePublicKey (key : PublicKey) : Json := .str (key.asHexString hex)

def serializeUnixtime (time : Int64) : Json := .int time.toInt

def serializeEventKind (kind : EventKind) : Json := .int kind.toU32.toNat

def serializeTags (tags : List TagV3) : Json := .arr (tags.map TagV3.serialize)

/-- `serialize_inner_event!`: `format!` of the five texts. -/
def serializeInnerEvent (pubkey : PublicKey) (createdAt : Int64)
    (kind : EventKind) (tags : List TagV3) (content : String) : String :=
  String.ofList
    (['[', '0', ','] ++ (serializePublicKey hex pubkey).render ++ [','] ++
      (serializeUnixtime createdAt).render ++ [','] ++
      (serializeEventKind kind).render ++ [','] ++ (serializeTags tags).render ++
      [','] ++ (Json.str content).render ++ [']'])

variable (prims : Primitives)

/-- Generate an id for use in an event or a rumor. -/
def PreEventV3.hash (input : PreEventV3) : Id :=
  ⟨prims.sha256 (utf8 (serializeInnerEvent hex input.pubkey input.createdAt
    input.kind input.tags input.content))⟩

/-- The fields that are hashed. -/
def RumorV3.preEvent (rumor : RumorV3) : PreEventV3 where
  pubkey := rumor.pubkey
  createdAt := rumor.createdAt
  kind := rumor.kind
  tags := rumor.tags
  content := rumor.content

/-- The fields that are hashed. -/
def EventV3.preEvent (event : EventV3) : PreEventV3 where
  pubkey := event.pubkey
  createdAt := event.createdAt
  kind := event.kind
  tags := event.tags
  content := event.content

/-- Create a new rumor. -/
def RumorV3.new (input : PreEventV3) : RumorV3 where
  id := input.hash hex prims
  pubkey := input.pubkey
  createdAt := input.createdAt
  kind := input.kind
  content := input.content
  tags := input.tags

/-- Check the validity of an event.  The id is compared last. -/
def EventV3.verify {curve : Secp256k1} (schnorr : Schnorr curve) (event : EventV3)
    (maxtime : Option Int64) : Outcome Error Unit := do
  let serialized := utf8 (serializeInnerEvent hex event.pubkey event.createdAt
    event.kind event.tags event.content)
  event.pubkey.verify prims schnorr serialized event.sig
  let hash := prims.sha256 serialized
  if maxtime.any fun time => decide (time < event.createdAt) then
    .err .eventInFuture
  else if hash ≠ event.id.bytes then .err .hashMismatch
  else return ()

end Serialize

section Preimage

variable {hex : Hex}

/-- The text is that of an array of six items. -/
theorem serializeInnerEvent_eq (pubkey : PublicKey) (createdAt : Int64)
    (kind : EventKind) (tags : List TagV3) (content : String) :
    serializeInnerEvent hex pubkey createdAt kind tags content =
      String.ofList (Json.arr [.int 0, serializePublicKey hex pubkey,
        serializeUnixtime createdAt, serializeEventKind kind, serializeTags tags,
        .str content]).render := by
  have hzero : (Json.int 0).render = ['0'] := by decide +kernel
  rw [serializeInnerEvent, Json.render_arr_cons, hzero]
  simp only [Json.renderItems, List.append_assoc, List.cons_append,
    List.nil_append]

theorem serializePublicKey_injective :
    Function.Injective (serializePublicKey hex) := by
  intro first second hsame
  have htext : hex.encode first.bytes.toList = hex.encode second.bytes.toList :=
    Json.str.inj hsame
  have hbytes := congrArg hex.decode htext
  rw [hex.decode_encode, hex.decode_encode, Option.some.injEq,
    Vector.toList_inj] at hbytes
  cases first
  cases second
  exact congrArg PublicKey.mk hbytes

theorem serializeUnixtime_injective : Function.Injective serializeUnixtime :=
  fun _ _ hsame => Int64.toInt.inj (Json.int.inj hsame)

theorem serializeEventKind_inj {first second : EventKind} :
    serializeEventKind first = serializeEventKind second ↔
      first.toU32 = second.toU32 := by
  rw [serializeEventKind, serializeEventKind, Json.int.injEq, Nat.cast_inj,
    UInt32.toNat_inj]

theorem TagV3.serialize_injective : Function.Injective TagV3.serialize := by
  intro first second hsame
  have hfields := List.map_injective_iff.mpr (fun _ _ => Json.str.inj)
    (Json.arr.inj hsame)
  cases first
  cases second
  exact congrArg TagV3.mk hfields

theorem serializeTags_injective : Function.Injective serializeTags :=
  fun _ _ hsame => List.map_injective_iff.mpr TagV3.serialize_injective
    (Json.arr.inj hsame)

/-- The same fields, of the kind its number. -/
def PreEventV3.SameFields (first second : PreEventV3) : Prop :=
  first.pubkey = second.pubkey ∧ first.createdAt = second.createdAt ∧
    first.kind.toU32 = second.kind.toU32 ∧ first.tags = second.tags ∧
      first.content = second.content

theorem serializeInnerEvent_eq_iff (first second : PreEventV3) :
    serializeInnerEvent hex first.pubkey first.createdAt first.kind first.tags
        first.content =
      serializeInnerEvent hex second.pubkey second.createdAt second.kind
        second.tags second.content ↔ first.SameFields second := by
  rw [serializeInnerEvent_eq, serializeInnerEvent_eq, String.ofList_inj,
    Json.render_injective.eq_iff]
  simp only [Json.arr.injEq, List.cons.injEq, true_and, and_true,
    serializePublicKey_injective.eq_iff, serializeUnixtime_injective.eq_iff,
    serializeEventKind_inj, serializeTags_injective.eq_iff, Json.str.injEq]
  rfl

/-- The text that is hashed determines every field that is signed, and two
pre-events with one id have the same fields unless their texts are a collision of
the hash. -/
theorem preimage_commits (hex : Hex) (prims : Primitives)
    (first second : PreEventV3) :
    let preimage (input : PreEventV3) : String := serializeInnerEvent hex
      input.pubkey input.createdAt input.kind input.tags input.content
    (preimage first = preimage second ↔ first.SameFields second) ∧
      (first.hash hex prims = second.hash hex prims ↔
        first.SameFields second ∨
          utf8 (preimage first) ≠ utf8 (preimage second) ∧
            prims.sha256 (utf8 (preimage first)) =
              prims.sha256 (utf8 (preimage second))) := by
  refine ⟨serializeInnerEvent_eq_iff first second, ?_⟩
  rw [PreEventV3.hash, PreEventV3.hash, Id.mk.injEq,
    ← serializeInnerEvent_eq_iff first second, utf8_injective.ne_iff]
  constructor
  · intro hhash
    by_cases hsame : serializeInnerEvent hex first.pubkey first.createdAt
        first.kind first.tags first.content =
      serializeInnerEvent hex second.pubkey second.createdAt second.kind
        second.tags second.content
    · exact .inl hsame
    · exact .inr ⟨hsame, hhash⟩
  · rintro (hsame | ⟨_, hhash⟩)
    · rw [hsame]
    · exact hhash

end Preimage

section Verify

/-- An event that is valid at any time has the hash of its fields for its id, and
its author signed that. -/
theorem EventV3.verify_none_eq_ok_iff {hex : Hex} {prims : Primitives}
    {curve : Secp256k1} {schnorr : Schnorr curve} {event : EventV3} :
    event.verify hex prims schnorr none = .ok () ↔
      event.pubkey.Verified curve ∧
        schnorr.verify event.sig event.id.bytes event.pubkey.bytes = true ∧
          event.id = event.preEvent.hash hex prims := by
  have hid : event.id = event.preEvent.hash hex prims ↔
      prims.sha256 (utf8 (serializeInnerEvent hex event.pubkey event.createdAt
        event.kind event.tags event.content)) = event.id.bytes := by
    rw [PreEventV3.hash, eq_comm]
    exact ⟨congrArg Id.bytes, congrArg Id.mk⟩
  unfold EventV3.verify
  dsimp only
  rw [Outcome.bind_eq_ok_iff, hid]
  constructor
  · rintro ⟨⟨⟩, hsigned, hrest⟩
    rw [if_neg (by simp)] at hrest
    obtain ⟨hverified, hvalid⟩ := PublicKey.verify_eq_ok_iff prims schnorr |>.mp
      hsigned
    split at hrest
    · cases hrest
    · rename_i hhash
      have hhash := not_not.mp hhash
      exact ⟨hverified, hhash ▸ hvalid, hhash⟩
  · rintro ⟨hverified, hvalid, hhash⟩
    refine ⟨(), PublicKey.verify_eq_ok_iff prims schnorr |>.mpr
      ⟨hverified, hhash.symm ▸ hvalid⟩, ?_⟩
    rw [if_neg (by simp), if_neg (not_not_intro hhash)]
    rfl

end Verify

section Json

variable (hex : Hex)

/-- The members of an event, in the order of the fields. -/
def EventV3.toJson (event : EventV3) : Json :=
  .obj [("id", .str (event.id.asHexString hex)),
    ("pubkey", serializePublicKey hex event.pubkey),
    ("created_at", serializeUnixtime event.createdAt),
    ("kind", serializeEventKind event.kind),
    ("sig", .str (event.sig.asHexString hex)), ("content", .str event.content),
    ("tags", serializeTags event.tags)]

/-- The members of a rumor, in the order of the fields. -/
def RumorV3.toJson (rumor : RumorV3) : Json :=
  .obj [("id", .str (rumor.id.asHexString hex)),
    ("pubkey", serializePublicKey hex rumor.pubkey),
    ("created_at", serializeUnixtime rumor.createdAt),
    ("kind", serializeEventKind rumor.kind), ("content", .str rumor.content),
    ("tags", serializeTags rumor.tags)]

def deserializeString : Json → Option String
  | .str text => some text
  | _ => none

/-- 32 bytes as hexadecimal digits. -/
def deserializeBytes (value : Json) (n : ℕ) : Option (Vector UInt8 n) := do
  let text ← deserializeString value
  let vec ← hex.decode text
  tryIntoArray n vec

/-- An integer of 64 bits. -/
def deserializeUnixtime : Json → Option Int64
  | .int number =>
      if -2 ^ 63 ≤ number ∧ number < 2 ^ 63 then some (Int64.ofInt number)
      else none
  | _ => none

/-- An unsigned integer of 64 bits, cut to 32. -/
def deserializeEventKind : Json → Option EventKind
  | .int number =>
      if 0 ≤ number ∧ number < 2 ^ 64 then
        some (EventKind.ofU32 (UInt32.ofNat number.toNat))
      else none
  | _ => none

def deserializeTag : Json → Option TagV3
  | .arr items => TagV3.mk <$> items.mapM deserializeString
  | _ => none

def deserializeTags : Json → Option (List TagV3)
  | .arr items => items.mapM deserializeTag
  | _ => none

/-- The event that is read from a value. -/
def EventV3.ofJson (value : Json) : Option EventV3 := do
  match ← value.record ["id", "pubkey", "created_at", "kind", "sig", "content",
      "tags"] with
  | [id, pubkey, createdAt, kind, sig, content, tags] => do
      let id ← deserializeBytes hex id 32
      let pubkey ← deserializeBytes hex pubkey 32
      let createdAt ← deserializeUnixtime createdAt
      let kind ← deserializeEventKind kind
      let sig ← deserializeBytes hex sig 64
      let content ← deserializeString content
      let tags ← deserializeTags tags
      return ⟨⟨id⟩, ⟨pubkey⟩, createdAt, kind, ⟨sig⟩, content, tags⟩
  | _ => none

/-- The rumor that is read from a value. -/
def RumorV3.ofJson (value : Json) : Option RumorV3 := do
  match ← value.record ["id", "pubkey", "created_at", "kind", "content",
      "tags"] with
  | [id, pubkey, createdAt, kind, content, tags] => do
      let id ← deserializeBytes hex id 32
      let pubkey ← deserializeBytes hex pubkey 32
      let createdAt ← deserializeUnixtime createdAt
      let kind ← deserializeEventKind kind
      let content ← deserializeString content
      let tags ← deserializeTags tags
      return ⟨⟨id⟩, ⟨pubkey⟩, createdAt, kind, content, tags⟩
  | _ => none

variable (reader : JsonReader)

/-- `serde_json::to_string`. -/
def EventV3.toJsonString (event : EventV3) : String :=
  String.ofList (event.toJson hex).render

/-- `serde_json::to_string`. -/
def RumorV3.toJsonString (rumor : RumorV3) : String :=
  String.ofList (rumor.toJson hex).render

/-- `serde_json::from_str`. -/
def EventV3.fromJsonString (text : String) : Outcome Error EventV3 :=
  Outcome.okOr .serdeJson ((reader.read text).bind (ofJson hex))

/-- `serde_json::from_str`. -/
def RumorV3.fromJsonString (text : String) : Outcome Error RumorV3 :=
  Outcome.okOr .serdeJson ((reader.read text).bind (ofJson hex))

end Json

section RoundTrip

variable (hex : Hex)

theorem deserializeBytes_encode {n : ℕ} (bytes : Vector UInt8 n) :
    deserializeBytes hex (.str (hex.encode bytes.toList)) n = some bytes := by
  rw [deserializeBytes, deserializeString, Option.bind_eq_bind, Option.bind_some,
    hex.decode_encode, Option.bind_eq_bind, Option.bind_some,
    tryIntoArray_toList]

@[simp] theorem deserializeUnixtime_serializeUnixtime (time : Int64) :
    deserializeUnixtime (serializeUnixtime time) = some time := by
  rw [serializeUnixtime, deserializeUnixtime,
    if_pos ⟨time.le_toInt, time.toInt_lt⟩, Int64.ofInt_toInt]

/-- A kind comes back as the one that its number names. -/
@[simp] theorem deserializeEventKind_serializeEventKind (kind : EventKind) :
    deserializeEventKind (serializeEventKind kind) =
      some (EventKind.ofU32 kind.toU32) := by
  have hlt := kind.toU32.toNat_lt
  rw [serializeEventKind, deserializeEventKind, if_pos ⟨by omega, by omega⟩,
    Int.toNat_natCast, UInt32.ofNat_toNat]

@[simp] theorem deserializeTag_serialize (tag : TagV3) :
    deserializeTag tag.serialize = some tag := by
  have hmap : (tag.fields.map Json.str).mapM deserializeString =
      some tag.fields := by
    induction tag.fields with
    | nil => rfl
    | cons field fields ih =>
        rw [List.map_cons, List.mapM_cons, ih]
        rfl
  rw [TagV3.serialize, deserializeTag, hmap]
  rfl

@[simp] theorem deserializeTags_serializeTags (tags : List TagV3) :
    deserializeTags (serializeTags tags) = some tags := by
  rw [serializeTags, deserializeTags]
  induction tags with
  | nil => rfl
  | cons tag tags ih =>
      rw [List.map_cons, List.mapM_cons, ih, deserializeTag_serialize]
      rfl

theorem EventV3.ofJson_toJson (event : EventV3) :
    ofJson hex (event.toJson hex) =
      some { event with kind := EventKind.ofU32 event.kind.toU32 } := by
  have hrecord : (event.toJson hex).record ["id", "pubkey", "created_at", "kind",
      "sig", "content", "tags"] =
        some [.str (event.id.asHexString hex), serializePublicKey hex event.pubkey,
          serializeUnixtime event.createdAt, serializeEventKind event.kind,
          .str (event.sig.asHexString hex), .str event.content,
          serializeTags event.tags] := by
    simp [EventV3.toJson, Json.record, Json.member]
  unfold EventV3.ofJson
  rw [hrecord]
  simp only [Id.asHexString, serializePublicKey, PublicKey.asHexString,
    Signature.asHexString, deserializeBytes_encode, deserializeString,
    deserializeUnixtime_serializeUnixtime,
    deserializeEventKind_serializeEventKind, deserializeTags_serializeTags,
    Option.bind_eq_bind, Option.bind_some]
  rfl

theorem RumorV3.ofJson_toJson (rumor : RumorV3) :
    ofJson hex (rumor.toJson hex) =
      some { rumor with kind := EventKind.ofU32 rumor.kind.toU32 } := by
  have hrecord : (rumor.toJson hex).record ["id", "pubkey", "created_at", "kind",
      "content", "tags"] =
        some [.str (rumor.id.asHexString hex), serializePublicKey hex rumor.pubkey,
          serializeUnixtime rumor.createdAt, serializeEventKind rumor.kind,
          .str rumor.content, serializeTags rumor.tags] := by
    simp [RumorV3.toJson, Json.record, Json.member]
  unfold RumorV3.ofJson
  rw [hrecord]
  simp only [Id.asHexString, serializePublicKey, PublicKey.asHexString,
    deserializeBytes_encode, deserializeString,
    deserializeUnixtime_serializeUnixtime,
    deserializeEventKind_serializeEventKind, deserializeTags_serializeTags,
    Option.bind_eq_bind, Option.bind_some]
  rfl

theorem fits_serializeUnixtime (depth : ℕ) (time : Int64) :
    (serializeUnixtime time).fits depth = true := by
  have hle := time.le_toInt
  have hlt := time.toInt_lt
  rw [serializeUnixtime, Json.fits]
  exact decide_eq_true ⟨hle, by omega⟩

theorem fits_serializeEventKind (depth : ℕ) (kind : EventKind) :
    (serializeEventKind kind).fits depth = true := by
  have hlt := kind.toU32.toNat_lt
  rw [serializeEventKind, Json.fits]
  exact decide_eq_true ⟨by omega, by omega⟩

theorem fits_str (depth : ℕ) (text : String) :
    (Json.str text).fits depth = true := by
  cases depth <;> rfl

/-- Tags are arrays of arrays of strings. -/
theorem fits_serializeTags (depth : ℕ) (tags : List TagV3) :
    (serializeTags tags).fits (depth + 2) = true := by
  rw [serializeTags, Json.fits, List.all_map, List.all_eq_true]
  intro tag _
  rw [Function.comp_apply, TagV3.serialize, Json.fits, List.all_map,
    List.all_eq_true]
  exact fun field _ => fits_str depth field

/-- An event is an object with an array of arrays in it. -/
theorem EventV3.fits_toJson (event : EventV3) (depth : ℕ) :
    (event.toJson hex).fits (depth + 3) = true := by
  simp only [EventV3.toJson, Json.fits, List.all_cons, List.all_nil,
    serializePublicKey, fits_serializeUnixtime, fits_serializeEventKind,
    fits_serializeTags depth, Bool.and_true]

theorem RumorV3.fits_toJson (rumor : RumorV3) :
    (rumor.toJson hex).fits 127 = true := by
  simp only [RumorV3.toJson, Json.fits, List.all_cons, List.all_nil,
    serializePublicKey, fits_serializeUnixtime, fits_serializeEventKind,
    fits_serializeTags 124, Bool.and_true]

/-- How long the text of an event is beyond its content. -/
theorem EventV3.length_render_toJson (event : EventV3) :
    (event.toJson hex).render.length + 1 =
      ({ event with content := "" }.toJson hex).render.length +
        (Json.renderRest event.content.toList).length := by
  simp only [EventV3.toJson, Json.render, Json.renderMembers, List.length_cons,
    List.length_append, serializePublicKey, String.toList_empty, Json.renderRest,
    List.length_nil]
  omega

/-- The text of an event with a short content is short. -/
theorem EventV3.length_utf8_toJsonString_bounds (event : EventV3) (n : ℕ)
    (hempty : ({ event with content := "" }.toJson hex).render.length = n) :
    1 ≤ (utf8 (event.toJsonString hex)).length ∧
      (utf8 (event.toJsonString hex)).length ≤
        4 * (n + 6 * (utf8 event.content).length) := by
  have hlength := event.length_render_toJson hex
  have hpos : 1 ≤ (event.toJson hex).render.length := by
    rw [EventV3.toJson, Json.render, List.length_cons]
    exact Nat.le_add_left 1 _
  have hrest := Json.length_renderRest_le event.content.toList
  have hchars := (length_utf8_ofList_bounds event.content.toList).1
  rw [String.ofList_toList] at hchars
  have hbounds := length_utf8_ofList_bounds (event.toJson hex).render
  rw [EventV3.toJsonString]
  omega

/-- An event is read back, its kind as the one that its number names. -/
theorem EventV3.fromJsonString_toJsonString (reader : JsonReader)
    (event : EventV3) :
    fromJsonString hex reader (event.toJsonString hex) =
      .ok { event with kind := EventKind.ofU32 event.kind.toU32 } := by
  rw [fromJsonString, toJsonString, reader.read_render (event.fits_toJson hex 124),
    Option.bind_some, ofJson_toJson, Outcome.okOr_some]

theorem RumorV3.fromJsonString_toJsonString (reader : JsonReader)
    (rumor : RumorV3) :
    fromJsonString hex reader (rumor.toJsonString hex) =
      .ok { rumor with kind := EventKind.ofU32 rumor.kind.toU32 } := by
  rw [fromJsonString, toJsonString, reader.read_render (rumor.fits_toJson hex),
    Option.bind_some, ofJson_toJson, Outcome.okOr_some]

end RoundTrip

end Types

end Gnostr
