/-
Messages between a client and a relay, of
`types/src/nostr/versioned/client_message3.rs` and `relay_message5.rs`: arrays of a
word and what belongs to it, written and read by separate code.
-/
import Gnostr.Types.FilterJson

namespace Gnostr

namespace Types

/-- A string used to refer to a subscription. -/
structure SubscriptionId where
  text : String
deriving Repr, DecidableEq

/-- A message from a client to a relay. -/
inductive ClientMessageV3 where
  | event (signed : EventV3)
  | req (id : SubscriptionId) (filters : List LimitedFilter)
  | close (id : SubscriptionId)
  | auth (signed : EventV3)

/-- A message from a relay to a client. -/
inductive RelayMessageV5 where
  | auth (challenge : String)
  | closed (id : SubscriptionId) (message : String)
  | eose (id : SubscriptionId)
  | event (id : SubscriptionId) (signed : EventV3)
  | notice (text : String)
  | notify (text : String)
  | ok (id : Id) (accepted : Bool) (message : String)
deriving DecidableEq

section Serialize

variable (hex : Hex)

/-- The array that `serialize` writes. -/
def ClientMessageV3.toJson : ClientMessageV3 → Json
  | .event signed => .arr [.str "EVENT", signed.toJson hex]
  | .req id filters =>
      .arr (.str "REQ" :: .str id.text :: filters.map LimitedFilter.toJson)
  | .close id => .arr [.str "CLOSE", .str id.text]
  | .auth signed => .arr [.str "AUTH", signed.toJson hex]

/-- The array that `serialize` writes. -/
def RelayMessageV5.toJson : RelayMessageV5 → Json
  | .auth challenge => .arr [.str "AUTH", .str challenge]
  | .closed id message => .arr [.str "CLOSED", .str id.text, .str message]
  | .eose id => .arr [.str "EOSE", .str id.text]
  | .event id signed => .arr [.str "EVENT", .str id.text, signed.toJson hex]
  | .notice text => .arr [.str "NOTICE", .str text]
  | .notify text => .arr [.str "NOTIFY", .str text]
  | .ok id accepted message =>
      .arr [.str "OK", .str (id.asHexString hex), .bool accepted, .str message]

/-- `seq.next_element()?.ok_or_else(..)` and the fields behind it. -/
def nextElement {α : Type} (deserialize : Json → Option α) :
    List Json → Option (α × List Json)
  | [] => none
  | value :: fields => (deserialize value).map fun first => (first, fields)

def deserializeSubscriptionId (value : Json) : Option SubscriptionId :=
  (deserializeString value).map SubscriptionId.mk

def deserializeBool : Json → Option Bool
  | .bool value => some value
  | _ => none

/-- `visit_seq` behind the word.  Trailing fields are not looked at. -/
def ClientMessageV3.visitSeq (word : String) (fields : List Json) :
    Option ClientMessageV3 :=
  if word = "EVENT" then do
    let (signed, _) ← nextElement (EventV3.ofJson hex) fields
    return .event signed
  else if word = "REQ" then do
    let (id, fields) ← nextElement deserializeSubscriptionId fields
    let filters ← fields.mapM (LimitedFilter.ofJson hex)
    return .req id filters
  else if word = "CLOSE" then do
    let (id, _) ← nextElement deserializeSubscriptionId fields
    return .close id
  else if word = "AUTH" then do
    let (signed, _) ← nextElement (EventV3.ofJson hex) fields
    return .auth signed
  else none

/-- `visit_seq` behind the word.  Trailing fields are not looked at. -/
def RelayMessageV5.visitSeq (word : String) (fields : List Json) :
    Option RelayMessageV5 :=
  if word = "EVENT" then do
    let (id, fields) ← nextElement deserializeSubscriptionId fields
    let (signed, _) ← nextElement (EventV3.ofJson hex) fields
    return .event id signed
  else if word = "NOTICE" then do
    let (text, _) ← nextElement deserializeString fields
    return .notice text
  else if word = "NOTIFY" then do
    let (text, _) ← nextElement deserializeString fields
    return .notify text
  else if word = "EOSE" then do
    let (id, _) ← nextElement deserializeSubscriptionId fields
    return .eose id
  else if word = "OK" then do
    let (id, fields) ← nextElement (fun value => deserializeBytes hex value 32) fields
    let (accepted, fields) ← nextElement deserializeBool fields
    let (message, _) ← nextElement deserializeString fields
    return .ok ⟨id⟩ accepted message
  else if word = "AUTH" then do
    let (challenge, _) ← nextElement deserializeString fields
    return .auth challenge
  else if word = "CLOSED" then do
    let (id, fields) ← nextElement deserializeSubscriptionId fields
    let (message, _) ← nextElement deserializeString fields
    return .closed id message
  else none

/-- The first string of a text stands in it without an escape, so that it can be
borrowed. -/
def firstStringBorrowed (text : String) : Bool :=
  !((text.toList.dropWhile (· != '"')).tail.takeWhile (· != '"')).contains '\\'

variable (reader : JsonReader)

/-- `serde_json::from_str` of an array that begins with a borrowed string. -/
def fromSeqString {α : Type} (visitSeq : String → List Json → Option α)
    (text : String) : Outcome Error α :=
  Outcome.okOr .serdeJson
    (match reader.read text with
    | some (.arr (.str word :: fields)) =>
        if firstStringBorrowed text then visitSeq word fields else none
    | _ => none)

/-- `serde_json::to_string`. -/
def ClientMessageV3.toJsonString (message : ClientMessageV3) : String :=
  String.ofList (message.toJson hex).render

/-- `serde_json::to_string`. -/
def RelayMessageV5.toJsonString (message : RelayMessageV5) : String :=
  String.ofList (message.toJson hex).render

/-- `serde_json::from_str`. -/
def ClientMessageV3.fromJsonString (text : String) : Outcome Error ClientMessageV3 :=
  fromSeqString reader (visitSeq hex) text

/-- `serde_json::from_str`. -/
def RelayMessageV5.fromJsonString (text : String) : Outcome Error RelayMessageV5 :=
  fromSeqString reader (visitSeq hex) text

end Serialize

section Word

variable {hex : Hex} {reader : JsonReader}

/-- A word that is written without escapes. -/
def IsPlainWord (word : String) : Prop :=
  (word.toList.all fun c => Json.escapeChar c == [c]) = true

instance (word : String) : Decidable (IsPlainWord word) :=
  inferInstanceAs (Decidable (_ = true))

theorem IsPlainWord.escapeChar {word : String} (hword : IsPlainWord word) {c : Char}
    (hc : c ∈ word.toList) : Json.escapeChar c = [c] :=
  eq_of_beq (List.all_eq_true.mp hword c hc)

theorem renderRest_of_plain {chars : List Char}
    (hplain : ∀ c ∈ chars, Json.escapeChar c = [c]) :
    Json.renderRest chars = chars ++ ['"'] := by
  induction chars with
  | nil => rfl
  | cons c chars ih =>
      rw [Json.renderRest, hplain c List.mem_cons_self,
        ih fun c hc => hplain c (List.mem_cons_of_mem _ hc)]
      rfl

/-- The first word of an array that was written can be borrowed. -/
theorem firstStringBorrowed_render {word : String} (hword : IsPlainWord word)
    (fields : List Json) :
    firstStringBorrowed (String.ofList (Json.arr (.str word :: fields)).render) =
      true := by
  have hquote : ∀ c ∈ word.toList, (c != '"') = true := by
    intro c hc
    rw [bne_iff_ne]
    rintro rfl
    exact absurd (hword.escapeChar hc) (by decide)
  have hslash : '\\' ∉ word.toList := by
    intro hc
    exact absurd (hword.escapeChar hc) (by decide)
  rw [firstStringBorrowed, String.toList_ofList, Json.render_arr_cons, Json.render,
    renderRest_of_plain fun _ => hword.escapeChar, List.cons_append, List.append_assoc,
    List.dropWhile_cons_of_pos (by decide), List.dropWhile_cons_of_neg (by decide),
    List.tail_cons, List.takeWhile_append_of_pos hquote,
    List.singleton_append, List.takeWhile_cons_of_neg (by decide), List.append_nil,
    List.contains_eq_mem, decide_eq_false hslash]
  rfl

/-- An array that was written is read, and its fields are visited. -/
theorem fromSeqString_render {α : Type} {visitSeq : String → List Json → Option α}
    {word : String} (hword : IsPlainWord word) {fields : List Json}
    (hfits : (fields.all (Json.fits 126)) = true) {message : α} :
    fromSeqString reader visitSeq
        (String.ofList (Json.arr (.str word :: fields)).render) = .ok message ↔
      visitSeq word fields = some message := by
  have hall : (Json.arr (.str word :: fields)).fits 127 = true := by
    rw [Json.fits, List.all_cons, hfits]
    rfl
  rw [fromSeqString, reader.read_render hall]
  dsimp only
  rw [if_pos (firstStringBorrowed_render hword fields), Outcome.okOr_eq_ok_iff]

end Word

section RoundTrip

variable {hex : Hex} {reader : JsonReader}

theorem nextElement_cons {α : Type} {deserialize : Json → Option α} {value : Json}
    {first : α} (hback : deserialize value = some first) (fields : List Json) :
    nextElement deserialize (value :: fields) = some (first, fields) := by
  rw [nextElement, hback, Option.map_some]

theorem EventV3.withKind_eq_iff (event : EventV3) :
    { event with kind := EventKind.ofU32 event.kind.toU32 } = event ↔
      event.kind.Canonical := by
  constructor
  · intro hsame
    exact congrArg EventV3.kind hsame
  · intro hcanonical
    have hkind : EventKind.ofU32 event.kind.toU32 = event.kind := hcanonical
    rw [hkind]

theorem LimitedFilter.canonicalKinds_eq_iff (filter : LimitedFilter) :
    filter.canonicalKinds = filter ↔ ∀ kind ∈ filter.kinds, kind.Canonical := by
  have hkinds : (filter.kinds.map fun kind => EventKind.ofU32 kind.toU32) =
      filter.kinds ↔ ∀ kind ∈ filter.kinds, kind.Canonical := by
    conv_lhs => rhs; rw [← List.map_id filter.kinds]
    exact List.map_inj_left
  rw [← hkinds]
  constructor
  · intro hsame
    exact congrArg (fun result : LimitedFilter => result.kinds) hsame
  · intro hsame
    rw [LimitedFilter.canonicalKinds, hsame]

/-- Filters are read back exactly when each of them is. -/
theorem mapM_ofJson_toJson_iff (filters : List LimitedFilter) :
    (filters.map LimitedFilter.toJson).mapM (LimitedFilter.ofJson hex) =
        some filters ↔
      ∀ filter ∈ filters,
        filter.HexLists hex ∧ ∀ kind ∈ filter.kinds, kind.Canonical := by
  induction filters with
  | nil => simp
  | cons filter filters ih =>
      rw [List.map_cons, List.mapM_cons, List.forall_mem_cons, ← ih,
        ← filter.canonicalKinds_eq_iff, ← LimitedFilter.ofJson_toJson_eq_some_iff,
        Option.bind_eq_bind, Option.bind_eq_some_iff]
      constructor
      · rintro ⟨first, hfirst, hrest⟩
        obtain ⟨others, hothers, hsame⟩ := Option.bind_eq_some_iff.mp hrest
        cases hsame
        exact ⟨hfirst, hothers⟩
      · rintro ⟨hfirst, hothers⟩
        refine ⟨filter, hfirst, ?_⟩
        rw [hothers]
        rfl

/-- Every kind in the message is the one its number names. -/
def ClientMessageV3.KindsCanonical : ClientMessageV3 → Prop
  | .event signed => signed.kind.Canonical
  | .req _ filters => ∀ filter ∈ filters, ∀ kind ∈ filter.kinds, kind.Canonical
  | .close _ => True
  | .auth signed => signed.kind.Canonical

/-- The ids and the authors that are asked for are 64 hexadecimal digits each. -/
def ClientMessageV3.HexLists (hex : Hex) : ClientMessageV3 → Prop
  | .req _ filters => ∀ filter ∈ filters, filter.HexLists hex
  | _ => True

/-- The kind in the message is the one its number names. -/
def RelayMessageV5.KindsCanonical : RelayMessageV5 → Prop
  | .event _ signed => signed.kind.Canonical
  | _ => True

theorem ClientMessageV3.visitSeq_event_iff {word : String}
    {make : EventV3 → ClientMessageV3} (hinjective : Function.Injective make)
    (hword : ∀ fields, visitSeq hex word fields =
      (nextElement (EventV3.ofJson hex) fields).bind fun first =>
        some (make first.1)) (signed : EventV3) :
    visitSeq hex word [signed.toJson hex] = some (make signed) ↔
      signed.kind.Canonical := by
  rw [hword, nextElement_cons (signed.ofJson_toJson hex), Option.bind_some,
    Option.some.injEq, hinjective.eq_iff, signed.withKind_eq_iff]

theorem ClientMessageV3.visitSeq_req_iff (id : SubscriptionId)
    (filters : List LimitedFilter) :
    visitSeq hex "REQ" (.str id.text :: filters.map LimitedFilter.toJson) =
        some (.req id filters) ↔
      (∀ filter ∈ filters, ∀ kind ∈ filter.kinds, kind.Canonical) ∧
        ∀ filter ∈ filters, filter.HexLists hex := by
  have hid : deserializeSubscriptionId (.str id.text) = some id := rfl
  rw [visitSeq, if_neg (by decide), if_pos rfl, nextElement_cons hid,
    Option.bind_eq_bind, Option.bind_some, Option.bind_eq_bind,
    Option.bind_eq_some_iff, ← forall₂_and]
  refine Iff.trans ?_ ((mapM_ofJson_toJson_iff filters).trans
    (forall₂_congr fun _ _ => and_comm))
  constructor
  · rintro ⟨others, hothers, hsame⟩
    cases hsame
    exact hothers
  · intro hfilters
    exact ⟨filters, hfilters, rfl⟩

/-- A message of a client is read back exactly when its kinds are those of their
numbers and its filters ask for hexadecimal ids and authors. -/
theorem ClientMessageV3.fromJsonString_toJsonString_iff (message : ClientMessageV3) :
    fromJsonString hex reader (message.toJsonString hex) = .ok message ↔
      message.KindsCanonical ∧ message.HexLists hex := by
  unfold fromJsonString toJsonString
  cases message with
  | event signed =>
      have hfits : ([signed.toJson hex].all (Json.fits 126)) = true := by
        rw [List.all_cons, signed.fits_toJson hex 123]
        rfl
      rw [toJson, fromSeqString_render (by decide +kernel) hfits]
      refine (visitSeq_event_iff (fun _ _ => ClientMessageV3.event.inj) ?_
        signed).trans (and_iff_left trivial).symm
      intro fields
      rfl
  | req id filters =>
      have hfits : ((.str id.text :: filters.map LimitedFilter.toJson).all
          (Json.fits 126)) = true := by
        rw [List.all_cons, fits_str, List.all_map, Bool.true_and, List.all_eq_true]
        exact fun filter _ => filter.fits_toJson 124
      rw [toJson, fromSeqString_render (by decide +kernel) hfits]
      exact visitSeq_req_iff id filters
  | close id =>
      rw [toJson, fromSeqString_render (by decide +kernel) rfl]
      exact iff_of_true rfl ⟨trivial, trivial⟩
  | auth signed =>
      have hfits : ([signed.toJson hex].all (Json.fits 126)) = true := by
        rw [List.all_cons, signed.fits_toJson hex 123]
        rfl
      rw [toJson, fromSeqString_render (by decide +kernel) hfits]
      refine (visitSeq_event_iff (fun _ _ => ClientMessageV3.auth.inj) ?_
        signed).trans (and_iff_left trivial).symm
      intro fields
      rfl

/-- A message of a relay is read back exactly when the kind of its event is that of
its number. -/
theorem RelayMessageV5.fromJsonString_toJsonString_iff (message : RelayMessageV5) :
    fromJsonString hex reader (message.toJsonString hex) = .ok message ↔
      message.KindsCanonical := by
  unfold fromJsonString toJsonString
  cases message with
  | auth challenge =>
      rw [toJson, fromSeqString_render (by decide +kernel) rfl]
      exact iff_of_true rfl trivial
  | closed id message =>
      rw [toJson, fromSeqString_render (by decide +kernel) rfl]
      exact iff_of_true rfl trivial
  | eose id =>
      rw [toJson, fromSeqString_render (by decide +kernel) rfl]
      exact iff_of_true rfl trivial
  | event id signed =>
      have hfits : ([Json.str id.text, signed.toJson hex].all (Json.fits 126)) = true := by
        rw [List.all_cons, List.all_cons, signed.fits_toJson hex 123]
        rfl
      have hid : deserializeSubscriptionId (.str id.text) = some id := rfl
      rw [toJson, fromSeqString_render (by decide +kernel) hfits, visitSeq, if_pos rfl,
        nextElement_cons hid, Option.bind_eq_bind, Option.bind_some]
      dsimp only
      rw [nextElement_cons (signed.ofJson_toJson hex), Option.bind_eq_bind,
        Option.bind_some, Option.pure_def, Option.some.injEq,
        RelayMessageV5.event.injEq, and_iff_right rfl, signed.withKind_eq_iff]
      rfl
  | notice text =>
      rw [toJson, fromSeqString_render (by decide +kernel) rfl]
      exact iff_of_true rfl trivial
  | notify text =>
      rw [toJson, fromSeqString_render (by decide +kernel) rfl]
      exact iff_of_true rfl trivial
  | ok id accepted message =>
      rw [toJson, fromSeqString_render (by decide +kernel) rfl]
      refine iff_of_true ?_ trivial
      have hid : deserializeBytes hex (.str (id.asHexString hex)) 32 = some id.bytes :=
        deserializeBytes_encode hex id.bytes
      rw [visitSeq, if_neg (by decide), if_neg (by decide), if_neg (by decide),
        if_neg (by decide), if_pos rfl, nextElement_cons hid]
      rfl

/-- Messages come back from their JSON: those of a client exactly when their kinds
are those of their numbers and their filters ask for hexadecimal ids and authors,
those of a relay exactly when the kind is that of its number. -/
theorem messages_round_trip_iff (hex : Hex) (reader : JsonReader)
    (client : ClientMessageV3) (relay : RelayMessageV5) :
    (ClientMessageV3.fromJsonString hex reader (client.toJsonString hex) = .ok client ↔
      client.KindsCanonical ∧ client.HexLists hex) ∧
    (RelayMessageV5.fromJsonString hex reader (relay.toJsonString hex) = .ok relay ↔
      relay.KindsCanonical) :=
  ⟨client.fromJsonString_toJsonString_iff, relay.fromJsonString_toJsonString_iff⟩

/-- A request for an id that was made of any string. -/
def shortIdRequest : ClientMessageV3 :=
  .req ⟨"sub"⟩ [⟨⟨["note"], [], [], TagMap.empty, none, none⟩, none⟩]

/-- It is written, and what was written is not read. -/
theorem shortIdRequest_is_not_read :
    shortIdRequest.KindsCanonical ∧
      ClientMessageV3.fromJsonString Hex.reference JsonReader.compact
        (shortIdRequest.toJsonString Hex.reference) ≠ .ok shortIdRequest := by
  constructor
  · intro filter hfilter kind hkind
    rw [List.mem_singleton.mp hfilter] at hkind
    cases hkind
  · rw [Ne, ClientMessageV3.fromJsonString_toJsonString_iff]
    rintro ⟨_, hlists⟩
    have hids := (hlists _ (List.mem_singleton_self _)).1 "note"
      (List.mem_singleton_self _)
    exact absurd hids.1 (by decide +kernel)

end RoundTrip

end Types

end Gnostr
