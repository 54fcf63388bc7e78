/-
File metadata of `types/src/nostr/nip94.rs`: the event that is made of them, with a
placeholder where its signature goes, and what is read from its tags again.
-/
import Gnostr.Types.Nip26

namespace Gnostr

namespace Types

/-- The arguments of `new_file_metadata` besides the key. -/
structure FileMetadata where
  description : String
  url : String
  mimeType : String
  sha256Hash : String
  originalSha256Hash : Option String
  fileSize : Option UInt64
  dimensions : Option String
  blurhash : Option String
deriving Repr, DecidableEq

/-- The tag of a value that may be missing. -/
def optionalTag (name : String) (value : Option String) : List TagV3 :=
  (value.map fun value => (⟨[name, value]⟩ : TagV3)).toList

def FileMetadata.tags (metadata : FileMetadata) : List TagV3 :=
  [⟨["url", metadata.url]⟩, ⟨["m", metadata.mimeType]⟩,
      ⟨["x", metadata.sha256Hash]⟩] ++
    optionalTag "ox" metadata.originalSha256Hash ++
    optionalTag "size" (metadata.fileSize.map fun size =>
      String.ofList (decimal size.toNat)) ++
    optionalTag "dim" metadata.dimensions ++
    optionalTag "blurhash" metadata.blurhash

/-- A dummy signature of all zeroes. -/
def Signature.zeroes : Signature := ⟨Vector.replicate 64 0⟩

namespace Nip94Event

section Read

/-- What the first tag of a name holds that can be read. -/
def findTag {α : Type} (name : String) (read : String → Option α)
    (tags : List TagV3) : Option α :=
  tags.findSome? fun tag => match tag.fields with
    | first :: value :: _ => if first = name then read value else none
    | _ => none

def fileUrl (event : EventV3) : Option String := findTag "url" some event.tags

def mimeType (event : EventV3) : Option String := findTag "m" some event.tags

def sha256Hash (event : EventV3) : Option String := findTag "x" some event.tags

def originalSha256Hash (event : EventV3) : Option String :=
  findTag "ox" some event.tags

def fileSize (event : EventV3) : Option ℕ :=
  findTag "size" (fun value => parseUnsigned (2 ^ 64) value.toList) event.tags

def dimensions (event : EventV3) : Option String := findTag "dim" some event.tags

def blurhash (event : EventV3) : Option String :=
  findTag "blurhash" some event.tags

variable {α : Type} {name : String} {read : String → Option α}

theorem findTag_append (before after : List TagV3) :
    findTag name read (before ++ after) =
      (findTag name read before).or (findTag name read after) :=
  List.findSome?_append

theorem findTag_cons (first value : String) (tags : List TagV3) :
    findTag name read (⟨[first, value]⟩ :: tags) =
      (if first = name then read value else none).or (findTag name read tags) := by
  rw [findTag, List.findSome?_cons]
  dsimp only
  cases if first = name then read value else none <;> rfl

theorem findTag_optionalTag (first : String) (value : Option String) :
    findTag name read (optionalTag first value) =
      if first = name then value.bind read else none := by
  cases value with
  | none => exact (ite_self _).symm
  | some value =>
      have htag : optionalTag first (some value) = [⟨[first, value]⟩] := rfl
      rw [htag, findTag_cons]
      exact Option.or_none

end Read

section Write

variable (hex : Hex) (prims : Primitives)

/-- `new_file_metadata`.  The clock is read twice, for what is hashed and for the
event, and no key is at hand to sign with. -/
def newFileMetadata (publicKey : PublicKey) (metadata : FileMetadata)
    (hashedAt createdAt : Int64) : Outcome Error EventV3 :=
  let preEvent : PreEventV3 :=
    { pubkey := publicKey
      createdAt := hashedAt
      kind := .wellKnown .fileMetadata
      tags := metadata.tags
      content := metadata.description }
  .ok
    { id := preEvent.hash hex prims
      pubkey := publicKey
      createdAt := createdAt
      kind := .wellKnown .fileMetadata
      sig := Signature.zeroes
      content := metadata.description
      tags := metadata.tags }

/-- What was entered is read again. -/
theorem read_newFileMetadata {publicKey : PublicKey} {metadata : FileMetadata}
    {hashedAt createdAt : Int64} {event : EventV3}
    (hnew : newFileMetadata hex prims publicKey metadata hashedAt createdAt =
      .ok event) :
    fileUrl event = some metadata.url ∧ mimeType event = some metadata.mimeType ∧
      sha256Hash event = some metadata.sha256Hash ∧
      originalSha256Hash event = metadata.originalSha256Hash ∧
      fileSize event = metadata.fileSize.map UInt64.toNat ∧
      dimensions event = metadata.dimensions ∧
      blurhash event = metadata.blurhash := by
  have htags : event.tags = metadata.tags := by
    rw [← Outcome.ok.inj hnew]
  have hsize : ((metadata.fileSize.map fun size =>
      String.ofList (decimal size.toNat)).bind fun value =>
        parseUnsigned (2 ^ 64) value.toList) =
      metadata.fileSize.map UInt64.toNat := by
    cases metadata.fileSize with
    | none => rfl
    | some size =>
        rw [Option.map_some, Option.bind_some, String.toList_ofList,
          parseUnsigned_decimal size.toNat_lt]
        rfl
  simp only [fileUrl, mimeType, sha256Hash, originalSha256Hash, fileSize,
    dimensions, blurhash, htags, FileMetadata.tags, findTag_append, findTag_cons,
    findTag_optionalTag, hsize]
  simp [findTag]

end Write

end Nip94Event

end Types

end Gnostr
