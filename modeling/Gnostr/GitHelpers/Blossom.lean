/-
The Blossom backend of `git-helpers/src/blossom_backend.rs`, over whatever answers its
HTTP requests.
-/
import Gnostr.GitHelpers.RemoteHelper

namespace Gnostr

namespace GitHelpers

/-- An HTTP response; a body may break off. -/
structure Response where
  status : ℕ
  body : Option Bytes

/-- `error_for_status` fails. -/
def Response.isError (resp : Response) : Bool := 400 ≤ resp.status && resp.status < 600

/-- `json`, before the value is read into a record. -/
def Response.json (serde : SerdeJson) (resp : Response) : Option Json :=
  resp.body.bind serde.fromSlice

/-- What answers the requests: for the list of a key's blobs, for a blob, and to an
upload.  A request may have no answer. -/
structure Site (σ : Type) where
  list : String → σ → Option Response × σ
  get : String → σ → Option Response × σ
  put : (url contentType : String) → Bytes → σ → Option Response × σ

structure BlossomRemote where
  server : String
  pubkey : String
  repo : String

def ctManifest : String := "application/x-git-refs+json"

def ctBundle : String := "application/x-git-bundle"

/-- `created.unwrap_or(0)`. -/
def BlobDescriptor.createdAt (blob : BlobDescriptor) : UInt64 := blob.created.getD 0

def deserializeBlobs : Json → Option (List BlobDescriptor)
  | .arr items => items.mapM BlobDescriptor.ofJson
  | _ => none

/-- The manifest blobs, newest first; those of one time in the order they are
listed in. -/
def candidates (blobs : List BlobDescriptor) : List BlobDescriptor :=
  (blobs.filter fun blob => blob.contentType == some ctManifest).mergeSort
    fun a b => decide (b.createdAt ≤ a.createdAt)

namespace BlossomRemote

variable {σ : Type} (serde : SerdeJson) (site : Site σ) (remote : BlossomRemote)

/-- The loop over the candidates: the first manifest of this repository. -/
def firstManifest : List BlobDescriptor → Session σ String (Option RefsManifest)
  | [] => return none
  | blob :: rest => do
      let resp ← Session.request ("GET " ++ blob.url) (site.get blob.url)
      let manifest ← Session.lift (Outcome.okOr "parse manifest JSON"
        ((resp.json serde).bind RefsManifest.ofJson))
      if manifest.repo = remote.repo then do
        let _ ← Session.lift (shortSha blob.sha256)
        return some manifest
      else firstManifest rest

/-- Query the blob list and return the newest refs manifest of the repository, none if
it has no history yet. -/
def fetchManifest : Session σ String (Option RefsManifest) := do
  let url := remote.server ++ "/" ++ remote.pubkey
  let resp ← Session.request ("GET " ++ url) (site.list url)
  if resp.status = 404 then return none
  else do
    let blobs ← Session.lift (Outcome.okOr "parse BUD-02 blob list"
      ((resp.json serde).bind deserializeBlobs))
    remote.firstManifest serde site (candidates blobs)

/-- Upload `data` to the server; the sha256 is the one of its response. -/
def uploadBlob (data : Bytes) (contentType : String) : Session σ String String := do
  let url := remote.server ++ "/upload"
  let resp ← Session.request ("PUT " ++ url) (site.put url contentType data)
  if resp.isError then Session.fail "upload failed"
  else do
    let json ← Session.lift (Outcome.okOr "parse upload response" (resp.json serde))
    let sha256 ← Session.lift
      (Outcome.okOr "missing sha256 in upload response" (indexString "sha256" json))
    let _ ← Session.lift (shortSha sha256)
    return sha256

/-- Download a blob by its SHA-256. -/
def downloadBlob (sha256 : String) : Session σ String Bytes := do
  let url := remote.server ++ "/" ++ sha256
  let resp ← Session.request ("GET " ++ url) (site.get url)
  if resp.isError then do
    let short ← Session.lift (shortSha sha256)
    Session.fail ("download " ++ short)
  else Session.lift (Outcome.okOr "read blob body" resp.body)

/-- The manifest is uploaded as JSON. -/
def uploadManifest (order : IterOrder String) (manifest : RefsManifest) :
    Session σ String Unit := do
  let sha256 ← remote.uploadBlob serde site (manifest.toVec serde order) ctManifest
  let _ ← Session.lift (shortSha sha256)
  return ()

def backend : Backend σ where
  label := "blossom"
  repo := remote.repo
  fetchManifest := remote.fetchManifest serde site
  saveBundle data := remote.uploadBlob serde site data ctBundle
  saveManifest := remote.uploadManifest serde site
  download := remote.downloadBlob site

def list (order : IterOrder String) : Session σ String (List GitRef) :=
  (remote.backend serde site).list order

def fetch {τ : Type} (localRepo : LocalRepo τ) :
    Session (σ × Workdir τ) String Unit :=
  (remote.backend serde site).fetch localRepo

def push (client : Client) (specs : List PushSpec) :
    Session σ String (List PushResult) :=
  (remote.backend serde site).push client specs

end BlossomRemote

end GitHelpers

end Gnostr
