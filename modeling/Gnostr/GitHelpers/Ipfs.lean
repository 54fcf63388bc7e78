/-
The IPFS backend of `git-helpers/src/ipfs_backend.rs`, over whatever answers its calls
to the mutable file system of a node.
-/
import Gnostr.GitHelpers.Blossom
import Gnostr.Lib.Primitives

namespace Gnostr

namespace GitHelpers

/-- The two calls of the node's API in use, by the paths they are about, and the texts
of libraries that errors hold: an encoded path, and a status with its phrase. -/
structure Kubo (σ : Type) where
  encode : String → String
  statusText : ℕ → String
  read : String → σ → Option Response × σ
  write : String → Bytes → σ → Option Response × σ

structure IpfsRemote where
  api : String
  repo : String

/-- `body["Message"].as_str().unwrap_or(..)`, for any body. -/
def Response.message (serde : SerdeJson) (resp : Response) (default : String) : String :=
  ((resp.json serde).bind (indexString "Message")).getD default

/-- `text.contains(pattern)`. -/
def containsText (pattern text : String) : Bool :=
  decide (pattern.toList <:+: text.toList)

namespace IpfsRemote

variable {σ : Type} (serde : SerdeJson) (prims : Primitives) (hex : Hex) (kubo : Kubo σ)
  (remote : IpfsRemote)

def mfsRefsPath : String := "/git/" ++ remote.repo ++ "/refs.json"

def mfsBundlePath (sha256 : String) : String :=
  "/git/" ++ remote.repo ++ "/bundles/" ++ sha256

/-- Read raw bytes from an MFS path, none if there is no such file. -/
def mfsRead (path : String) : Session σ String (Option Bytes) := do
  let url := remote.api ++ "/api/v0/files/read?arg=" ++ kubo.encode path
  let resp ← Session.request ("POST " ++ url) (kubo.read path)
  if resp.status = 500 then
    let msg := resp.message serde ""
    if containsText "does not exist" msg || containsText "file does not exist" msg then
      return none
    else Session.fail ("mfs read " ++ path ++ ": " ++ msg)
  else if resp.status < 200 || 300 ≤ resp.status then
    Session.fail ("mfs read " ++ path ++ ": HTTP " ++ kubo.statusText resp.status)
  else do
    let data ← Session.lift (Outcome.okOr "read MFS body" resp.body)
    return some data

/-- Write bytes to an MFS path. -/
def mfsWrite (path : String) (data : Bytes) : Session σ String Unit := do
  let url := remote.api ++ "/api/v0/files/write?arg=" ++ kubo.encode path ++
    "&create=true&truncate=true&parents=true"
  let resp ← Session.request ("POST " ++ url) (kubo.write path data)
  if resp.status < 200 || 300 ≤ resp.status then
    Session.fail ("mfs write " ++ path ++ ": " ++ resp.message serde "unknown error")
  else return ()

def fetchManifest : Session σ String (Option RefsManifest) := do
  match ← remote.mfsRead serde kubo remote.mfsRefsPath with
  | none => return none
  | some data => do
      let manifest ← Session.lift (Outcome.okOr "parse refs.json"
        (RefsManifest.fromSlice serde data))
      return some manifest

def saveManifest (order : IterOrder String) (manifest : RefsManifest) :
    Session σ String Unit :=
  remote.mfsWrite serde kubo remote.mfsRefsPath (manifest.toVec serde order)

/-- `sha256_of`. -/
def sha256Of (data : Bytes) : String := hex.encode (prims.sha256 data).toList

/-- The bundle is written under its SHA-256. -/
def saveBundle (data : Bytes) : Session σ String String := do
  let sha256 := sha256Of prims hex data
  let _ ← Session.lift (shortSha sha256)
  remote.mfsWrite serde kubo (remote.mfsBundlePath sha256) data
  return sha256

/-- The bundle of a name; a missing one is an error. -/
def readBundle (sha256 : String) : Session σ String Bytes := do
  match ← remote.mfsRead serde kubo (remote.mfsBundlePath sha256) with
  | some data => return data
  | none => do
      let short ← Session.lift (shortSha sha256)
      Session.fail ("bundle " ++ short ++ " not found in MFS")

def backend : Backend σ where
  label := "ipfs"
  repo := remote.repo
  fetchManifest := remote.fetchManifest serde kubo
  saveBundle := remote.saveBundle serde prims hex kubo
  saveManifest := remote.saveManifest serde kubo
  download := remote.readBundle serde kubo

def list (order : IterOrder String) : Session σ String (List GitRef) :=
  (remote.backend serde prims hex kubo).list order

def fetch {τ : Type} (localRepo : LocalRepo τ) :
    Session (σ × Workdir τ) String Unit :=
  (remote.backend serde prims hex kubo).fetch localRepo

def push (client : Client) (specs : List PushSpec) :
    Session σ String (List PushResult) :=
  (remote.backend serde prims hex kubo).push client specs

end IpfsRemote

end GitHelpers

end Gnostr
