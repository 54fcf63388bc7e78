/-
The remote helpers of `git-helpers/src/protocol.rs`, `blossom_backend.rs` and
`ipfs_backend.rs`.  The two backends store bundles and manifests in different places;
`list`, `fetch` and `push` are the same over these operations.
-/
import Gnostr.GitHelpers.Manifest
import Gnostr.Lib.Session
import Gnostr.Lib.TextPos

namespace Gnostr

namespace GitHelpers

open Gnostr.Types

/-- A git ref as advertised by the remote. -/
structure GitRef where
  name : String
  oid : String
  symrefTarget : Option String
deriving DecidableEq

/-- A single push refspec from git; an empty source deletes. -/
structure PushSpec where
  force : Bool
  src : String
  dst : String
deriving DecidableEq

/-- Result of a single push refspec. -/
structure PushResult where
  dst : String
  result : Except String Unit

/-- `&sha256[..8]`. -/
def shortSha (sha256 : String) : Outcome String String :=
  match splitAtByte sha256.toList 8 with
  | some parts => .ok (String.ofList parts.1)
  | none => .panic

section Git

/-- What a command printed. -/
structure Output where
  success : Bool
  stdout : Bytes
  stderr : Bytes

/-- The side that pushes: `git` in its local repository, which answers by the
arguments unless it cannot be started, and the orders its hash maps are iterated in. -/
structure Client where
  git : List String → Option Output
  excludeOrder : IterOrder String
  jsonOrder : IterOrder String

/-- Resolve a local ref to its SHA-1 OID using `git rev-parse`. -/
def Client.revParse (client : Client) (refspec : String) : Except String String :=
  match client.git ["rev-parse", refspec] with
  | none => .error "git rev-parse"
  | some out =>
      if out.success then .ok (trim (fromUtf8Lossy out.stdout))
      else .error ("git rev-parse " ++ refspec ++ " failed")

/-- The symbolic ref target for `HEAD`. -/
def Client.headSymref (client : Client) : Option String :=
  (client.git ["symbolic-ref", "HEAD"]).bind fun out =>
    if out.success then some (trim (fromUtf8Lossy out.stdout)) else none

/-- The refs of the previous manifest, none before the first push. -/
def prevRefs (prev : Option RefsManifest) : RefMap := prev.elim ∅ RefsManifest.refs

/-- The refspecs that are no deletions. -/
def pushRefs (specs : List PushSpec) : List PushSpec :=
  specs.filter fun spec => !spec.src.isEmpty

/-- The arguments that keep what the remote has out of the bundle. -/
def Client.excluded (client : Client) (prev : Option RefsManifest) : List String :=
  (iterEntries client.excludeOrder (prevRefs prev)).map fun entry => "^" ++ entry.2

/-- The thin bundle of the pushed refs, none when refs are only deleted. -/
def Client.createBundle (client : Client) (prev : Option RefsManifest)
    (specs : List PushSpec) : Outcome String (Option Bytes) :=
  if (pushRefs specs).isEmpty then .ok none
  else
    match client.git (["bundle", "create", "-"] ++ client.excluded prev ++
        (pushRefs specs).map PushSpec.src) with
    | none => .err "git bundle create"
    | some bundle =>
        if bundle.success then .ok (some bundle.stdout)
        else .err ("git bundle create failed: " ++ fromUtf8Lossy bundle.stderr)

/-- What one refspec does to the refs; a source that is not resolved does nothing. -/
def Client.applySpec (client : Client) (refs : RefMap) (spec : PushSpec) : RefMap :=
  if spec.src.isEmpty then refs.erase spec.dst
  else
    match client.revParse spec.src with
    | .ok oid => refs.insert spec.dst oid
    | .error _ => refs

def Client.specResult (client : Client) (spec : PushSpec) : PushResult where
  dst := spec.dst
  result :=
    if spec.src.isEmpty then .ok ()
    else
      match client.revParse spec.src with
      | .ok _ => .ok ()
      | .error e => .error ("rev-parse failed: " ++ e)

/-- The refs after all refspecs. -/
def Client.newRefs (client : Client) (refs : RefMap) (specs : List PushSpec) : RefMap :=
  specs.foldl client.applySpec refs

/-- The refspec deletes, or its source is resolved. -/
def Client.takesEffect (client : Client) (spec : PushSpec) : Bool :=
  spec.src.isEmpty || (client.revParse spec.src).isOk

/-- The last refspec for a reference that takes effect. -/
def Client.lastEffect (client : Client) (specs : List PushSpec) (name : String) :
    Option PushSpec :=
  (specs.filter fun spec => spec.dst == name && client.takesEffect spec).getLast?

/-- The value a refspec sets its reference to, none when it deletes. -/
def Client.newValue (client : Client) (spec : PushSpec) : Option String :=
  if spec.src.isEmpty then none else (client.revParse spec.src).toOption

/-- The manifest a push writes over the one it has read. -/
def Client.nextManifest (client : Client) (repo : String) (prev : Option RefsManifest)
    (bundleSha256 : Option String) (specs : List PushSpec) : RefsManifest where
  repo := repo
  refs := client.newRefs (prevRefs prev) specs
  head := client.headSymref
  bundles := prev.elim [] RefsManifest.bundles ++ bundleSha256.toList
  prevManifest := prev.bind fun manifest => manifest.bundles.getLast?

/-- One refspec sets the reference it is about, if it takes effect. -/
theorem Client.lookup_applySpec (client : Client) (refs : RefMap) (spec : PushSpec)
    (name : String) :
    (client.applySpec refs spec).lookup name =
      if (spec.dst == name && client.takesEffect spec) = true then client.newValue spec
      else refs.lookup name := by
  unfold applySpec takesEffect newValue
  by_cases hname : spec.dst = name
  · subst hname
    cases hdelete : spec.src.isEmpty with
    | true => simp
    | false =>
        cases hparse : client.revParse spec.src with
        | ok oid => simp [Except.isOk, Except.toBool, Except.toOption]
        | error e => simp [Except.isOk, Except.toBool]
  · have hother : name ≠ spec.dst := Ne.symm hname
    have hfalse : (spec.dst == name) = false := beq_false_of_ne hname
    rw [hfalse, Bool.false_and, if_neg Bool.false_ne_true]
    cases hdelete : spec.src.isEmpty with
    | true => simp [Finmap.lookup_erase_ne hother]
    | false =>
        cases hparse : client.revParse spec.src with
        | ok oid => simp [Finmap.lookup_insert_of_ne _ hother]
        | error e => simp

/-- The last refspec for a reference that takes effect decides on it. -/
theorem Client.lookup_newRefs (client : Client) (refs : RefMap) (specs : List PushSpec)
    (name : String) :
    (client.newRefs refs specs).lookup name =
      (client.lastEffect specs name).elim (refs.lookup name) client.newValue := by
  unfold newRefs lastEffect
  induction specs using List.reverseRecOn with
  | nil => rfl
  | append_singleton specs spec ih =>
      rw [List.foldl_append, List.foldl_cons, List.foldl_nil, lookup_applySpec, ih,
        List.filter_append, List.filter_singleton]
      cases heffect : spec.dst == name && client.takesEffect spec with
      | true => simp
      | false => simp

section OneBranch

/-- A clone with one branch, which is checked out; everything it bundles is the given
bytes. -/
noncomputable def Client.oneBranch (branch oid : String) (bundle : Bytes) : Client where
  git args :=
    if args = ["symbolic-ref", "HEAD"] then some ⟨true, utf8 ("refs/heads/" ++ branch), []⟩
    else if args = ["rev-parse", branch] then some ⟨true, utf8 oid, []⟩
    else if args.head? = some "bundle" then some ⟨true, bundle, []⟩
    else none
  excludeOrder := IterOrder.some String
  jsonOrder := IterOrder.some String

variable (branch oid : String) (bundle : Bytes)

theorem Client.headSymref_oneBranch :
    (oneBranch branch oid bundle).headSymref = some (trim ("refs/heads/" ++ branch)) := by
  have hgit : (oneBranch branch oid bundle).git ["symbolic-ref", "HEAD"] =
      some ⟨true, utf8 ("refs/heads/" ++ branch), []⟩ := by
    simp [oneBranch]
  rw [headSymref, hgit, Option.bind_some, if_pos rfl, fromUtf8Lossy_utf8]

theorem Client.revParse_oneBranch :
    (oneBranch branch oid bundle).revParse branch = .ok (trim oid) := by
  have hgit : (oneBranch branch oid bundle).git ["rev-parse", branch] =
      some ⟨true, utf8 oid, []⟩ := by
    simp [oneBranch]
  unfold revParse
  rw [hgit]
  simp

theorem Client.createBundle_oneBranch (prev : Option RefsManifest)
    {specs : List PushSpec} (hspecs : pushRefs specs ≠ []) :
    (oneBranch branch oid bundle).createBundle prev specs = .ok (some bundle) := by
  have hgit : ∀ args, (oneBranch branch oid bundle).git ("bundle" :: "create" :: args) =
      some ⟨true, bundle, []⟩ := by
    intro args
    simp [oneBranch]
  unfold createBundle
  rw [if_neg (by simpa using hspecs), List.append_assoc, List.cons_append,
    List.cons_append, hgit]
  rfl

end OneBranch

section Demo

def mainBundle : Bytes := utf8 "# v2 git bundle"

/-- A clone of `main`. -/
noncomputable def mainClone : Client := Client.oneBranch "main" "1111" mainBundle

def pushMain : List PushSpec := [⟨false, "main", "refs/heads/main"⟩]

theorem headSymref_mainClone : mainClone.headSymref = some "refs/heads/main" := by
  rw [mainClone, Client.headSymref_oneBranch]
  decide +kernel

theorem revParse_mainClone : mainClone.revParse "main" = .ok "1111" := by
  have htrim : Types.trim "1111" = "1111" := by
    decide +kernel
  rw [mainClone, Client.revParse_oneBranch, htrim]

/-- `main` is deleted again. -/
def deleteMain : List PushSpec := [⟨false, "", "refs/heads/main"⟩]

theorem createBundle_mainClone (prev : Option RefsManifest) :
    mainClone.createBundle prev pushMain = .ok (some mainBundle) :=
  Client.createBundle_oneBranch _ _ _ prev (by decide)

theorem lookup_pushMain (refs : RefMap) :
    (mainClone.newRefs refs pushMain).lookup "refs/heads/main" = some "1111" := by
  rw [Client.lookup_newRefs]
  simp [Client.lastEffect, pushMain, Client.takesEffect, Client.newValue,
    revParse_mainClone, Except.isOk, Except.toBool, Except.toOption]

theorem lookup_deleteMain (refs : RefMap) :
    (mainClone.newRefs refs deleteMain).lookup "refs/heads/main" = none := by
  rw [Client.lookup_newRefs]
  simp [Client.lastEffect, deleteMain, Client.takesEffect, Client.newValue]

end Demo

end Git

/-- What `fetch` does to this side: the temporary file is written, then handed to
`git bundle unbundle`, which may not start, or fail. -/
structure LocalRepo (τ : Type) where
  tempDir : String
  writeTemp : String → Bytes → τ → Bool × τ
  unbundle : Bytes → τ → Option Bool × τ

/-- The local repository, and the bundles handed to git so far with the entries they
were downloaded for. -/
structure Workdir (τ : Type) where
  repo : τ
  handed : List (String × Bytes)

/-- Where a backend keeps bundles and the manifest of its repository. -/
structure Backend (σ : Type) where
  label : String
  repo : String
  fetchManifest : Session σ String (Option RefsManifest)
  saveBundle : Bytes → Session σ String String
  saveManifest : IterOrder String → RefsManifest → Session σ String Unit
  download : String → Session σ String Bytes

namespace Backend

variable {σ τ : Type} (backend : Backend σ)

/-- The refs of a manifest, and its `HEAD`. -/
def gitRefs (order : IterOrder String) (manifest : RefsManifest) : List GitRef :=
  (iterEntries order manifest.refs).map (fun entry => ⟨entry.1, entry.2, none⟩) ++
    (manifest.head.map fun target => ⟨"HEAD", "", some target⟩).toList

/-- The refs of a manifest are advertised as they are. -/
@[simp] theorem mem_gitRefs_iff {order : IterOrder String} {manifest : RefsManifest}
    {name oid : String} :
    ⟨name, oid, none⟩ ∈ gitRefs order manifest ↔
      manifest.refs.lookup name = some oid := by
  simp [gitRefs]

def list (order : IterOrder String) : Session σ String (List GitRef) := do
  match ← backend.fetchManifest with
  | none => return []
  | some manifest => return gitRefs order manifest

/-- Write a bundle to a temporary file, then unbundle. -/
def unbundle (localRepo : LocalRepo τ) (sha256 : String) (data : Bytes) :
    Session (σ × Workdir τ) String Unit := fun (s, dir) =>
  let tmp := localRepo.tempDir ++ "/" ++ backend.label ++ "-" ++ sha256 ++ ".bundle"
  let written := localRepo.writeTemp tmp data dir.repo
  if !written.1 then (.err ("write bundle " ++ tmp), (s, { dir with repo := written.2 }))
  else
    let status := localRepo.unbundle data written.2
    match status.1 with
    | none => (.err "git bundle unbundle", (s, { dir with repo := status.2 }))
    | some success =>
        let dir := { repo := status.2, handed := dir.handed ++ [(sha256, data)] }
        if success then (.ok (), (s, dir))
        else ((do
          let short ← shortSha sha256
          .err ("git bundle unbundle failed for " ++ short)), (s, dir))

/-- The loop over the bundles of a manifest. -/
def fetchBundles (localRepo : LocalRepo τ) :
    List String → Session (σ × Workdir τ) String Unit
  | [] => pure ()
  | sha256 :: rest => do
      let _ ← Session.lift (shortSha sha256)
      let data ← Session.onFst (backend.download sha256)
      backend.unbundle localRepo sha256 data
      fetchBundles localRepo rest

def fetch (localRepo : LocalRepo τ) : Session (σ × Workdir τ) String Unit := do
  match ← Session.onFst backend.fetchManifest with
  | none => return ()
  | some manifest => backend.fetchBundles localRepo manifest.bundles

/-- The bundle is created and uploaded. -/
def uploadBundle (client : Client) (prev : Option RefsManifest) (specs : List PushSpec) :
    Session σ String (Option String) := do
  match ← Session.lift (client.createBundle prev specs) with
  | none => return none
  | some bundle =>
      let sha256 ← backend.saveBundle bundle
      return some sha256

/-- The new manifest is written. -/
def writeManifest (client : Client) (prev : Option RefsManifest)
    (bundleSha256 : Option String) (specs : List PushSpec) :
    Session σ String (List PushResult) := do
  backend.saveManifest client.jsonOrder
    (client.nextManifest backend.repo prev bundleSha256 specs)
  return specs.map client.specResult

def push (client : Client) (specs : List PushSpec) :
    Session σ String (List PushResult) := do
  let prev ← backend.fetchManifest
  let bundleSha256 ← backend.uploadBundle client prev specs
  backend.writeManifest client prev bundleSha256 specs

end Backend

end GitHelpers

end Gnostr
