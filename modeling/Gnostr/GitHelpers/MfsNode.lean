/-
A node whose mutable file system keeps what is written.  The IPFS backend on it is a
store of manifests and bundles, and its reads find what was written last.
-/
import Gnostr.GitHelpers.Ipfs
import Gnostr.GitHelpers.Store

namespace Gnostr

namespace GitHelpers

/-- The files of a node, and all that was ever written. -/
structure MfsNode where
  files : Finmap fun _ : String => Bytes
  written : List Bytes

namespace MfsNode

/-- The answer about a missing file. -/
def missingBody : Json :=
  .obj [("Message", .str "file does not exist"), ("Code", .int 0), ("Type", .str "error")]

def write (node : MfsNode) (path : String) (data : Bytes) : MfsNode where
  files := node.files.insert path data
  written := data :: node.written

/-- The answers of the node. -/
def kubo (serde : SerdeJson) : Kubo MfsNode where
  encode path := path
  statusText status := toString status
  read path node :=
    match node.files.lookup path with
    | some data => (some ⟨200, some data⟩, node)
    | none => (some ⟨500, some (serde.toVecPretty missingBody)⟩, node)
  write path data node := (some ⟨200, some []⟩, node.write path data)

variable (serde : SerdeJson) (prims : Primitives) (hex : Hex) (remote : IpfsRemote)

/-- The backend of a repository on the node. -/
abbrev ipfs : Backend MfsNode := remote.backend serde prims hex (kubo serde)

theorem mfsRead_eq (path : String) (node : MfsNode) :
    remote.mfsRead serde (kubo serde) path node = (.ok (node.files.lookup path), node) := by
  unfold IpfsRemote.mfsRead
  cases hfile : node.files.lookup path with
  | none =>
      have hread : (kubo serde).read path node =
          (some ⟨500, some (serde.toVecPretty missingBody)⟩, node) := by
        simp only [kubo, hfile]
      have hmessage : (⟨500, some (serde.toVecPretty missingBody)⟩ : Response).message
          serde "" = "file does not exist" := by
        have hjson : (⟨500, some (serde.toVecPretty missingBody)⟩ : Response).json serde =
            some missingBody := serde.fromSlice_toVecPretty (by decide)
        rw [Response.message, hjson]
        rfl
      have hcontains : containsText "does not exist" "file does not exist" = true := by
        decide
      rw [Session.bind_of_ok (Session.request_eq_ok_iff.mpr hread)]
      simp only [if_true, hmessage, hcontains, Bool.true_or]
      rfl
  | some data =>
      have hread : (kubo serde).read path node = (some ⟨200, some data⟩, node) := by
        simp only [kubo, hfile]
      rw [Session.bind_of_ok (Session.request_eq_ok_iff.mpr hread)]
      rfl

theorem mfsWrite_eq (path : String) (data : Bytes) (node : MfsNode) :
    remote.mfsWrite serde (kubo serde) path data node = (.ok (), node.write path data) := by
  have hwrite : (kubo serde).write path data node =
      (some ⟨200, some []⟩, node.write path data) := rfl
  unfold IpfsRemote.mfsWrite
  rw [Session.bind_of_ok (Session.request_eq_ok_iff.mpr hwrite)]
  rfl

/-- The manifest is not where a bundle is. -/
theorem mfsBundlePath_ne (sha256 : String) :
    remote.mfsBundlePath sha256 ≠ remote.mfsRefsPath := by
  intro hsame
  unfold IpfsRemote.mfsBundlePath IpfsRemote.mfsRefsPath at hsame
  have hlist := congrArg String.toList hsame
  simp only [String.toList_append, List.append_assoc, List.append_cancel_left_eq] at hlist
  have hhead := congrArg (fun chars => chars[1]?) hlist
  simp at hhead

theorem mfsBundlePath_inj {sha256 other : String} :
    remote.mfsBundlePath sha256 = remote.mfsBundlePath other ↔ sha256 = other := by
  unfold IpfsRemote.mfsBundlePath
  simp

section Store

def Stored (node : MfsNode) (manifest : RefsManifest) : Prop :=
  (node.files.lookup remote.mfsRefsPath).bind (RefsManifest.fromSlice serde) =
    some manifest

def Holds (node : MfsNode) (sha256 : String) (data : Bytes) : Prop :=
  node.files.lookup (remote.mfsBundlePath sha256) = some data

theorem fetchManifest_eq_ok_some_iff {node : MfsNode} {manifest : RefsManifest} :
    remote.fetchManifest serde (kubo serde) node = (.ok (some manifest), node) ↔
      Stored serde remote node manifest := by
  unfold IpfsRemote.fetchManifest Stored
  rw [Session.bind_of_ok (mfsRead_eq serde remote _ node)]
  cases node.files.lookup remote.mfsRefsPath with
  | none => simp
  | some data =>
      show (Session.lift (Outcome.okOr "parse refs.json"
        (RefsManifest.fromSlice serde data)) >>= _) node = _ ↔ _
      rw [Option.bind_some]
      cases RefsManifest.fromSlice serde data <;> simp

theorem snd_fetchManifest (node : MfsNode) :
    (remote.fetchManifest serde (kubo serde) node).2 = node := by
  unfold IpfsRemote.fetchManifest
  rw [Session.bind_of_ok (mfsRead_eq serde remote _ node)]
  cases node.files.lookup remote.mfsRefsPath with
  | none => rfl
  | some data =>
      show ((Session.lift (Outcome.okOr "parse refs.json"
        (RefsManifest.fromSlice serde data)) >>= _) node).2 = node
      cases RefsManifest.fromSlice serde data <;> rfl

/-- A bundle is written under its hash, which is cut for the log first. -/
theorem saveBundle_eq (data : Bytes) (node : MfsNode) :
    remote.saveBundle serde prims hex (kubo serde) data node =
      match shortSha (IpfsRemote.sha256Of prims hex data) with
      | .ok _ => (.ok (IpfsRemote.sha256Of prims hex data),
          node.write (remote.mfsBundlePath (IpfsRemote.sha256Of prims hex data)) data)
      | .err e => (.err e, node)
      | .panic => (.panic, node) := by
  unfold IpfsRemote.saveBundle
  cases shortSha (IpfsRemote.sha256Of prims hex data) with
  | ok short =>
      rw [Session.lift_ok_bind, Session.bind_of_ok (mfsWrite_eq serde remote _ _ _)]
      rfl
  | err error => rfl
  | panic => rfl

/-- The node as a store of manifests. -/
def manifestStore : ManifestStore (ipfs serde prims hex remote) where
  Drift := Eq
  Stored := Stored serde remote
  drift_refl _ := rfl
  drift_trans := Eq.trans
  snd_fetchManifest := snd_fetchManifest serde remote
  stored_of_fetchManifest hread :=
    (fetchManifest_eq_ok_some_iff serde remote).mp
      (Prod.ext hread (snd_fetchManifest serde remote _))
  stored_of_drift hdrift hstored := hdrift ▸ hstored
  stored_of_saveBundle := by
    intro node data manifest hstored
    change Stored serde remote (remote.saveBundle serde prims hex _ data node).2 manifest
      at hstored
    rw [saveBundle_eq] at hstored
    split at hstored
    · unfold Stored write at hstored
      rwa [Finmap.lookup_insert_of_ne _ (mfsBundlePath_ne remote _).symm] at hstored
    · exact hstored
    · exact hstored
  stored_of_saveManifest := by
    intro node order manifest saved hstored
    change Stored serde remote (remote.mfsWrite serde _ remote.mfsRefsPath
      (saved.toVec serde order) node).2 manifest at hstored
    rw [mfsWrite_eq, Stored, write, Finmap.lookup_insert, Option.bind_some,
      RefsManifest.fromSlice_toVec] at hstored
    exact Or.inr (Option.some.inj hstored).symm

/-- The node as a store of bundles. -/
def bundleStore : BundleStore (ipfs serde prims hex remote) where
  toManifestStore := manifestStore serde prims hex remote
  name := IpfsRemote.sha256Of prims hex
  Holds := Holds remote
  uploads := MfsNode.written
  holds_of_drift hdrift hholds := hdrift ▸ hholds
  holds_of_saveBundle := by
    intro node later data sha256 hsave
    change remote.saveBundle serde prims hex _ data node = _ at hsave
    rw [saveBundle_eq] at hsave
    split at hsave
    case h_1 short hshort =>
      cases hsave
      exact ⟨rfl, Finmap.lookup_insert _, List.mem_cons_self, short, hshort⟩
    · cases hsave
    · cases hsave
  holds_saveBundle := by
    intro node sha256 data other hholds
    show Holds remote (remote.saveBundle serde prims hex _ other node).2 sha256 data ∨
      ∃ clash ∈ (remote.saveBundle serde prims hex _ other node).2.written, _
    rw [saveBundle_eq]
    split
    · by_cases hname : IpfsRemote.sha256Of prims hex other = sha256
      · by_cases hdata : other = data
        · subst hname hdata
          exact Or.inl (Finmap.lookup_insert _)
        · exact Or.inr ⟨other, List.mem_cons_self, hname, hdata⟩
      · have hpath : remote.mfsBundlePath sha256 ≠
            remote.mfsBundlePath (IpfsRemote.sha256Of prims hex other) := by
          rw [Ne, mfsBundlePath_inj]
          exact Ne.symm hname
        exact Or.inl ((Finmap.lookup_insert_of_ne _ hpath).trans hholds)
    · exact Or.inl hholds
    · exact Or.inl hholds
  holds_saveManifest := by
    intro node sha256 data order saved hholds
    show Holds remote (remote.mfsWrite serde _ remote.mfsRefsPath
      (saved.toVec serde order) node).2 sha256 data
    rw [mfsWrite_eq]
    exact (Finmap.lookup_insert_of_ne _ (mfsBundlePath_ne remote sha256)).trans hholds
  uploads_drift hdrift := hdrift ▸ List.Subset.refl _
  uploads_saveBundle := by
    intro node data
    show node.written ⊆ (remote.saveBundle serde prims hex _ data node).2.written
    rw [saveBundle_eq]
    split
    · exact List.subset_cons_self _ _
    · exact List.Subset.refl _
    · exact List.Subset.refl _
  uploads_saveManifest := by
    intro node order saved
    show node.written ⊆ (remote.mfsWrite serde _ remote.mfsRefsPath
      (saved.toVec serde order) node).2.written
    rw [mfsWrite_eq]
    exact List.subset_cons_self _ _
  download_of_holds := by
    intro node sha256 data hholds
    show remote.readBundle serde (kubo serde) sha256 node = _
    unfold IpfsRemote.readBundle
    rw [Session.bind_of_ok (mfsRead_eq serde remote _ node), hholds]
    rfl

/-- The node as a store whose reads find what is written last. -/
def freshStore : FreshStore (ipfs serde prims hex remote) where
  toManifestStore := manifestStore serde prims hex remote
  Ready _ := True
  Fresh _ _ _ := True
  Found := Stored serde remote
  ready_of_fetchManifest _ := trivial
  ready_of_drift _ _ := trivial
  ready_saveBundle _ _ := trivial
  ready_saveManifest _ _ _ _ := trivial
  fetchManifest_of_found := (fetchManifest_eq_ok_some_iff serde remote).mpr
  found_of_drift hdrift hfound := hdrift ▸ hfound
  found_saveManifest := by
    intro node later order saved _ _ _ hsave
    change remote.mfsWrite serde _ remote.mfsRefsPath (saved.toVec serde order) node = _
      at hsave
    rw [mfsWrite_eq] at hsave
    cases hsave
    rw [Stored, write, Finmap.lookup_insert, Option.bind_some,
      RefsManifest.fromSlice_toVec]

/-- A push succeeds when the manifest is read and the bundle is created. -/
theorem exists_push {client : Client} {specs : List PushSpec} {prev : Option RefsManifest}
    {bundle : Option Bytes} {node : MfsNode}
    (hread : (remote.fetchManifest serde (kubo serde) node).1 = .ok prev)
    (hcreated : client.createBundle prev specs = .ok bundle)
    (hshort : ∀ data ∈ bundle,
      ∃ short, shortSha (IpfsRemote.sha256Of prims hex data) = .ok short)
    {manifest : RefsManifest}
    (hmanifest : client.nextManifest remote.repo prev
      (bundle.map (IpfsRemote.sha256Of prims hex)) specs = manifest) :
    ∃ later, remote.push serde prims hex (kubo serde) client specs node =
        (.ok (specs.map client.specResult), later) ∧
      Stored serde remote later manifest ∧
      later.written =
        manifest.toVec serde client.jsonOrder :: (bundle.toList ++ node.written) := by
  subst hmanifest
  have hupload : ∃ uploaded, (ipfs serde prims hex remote).uploadBundle client prev specs
      node = (.ok (bundle.map (IpfsRemote.sha256Of prims hex)), uploaded) ∧
        uploaded.written = bundle.toList ++ node.written := by
    cases bundle with
    | none =>
        exact ⟨node, Backend.uploadBundle_eq_ok_iff.mpr (Or.inl ⟨hcreated, rfl, rfl⟩), rfl⟩
    | some data =>
        obtain ⟨short, hshort⟩ := hshort data rfl
        have hsave := saveBundle_eq serde prims hex remote data node
        rw [hshort] at hsave
        exact ⟨_, Backend.uploadBundle_eq_ok_iff.mpr
          (Or.inr ⟨data, _, hcreated, hsave, rfl⟩), rfl⟩
  obtain ⟨uploaded, hupload, hwritten⟩ := hupload
  have hsave := mfsWrite_eq serde remote remote.mfsRefsPath
    ((client.nextManifest remote.repo prev
      (bundle.map (IpfsRemote.sha256Of prims hex)) specs).toVec serde client.jsonOrder)
    uploaded
  refine ⟨_, Backend.push_eq_ok_iff.mpr ⟨prev, _, node, uploaded,
    Prod.ext hread (snd_fetchManifest serde remote node), hupload, hsave, rfl⟩, ?_, ?_⟩
  · rw [Stored, write, Finmap.lookup_insert, Option.bind_some, RefsManifest.fromSlice_toVec]
  · rw [write, hwritten]

/-- What is stored is listed. -/
theorem list_of_stored {node : MfsNode} {manifest : RefsManifest}
    (hstored : Stored serde remote node manifest) (order : IterOrder String) :
    remote.list serde prims hex (kubo serde) order node =
      (.ok (Backend.gitRefs order manifest), node) := by
  have hread : (ipfs serde prims hex remote).fetchManifest node =
      (.ok (some manifest), node) := (fetchManifest_eq_ok_some_iff serde remote).mpr hstored
  unfold IpfsRemote.list Backend.list
  rw [Session.bind_of_ok hread]
  rfl

end Store

/-- A node without files. -/
def empty : MfsNode := ⟨∅, []⟩

theorem fetchManifest_empty :
    remote.fetchManifest serde (kubo serde) empty = (.ok none, empty) := by
  unfold IpfsRemote.fetchManifest
  rw [Session.bind_of_ok (mfsRead_eq serde remote _ _)]
  rfl

end MfsNode

section Demo

def demoRemote : IpfsRemote := ⟨"http://127.0.0.1:5001", "demo"⟩

theorem shortSha_mainBundle : ∀ data ∈ some mainBundle, ∃ short,
    shortSha (IpfsRemote.sha256Of Primitives.beginnings Hex.reference data) =
      .ok short := by
  intro data hdata
  cases hdata
  exact ⟨"23207632", by decide +kernel⟩

end Demo

end GitHelpers

end Gnostr
