/-
What the hashes of a manifest do to the side that fetches: they are cut to eight bytes
for messages and are part of file names, and nobody checks what they look like.
-/
import Gnostr.GitHelpers.Addressing

namespace Gnostr

namespace GitHelpers

variable {σ τ : Type}

/-- The first eight bytes of a hash are whole characters, so that it can be cut there. -/
def HasPrefix (sha256 : String) : Prop := (splitAtByte sha256.toList 8).isSome = true

instance (sha256 : String) : Decidable (HasPrefix sha256) :=
  inferInstanceAs (Decidable (_ = true))

theorem HasPrefix.exists_shortSha {sha256 : String} (hcut : HasPrefix sha256) :
    ∃ short, shortSha sha256 = .ok short := by
  obtain ⟨parts, hparts⟩ := Option.isSome_iff_exists.mp hcut
  exact ⟨String.ofList parts.1, by rw [shortSha, hparts]⟩

theorem shortSha_of_not_hasPrefix {sha256 : String} (hcut : ¬ HasPrefix sha256) :
    shortSha sha256 = .panic := by
  have hnone := Option.not_isSome_iff_eq_none.mp hcut
  rw [shortSha, hnone]

section Files

/-- The file a bundle is written to. -/
def LocalRepo.tempPath (localRepo : LocalRepo τ) (label entry : String) : String :=
  localRepo.tempDir ++ "/" ++ label ++ "-" ++ entry ++ ".bundle"

/-- The path of a file right in the directory. -/
def DirectChild (dir path : String) : Prop :=
  ∃ name : String, path = dir ++ "/" ++ name ∧ '/' ∉ name.toList ∧
    name ≠ "" ∧ name ≠ "." ∧ name ≠ ".."

/-- The local side with a record of the files that have been written. -/
def LocalRepo.recorded (localRepo : LocalRepo τ) : LocalRepo (τ × List String) where
  tempDir := localRepo.tempDir
  writeTemp path data repo :=
    let written := localRepo.writeTemp path data repo.1
    (written.1, written.2, if written.1 then repo.2 ++ [path] else repo.2)
  unbundle data repo :=
    let status := localRepo.unbundle data repo.1
    (status.1, status.2, repo.2)

/-- Only a separator in the hash leads out of the directory. -/
theorem directChild_tempPath_iff {localRepo : LocalRepo τ} {label entry : String}
    (hlabel : '/' ∉ label.toList) (hlength : 1 < label.toList.length) :
    DirectChild localRepo.tempDir (localRepo.tempPath label entry) ↔
      '/' ∉ entry.toList := by
  have hpath : localRepo.tempPath label entry =
      localRepo.tempDir ++ "/" ++ (label ++ "-" ++ entry ++ ".bundle") := by
    simp only [LocalRepo.tempPath, String.append_assoc]
  have hname : '/' ∉ (label ++ "-" ++ entry ++ ".bundle").toList ↔ '/' ∉ entry.toList := by
    simp [String.toList_append, hlabel]
  constructor
  · rintro ⟨name, heq, hslash, _⟩
    rw [hpath] at heq
    have hsame := String.append_right_inj _ |>.mp heq
    rw [← hsame] at hslash
    exact hname.mp hslash
  · intro hentry
    have hlong : 2 < (label ++ "-" ++ entry ++ ".bundle").toList.length := by
      simp only [String.toList_append, List.length_append]
      have hdash : "-".toList.length = 1 := rfl
      omega
    refine ⟨_, hpath, hname.mpr hentry, ?_, ?_, ?_⟩
    · rintro heq
      rw [heq] at hlong
      exact absurd hlong (by decide)
    · rintro heq
      rw [heq] at hlong
      exact absurd hlong (by decide)
    · rintro heq
      rw [heq] at hlong
      exact absurd hlong (by decide)

end Files

/-- A fetch of untrusted data does no harm: it comes back, and every file it has written
is right in the directory for temporary files. -/
structure Contained (tempDir : String)
    (result : Outcome String Unit × σ × Workdir (τ × List String)) : Prop where
  returns : result.1.Returns
  files : ∀ path ∈ result.2.2.repo.2, DirectChild tempDir path

/-- The entries that the loop of `fetch` gets to. -/
inductive GotTo (serves : String → σ → Bytes → σ → Prop) (localRepo : LocalRepo τ)
    (label : String) : List String → σ → τ → String → Prop
  | first {entry : String} {rest : List String} {s : σ} {repo : τ} :
      GotTo serves localRepo label (entry :: rest) s repo entry
  | later {before short entry : String} {rest : List String} {s t : σ} {other : Bytes}
      {repo unbundled : τ} :
      shortSha before = .ok short → serves before s other t →
      localRepo.take label before other repo = some (true, unbundled) →
      GotTo serves localRepo label rest t unbundled entry →
      GotTo serves localRepo label (before :: rest) s repo entry

section Unbundle

variable {backend : Backend σ} {localRepo : LocalRepo τ} {entry : String} {data : Bytes}
  {repo : τ} {files : List String} {handed : List (String × Bytes)}

/-- The file of an entry, when it is written. -/
def LocalRepo.writes (localRepo : LocalRepo τ) (label entry : String) (data : Bytes)
    (repo : τ) : List String :=
  if (localRepo.writeTemp (localRepo.tempPath label entry) data repo).1 then
    [localRepo.tempPath label entry]
  else []

/-- A bundle that is unbundled has been written before. -/
theorem unbundle_recorded_of_taken {unbundled : τ}
    (htake : localRepo.take backend.label entry data repo = some (true, unbundled)) (s : σ) :
    backend.unbundle localRepo.recorded entry data (s, ⟨(repo, files), handed⟩) =
      (.ok (), s, ⟨(unbundled, files ++ localRepo.writes backend.label entry data repo),
        handed ++ [(entry, data)]⟩) := by
  unfold LocalRepo.take at htake
  unfold Backend.unbundle LocalRepo.writes LocalRepo.recorded LocalRepo.tempPath
  dsimp only at htake ⊢
  generalize localRepo.tempDir ++ "/" ++ backend.label ++ "-" ++ entry ++ ".bundle" = path
    at htake ⊢
  rcases hwritten : localRepo.writeTemp path data repo with ⟨_ | _, middle⟩
  · rw [hwritten] at htake
    cases htake
  · rw [hwritten] at htake
    obtain ⟨success, hstatus, hpair⟩ := Option.map_eq_some_iff.mp htake
    cases hpair
    rw [hstatus]
    rfl

/-- Otherwise the call fails, and the file may still have been written. -/
theorem unbundle_recorded_of_not_taken (hcut : HasPrefix entry)
    (htake : ∀ unbundled,
      localRepo.take backend.label entry data repo ≠ some (true, unbundled)) (s : σ) :
    ∃ error after later, backend.unbundle localRepo.recorded entry data
        (s, ⟨(repo, files), handed⟩) =
      (.err error, s, ⟨(after, files ++ localRepo.writes backend.label entry data repo),
        later⟩) := by
  obtain ⟨short, hshort⟩ := hcut.exists_shortSha
  unfold LocalRepo.take at htake
  unfold Backend.unbundle LocalRepo.writes LocalRepo.recorded LocalRepo.tempPath
  dsimp only at htake ⊢
  generalize localRepo.tempDir ++ "/" ++ backend.label ++ "-" ++ entry ++ ".bundle" = path
    at htake ⊢
  rcases hwritten : localRepo.writeTemp path data repo with ⟨_ | _, middle⟩
  · exact ⟨"write bundle " ++ path, middle, handed, by simp⟩
  · rw [hwritten] at htake
    rcases hstatus : localRepo.unbundle data middle with ⟨_ | _ | _, after⟩
    · exact ⟨_, _, _, rfl⟩
    · exact ⟨_, _, _, by rw [hshort]; rfl⟩
    · exact absurd (by rw [if_pos rfl, hstatus]; rfl) (htake after)

end Unbundle

section Loop

variable {serves : String → σ → Bytes → σ → Prop} {localRepo : LocalRepo τ}
  {backend : Backend σ}

theorem GotTo.cons_iff {label before short entry : String} {rest : List String} {s t : σ}
    {other : Bytes} {repo : τ}
    (hserves : ∀ {data' t'}, serves before s data' t' ↔ data' = other ∧ t' = t)
    (hshort : shortSha before = .ok short) :
    GotTo serves localRepo label (before :: rest) s repo entry ↔
      entry = before ∨ ∃ unbundled,
        localRepo.take label before other repo = some (true, unbundled) ∧
          GotTo serves localRepo label rest t unbundled entry := by
  constructor
  · intro hgot
    cases hgot with
    | first => exact Or.inl rfl
    | later _ hserved htake hrest =>
        obtain ⟨rfl, rfl⟩ := hserves.mp hserved
        exact Or.inr ⟨_, htake, hrest⟩
  · rintro (rfl | ⟨unbundled, htake, hrest⟩)
    · exact .first
    · exact .later hshort (hserves.mpr ⟨rfl, rfl⟩) htake hrest

/-- Only the first entry is got to when the loop does not go on. -/
theorem GotTo.eq_first {label before entry : String} {rest : List String} {s : σ} {repo : τ}
    (hgot : GotTo serves localRepo label (before :: rest) s repo entry)
    (hlast : ∀ short other t unbundled, shortSha before = .ok short →
      serves before s other t →
      localRepo.take label before other repo ≠ some (true, unbundled)) : entry = before := by
  cases hgot with
  | first => rfl
  | later hshort hserved htake _ => exact absurd htake (hlast _ _ _ _ hshort hserved)

/-- The files that are written for the entries that are reached. -/
def Written (reached : String → Bytes → τ → Prop) (localRepo : LocalRepo τ)
    (label path : String) : Prop :=
  ∃ entry data later, reached entry data later ∧
    path ∈ localRepo.writes label entry data later

/-- A run panics where it gets to an entry that cannot be cut, and writes the files of
the entries that are reached. -/
structure Traced (gotTo written : String → Prop) (files : List String)
    (result : Outcome String Unit × σ × Workdir (τ × List String)) : Prop where
  panic_iff : result.1 = .panic ↔ ∃ entry, gotTo entry ∧ ¬ HasPrefix entry
  mem_files_iff : ∀ path, path ∈ result.2.2.repo.2 ↔ path ∈ files ∨ written path

section Traced

variable {label before short : String} {rest : List String} {s t : σ} {other : Bytes}
  {repo unbundled : τ} {files : List String}
  {result : Outcome String Unit × σ × Workdir (τ × List String)}

/-- A round that is followed by the others. -/
theorem Traced.cons (hcut : HasPrefix before)
    (hserves : ∀ {data' t'}, serves before s data' t' ↔ data' = other ∧ t' = t)
    (hshort : shortSha before = .ok short)
    (htake : localRepo.take label before other repo = some (true, unbundled))
    (hrest : Traced (GotTo serves localRepo label rest t unbundled)
      (Written (Reached serves localRepo label rest t unbundled) localRepo label)
      (files ++ localRepo.writes label before other repo) result) :
    Traced (GotTo serves localRepo label (before :: rest) s repo)
      (Written (Reached serves localRepo label (before :: rest) s repo) localRepo label)
      files result where
  panic_iff := by
    rw [hrest.panic_iff]
    refine exists_congr fun entry => and_congr_left fun hnot => ?_
    have hne : entry ≠ before := by
      rintro rfl
      exact hnot hcut
    rw [GotTo.cons_iff hserves hshort, or_iff_right hne, htake]
    simp
  mem_files_iff path := by
    rw [hrest.mem_files_iff, List.mem_append, or_assoc]
    refine or_congr_right ⟨?_, ?_⟩
    · rintro (hpath | ⟨entry, data, later, hreached, hpath⟩)
      · exact ⟨before, other, repo,
          (Reached.cons_iff hserves hshort).mpr (Or.inl ⟨rfl, rfl, rfl⟩), hpath⟩
      · exact ⟨entry, data, later,
          (Reached.cons_iff hserves hshort).mpr (Or.inr ⟨_, htake, hreached⟩), hpath⟩
    · rintro ⟨entry, data, later, hreached, hpath⟩
      rcases (Reached.cons_iff hserves hshort).mp hreached with
        ⟨rfl, rfl, rfl⟩ | ⟨unbundled', htake', hreached⟩
      · exact Or.inl hpath
      · rw [htake] at htake'
        cases htake'
        exact Or.inr ⟨entry, data, later, hreached, hpath⟩

/-- A round in which git does not unbundle: the last one. -/
theorem Traced.last {error : String} {handed : List (String × Bytes)} {after : τ}
    (hcut : HasPrefix before)
    (hserves : ∀ {data' t'}, serves before s data' t' ↔ data' = other ∧ t' = t)
    (hshort : shortSha before = .ok short)
    (htake : ∀ unbundled, localRepo.take label before other repo ≠ some (true, unbundled)) :
    Traced (GotTo serves localRepo label (before :: rest) s repo)
      (Written (Reached serves localRepo label (before :: rest) s repo) localRepo label)
      files (.err error, t, ⟨(after, files ++ localRepo.writes label before other repo),
        handed⟩) where
  panic_iff := by
    refine iff_of_false nofun ?_
    rintro ⟨entry, hgot, hnot⟩
    rcases (GotTo.cons_iff hserves hshort).mp hgot with rfl | ⟨unbundled, htaken, _⟩
    · exact hnot hcut
    · exact htake unbundled htaken
  mem_files_iff path := by
    rw [List.mem_append]
    refine or_congr_right ⟨?_, ?_⟩
    · exact fun hpath => ⟨before, other, repo,
        (Reached.cons_iff hserves hshort).mpr (Or.inl ⟨rfl, rfl, rfl⟩), hpath⟩
    · rintro ⟨entry, data, later, hreached, hpath⟩
      rcases (Reached.cons_iff hserves hshort).mp hreached with
        ⟨rfl, rfl, rfl⟩ | ⟨unbundled, htaken, _⟩
      · exact hpath
      · exact absurd htaken (htake unbundled)

/-- A round in which nothing is served. -/
theorem Traced.unserved (hcut : HasPrefix before) (hresult : result.1 ≠ .panic)
    (hfiles : result.2.2.repo.2 = files)
    (hnone : ∀ short other t, shortSha before = .ok short → ¬ serves before s other t) :
    Traced (GotTo serves localRepo label (before :: rest) s repo)
      (Written (Reached serves localRepo label (before :: rest) s repo) localRepo label)
      files result where
  panic_iff := by
    refine iff_of_false hresult ?_
    rintro ⟨entry, hgot, hnot⟩
    have hfirst := hgot.eq_first fun short other t _ hshort hserved =>
      absurd hserved (hnone short other t hshort)
    exact hnot (hfirst ▸ hcut)
  mem_files_iff path := by
    rw [hfiles]
    refine (or_iff_left ?_).symm
    rintro ⟨entry, data, later, hreached, _⟩
    exact Reached.not_of_unserved hnone hreached

end Traced

theorem traced_fetchBundles (localRepo : LocalRepo τ)
    (hserves : ∀ {entry s data t},
      backend.download entry s = (.ok data, t) ↔ serves entry s data t)
    (hreturns : ∀ entry s, HasPrefix entry → (backend.download entry s).1 ≠ .panic)
    (entries : List String) (s : σ) (repo : τ) (files : List String)
    (handed : List (String × Bytes)) :
    Traced (GotTo serves localRepo backend.label entries s repo)
      (Written (Reached serves localRepo backend.label entries s repo) localRepo
        backend.label) files
      (backend.fetchBundles localRepo.recorded entries (s, ⟨(repo, files), handed⟩)) := by
  induction entries generalizing s repo files handed with
  | nil =>
      constructor
      · refine iff_of_false (Outcome.returns_ok ()) ?_
        rintro ⟨entry, hgot, _⟩
        cases hgot
      · refine fun path => (or_iff_left ?_).symm
        rintro ⟨entry, data, later, hreached, _⟩
        cases hreached
  | cons before rest ih =>
      rw [Backend.fetchBundles]
      by_cases hcut : HasPrefix before
      · obtain ⟨short, hshort⟩ := hcut.exists_shortSha
        rw [hshort, Session.lift_ok_bind]
        rcases hdownload : backend.download before s with ⟨data | error | _, t⟩
        · have hserved : ∀ {data' t'}, serves before s data' t' ↔
              data' = data ∧ t' = t := by
            intro data' t'
            rw [← hserves, hdownload, Prod.mk.injEq, Outcome.ok.injEq, eq_comm,
              @eq_comm _ t]
          rw [Session.bind_of_ok (Session.onFst_of_eq hdownload _)]
          by_cases htake : ∃ unbundled,
              localRepo.take backend.label before data repo = some (true, unbundled)
          · obtain ⟨unbundled, htake⟩ := htake
            rw [Session.bind_of_ok (unbundle_recorded_of_taken htake t)]
            exact Traced.cons hcut hserved hshort htake (ih t unbundled _ _)
          · rw [not_exists] at htake
            obtain ⟨error, after, later, hunbundle⟩ :=
              unbundle_recorded_of_not_taken hcut htake t
            rw [Session.bind_of_err hunbundle]
            exact Traced.last hcut hserved hshort htake
        · rw [Session.bind_of_err (Session.onFst_of_eq hdownload _)]
          exact .unserved hcut (Outcome.returns_err _) rfl fun short data t _ hserved => by
            rw [← hserves, hdownload] at hserved
            cases hserved
        · exact absurd (congrArg Prod.fst hdownload) (hreturns before s hcut)
      · rw [shortSha_of_not_hasPrefix hcut]
        refine ⟨iff_of_true rfl ⟨before, .first, hcut⟩, fun path => (or_iff_left ?_).symm⟩
        rintro ⟨entry, data, later, hreached, _⟩
        exact Reached.not_of_unserved (fun short _ _ hshort _ => by
          rw [shortSha_of_not_hasPrefix hcut] at hshort
          cases hshort) hreached

/-- The entries can be cut where the loop gets to them, and name a file where one is
written for them. -/
structure FineEntries (serves : String → σ → Bytes → σ → Prop) (localRepo : LocalRepo τ)
    (label : String) (entries : List String) (s : σ) (repo : τ) : Prop where
  hasPrefix : ∀ entry, GotTo serves localRepo label entries s repo entry → HasPrefix entry
  oneName : ∀ entry data later, Reached serves localRepo label entries s repo entry data later →
    (localRepo.writeTemp (localRepo.tempPath label entry) data later).1 = true →
      '/' ∉ entry.toList

theorem LocalRepo.mem_writes_iff {label entry path : String} {data : Bytes} {later : τ} :
    path ∈ localRepo.writes label entry data later ↔
      (localRepo.writeTemp (localRepo.tempPath label entry) data later).1 = true ∧
        path = localRepo.tempPath label entry := by
  unfold LocalRepo.writes
  split_ifs with hwritten <;> simp [hwritten]

theorem contained_iff_fineEntries {entries : List String} {s : σ} {repo : τ}
    {label : String} {result : Outcome String Unit × σ × Workdir (τ × List String)}
    (hlabel : '/' ∉ label.toList) (hlength : 1 < label.toList.length)
    (htraced : Traced (GotTo serves localRepo label entries s repo)
      (Written (Reached serves localRepo label entries s repo) localRepo label) [] result) :
    Contained localRepo.tempDir result ↔
      FineEntries serves localRepo label entries s repo := by
  constructor
  · intro hcontained
    constructor
    · intro entry hgot
      by_contra hcut
      exact hcontained.returns (htraced.panic_iff.mpr ⟨entry, hgot, hcut⟩)
    · intro entry data later hreached hwritten
      refine (directChild_tempPath_iff hlabel hlength).mp (hcontained.files _ ?_)
      exact (htraced.mem_files_iff _).mpr (Or.inr ⟨entry, data, later, hreached,
        LocalRepo.mem_writes_iff.mpr ⟨hwritten, rfl⟩⟩)
  · intro hfine
    constructor
    · intro hpanic
      obtain ⟨entry, hgot, hcut⟩ := htraced.panic_iff.mp hpanic
      exact hcut (hfine.hasPrefix entry hgot)
    · intro path hpath
      rcases (htraced.mem_files_iff path).mp hpath with
        hnil | ⟨entry, data, later, hreached, hmem⟩
      · exact absurd hnil List.not_mem_nil
      · obtain ⟨hwritten, rfl⟩ := LocalRepo.mem_writes_iff.mp hmem
        exact (directChild_tempPath_iff hlabel hlength).mpr
          (hfine.oneName entry data later hreached hwritten)

/-- A fetch is contained when reading the manifest comes back and its entries are fine. -/
theorem contained_fetch_iff {s : σ} {repo : τ}
    (hserves : ∀ {entry s data t},
      backend.download entry s = (.ok data, t) ↔ serves entry s data t)
    (hreturns : ∀ entry s, HasPrefix entry → (backend.download entry s).1 ≠ .panic)
    (hlabel : '/' ∉ backend.label.toList) (hlength : 1 < backend.label.toList.length) :
    Contained localRepo.tempDir
        (backend.fetch localRepo.recorded (s, ⟨(repo, []), []⟩)) ↔
      (backend.fetchManifest s).1.Returns ∧
        ∀ manifest t, backend.fetchManifest s = (.ok (some manifest), t) →
          FineEntries serves localRepo backend.label manifest.bundles t repo := by
  unfold Backend.fetch
  rcases hread : backend.fetchManifest s with ⟨(_ | manifest) | error | _, t⟩
  · rw [Session.bind_of_ok (Session.onFst_of_eq hread _)]
    exact iff_of_true ⟨nofun, fun _ hpath => absurd hpath List.not_mem_nil⟩ ⟨nofun, nofun⟩
  · rw [Session.bind_of_ok (Session.onFst_of_eq hread _)]
    have hloop := contained_iff_fineEntries hlabel hlength
      (traced_fetchBundles localRepo hserves hreturns manifest.bundles t repo [] [])
    refine hloop.trans ⟨fun hfine => ⟨nofun, ?_⟩, fun hfine => hfine.2 manifest t rfl⟩
    rintro _ _ ⟨⟩
    exact hfine
  · rw [Session.bind_of_err (Session.onFst_of_eq hread _)]
    exact iff_of_true ⟨nofun, fun _ hpath => absurd hpath List.not_mem_nil⟩ ⟨nofun, nofun⟩
  · rw [Session.bind_of_panic (Session.onFst_of_eq hread _)]
    exact iff_of_false (fun hcontained => hcontained.returns rfl) fun hfine => hfine.1 rfl

end Loop

namespace BlossomRemote

variable {serde : SerdeJson} {site : Site σ} {remote : BlossomRemote}

/-- The blob whose manifest is the first one of the repository. -/
inductive Finds (serde : SerdeJson) (site : Site σ) (remote : BlossomRemote) :
    List BlobDescriptor → σ → BlobDescriptor → RefsManifest → σ → Prop
  | here {blob : BlobDescriptor} {rest : List BlobDescriptor} {s t : σ} {resp : Response}
      {manifest : RefsManifest} :
      site.get blob.url s = (some resp, t) →
      (resp.json serde).bind RefsManifest.ofJson = some manifest →
      manifest.repo = remote.repo →
      Finds serde site remote (blob :: rest) s blob manifest t
  | there {before blob : BlobDescriptor} {rest : List BlobDescriptor} {s middle t : σ}
      {resp : Response} {other manifest : RefsManifest} :
      site.get before.url s = (some resp, middle) →
      (resp.json serde).bind RefsManifest.ofJson = some other →
      other.repo ≠ remote.repo →
      Finds serde site remote rest middle blob manifest t →
      Finds serde site remote (before :: rest) s blob manifest t

/-- The blob list has a manifest of the repository. -/
def Lists (serde : SerdeJson) (site : Site σ) (remote : BlossomRemote) (s : σ)
    (blob : BlobDescriptor) (manifest : RefsManifest) (t : σ) : Prop :=
  ∃ resp listed blobs,
    site.list (remote.server ++ "/" ++ remote.pubkey) s = (some resp, listed) ∧
      resp.status ≠ 404 ∧ (resp.json serde).bind deserializeBlobs = some blobs ∧
        Finds serde site remote (candidates blobs) listed blob manifest t

/-- How the loop over the candidates comes out: with the manifest that is found, unless
the hash of its blob cannot be cut. -/
structure FindOutcome (finds : BlobDescriptor → RefsManifest → σ → Prop)
    (result : Outcome String (Option RefsManifest) × σ) : Prop where
  panic_iff : result.1 = .panic ↔ ∃ blob manifest t, finds blob manifest t ∧
    ¬ HasPrefix blob.sha256
  some_iff : ∀ manifest t, result = (.ok (some manifest), t) ↔
    ∃ blob, finds blob manifest t ∧ HasPrefix blob.sha256

theorem FindOutcome.of_none {finds : BlobDescriptor → RefsManifest → σ → Prop}
    {result : Outcome String (Option RefsManifest) × σ} (hpanic : result.1 ≠ .panic)
    (hsome : ∀ manifest t, result ≠ (.ok (some manifest), t))
    (hfinds : ∀ blob manifest t, ¬ finds blob manifest t) : FindOutcome finds result where
  panic_iff := iff_of_false hpanic fun ⟨blob, manifest, t, hfind, _⟩ =>
    hfinds blob manifest t hfind
  some_iff manifest t := iff_of_false (hsome manifest t) fun ⟨blob, hfind, _⟩ =>
    hfinds blob manifest t hfind

/-- One blob is found, with its manifest, unless its hash cannot be cut. -/
theorem FindOutcome.of_unique {finds : BlobDescriptor → RefsManifest → σ → Prop}
    {result : Outcome String (Option RefsManifest) × σ} {blob : BlobDescriptor}
    {manifest : RefsManifest} {t : σ}
    (hfinds : ∀ blob' manifest' t', finds blob' manifest' t' ↔
      blob' = blob ∧ manifest' = manifest ∧ t' = t)
    (hfine : HasPrefix blob.sha256 → result = (.ok (some manifest), t))
    (hcut : ¬ HasPrefix blob.sha256 → result.1 = .panic) : FindOutcome finds result := by
  have hfind : finds blob manifest t := (hfinds blob manifest t).mpr ⟨rfl, rfl, rfl⟩
  by_cases hblob : HasPrefix blob.sha256
  · rw [hfine hblob]
    constructor
    · refine iff_of_false (Outcome.returns_ok _) ?_
      rintro ⟨blob', manifest', t', hfind', hnot⟩
      rw [((hfinds _ _ _).mp hfind').1] at hnot
      exact hnot hblob
    · intro manifest' t'
      constructor
      · rintro ⟨⟩
        exact ⟨blob, hfind, hblob⟩
      · rintro ⟨blob', hfind', _⟩
        obtain ⟨rfl, rfl, rfl⟩ := (hfinds _ _ _).mp hfind'
        rfl
  · have hpanic := hcut hblob
    constructor
    · exact iff_of_true hpanic ⟨blob, manifest, t, hfind, hblob⟩
    · intro manifest' t'
      refine iff_of_false (fun hresult => ?_) ?_
      · rw [hresult] at hpanic
        exact Outcome.returns_ok _ hpanic
      · rintro ⟨blob', hfind', hgood⟩
        rw [((hfinds _ _ _).mp hfind').1] at hgood
        exact hblob hgood

/-- Without an answer that is a manifest nothing is found. -/
theorem Finds.exists_first {before blob : BlobDescriptor} {rest : List BlobDescriptor}
    {s t : σ} {manifest : RefsManifest}
    (hfind : Finds serde site remote (before :: rest) s blob manifest t) :
    ∃ resp first middle, site.get before.url s = (some resp, middle) ∧
      (resp.json serde).bind RefsManifest.ofJson = some first ∧
      (first.repo = remote.repo ∧ blob = before ∧ manifest = first ∧ t = middle ∨
        first.repo ≠ remote.repo ∧ Finds serde site remote rest middle blob manifest t) := by
  cases hfind with
  | here hget hjson hrepo => exact ⟨_, _, _, hget, hjson, Or.inl ⟨hrepo, rfl, rfl, rfl⟩⟩
  | there hget hjson hrepo hrest => exact ⟨_, _, _, hget, hjson, Or.inr ⟨hrepo, hrest⟩⟩

/-- With an answer that is a manifest the first blob is found, or it is passed over. -/
theorem finds_cons_iff {before blob : BlobDescriptor} {rest : List BlobDescriptor}
    {s middle t : σ} {resp : Response} {first manifest : RefsManifest}
    (hget : site.get before.url s = (some resp, middle))
    (hjson : (resp.json serde).bind RefsManifest.ofJson = some first) :
    Finds serde site remote (before :: rest) s blob manifest t ↔
      first.repo = remote.repo ∧ blob = before ∧ manifest = first ∧ t = middle ∨
        first.repo ≠ remote.repo ∧ Finds serde site remote rest middle blob manifest t := by
  constructor
  · intro hfind
    obtain ⟨_, _, _, hget', hjson', hcases⟩ := hfind.exists_first
    rw [hget] at hget'
    cases hget'
    rw [hjson] at hjson'
    cases hjson'
    exact hcases
  · rintro (⟨hrepo, rfl, rfl, rfl⟩ | ⟨hrepo, hrest⟩)
    · exact .here hget hjson hrepo
    · exact .there hget hjson hrepo hrest

theorem firstManifest_outcome (blobs : List BlobDescriptor) (s : σ) :
    FindOutcome (Finds serde site remote blobs s) (remote.firstManifest serde site blobs s) := by
  induction blobs generalizing s with
  | nil => exact .of_none nofun nofun fun _ _ _ hfind => by cases hfind
  | cons before rest ih =>
      rw [firstManifest]
      rcases hget : site.get before.url s with ⟨_ | resp, middle⟩
      · rw [Session.bind_of_err (Session.request_of_none hget)]
        refine .of_none nofun nofun fun _ _ _ hfind => ?_
        obtain ⟨_, _, _, hget', _⟩ := hfind.exists_first
        rw [hget] at hget'
        cases hget'
      · rw [Session.bind_of_ok (Session.request_eq_ok_iff.mpr hget)]
        rcases hjson : (resp.json serde).bind RefsManifest.ofJson with _ | first
        · rw [Outcome.okOr_none, Session.lift_err_bind]
          refine .of_none nofun nofun fun _ _ _ hfind => ?_
          obtain ⟨_, _, _, hget', hjson', _⟩ := hfind.exists_first
          rw [hget] at hget'
          cases hget'
          rw [hjson] at hjson'
          cases hjson'
        · rw [Outcome.okOr_some, Session.lift_ok_bind]
          by_cases hrepo : first.repo = remote.repo
          · have hfinds (blob : BlobDescriptor) (manifest : RefsManifest) (t : σ) :
                Finds serde site remote (before :: rest) s blob manifest t ↔
                  blob = before ∧ manifest = first ∧ t = middle := by
              rw [finds_cons_iff hget hjson]
              simp only [hrepo, ne_eq, not_true_eq_false, true_and, false_and, or_false]
            rw [if_pos hrepo]
            refine .of_unique hfinds (fun hcut => ?_) fun hcut => ?_
            · obtain ⟨short, hshort⟩ := hcut.exists_shortSha
              rw [hshort, Session.lift_ok_bind]
              rfl
            · rw [shortSha_of_not_hasPrefix hcut]
              rfl
          · have hsame : Finds serde site remote (before :: rest) s =
                Finds serde site remote rest middle := by
              funext blob manifest t
              rw [finds_cons_iff hget hjson]
              simp only [hrepo, ne_eq, not_false_eq_true, true_and, false_and, false_or]
            rw [if_neg hrepo, hsame]
            exact ih middle

theorem fetchManifest_outcome (s : σ) :
    FindOutcome (Lists serde site remote s) (remote.fetchManifest serde site s) := by
  rw [fetchManifest]
  rcases hlist : site.list (remote.server ++ "/" ++ remote.pubkey) s with ⟨_ | resp, listed⟩
  · rw [Session.bind_of_err (Session.request_of_none hlist)]
    refine .of_none nofun nofun fun _ _ _ hlists => ?_
    obtain ⟨_, _, _, hlist', _⟩ := hlists
    rw [hlist] at hlist'
    cases hlist'
  · have hlists : ∀ {blob manifest t}, Lists serde site remote s blob manifest t ↔
        resp.status ≠ 404 ∧ ∃ blobs, (resp.json serde).bind deserializeBlobs = some blobs ∧
          Finds serde site remote (candidates blobs) listed blob manifest t := by
      intro blob manifest t
      constructor
      · rintro ⟨_, _, blobs, hlist', hstatus, hblobs, hfind⟩
        rw [hlist] at hlist'
        cases hlist'
        exact ⟨hstatus, blobs, hblobs, hfind⟩
      · rintro ⟨hstatus, blobs, hblobs, hfind⟩
        exact ⟨resp, listed, blobs, hlist, hstatus, hblobs, hfind⟩
    rw [Session.bind_of_ok (Session.request_eq_ok_iff.mpr hlist)]
    by_cases hstatus : resp.status = 404
    · rw [if_pos hstatus]
      exact .of_none nofun nofun fun _ _ _ hlist' => (hlists.mp hlist').1 hstatus
    · rw [if_neg hstatus]
      rcases hblobs : (resp.json serde).bind deserializeBlobs with _ | blobs
      · rw [Outcome.okOr_none, Session.lift_err_bind]
        refine .of_none nofun nofun fun _ _ _ hlist' => ?_
        obtain ⟨_, _, hblobs', _⟩ := hlists.mp hlist'
        rw [hblobs] at hblobs'
        cases hblobs'
      · rw [Outcome.okOr_some, Session.lift_ok_bind]
        have hsame : Lists serde site remote s =
            Finds serde site remote (candidates blobs) listed := by
          funext blob manifest t
          refine propext (hlists.trans ⟨?_, fun hfind => ⟨hstatus, blobs, hblobs, hfind⟩⟩)
          rintro ⟨_, _, hblobs', hfind⟩
          rw [hblobs] at hblobs'
          cases hblobs'
          exact hfind
        rw [hsame]
        exact firstManifest_outcome (candidates blobs) listed

theorem downloadBlob_ne_panic {entry : String} (hcut : HasPrefix entry) (s : σ) :
    (remote.downloadBlob site entry s).1 ≠ .panic := by
  obtain ⟨short, hshort⟩ := hcut.exists_shortSha
  rw [downloadBlob]
  rcases hget : site.get (remote.server ++ "/" ++ entry) s with ⟨_ | resp, t⟩
  · rw [Session.bind_of_err (Session.request_of_none hget)]
    exact nofun
  · rw [Session.bind_of_ok (Session.request_eq_ok_iff.mpr hget), hshort]
    split_ifs
    · exact nofun
    · exact Outcome.returns_okOr _ _

/-- The hashes the server sends are fine where they are used. -/
structure HashesFine {τ : Type} (serde : SerdeJson) (site : Site σ) (remote : BlossomRemote)
    (localRepo : LocalRepo τ) (s : σ) (repo : τ) : Prop where
  blob : ∀ blob manifest t, Lists serde site remote s blob manifest t →
    HasPrefix blob.sha256
  bundles : ∀ blob manifest t, Lists serde site remote s blob manifest t →
    FineEntries (remote.Serves site) localRepo "blossom" manifest.bundles t repo

theorem contained_fetch_iff_hashesFine {τ : Type} {localRepo : LocalRepo τ} {s : σ}
    {repo : τ} :
    Contained localRepo.tempDir
        (remote.fetch serde site localRepo.recorded (s, ⟨(repo, []), []⟩)) ↔
      HashesFine serde site remote localRepo s repo := by
  have houtcome := @fetchManifest_outcome _ serde site remote s
  refine (@contained_fetch_iff _ _ _ _ (remote.backend serde site) s repo
    downloadBlob_eq_ok_iff (fun _ s hcut => downloadBlob_ne_panic hcut s)
    (show '/' ∉ "blossom".toList by decide)
    (show 1 < "blossom".toList.length by decide)).trans ?_
  constructor
  · rintro ⟨hreturns, hbundles⟩
    have hblob : ∀ blob manifest t, Lists serde site remote s blob manifest t →
        HasPrefix blob.sha256 := by
      intro blob manifest t hlists
      by_contra hcut
      exact hreturns (houtcome.panic_iff.mpr ⟨blob, manifest, t, hlists, hcut⟩)
    exact ⟨hblob, fun blob manifest t hlists => hbundles manifest t
      ((houtcome.some_iff manifest t).mpr ⟨blob, hlists, hblob blob manifest t hlists⟩)⟩
  · intro hfine
    constructor
    · intro hpanic
      obtain ⟨blob, manifest, t, hlists, hcut⟩ := houtcome.panic_iff.mp hpanic
      exact hcut (hfine.blob blob manifest t hlists)
    · intro manifest t hread
      obtain ⟨blob, hlists, _⟩ := (houtcome.some_iff manifest t).mp hread
      exact hfine.bundles blob manifest t hlists

end BlossomRemote

namespace IpfsRemote

variable {serde : SerdeJson} {prims : Primitives} {hex : Hex} {kubo : Kubo σ}
  {remote : IpfsRemote}

/-- The node has a manifest. -/
def Reads (serde : SerdeJson) (kubo : Kubo σ) (remote : IpfsRemote) (s : σ)
    (manifest : RefsManifest) (t : σ) : Prop :=
  ∃ resp data, kubo.read remote.mfsRefsPath s = (some resp, t) ∧
    200 ≤ resp.status ∧ resp.status < 300 ∧ resp.body = some data ∧
      RefsManifest.fromSlice serde data = some manifest

theorem returns_mfsRead (path : String) (s : σ) :
    (remote.mfsRead serde kubo path s).1.Returns := by
  rw [mfsRead]
  rcases hread : kubo.read path s with ⟨_ | resp, t⟩
  · rw [Session.bind_of_err (Session.request_of_none hread)]
    exact nofun
  · rw [Session.bind_of_ok (Session.request_eq_ok_iff.mpr hread)]
    split
    · dsimp only
      split
      · exact nofun
      · exact nofun
    · split
      · exact nofun
      · cases resp.body with
        | none => exact nofun
        | some data => exact nofun

theorem returns_fetchManifest (s : σ) : (remote.fetchManifest serde kubo s).1.Returns := by
  have hread := @returns_mfsRead _ serde kubo remote remote.mfsRefsPath s
  rw [fetchManifest]
  rcases hresult : remote.mfsRead serde kubo remote.mfsRefsPath s with
    ⟨(_ | data) | error | _, t⟩
  · rw [Session.bind_of_ok hresult]
    exact nofun
  · rw [Session.bind_of_ok hresult]
    rcases hmanifest : RefsManifest.fromSlice serde data with _ | manifest
    · dsimp only
      rw [hmanifest]
      exact nofun
    · dsimp only
      rw [hmanifest]
      exact nofun
  · rw [Session.bind_of_err hresult]
    exact nofun
  · exact absurd (congrArg Prod.fst hresult) hread

theorem fetchManifest_eq_ok_some_iff_reads {s t : σ} {manifest : RefsManifest} :
    remote.fetchManifest serde kubo s = (.ok (some manifest), t) ↔
      Reads serde kubo remote s manifest t := by
  rw [fetchManifest, Session.bind_eq_ok_iff]
  constructor
  · rintro ⟨_ | data, middle, hread, hrest⟩
    · cases hrest
    · obtain ⟨parsed, after, hparse, hrest⟩ := Session.bind_eq_ok_iff.mp hrest
      obtain ⟨hmanifest, rfl⟩ := Session.lift_eq_ok_iff.mp hparse
      cases hrest
      obtain ⟨resp, hask, hlow, hhigh, hbody⟩ := (mfsRead_eq_ok_some_iff serde).mp hread
      exact ⟨resp, data, hask, hlow, hhigh, hbody, Outcome.okOr_eq_ok_iff.mp hmanifest⟩
  · rintro ⟨resp, data, hask, hlow, hhigh, hbody, hmanifest⟩
    refine ⟨some data, t, (mfsRead_eq_ok_some_iff serde).mpr
      ⟨resp, hask, hlow, hhigh, hbody⟩, ?_⟩
    dsimp only
    rw [hmanifest]
    rfl

theorem readBundle_ne_panic {entry : String} (hcut : HasPrefix entry) (s : σ) :
    (remote.readBundle serde kubo entry s).1 ≠ .panic := by
  obtain ⟨short, hshort⟩ := hcut.exists_shortSha
  have hread := @returns_mfsRead _ serde kubo remote (remote.mfsBundlePath entry) s
  rw [readBundle]
  rcases hresult : remote.mfsRead serde kubo (remote.mfsBundlePath entry) s with
    ⟨(_ | data) | error | _, t⟩
  · rw [Session.bind_of_ok hresult]
    dsimp only
    rw [hshort]
    exact Outcome.returns_err _
  · rw [Session.bind_of_ok hresult]
    exact Outcome.returns_ok _
  · rw [Session.bind_of_err hresult]
    exact Outcome.returns_err _
  · exact absurd (congrArg Prod.fst hresult) hread

/-- The hashes in the manifest are fine where they are used. -/
def HashesFine {τ : Type} (serde : SerdeJson) (kubo : Kubo σ) (remote : IpfsRemote)
    (localRepo : LocalRepo τ) (s : σ) (repo : τ) : Prop :=
  ∀ manifest t, Reads serde kubo remote s manifest t →
    FineEntries (remote.Serves kubo) localRepo "ipfs" manifest.bundles t repo

theorem contained_fetch_iff_hashesFine {τ : Type} {localRepo : LocalRepo τ} {s : σ}
    {repo : τ} :
    Contained localRepo.tempDir
        (remote.fetch serde prims hex kubo localRepo.recorded (s, ⟨(repo, []), []⟩)) ↔
      HashesFine serde kubo remote localRepo s repo := by
  refine (@contained_fetch_iff _ _ _ _ (remote.backend serde prims hex kubo) s repo
    readBundle_eq_ok_iff (fun _ s hcut => readBundle_ne_panic hcut s)
    (show '/' ∉ "ipfs".toList by decide)
    (show 1 < "ipfs".toList.length by decide)).trans ?_
  refine (and_iff_right (returns_fetchManifest s)).trans ?_
  exact forall_congr' fun manifest => forall_congr' fun t =>
    imp_congr_left fetchManifest_eq_ok_some_iff_reads

end IpfsRemote

/-- The fetch of either backend is contained exactly when the hashes it uses can be cut
to eight bytes and have no path separator in them. -/
theorem contained_iff_hashesFine (serde : SerdeJson) (prims : Primitives) (hex : Hex)
    (site : Site σ) (blossom : BlossomRemote) {ρ : Type} (kubo : Kubo ρ) (ipfs : IpfsRemote)
    (localRepo : LocalRepo τ) (s : σ) (node : ρ) (repo : τ) :
    (Contained localRepo.tempDir
        (blossom.fetch serde site localRepo.recorded (s, ⟨(repo, []), []⟩)) ↔
      blossom.HashesFine serde site localRepo s repo) ∧
    (Contained localRepo.tempDir
        (ipfs.fetch serde prims hex kubo localRepo.recorded (node, ⟨(repo, []), []⟩)) ↔
      ipfs.HashesFine serde kubo localRepo node repo) :=
  ⟨BlossomRemote.contained_fetch_iff_hashesFine, IpfsRemote.contained_fetch_iff_hashesFine⟩

section Examples

/-- A manifest with one bundle of the given hash. -/
def oneBundle (sha256 : String) : RefsManifest := ⟨demoRemote.repo, ∅, none, [sha256], none⟩

/-- A node with that manifest and a bundle under that hash. -/
noncomputable def oneBundleNode (sha256 : String) : MfsNode :=
  (MfsNode.empty.write (demoRemote.mfsBundlePath sha256) forgedBundle).write
    demoRemote.mfsRefsPath
    ((oneBundle sha256).toVec SerdeJson.compact (IterOrder.some String))

theorem reads_oneBundleNode (sha256 : String) :
    demoRemote.Reads SerdeJson.compact (MfsNode.kubo SerdeJson.compact) (oneBundleNode sha256)
      (oneBundle sha256) (oneBundleNode sha256) := by
  refine IpfsRemote.fetchManifest_eq_ok_some_iff_reads.mp
    ((MfsNode.fetchManifest_eq_ok_some_iff _ _).mpr ?_)
  rw [MfsNode.Stored, oneBundleNode, MfsNode.write, Finmap.lookup_insert, Option.bind_some,
    RefsManifest.fromSlice_toVec]

theorem serves_oneBundleNode (sha256 : String) :
    demoRemote.Serves (MfsNode.kubo SerdeJson.compact) sha256 (oneBundleNode sha256)
      forgedBundle (oneBundleNode sha256) := by
  refine (@IpfsRemote.readBundle_eq_ok_iff _ SerdeJson.compact _ _ _ _ _ _).mp ?_
  refine (MfsNode.bundleStore SerdeJson.compact Primitives.beginnings Hex.reference
    demoRemote).download_of_holds ?_
  show MfsNode.Holds demoRemote _ _ _
  rw [MfsNode.Holds, oneBundleNode, MfsNode.write,
    Finmap.lookup_insert_of_ne _ (MfsNode.mfsBundlePath_ne demoRemote _)]
  exact Finmap.lookup_insert _

/-- A hash of three characters is cut to eight, and one with separators in it leads out
of the directory. -/
theorem not_contained_oneBundle :
    ¬ Contained credulousRepo.tempDir
        (demoRemote.fetch SerdeJson.compact Primitives.beginnings Hex.reference
          (MfsNode.kubo SerdeJson.compact) credulousRepo.recorded
          (oneBundleNode "abc", ⟨((), []), []⟩)) ∧
      ¬ Contained credulousRepo.tempDir
        (demoRemote.fetch SerdeJson.compact Primitives.beginnings Hex.reference
          (MfsNode.kubo SerdeJson.compact) credulousRepo.recorded
          (oneBundleNode "aaaaaaaa/../../home/x", ⟨((), []), []⟩)) := by
  constructor
  · intro hcontained
    have hfine := IpfsRemote.contained_fetch_iff_hashesFine.mp hcontained
      (oneBundle "abc") _ (reads_oneBundleNode "abc")
    exact absurd (hfine.hasPrefix "abc" .first) (by decide)
  · intro hcontained
    have hfine := IpfsRemote.contained_fetch_iff_hashesFine.mp hcontained
      (oneBundle "aaaaaaaa/../../home/x") _ (reads_oneBundleNode "aaaaaaaa/../../home/x")
    have hreached : ∃ short, shortSha "aaaaaaaa/../../home/x" = .ok short :=
      HasPrefix.exists_shortSha (by decide)
    obtain ⟨short, hshort⟩ := hreached
    refine hfine.oneName _ _ () (.first hshort (serves_oneBundleNode _)) rfl ?_
    decide

end Examples

end GitHelpers

end Gnostr
