/-
What `fetch` hands to git.  A bundle is asked for by its hash, but nobody compares the
hash of the answer: git gets whatever the store serves.
-/
import Gnostr.GitHelpers.MfsNode

namespace Gnostr

namespace GitHelpers

variable {σ τ : Type}

/-- What the local side does with the bundle of an entry: none when it cannot be written
to the temporary file or git does not start, else whether it was unbundled. -/
def LocalRepo.take (localRepo : LocalRepo τ) (label entry : String) (data : Bytes)
    (repo : τ) : Option (Bool × τ) :=
  let written := localRepo.writeTemp
    (localRepo.tempDir ++ "/" ++ label ++ "-" ++ entry ++ ".bundle") data repo
  if written.1 then
    (localRepo.unbundle data written.2).1.map fun success =>
      (success, (localRepo.unbundle data written.2).2)
  else none

section Unbundle

variable {backend : Backend σ} {localRepo : LocalRepo τ} {entry : String} {data : Bytes}
  {dir : Workdir τ}

theorem unbundle_of_take_none
    (htake : localRepo.take backend.label entry data dir.repo = none) :
    ∃ error repo, ∀ s, backend.unbundle localRepo entry data (s, dir) =
      (.err error, (s, ⟨repo, dir.handed⟩)) := by
  unfold LocalRepo.take at htake
  unfold Backend.unbundle
  cases hwritten : (localRepo.writeTemp (localRepo.tempDir ++ "/" ++ backend.label ++ "-" ++
      entry ++ ".bundle") data dir.repo).1 with
  | false => exact ⟨_, _, fun s => if_pos (by rw [hwritten]; rfl)⟩
  | true =>
      simp only [hwritten, if_true, Option.map_eq_none_iff] at htake
      simp only [hwritten, Bool.not_true, Bool.false_eq_true, if_false, htake]
      exact ⟨_, _, fun _ => rfl⟩

/-- A bundle that git gets is handed over, and the call goes on when git succeeds. -/
theorem unbundle_of_take_some {success : Bool} {repo : τ}
    (htake : localRepo.take backend.label entry data dir.repo = some (success, repo)) :
    ∃ out, (∀ s, backend.unbundle localRepo entry data (s, dir) =
        (out, (s, ⟨repo, dir.handed ++ [(entry, data)]⟩))) ∧
      (out = .ok () ↔ success = true) := by
  unfold LocalRepo.take at htake
  unfold Backend.unbundle
  cases hwritten : (localRepo.writeTemp (localRepo.tempDir ++ "/" ++ backend.label ++ "-" ++
      entry ++ ".bundle") data dir.repo).1 with
  | false =>
      simp only [hwritten, Bool.false_eq_true, if_false] at htake
      cases htake
  | true =>
      simp only [hwritten, if_true] at htake
      obtain ⟨found, hstatus, hpair⟩ := Option.map_eq_some_iff.mp htake
      cases hpair
      simp only [hwritten, Bool.not_true, Bool.false_eq_true, if_false, hstatus]
      cases success with
      | true => exact ⟨_, fun _ => rfl, iff_of_true rfl rfl⟩
      | false =>
          refine ⟨_, fun _ => rfl, iff_of_false (fun hok => ?_) Bool.false_ne_true⟩
          obtain ⟨_, _, herr⟩ := Outcome.bind_eq_ok_iff.mp hok
          cases herr

end Unbundle

/-- The entries that `fetch` gets to, each with the bytes it is served then: those before
it are all served, and unbundled. -/
inductive Reached (serves : String → σ → Bytes → σ → Prop) (localRepo : LocalRepo τ)
    (label : String) : List String → σ → τ → String → Bytes → τ → Prop
  | first {entry short : String} {rest : List String} {s t : σ} {data : Bytes} {repo : τ} :
      shortSha entry = .ok short → serves entry s data t →
      Reached serves localRepo label (entry :: rest) s repo entry data repo
  | later {before short entry : String} {rest : List String} {s t : σ}
      {other data : Bytes} {repo unbundled later : τ} :
      shortSha before = .ok short → serves before s other t →
      localRepo.take label before other repo = some (true, unbundled) →
      Reached serves localRepo label rest t unbundled entry data later →
      Reached serves localRepo label (before :: rest) s repo entry data later

section Loop

variable {serves : String → σ → Bytes → σ → Prop} {localRepo : LocalRepo τ}
  {backend : Backend σ}

/-- The first entry is the only one that is reached when git does not unbundle it. -/
theorem Reached.cons_iff {label before short entry : String} {rest : List String} {s t : σ}
    {other data : Bytes} {repo later : τ}
    (hserves : ∀ {data' t'}, serves before s data' t' ↔ data' = other ∧ t' = t)
    (hshort : shortSha before = .ok short) :
    Reached serves localRepo label (before :: rest) s repo entry data later ↔
      (entry = before ∧ data = other ∧ later = repo) ∨
        ∃ unbundled, localRepo.take label before other repo = some (true, unbundled) ∧
          Reached serves localRepo label rest t unbundled entry data later := by
  constructor
  · intro hreached
    cases hreached with
    | first _ hserved => exact Or.inl ⟨rfl, (hserves.mp hserved).1, rfl⟩
    | later _ hserved htake hrest =>
        obtain ⟨rfl, rfl⟩ := hserves.mp hserved
        exact Or.inr ⟨_, htake, hrest⟩
  · rintro (⟨rfl, rfl, rfl⟩ | ⟨unbundled, htake, hrest⟩)
    · exact .first hshort (hserves.mpr ⟨rfl, rfl⟩)
    · exact .later hshort (hserves.mpr ⟨rfl, rfl⟩) htake hrest

/-- Without an answer to the first request no entry is reached. -/
theorem Reached.not_of_unserved {label before entry : String} {rest : List String} {s : σ}
    {data : Bytes} {repo later : τ}
    (hnone : ∀ short data' t, shortSha before = .ok short → ¬ serves before s data' t) :
    ¬ Reached serves localRepo label (before :: rest) s repo entry data later := by
  intro hreached
  cases hreached with
  | first hshort hserved => exact hnone _ _ _ hshort hserved
  | later hshort hserved _ _ => exact hnone _ _ _ hshort hserved

end Loop

/-- What has been handed to git, beside what was before, is what the entries that were
reached are served, as far as it is taken; and all of that is taken in a success. -/
structure HandsOver (reached : String → Bytes → τ → Prop) (label : String)
    (localRepo : LocalRepo τ) (handed : List (String × Bytes))
    (result : Outcome String Unit × σ × Workdir τ) : Prop where
  mem_handed_iff : ∀ entry data, (entry, data) ∈ result.2.2.handed ↔
    (entry, data) ∈ handed ∨ ∃ later, reached entry data later ∧
      (localRepo.take label entry data later).isSome = true
  take_of_ok : result.1 = .ok () → ∀ entry data later, reached entry data later →
    (localRepo.take label entry data later).isSome = true

section HandsOver

variable {reached : String → Bytes → τ → Prop} {label : String} {localRepo : LocalRepo τ}
  {handed : List (String × Bytes)} {result : Outcome String Unit × σ × Workdir τ}

/-- Nothing that is reached is taken, and nothing is handed over. -/
theorem HandsOver.of_not_taken
    (hnone : ∀ entry data later, reached entry data later →
      localRepo.take label entry data later = none)
    (hhanded : result.2.2.handed = handed)
    (hresult : result.1 = .ok () → ∀ entry data later, ¬ reached entry data later) :
    HandsOver reached label localRepo handed result where
  mem_handed_iff entry data := by
    rw [hhanded]
    refine ⟨Or.inl, fun hor => hor.resolve_right ?_⟩
    rintro ⟨later, hreached, htake⟩
    rw [hnone entry data later hreached] at htake
    cases htake
  take_of_ok hok entry data later hreached := absurd hreached (hresult hok entry data later)

/-- The first entry is handed over, then those behind it. -/
theorem HandsOver.cons {behind : String → Bytes → τ → Prop} {entry : String} {data : Bytes}
    {repo : τ}
    (hbehind : HandsOver behind label localRepo (handed ++ [(entry, data)]) result)
    (htake : (localRepo.take label entry data repo).isSome = true)
    (hreached : ∀ entry' data' later, reached entry' data' later ↔
      (entry' = entry ∧ data' = data ∧ later = repo) ∨ behind entry' data' later) :
    HandsOver reached label localRepo handed result where
  mem_handed_iff entry' data' := by
    rw [hbehind.mem_handed_iff, List.mem_append, List.mem_singleton, Prod.mk.injEq, or_assoc]
    refine or_congr_right ⟨?_, ?_⟩
    · rintro (⟨rfl, rfl⟩ | ⟨later, hmem, htaken⟩)
      · exact ⟨repo, (hreached _ _ _).mpr (Or.inl ⟨rfl, rfl, rfl⟩), htake⟩
      · exact ⟨later, (hreached _ _ _).mpr (Or.inr hmem), htaken⟩
    · rintro ⟨later, hmem, htaken⟩
      rcases (hreached _ _ _).mp hmem with ⟨rfl, rfl, _⟩ | hmem
      · exact Or.inl ⟨rfl, rfl⟩
      · exact Or.inr ⟨later, hmem, htaken⟩
  take_of_ok hok entry' data' later hmem := by
    rcases (hreached _ _ _).mp hmem with ⟨rfl, rfl, rfl⟩ | hmem
    · exact htake
    · exact hbehind.take_of_ok hok entry' data' later hmem

end HandsOver

section Fetch

variable {backend : Backend σ} {localRepo : LocalRepo τ}
  {serves : String → σ → Bytes → σ → Prop}

/-- A round of the loop whose entry is served. -/
theorem handsOver_of_served {before short : String} {rest : List String} {s t : σ}
    {other : Bytes} {dir : Workdir τ} (hshort : shortSha before = .ok short)
    (hserved : ∀ {data' t'}, serves before s data' t' ↔ data' = other ∧ t' = t)
    (hrest : ∀ dir : Workdir τ,
      HandsOver (Reached serves localRepo backend.label rest t dir.repo) backend.label
        localRepo dir.handed (backend.fetchBundles localRepo rest (t, dir))) :
    HandsOver (Reached serves localRepo backend.label (before :: rest) s dir.repo)
      backend.label localRepo dir.handed
      ((backend.unbundle localRepo before other >>= fun _ =>
        backend.fetchBundles localRepo rest) (t, dir)) := by
  cases htake : localRepo.take backend.label before other dir.repo with
  | none =>
      obtain ⟨error, repo, hunbundle⟩ := unbundle_of_take_none htake
      rw [Session.bind_of_err (hunbundle t)]
      refine .of_not_taken (fun entry data later hreached => ?_) rfl nofun
      rcases (Reached.cons_iff hserved hshort).mp hreached with
        ⟨rfl, rfl, rfl⟩ | ⟨unbundled, hsome, _⟩
      · exact htake
      · rw [htake] at hsome
        cases hsome
  | some taken =>
      obtain ⟨success, repo⟩ := taken
      obtain ⟨out, hunbundle, hout⟩ := unbundle_of_take_some htake
      have htaken : (localRepo.take backend.label before other dir.repo).isSome = true := by
        rw [htake, Option.isSome_some]
      cases success with
      | true =>
          rw [hout.mpr rfl] at hunbundle
          rw [Session.bind_of_ok (hunbundle t)]
          refine (hrest ⟨repo, dir.handed ++ [(before, other)]⟩).cons htaken
            fun entry data later => ?_
          rw [Reached.cons_iff hserved hshort, htake]
          simp
      | false =>
          -- git was started, so the bundle counts, but the loop ends here
          have hlast : HandsOver (fun _ _ _ => False) backend.label localRepo
              (dir.handed ++ [(before, other)])
              ((backend.unbundle localRepo before other >>= fun _ =>
                backend.fetchBundles localRepo rest) (t, dir)) := by
            refine .of_not_taken (fun _ _ _ hfalse => hfalse.elim) ?_
              fun _ _ _ _ hfalse => hfalse
            rcases out with _ | error | _
            · exact absurd (hout.mp rfl) Bool.false_ne_true
            · rw [Session.bind_of_err (hunbundle t)]
            · rw [Session.bind_of_panic (hunbundle t)]
          refine hlast.cons htaken fun entry data later => ?_
          rw [Reached.cons_iff hserved hshort, htake]
          simp

/-- The loop hands over what the entries it gets to are served. -/
theorem handsOver_fetchBundles (localRepo : LocalRepo τ)
    (hserves : ∀ {entry s data t},
      backend.download entry s = (.ok data, t) ↔ serves entry s data t)
    (entries : List String) (s : σ) (dir : Workdir τ) :
    HandsOver (Reached serves localRepo backend.label entries s dir.repo) backend.label
      localRepo dir.handed (backend.fetchBundles localRepo entries (s, dir)) := by
  induction entries generalizing s dir with
  | nil =>
      exact .of_not_taken (fun _ _ _ hreached => by cases hreached) rfl
        fun _ _ _ _ hreached => by cases hreached
  | cons before rest ih =>
      have hunserved : ∀ {result : Outcome String Unit × σ × Workdir τ},
          result.2.2.handed = dir.handed →
          (∀ short data t, shortSha before = .ok short → ¬ serves before s data t) →
          HandsOver (Reached serves localRepo backend.label (before :: rest) s dir.repo)
            backend.label localRepo dir.handed result := fun hhanded hnone =>
        .of_not_taken (fun _ _ _ hreached => absurd hreached (Reached.not_of_unserved hnone))
          hhanded fun _ _ _ _ => Reached.not_of_unserved hnone
      rw [Backend.fetchBundles]
      cases hshort : shortSha before with
      | err error =>
          refine hunserved rfl fun short _ _ hok => ?_
          rw [hshort] at hok
          cases hok
      | panic =>
          refine hunserved rfl fun short _ _ hok => ?_
          rw [hshort] at hok
          cases hok
      | ok short =>
          have hmissed : (∀ data, (backend.download before s).1 ≠ .ok data) →
              ∀ short data t, shortSha before = .ok short → ¬ serves before s data t :=
            fun hfail _ data _ _ hserved =>
              hfail data (congrArg Prod.fst (hserves.mpr hserved))
          have honFst := Session.onFst_apply (backend.download before) s dir
          rw [Session.lift_ok_bind]
          rcases hdownload : backend.download before s with ⟨other | error | _, t⟩
          · rw [hdownload] at honFst
            rw [Session.bind_of_ok honFst]
            refine handsOver_of_served hshort (fun {data t'} => ?_) (ih t)
            rw [← hserves, hdownload, Prod.mk.injEq, Outcome.ok.injEq]
            exact and_congr eq_comm eq_comm
          · rw [hdownload] at honFst hmissed
            rw [Session.bind_of_err honFst]
            exact hunserved rfl (hmissed nofun)
          · rw [hdownload] at honFst hmissed
            rw [Session.bind_of_panic honFst]
            exact hunserved rfl (hmissed nofun)

/-- The entries of the manifest that is found which `fetch` gets to. -/
def Requested (backend : Backend σ) (localRepo : LocalRepo τ)
    (serves : String → σ → Bytes → σ → Prop) (s : σ) (repo : τ) (entry : String)
    (data : Bytes) (later : τ) : Prop :=
  ∃ manifest t, backend.fetchManifest s = (.ok (some manifest), t) ∧
    Reached serves localRepo backend.label manifest.bundles t repo entry data later

/-- A fetch hands over what the entries it gets to are served. -/
theorem handsOver_fetch
    (hserves : ∀ {entry s data t},
      backend.download entry s = (.ok data, t) ↔ serves entry s data t) (s : σ) (repo : τ) :
    HandsOver (Requested backend localRepo serves s repo) backend.label localRepo []
      (backend.fetch localRepo (s, ⟨repo, []⟩)) := by
  have hunread : ∀ {result : Outcome String Unit × σ × Workdir τ}, result.2.2.handed = [] →
      (∀ manifest, (backend.fetchManifest s).1 ≠ .ok (some manifest)) →
      HandsOver (Requested backend localRepo serves s repo) backend.label localRepo []
        result := fun hhanded hnone =>
    .of_not_taken
      (fun _ _ _ ⟨manifest, _, hread, _⟩ =>
        absurd (congrArg Prod.fst hread) (hnone manifest))
      hhanded fun _ _ _ _ ⟨manifest, _, hread, _⟩ =>
        hnone manifest (congrArg Prod.fst hread)
  have honFst := Session.onFst_apply backend.fetchManifest s (⟨repo, []⟩ : Workdir τ)
  unfold Backend.fetch
  rcases hread : backend.fetchManifest s with ⟨(_ | manifest) | error | _, t⟩
  · rw [hread] at honFst hunread
    rw [Session.bind_of_ok honFst]
    exact hunread rfl nofun
  · rw [hread] at honFst
    rw [Session.bind_of_ok honFst]
    have hloop := handsOver_fetchBundles localRepo hserves manifest.bundles t
      ⟨repo, []⟩
    have hrequested : ∀ entry data later,
        Requested backend localRepo serves s repo entry data later ↔
          Reached serves localRepo backend.label manifest.bundles t repo entry data
            later := by
      intro entry data later
      constructor
      · rintro ⟨found, t', hfound, hreached⟩
        rw [hread] at hfound
        cases hfound
        exact hreached
      · exact fun hreached => ⟨manifest, t, hread, hreached⟩
    have hsame : Requested backend localRepo serves s repo =
        Reached serves localRepo backend.label manifest.bundles t repo := by
      funext entry data later
      exact propext (hrequested entry data later)
    rw [hsame]
    exact hloop
  · rw [hread] at honFst hunread
    rw [Session.bind_of_err honFst]
    exact hunread rfl nofun
  · rw [hread] at honFst hunread
    rw [Session.bind_of_panic honFst]
    exact hunread rfl nofun

end Fetch

/-- An entry is the SHA-256 of the bytes. -/
def Names (prims : Primitives) (hex : Hex) (entry : String) (data : Bytes) : Prop :=
  hex.decode entry = some (prims.sha256 data).toList

/-- Only bytes of the hash that their entry names are handed to git, and others make the
fetch fail. -/
structure Enforced (names : String → Bytes → Prop)
    (fetch : Session (σ × Workdir τ) String Unit) (requested : String → Bytes → τ → Prop)
    (s : σ) (repo : τ) : Prop where
  handed : ∀ entry data, (entry, data) ∈ (fetch (s, ⟨repo, []⟩)).2.2.handed →
    names entry data
  fails : ∀ entry data later, requested entry data later → ¬ names entry data →
    (fetch (s, ⟨repo, []⟩)).1 ≠ .ok ()

/-- The answers to the requests that are made are of the hashes asked for, except for
answers that do not get to git on this side. -/
def Honest (names : String → Bytes → Prop) (localRepo : LocalRepo τ) (label : String)
    (requested : String → Bytes → τ → Prop) : Prop :=
  ∀ entry data later, requested entry data later →
    (localRepo.take label entry data later).isSome = true → names entry data

theorem enforced_iff_of_handsOver {names : String → Bytes → Prop}
    {fetch : Session (σ × Workdir τ) String Unit} {requested : String → Bytes → τ → Prop}
    {s : σ} {repo : τ} {label : String} {localRepo : LocalRepo τ}
    (hhands : HandsOver requested label localRepo [] (fetch (s, ⟨repo, []⟩))) :
    Enforced names fetch requested s repo ↔ Honest names localRepo label requested := by
  constructor
  · intro henforced entry data later hrequested htaken
    exact henforced.handed entry data
      ((hhands.mem_handed_iff entry data).mpr (Or.inr ⟨later, hrequested, htaken⟩))
  · intro hhonest
    constructor
    · intro entry data hmem
      rcases (hhands.mem_handed_iff entry data).mp hmem with
        hold | ⟨later, hrequested, htaken⟩
      · cases hold
      · exact hhonest entry data later hrequested htaken
    · intro entry data later hrequested hwrong hok
      exact hwrong (hhonest entry data later hrequested
        (hhands.take_of_ok hok entry data later hrequested))

/-- The server answers the request for a blob with its bytes. -/
def BlossomRemote.Serves (remote : BlossomRemote) (site : Site σ) (sha256 : String) (s : σ)
    (data : Bytes) (t : σ) : Prop :=
  ∃ resp, site.get (remote.server ++ "/" ++ sha256) s = (some resp, t) ∧
    resp.isError = false ∧ resp.body = some data

theorem BlossomRemote.downloadBlob_eq_ok_iff {remote : BlossomRemote} {site : Site σ}
    {sha256 : String} {s t : σ} {data : Bytes} :
    remote.downloadBlob site sha256 s = (.ok data, t) ↔
      remote.Serves site sha256 s data t := by
  unfold downloadBlob Serves
  rw [Session.bind_eq_ok_iff]
  simp only [Session.request_eq_ok_iff]
  refine exists_congr fun resp => ?_
  constructor
  · rintro ⟨middle, hget, hrest⟩
    split_ifs at hrest with herror
    · obtain ⟨_, _, _, hfail⟩ := Session.bind_eq_ok_iff.mp hrest
      cases hfail
    · obtain ⟨hbody, rfl⟩ := Session.lift_eq_ok_iff.mp hrest
      exact ⟨hget, Bool.eq_false_of_not_eq_true herror, Outcome.okOr_eq_ok_iff.mp hbody⟩
  · rintro ⟨hget, herror, hbody⟩
    refine ⟨t, hget, ?_⟩
    rw [if_neg (by simp [herror]), hbody]
    rfl

/-- The node answers the call for a bundle with its bytes. -/
def IpfsRemote.Serves (remote : IpfsRemote) (kubo : Kubo σ) (sha256 : String) (s : σ)
    (data : Bytes) (t : σ) : Prop :=
  ∃ resp, kubo.read (remote.mfsBundlePath sha256) s = (some resp, t) ∧
    200 ≤ resp.status ∧ resp.status < 300 ∧ resp.body = some data

theorem IpfsRemote.mfsRead_eq_ok_some_iff (serde : SerdeJson) {remote : IpfsRemote}
    {kubo : Kubo σ} {path : String} {s t : σ} {data : Bytes} :
    remote.mfsRead serde kubo path s = (.ok (some data), t) ↔
      ∃ resp, kubo.read path s = (some resp, t) ∧ 200 ≤ resp.status ∧ resp.status < 300 ∧
        resp.body = some data := by
  unfold mfsRead
  rw [Session.bind_eq_ok_iff]
  simp only [Session.request_eq_ok_iff]
  refine exists_congr fun resp => ?_
  constructor
  · rintro ⟨middle, hread, hrest⟩
    split_ifs at hrest with hmissing hcontains hstatus
    · cases hrest
    · cases hrest
    · cases hrest
    · obtain ⟨body, _, hlift, hpure⟩ := Session.bind_eq_ok_iff.mp hrest
      obtain ⟨hbody, rfl⟩ := Session.lift_eq_ok_iff.mp hlift
      cases hpure
      simp only [Bool.or_eq_true, decide_eq_true_eq, not_or, not_lt, not_le] at hstatus
      exact ⟨hread, hstatus.1, hstatus.2, Outcome.okOr_eq_ok_iff.mp hbody⟩
  · rintro ⟨hread, hlow, hhigh, hbody⟩
    refine ⟨t, hread, ?_⟩
    rw [if_neg (by omega), if_neg (by simp; omega), hbody]
    rfl

theorem IpfsRemote.readBundle_eq_ok_iff {serde : SerdeJson} {remote : IpfsRemote}
    {kubo : Kubo σ} {sha256 : String} {s t : σ} {data : Bytes} :
    remote.readBundle serde kubo sha256 s = (.ok data, t) ↔
      remote.Serves kubo sha256 s data t := by
  rw [Serves, ← mfsRead_eq_ok_some_iff serde, readBundle, Session.bind_eq_ok_iff]
  constructor
  · rintro ⟨found, middle, hread, hrest⟩
    cases found with
    | none =>
        obtain ⟨_, _, _, hfail⟩ := Session.bind_eq_ok_iff.mp hrest
        cases hfail
    | some bytes =>
        cases hrest
        exact hread
  · intro hread
    exact ⟨some data, t, hread, rfl⟩

/-- Content addressing is enforced exactly as far as the server or the node is honest:
neither backend compares a hash. -/
theorem enforced_iff_honest (prims : Primitives) (hex : Hex) (serde : SerdeJson)
    (localRepo : LocalRepo τ) (s : σ) (repo : τ) :
    (∀ (site : Site σ) (remote : BlossomRemote),
      Enforced (Names prims hex) (remote.fetch serde site localRepo)
          (Requested (remote.backend serde site) localRepo (remote.Serves site) s repo)
          s repo ↔
        Honest (Names prims hex) localRepo "blossom"
          (Requested (remote.backend serde site) localRepo (remote.Serves site) s repo)) ∧
    ∀ (kubo : Kubo σ) (remote : IpfsRemote),
      Enforced (Names prims hex) (remote.fetch serde prims hex kubo localRepo)
          (Requested (remote.backend serde prims hex kubo) localRepo (remote.Serves kubo) s
            repo) s repo ↔
        Honest (Names prims hex) localRepo "ipfs"
          (Requested (remote.backend serde prims hex kubo) localRepo (remote.Serves kubo) s
            repo) := by
  constructor
  · intro site remote
    exact enforced_iff_of_handsOver
      (handsOver_fetch BlossomRemote.downloadBlob_eq_ok_iff s repo)
  · intro kubo remote
    exact enforced_iff_of_handsOver (handsOver_fetch IpfsRemote.readBundle_eq_ok_iff s repo)

section Examples

/-- A local side that takes everything. -/
def credulousRepo : LocalRepo Unit where
  tempDir := "/tmp"
  writeTemp _ _ _ := (true, ())
  unbundle _ _ := (some true, ())

def forgedBundle : Bytes := utf8 "# v2 git bundle, forged"

/-- The manifest of a push of `main`. -/
noncomputable def mainManifest : RefsManifest :=
  mainClone.nextManifest demoRemote.repo none
    (some (IpfsRemote.sha256Of Primitives.beginnings Hex.reference mainBundle)) pushMain

/-- A node with other bytes where the bundle of the manifest should be. -/
noncomputable def forgedNode : MfsNode :=
  (MfsNode.empty.write (demoRemote.mfsBundlePath
    (IpfsRemote.sha256Of Primitives.beginnings Hex.reference mainBundle)) forgedBundle).write
      demoRemote.mfsRefsPath (mainManifest.toVec SerdeJson.compact (IterOrder.some String))

/-- They are handed to git, and the fetch succeeds. -/
theorem forgedBundle_handed :
    demoRemote.fetch SerdeJson.compact Primitives.beginnings Hex.reference
        (MfsNode.kubo SerdeJson.compact) credulousRepo (forgedNode, ⟨(), []⟩) =
      (.ok (), (forgedNode, ⟨(),
        [(IpfsRemote.sha256Of Primitives.beginnings Hex.reference mainBundle,
          forgedBundle)]⟩)) ∧
      ¬ Names Primitives.beginnings Hex.reference
        (IpfsRemote.sha256Of Primitives.beginnings Hex.reference mainBundle)
          forgedBundle := by
  constructor
  · have hstored : MfsNode.Stored SerdeJson.compact demoRemote forgedNode mainManifest := by
      rw [MfsNode.Stored, forgedNode, MfsNode.write, Finmap.lookup_insert, Option.bind_some,
        RefsManifest.fromSlice_toVec]
    have hheld : MfsNode.Holds demoRemote forgedNode
        (IpfsRemote.sha256Of Primitives.beginnings Hex.reference mainBundle)
          forgedBundle := by
      rw [MfsNode.Holds, forgedNode, MfsNode.write,
        Finmap.lookup_insert_of_ne _ (MfsNode.mfsBundlePath_ne demoRemote _)]
      exact Finmap.lookup_insert _
    have hread : Session.onFst (demoRemote.fetchManifest SerdeJson.compact
        (MfsNode.kubo SerdeJson.compact)) (forgedNode, (⟨(), []⟩ : Workdir Unit)) =
          (.ok (some mainManifest), (forgedNode, ⟨(), []⟩)) := by
      rw [Session.onFst_apply, (MfsNode.fetchManifest_eq_ok_some_iff _ _).mpr hstored]
    have hdownload : Session.onFst (demoRemote.readBundle SerdeJson.compact
        (MfsNode.kubo SerdeJson.compact) (IpfsRemote.sha256Of Primitives.beginnings
          Hex.reference mainBundle)) (forgedNode, (⟨(), []⟩ : Workdir Unit)) =
            (.ok forgedBundle, (forgedNode, ⟨(), []⟩)) := by
      have hheld' := (MfsNode.bundleStore SerdeJson.compact Primitives.beginnings
        Hex.reference demoRemote).download_of_holds hheld
      exact congrArg (fun result => (result.1, (result.2, (⟨(), []⟩ : Workdir Unit)))) hheld'
    obtain ⟨short, hshort⟩ := shortSha_mainBundle mainBundle rfl
    refine (Session.bind_of_ok hread).trans ?_
    show Backend.fetchBundles _ credulousRepo
      [IpfsRemote.sha256Of Primitives.beginnings Hex.reference mainBundle] _ = _
    rw [Backend.fetchBundles, hshort, Session.lift_ok_bind]
    exact (Session.bind_of_ok hdownload).trans rfl
  · intro hnames
    rw [Names, IpfsRemote.sha256Of, Hex.reference.decode_encode, Option.some.injEq,
      Vector.toList_inj] at hnames
    have hbyte := congrArg (fun vec : Vector UInt8 32 => vec[15]) hnames
    revert hbyte
    decide +kernel

end Examples

end GitHelpers

end Gnostr
