/-
The commit miner, `legit/src/gitminer.rs`: threads that try candidates, the channel
they report on, and the commit that is written of the first report.
-/
import Gnostr.Legit.Worker
import Gnostr.Lib.Machine
import Gnostr.Lib.Session
import Gnostr.Lib.Sha1

namespace Gnostr

namespace Legit

structure Options where
  threads : UInt32
  target : String
  message : List String
  repo : String
  timestamp : OffsetDateTime

/-- The first message, an empty line, and the others a line each. -/
def Options.messageText (opts : Options) : String :=
  match opts.message with
  | [] => ""
  | [one] => one
  | first :: rest => first ++ "\n\n" ++ "\n".intercalate rest

/-- What the threads of one call of `mine` work on. -/
structure Job where
  opts : Options
  author : String
  tree : String
  parent : String

def Job.worker (job : Job) (id : UInt32) : Worker :=
  ⟨id, .new, job.opts.target, job.tree, job.parent, job.author, job.opts.messageText,
    job.opts.timestamp⟩

/-- The threads that were spawned, the reports in the channel, and whether `recv` has
returned. -/
structure Mining where
  threads : List WorkerThread
  channel : List Report
  received : Bool

def Mining.start : Mining := ⟨[], [], false⟩

/-- What happens next: the miner spawns a thread, a thread tries its value, or `recv`
returns. -/
inductive Turn
  | spawn
  | iterate (thread : ℕ)
  | recv

section Mining

variable (sha1 : Bytes → Vector UInt8 20) (hex : Hex) (overflowChecks : Bool)

/-- A turn that cannot be taken changes nothing.  What is emitted is what `recv`
returns. -/
def Job.step (job : Job) (s : Mining) : Turn → Mining × List Report
  | .spawn =>
      if s.threads.length < job.opts.threads.toNat then
        let id := UInt32.ofNat s.threads.length
        ({ s with threads := s.threads ++ [.trying (job.worker id) 0] }, [])
      else (s, [])
  | .iterate i =>
      match s.threads[i]? with
      | some (.trying worker value) =>
          let (thread, sent) := worker.iterate sha1 hex overflowChecks value
          ({ s with threads := s.threads.set i thread, channel := s.channel ++ sent }, [])
      | _ => (s, [])
  | .recv =>
      if s.threads.length = job.opts.threads.toNat ∧ ¬ s.received then
        match s.channel with
        | [] => (s, [])
        | report :: rest => ({ s with channel := rest, received := true }, [report])
      else (s, [])

def Job.mining (job : Job) : Machine Mining Turn Report where
  step := job.step sha1 hex overflowChecks

end Mining

/-- The file system, git and the relays, as the miner uses them. -/
structure Host (σ : Type) where
  createDirAll : String → σ → Option Unit × σ
  createFile : String → σ → Option Unit × σ
  writeAll : String → Bytes → σ → Option Unit × σ
  sh : String → σ → Option Bool × σ
  sendNip34PatchEvent : String → Session σ String Unit

/-- `Path::join`. -/
def joinPath (base path : String) : String :=
  if path.toList.head? = some '/' then path
  else if base = "" ∨ base.toList.getLast? = some '/' then base ++ path
  else base ++ "/" ++ path

namespace Host

variable {σ : Type} (host : Host σ)

def ensureGnostrDirsExist (repoRootPath : String) : Session σ String Unit := do
  let gnostrPath := joinPath repoRootPath ".gnostr"
  Session.request "Failed to create .gnostr directory" (host.createDirAll gnostrPath)
  Session.request "Failed to create .gnostr/blobs directory"
    (host.createDirAll (joinPath gnostrPath "blobs"))
  Session.request "Failed to create .gnostr/reflog directory"
    (host.createDirAll (joinPath gnostrPath "reflog"))

def writeFile (path : String) (bytes : Bytes) (createError writeError : String) :
    Session σ String Unit := do
  Session.request createError (host.createFile path)
  Session.request writeError (host.writeAll path bytes)

def writeCommit (repo hash blob : String) : Session σ String Unit := do
  host.ensureGnostrDirsExist repo
  let tmpfile := "/tmp/" ++ hash ++ ".tmp"
  host.writeFile tmpfile (utf8 blob) "Failed to create temporary file"
    "Failed to write to temporary file"
  host.writeFile (joinPath (joinPath repo ".gnostr/blobs") hash) (utf8 blob)
    "Failed to create .gnostr blob file" "Failed to write to .gnostr blob file"
  host.writeFile (joinPath (joinPath repo ".gnostr/reflog") hash) (utf8 blob)
    "Failed to create .gnostr reflog file" "Failed to write to .gnostr reflog file"
  let success ← Session.request "Failed to execute git command"
    (host.sh ("cd " ++ repo ++ " && git hash-object -t commit -w --stdin < " ++ tmpfile ++
      " && git reset --hard " ++ hash))
  if success then pure () else Session.fail "Git command failed"

/-- What `mine` does with the report it receives. -/
def announce (repo : String) (report : Report) : Session σ String String := do
  host.writeCommit repo report.hash report.blob
  host.sendNip34PatchEvent report.hash
  return report.hash

/-- The same host with a record of what is written to files. -/
def recorded : Host (σ × List (String × Bytes)) where
  createDirAll path s := ((host.createDirAll path s.1).1, (host.createDirAll path s.1).2, s.2)
  createFile path s := ((host.createFile path s.1).1, (host.createFile path s.1).2, s.2)
  writeAll path bytes s :=
    ((host.writeAll path bytes s.1).1, (host.writeAll path bytes s.1).2,
      s.2 ++ [(path, bytes)])
  sh command s := ((host.sh command s.1).1, (host.sh command s.1).2, s.2)
  sendNip34PatchEvent head := Session.onFst (host.sendNip34PatchEvent head)

/-- No file gets anything but the given bytes. -/
def WritesOnly (bytes : Bytes) (s : σ × List (String × Bytes)) : Prop :=
  ∀ file ∈ s.2, file.2 = bytes

theorem keeps_writeFile {bytes : Bytes} (path createError writeError : String) :
    (host.recorded.writeFile path bytes createError writeError).Keeps (WritesOnly bytes) := by
  refine (Session.keeps_request fun s hs => hs).bind fun _ => Session.keeps_request ?_
  intro s hs file hfile
  rcases List.mem_append.mp hfile with hbefore | hnow
  · exact hs file hbefore
  · rw [List.mem_singleton.mp hnow]

theorem keeps_announce (repo : String) (report : Report) :
    (host.recorded.announce repo report).Keeps (WritesOnly (utf8 report.blob)) := by
  have hdirs : (host.recorded.ensureGnostrDirsExist repo).Keeps
      (WritesOnly (utf8 report.blob)) :=
    (Session.keeps_request fun s hs => hs).bind fun _ =>
      (Session.keeps_request fun s hs => hs).bind fun _ =>
        Session.keeps_request fun s hs => hs
  have hcommit : (host.recorded.writeCommit repo report.hash report.blob).Keeps
      (WritesOnly (utf8 report.blob)) := by
    refine hdirs.bind fun _ => (host.keeps_writeFile _ _ _).bind fun _ =>
      (host.keeps_writeFile _ _ _).bind fun _ => (host.keeps_writeFile _ _ _).bind fun _ =>
        (Session.keeps_request fun s hs => hs).bind fun success => ?_
    cases success
    · exact Session.keeps_lift _
    · exact Session.keeps_lift _
  exact hcommit.bind fun _ => Session.Keeps.bind (fun s hs => hs) fun _ =>
    Session.keeps_lift _

end Host

section Announced

variable (sha1 : Bytes → Vector UInt8 20) (hex : Hex) (overflowChecks : Bool) (job : Job)

/-- A report is of one of the job's candidates, whose id begins with the target. -/
structure Job.Announces (report : Report) : Prop where
  candidate : ∃ value, report.blob =
    ((job.worker report.id).generateBlob value job.opts.timestamp.format).1
  hash : report.hash = gitObjectId sha1 hex "commit" (utf8 report.blob)
  target : job.opts.target.toList <+: report.hash.toList

/-- The worker of a thread, with whatever it has hashed before. -/
def Job.HasWorker (worker : Worker) : Prop :=
  ∃ id digest, worker = { job.worker id with digest }

structure Job.Inv (s : Mining) : Prop where
  workers : ∀ worker value, .trying worker value ∈ s.threads → job.HasWorker worker
  channel : ∀ report ∈ s.channel, job.Announces sha1 hex report

variable {sha1 hex overflowChecks job}

/-- A worker sends a candidate when it has met the target, and else goes on. -/
theorem Job.HasWorker.iterate {worker : Worker} (hworker : job.HasWorker worker)
    (value : UInt32) :
    (∀ report ∈ (worker.iterate sha1 hex overflowChecks value).2,
      job.Announces sha1 hex report) ∧
    ∀ next value', (worker.iterate sha1 hex overflowChecks value).1 = .trying next value' →
      job.HasWorker next := by
  obtain ⟨id, digest, rfl⟩ := hworker
  have hhash := calculate_generateBlob sha1 hex { job.worker id with digest } value
    job.opts.timestamp.format
  unfold Worker.iterate
  dsimp only
  split
  · rename_i htarget
    refine ⟨fun report hreport => ?_, fun next value' hnext => nomatch hnext⟩
    rw [List.mem_singleton.mp hreport]
    exact ⟨⟨value, rfl⟩, hhash, List.isPrefixOf_iff_prefix.mp htarget⟩
  · split
    · refine ⟨fun report hreport => absurd hreport List.not_mem_nil, ?_⟩
      intro next value' hnext
      cases hnext
      exact ⟨id, _, rfl⟩
    · refine ⟨fun report hreport => absurd hreport List.not_mem_nil, ?_⟩
      exact fun next value' hnext => nomatch hnext

theorem Job.Inv.start : job.Inv sha1 hex .start where
  workers _ _ hworker := absurd hworker List.not_mem_nil
  channel _ hreport := absurd hreport List.not_mem_nil

theorem Job.Inv.step {s : Mining} (hs : job.Inv sha1 hex s) (turn : Turn) :
    job.Inv sha1 hex (job.step sha1 hex overflowChecks s turn).1 ∧
      ∀ report ∈ (job.step sha1 hex overflowChecks s turn).2,
        job.Announces sha1 hex report := by
  have hnone : ∀ report ∈ ([] : List Report), job.Announces sha1 hex report :=
    fun report hreport => absurd hreport List.not_mem_nil
  cases turn with
  | spawn =>
      unfold Job.step
      dsimp only
      split
      · refine ⟨⟨fun worker value hworker => ?_, hs.channel⟩, hnone⟩
        rcases List.mem_append.mp hworker with hold | hnew
        · exact hs.workers worker value hold
        · cases List.mem_singleton.mp hnew
          exact ⟨_, .new, rfl⟩
      · exact ⟨hs, hnone⟩
  | iterate i =>
      unfold Job.step
      dsimp only
      split
      · rename_i worker value hthread
        have hworker := hs.workers worker value (List.mem_of_getElem? hthread)
        obtain ⟨hsent, hnext⟩ :=
          @Job.HasWorker.iterate sha1 hex overflowChecks job worker hworker value
        refine ⟨⟨fun other value' hother => ?_, fun report hreport => ?_⟩, hnone⟩
        · rcases List.mem_or_eq_of_mem_set hother with hold | hnew
          · exact hs.workers other value' hold
          · exact hnext other value' hnew.symm
        · rcases List.mem_append.mp hreport with hold | hnew
          · exact hs.channel report hold
          · exact hsent report hnew
      · exact ⟨hs, hnone⟩
  | recv =>
      unfold Job.step
      dsimp only
      split
      · split
        · exact ⟨hs, hnone⟩
        · rename_i report rest hchannel
          have hall := hs.channel
          rw [hchannel, List.forall_mem_cons] at hall
          refine ⟨⟨hs.workers, hall.2⟩, fun other hother => ?_⟩
          rw [List.mem_singleton.mp hother]
          exact hall.1
      · exact ⟨hs, hnone⟩

/-- Whatever the threads' turns, what `recv` returns is one of the job's commits. -/
theorem Job.announces_of_mem_trace (turns : List Turn) :
    ∀ report ∈ (job.mining sha1 hex overflowChecks).trace .start turns,
      job.Announces sha1 hex report :=
  (job.mining sha1 hex overflowChecks).forall_trace (job.Inv sha1 hex)
    (job.Announces sha1 hex) (fun _ turn hs => (hs.step turn).1)
    (fun _ turn hs => (hs.step turn).2) Job.Inv.start turns

end Announced

/-- What the miner announces is the commit it writes, and no two workers ever try the
same candidate. -/
theorem mined_commit_is_announced (sha1 : Bytes → Vector UInt8 20) (hex : Hex)
    (overflowChecks : Bool) (job : Job) (turns : List Turn) :
    (∀ report ∈ (job.mining sha1 hex overflowChecks).trace .start turns,
      job.opts.target.toList <+: report.hash.toList ∧
        report.hash = gitObjectId sha1 hex "commit" (utf8 report.blob) ∧
        ∀ (σ : Type) (host : Host σ) (s : σ),
          ∀ file ∈ (host.recorded.announce job.opts.repo report (s, [])).2.2,
            report.hash = gitObjectId sha1 hex "commit" file.2) ∧
    ∀ id value id' value' : UInt32, (id, value) ≠ (id', value') →
      let first := (job.worker id).generateBlob value job.opts.timestamp.format
      let second := (job.worker id').generateBlob value' job.opts.timestamp.format
      first.1 ≠ second.1 ∧ first.2 ≠ second.2 := by
  refine ⟨fun report hreport => ?_, fun id value id' value' hne => ?_⟩
  · have hannounces := Job.announces_of_mem_trace turns report hreport
    refine ⟨hannounces.target, hannounces.hash, fun σ host s file hfile => ?_⟩
    have hnothing : Host.WritesOnly (utf8 report.blob) (s, ([] : List (String × Bytes))) :=
      fun file hfile => absurd hfile List.not_mem_nil
    rw [host.keeps_announce job.opts.repo report _ hnothing file hfile]
    exact hannounces.hash
  · have hraw : ((job.worker id).generateBlob value job.opts.timestamp.format).1 ≠
        ((job.worker id').generateBlob value' job.opts.timestamp.format).1 := by
      intro hsame
      obtain ⟨hid, hvalue⟩ := generateBlob_injective (job.worker id) hsame
      exact hne (Prod.ext hid hvalue)
    exact ⟨hraw, fun hblob => hraw (raw_eq_of_blob_eq hblob)⟩

section Sample

def sampleJob : Job where
  opts := ⟨2, "8e", ["añadir"], ".", ⟨1700000000, -5400⟩⟩
  author := "Ana <ana@example.org>"
  tree := "4b825dc642cb6eb9a060e54bf8d69288fbee4904"
  parent := "e83c5163316f89bfbde7d9ab23ca2e25604af290"

def sampleTurns : List Turn := [.spawn, .spawn, .iterate 0, .iterate 1, .iterate 1, .recv]

/-- The second worker meets the target with its second candidate. -/
theorem trace_sampleJob :
    ((sampleJob.mining sha1 Hex.reference true).trace .start sampleTurns).map Report.hash =
      ["8edb322160b17abad24eb5325e4ca4fb298a19a0"] := by
  decide +kernel

theorem mined_commit_is_announced_sampleJob :
    ∃ report ∈ (sampleJob.mining sha1 Hex.reference true).trace .start sampleTurns,
      report.hash = "8edb322160b17abad24eb5325e4ca4fb298a19a0" ∧
        report.hash = gitObjectId sha1 Hex.reference "commit" (utf8 report.blob) := by
  obtain ⟨report, htrace, hhash⟩ := List.map_eq_singleton_iff.mp trace_sampleJob
  have hreport : report ∈
      (sampleJob.mining sha1 Hex.reference true).trace .start sampleTurns := by
    rw [htrace]
    exact List.mem_singleton.mpr rfl
  exact ⟨report, hreport, hhash,
    ((mined_commit_is_announced sha1 Hex.reference true sampleJob sampleTurns).1
      report hreport).2.1⟩

end Sample

end Legit

end Gnostr
