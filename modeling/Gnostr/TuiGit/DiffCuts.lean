/-
What a parsed diff or commit says about its text.  Its headers and the lines behind them cut
the text up, and every hunk is cut up by its changes.
-/
import Gnostr.TuiGit.DiffText

namespace Gnostr

namespace TuiGit

open CursorParser
open String (utf8Len)

variable {before word after : List Char}

section Pieces

/-- A parser that ends with where the cursor is. -/
theorem position_pure_reads {α : Type} {f : ℕ → α} {value : α}
    (hreads : (position >>= fun stop => pure (f stop) : Parser α).Reads before word after value) :
    word = [] ∧ value = f (utf8Len before) :=
  pure_reads_iff.mp (position_bind_leads_iff.mp hreads)

theorem hunkHeader_range {header : HunkHeader}
    (hreads : hunkHeader.Reads before word after header) : header.range = spanAt before word := by
  obtain ⟨old, rest, _, rfl, -, hreads⟩ := bind_reads_iff.mp (position_bind_leads_iff.mp hreads)
  obtain ⟨new, rest, _, rfl, -, hreads⟩ := bind_reads_iff.mp hreads
  obtain ⟨context, rest, _, rfl, -, hreads⟩ := bind_reads_iff.mp hreads
  obtain ⟨rfl, rfl⟩ := position_pure_reads hreads
  simp [spanAt]

theorem hunkContent_reads {content : HunkContent}
    (hreads : hunkContent.Reads before word after content) :
    content.range = spanAt before word ∧ ChangesCut before word after content.changes := by
  obtain ⟨lines, rest, changes, rfl, hchanges, hreads⟩ :=
    bind_reads_iff.mp (position_bind_leads_iff.mp hreads)
  obtain ⟨rfl, rfl⟩ := position_pure_reads hreads
  rw [List.append_nil]
  rw [List.nil_append] at hchanges
  exact ⟨by simp [spanAt], hunkContent_cut (Reads.repeats hchanges)⟩

theorem hunk_reads {read : Hunk} (hreads : hunk.Reads before word after read) :
    Cuts before word read.pieces ∧ read.CutIn (before ++ (word ++ after)) := by
  obtain ⟨first, rest, header, rfl, hheader, hreads⟩ :=
    bind_reads_iff.mp (position_bind_leads_iff.mp hreads)
  obtain ⟨last, rest, content, rfl, hcontent, hreads⟩ := bind_reads_iff.mp hreads
  obtain ⟨rfl, rfl⟩ := position_pure_reads hreads
  obtain ⟨hrange, hchanges⟩ := hunkContent_reads hcontent
  constructor
  · refine ⟨first, last, by rw [List.append_nil], hunkHeader_range hheader, ?_⟩
    exact ⟨last, [], (List.append_nil last).symm, hrange, rfl⟩
  · exact ⟨before ++ first, last, after, by simp, hrange, by simpa using hchanges⟩

theorem hunks_reads {hunks : List Hunk}
    (hrepeats : Repeats (peek "@@") hunk before word after hunks) :
    Cuts before word (hunks.flatMap Hunk.pieces) ∧
      ∀ read ∈ hunks, read.CutIn (before ++ (word ++ after)) := by
  induction hrepeats with
  | done => exact ⟨rfl, fun _ hmem => absurd hmem List.not_mem_nil⟩
  | @go before first last after read hunks _ hbody _ ih =>
      obtain ⟨hpieces, hcut⟩ := hunk_reads hbody
      rw [List.append_assoc] at ih ⊢
      refine ⟨hpieces.append ih.1, fun other hmem => ?_⟩
      rcases List.mem_cons.mp hmem with rfl | hmem
      · exact hcut
      · exact ih.2 other hmem

theorem unmergedFile_range {header : DiffHeader}
    (hreads : unmergedFile.Reads before word after header) :
    header.range = spanAt before word := by
  obtain ⟨lead, rest, path, rfl, hpath, hreads⟩ := bind_reads_iff.mp hreads
  obtain ⟨name, rest, file, rfl, -, hreads⟩ := bind_reads_iff.mp hreads
  obtain ⟨rfl, rfl⟩ := position_pure_reads hreads
  obtain ⟨-, rfl⟩ := consume_reads_iff.mp hpath
  simp [spanAt]

theorem fileHeader_range {start : ℕ} {header : DiffHeader}
    (hreads : (fileHeader start).Reads before word after header) :
    header.range = ⟨start, utf8Len before + utf8Len word⟩ := by
  obtain ⟨names, rest, _, rfl, -, hreads⟩ := bind_reads_iff.mp hreads
  obtain ⟨lines, rest, _, rfl, -, hreads⟩ := bind_reads_iff.mp hreads
  obtain ⟨lines', rest, _, rfl, -, hreads⟩ := bind_reads_iff.mp hreads
  obtain ⟨rfl, rfl⟩ := position_pure_reads hreads
  simp

theorem diffHeader_range {header : DiffHeader}
    (hreads : diffHeader.Reads before word after header) : header.range = spanAt before word := by
  rcases orElse_reads_iff.mp (position_bind_leads_iff.mp hreads) with
    hunmerged | ⟨first, last, rfl, -, hreads⟩
  · exact unmergedFile_range hunmerged
  · rw [fileHeader_range hreads]
    simp [spanAt, Nat.add_assoc]

theorem fileHunks_reads {status : Status} {hunks : List Hunk}
    (hreads : (fileHunks status).Reads before word after hunks) :
    (status ≠ .unmerged → Cuts before word (hunks.flatMap Hunk.pieces)) ∧
      ∀ read ∈ hunks, read.CutIn (before ++ (word ++ after)) := by
  rw [fileHunks] at hreads
  split_ifs at hreads with hstatus
  · obtain ⟨first, last, _, rfl, -, hnone⟩ := bind_reads_iff.mp hreads
    obtain ⟨-, rfl⟩ := pure_reads_iff.mp hnone
    exact ⟨fun hne => absurd hstatus hne, fun _ hmem => absurd hmem List.not_mem_nil⟩
  · obtain ⟨hpieces, hcut⟩ := hunks_reads (Reads.repeats hreads)
    exact ⟨fun _ => hpieces, hcut⟩

theorem fileDiff_reads {file : FileDiff} (hreads : fileDiff.Reads before word after file) :
    Cuts before word file.pieces ∧
      ∀ read ∈ file.hunks, read.CutIn (before ++ (word ++ after)) := by
  obtain ⟨first, rest, header, rfl, hheader, hreads⟩ :=
    bind_reads_iff.mp (position_bind_leads_iff.mp hreads)
  obtain ⟨last, rest, hunks, rfl, hhunks, hreads⟩ := bind_reads_iff.mp hreads
  obtain ⟨rfl, rfl⟩ := position_pure_reads hreads
  obtain ⟨hpieces, hcut⟩ := fileHunks_reads hhunks
  have hrange := diffHeader_range hheader
  refine ⟨⟨first, last, by rw [List.append_nil], hrange, ?_⟩, by simpa using hcut⟩
  split_ifs with hstatus
  · refine ⟨last, [], (List.append_nil last).symm, ?_, rfl⟩
    simp [hrange, spanAt, Nat.add_assoc]
  · exact hpieces hstatus

theorem diffs_read {files : List FileDiff}
    (hrepeats : Repeats isAtDiffHeader fileDiff before word after files) :
    Cuts before word (files.flatMap FileDiff.pieces) ∧
      ∀ file ∈ files, ∀ read ∈ file.hunks, read.CutIn (before ++ (word ++ after)) := by
  induction hrepeats with
  | done => exact ⟨rfl, fun _ hmem => absurd hmem List.not_mem_nil⟩
  | @go before first last after file files _ hbody _ ih =>
      obtain ⟨hpieces, hcut⟩ := fileDiff_reads hbody
      rw [List.append_assoc] at ih ⊢
      refine ⟨hpieces.append ih.1, fun other hmem => ?_⟩
      rcases List.mem_cons.mp hmem with rfl | hmem
      · exact hcut
      · exact ih.2 other hmem

theorem parseDiff_reads {files : List FileDiff}
    (hreads : parseDiff.Reads before word after files) :
    after = [] ∧ Cuts before word (files.flatMap FileDiff.pieces) ∧
      ∀ file ∈ files, ∀ read ∈ file.hunks, read.CutIn (before ++ (word ++ after)) := by
  have hstep := ask_bind_leads_iff.mp hreads
  split_ifs at hstep with hempty
  · obtain ⟨rfl, rfl⟩ := pure_reads_iff.mp hstep
    have hafter := List.append_eq_nil_iff.mp (List.isEmpty_iff.mp hempty)
    exact ⟨hafter.2, rfl, fun _ hmem => absurd hmem List.not_mem_nil⟩
  · obtain ⟨first, rest, diffs, rfl, hdiffs, hreads⟩ := bind_reads_iff.mp hstep
    obtain ⟨last, rest, _, rfl, hend, hnone⟩ := bind_reads_iff.mp hreads
    obtain ⟨rfl, rfl⟩ := pure_reads_iff.mp hnone
    obtain ⟨rfl, hafter, -⟩ := eof_reads_iff.mp hend
    refine ⟨hafter, ?_⟩
    simpa using diffs_read (Reads.repeats hdiffs)

theorem commitHeader_range {header : CommitHeader}
    (hreads : commitHeader.Reads before word after header) :
    header.range = spanAt before word := by
  obtain ⟨lead, rest, _, rfl, -, hreads⟩ :=
    bind_reads_iff.mp (position_bind_leads_iff.mp hreads)
  obtain ⟨hash, rest, _, rfl, -, hreads⟩ := bind_reads_iff.mp hreads
  obtain ⟨message, rest, _, rfl, -, hreads⟩ := bind_reads_iff.mp hreads
  obtain ⟨rfl, rfl⟩ := position_pure_reads hreads
  simp [spanAt]

theorem parseCommit_reads {commit : Commit}
    (hreads : parseCommit.Reads before word after commit) :
    after = [] ∧ Cuts before word commit.pieces ∧
      ∀ file ∈ commit.diff, ∀ read ∈ file.hunks, read.CutIn (before ++ (word ++ after)) := by
  obtain ⟨first, rest, header, rfl, hheader, hreads⟩ := bind_reads_iff.mp hreads
  obtain ⟨last, none, files, rfl, hfiles, hnone⟩ := bind_reads_iff.mp hreads
  obtain ⟨rfl, rfl⟩ := pure_reads_iff.mp hnone
  obtain ⟨hafter, hcuts, hhunks⟩ := parseDiff_reads hfiles
  rw [List.nil_append] at hafter
  subst hafter
  refine ⟨rfl, ⟨first, last, by rw [List.append_nil], commitHeader_range hheader, hcuts⟩, ?_⟩
  simpa using hhunks

end Pieces

section Texts

variable {text : List Char} {stop : ℕ}

/-- A diff that is parsed is cut up by the headers and the lines of its files, and the lines
of every hunk by its changes. -/
theorem parseDiff_cuts {files : List FileDiff} (hparse : parseDiff text 0 = (.ok files, stop)) :
    CutUp text (files.flatMap FileDiff.pieces) ∧
      ∀ file ∈ files, ∀ hunk ∈ file.hunks, hunk.CutIn text := by
  obtain ⟨word, after, rfl, hreads⟩ := exists_reads hparse
  obtain ⟨rfl, hcuts, hhunks⟩ := parseDiff_reads hreads
  rw [List.append_nil]
  rw [List.append_nil] at hhunks
  exact ⟨hcuts.cutUp, hhunks⟩

/-- One file with one hunk, in which a line is replaced. -/
def docDiff : List Char :=
  ("diff --git a/file1.txt b/file2.txt\nindex 0000000..1111111 100644\n--- a/file1.txt\n" ++
    "+++ b/file2.txt\n@@ -1,2 +1,2 @@\n-foo\n+bar\n").toList

def docFile : FileDiff :=
  ⟨⟨0, 123⟩, ⟨⟨0, 97⟩, ⟨13, 22⟩, ⟨25, 34⟩, .modified⟩,
    [⟨⟨97, 123⟩, ⟨⟨97, 113⟩, 1, 2, 1, 2, ⟨112, 113⟩⟩,
      ⟨⟨113, 123⟩, [⟨⟨113, 118⟩, ⟨118, 123⟩⟩]⟩⟩]⟩

theorem parseDiff_cuts_doc : CutUp docDiff docFile.pieces ∧
    ∀ hunk ∈ docFile.hunks, hunk.CutIn docDiff := by
  have hparse : parseDiff docDiff 0 = (.ok [docFile], 123) := by decide +kernel
  obtain ⟨hcut, hhunks⟩ := parseDiff_cuts hparse
  exact ⟨by simpa using hcut, hhunks docFile List.mem_cons_self⟩

/-- So is the text of a commit, whose header goes up to the first file. -/
theorem parseCommit_cuts {commit : Commit} (hparse : parseCommit text 0 = (.ok commit, stop)) :
    CutUp text commit.pieces ∧
      ∀ file ∈ commit.diff, ∀ hunk ∈ file.hunks, hunk.CutIn text := by
  obtain ⟨word, after, rfl, hreads⟩ := exists_reads hparse
  obtain ⟨rfl, hcuts, hhunks⟩ := parseCommit_reads hreads
  rw [List.append_nil]
  rw [List.append_nil] at hhunks
  exact ⟨hcuts.cutUp, hhunks⟩

def fooCommit : List Char :=
  ("commit 9318f40\n\n    add tests\n\n" ++
    "diff --git a/foo b/foo\n@@ -1 +1 @@\n-foo\n+bar\n").toList

def fooFile : FileDiff :=
  ⟨⟨31, 76⟩, ⟨⟨31, 54⟩, ⟨44, 47⟩, ⟨50, 53⟩, .modified⟩,
    [⟨⟨54, 76⟩, ⟨⟨54, 66⟩, 1, 1, 1, 1, ⟨65, 66⟩⟩,
      ⟨⟨66, 76⟩, [⟨⟨66, 71⟩, ⟨71, 76⟩⟩]⟩⟩]⟩

theorem parseCommit_cuts_foo : CutUp fooCommit (⟨0, 31⟩ :: fooFile.pieces) ∧
    ∀ hunk ∈ fooFile.hunks, hunk.CutIn fooCommit := by
  have hparse : parseCommit fooCommit 0 = (.ok ⟨⟨⟨0, 31⟩, ⟨7, 14⟩⟩, [fooFile]⟩, 76) := by
    decide +kernel
  obtain ⟨hcut, hhunks⟩ := parseCommit_cuts hparse
  exact ⟨by simpa [Commit.pieces] using hcut, hhunks fooFile List.mem_cons_self⟩

end Texts

end TuiGit

end Gnostr
