/-
The git remote helper protocol of `git-helpers/src/protocol.rs`: commands are read from
stdin line by line and answered on stdout by a helper.
-/
import Gnostr.GitHelpers.RemoteHelper
import Gnostr.Lib.Lines

namespace Gnostr

namespace GitHelpers

open Gnostr.Types

/-- A single fetch request from git. -/
structure FetchCmd where
  oid : String
  name : String
deriving DecidableEq

/-- A git remote helper backend; an error is what `{e:#}` shows of it. -/
structure RemoteHelper (σ : Type) where
  capabilities : σ → List String
  list : Bool → Session σ String (List GitRef)
  fetch : List FetchCmd → Session σ String Unit
  push : List PushSpec → Session σ String (List PushResult)

section Wire

def parseFetchLine (line : List Char) : Option FetchCmd := do
  let rest ← line.dropPrefix? "fetch ".toList
  let (oid, name) ← splitOnce ' ' rest
  return ⟨String.ofList oid, String.ofList name⟩

def parsePushLine (line : List Char) : Option PushSpec := do
  let rest ← line.dropPrefix? "push ".toList
  let (force, rest) :=
    match rest.dropPrefix? ['+'] with
    | some r => (true, r)
    | none => (false, rest)
  let (src, dst) ← splitOnce ':' rest
  return ⟨force, String.ofList src, String.ofList dst⟩

/-- The lines up to a blank one or the end of input that start with the prefix, and
what is left on stdin, which is given by what each `read_line` takes from it.  A line
that is no text ends a batch too. -/
def batchLines (leader : List Char) : List Bytes → List (List Char) × List Bytes
  | [] => ([], [])
  | piece :: stdin =>
      match fromUtf8 piece with
      | none => ([], stdin)
      | some line =>
          let t := trimChars line.toList
          if t = [] then ([], stdin)
          else
            let rest := batchLines leader stdin
            if leader.isPrefixOf t then (t :: rest.1, rest.2) else rest

/-- One command with its batch: for a fetch and a push the lines in it. -/
inductive Request where
  | capabilities
  | list (forPush : Bool)
  | fetch (lines : List (List Char))
  | push (lines : List (List Char))
  | option
  | unknown
deriving DecidableEq

/-- What the trimmed line asks for, and what is left on stdin. -/
def readRequest (trimmed : List Char) (stdin : List Bytes) : Request × List Bytes :=
  if trimmed = "capabilities".toList then (.capabilities, stdin)
  else if trimmed = "list".toList ∨ trimmed = "list for-push".toList then
    (.list ("for-push".toList.isSuffixOf trimmed), stdin)
  else if "fetch ".toList.isPrefixOf trimmed then
    let batch := batchLines "fetch ".toList stdin
    (.fetch (trimmed :: batch.1), batch.2)
  else if "push ".toList.isPrefixOf trimmed then
    let batch := batchLines "push ".toList stdin
    (.push (trimmed :: batch.1), batch.2)
  else if "option ".toList.isPrefixOf trimmed then (.option, stdin)
  else (.unknown, stdin)

theorem length_batchLines_le (leader : List Char) (stdin : List Bytes) :
    (batchLines leader stdin).2.length ≤ stdin.length := by
  induction stdin with
  | nil => exact Nat.le_refl 0
  | cons piece stdin ih =>
      rw [batchLines, List.length_cons]
      dsimp only
      split
      · exact Nat.le_succ _
      · split
        · exact Nat.le_succ _
        · split
          · exact Nat.le_succ_of_le ih
          · exact Nat.le_succ_of_le ih

theorem length_readRequest_le (trimmed : List Char) (stdin : List Bytes) :
    (readRequest trimmed stdin).2.length ≤ stdin.length := by
  unfold readRequest
  dsimp only
  split_ifs
  · exact Nat.le_refl _
  · exact Nat.le_refl _
  · exact length_batchLines_le _ stdin
  · exact length_batchLines_le _ stdin
  · exact Nat.le_refl _
  · exact Nat.le_refl _

end Wire

section Loop

/-- What the helper has written: responses for git, diagnostics for the user. -/
structure Console where
  stdout : String
  stderr : String
deriving DecidableEq

def Console.empty : Console := ⟨"", ""⟩

def GitRef.line (r : GitRef) : String :=
  match r.symrefTarget with
  | some target => "@" ++ target ++ " " ++ r.name
  | none => r.oid ++ " " ++ r.name

def PushResult.line (r : PushResult) : String :=
  match r.result with
  | .ok () => "ok " ++ r.dst
  | .error e => "error " ++ r.dst ++ " " ++ e

/-- Each line with its line break. -/
def unlines : List String → String
  | [] => ""
  | line :: rest => line ++ "\n" ++ unlines rest

variable {σ : Type}

/-- `writeln!` of each line on stdout. -/
def writeLines (lines : List String) : Session (σ × Console) String Unit :=
  fun s => (.ok (), s.1, { s.2 with stdout := s.2.stdout ++ unlines lines })

/-- `eprintln!`. -/
def logLine (text : String) : Session (σ × Console) String Unit :=
  fun s => (.ok (), s.1, { s.2 with stderr := s.2.stderr ++ unlines [text] })

namespace RemoteHelper

variable (helper : RemoteHelper σ)

/-- The arm of each command, its blank line included; a line that is no command has
none. -/
def answer : Request → Session (σ × Console) String Unit
  | .capabilities => do
      let s ← fun s => (.ok s.1, s)
      writeLines (helper.capabilities s)
      writeLines [""]
  | .list forPush => do
      match ← (helper.list forPush).attempt.onFst with
      | .ok refs => writeLines (refs.map GitRef.line)
      | .error e => logLine ("[git-remote] list error: " ++ e)
      writeLines [""]
  | .fetch lines => do
      match ← (helper.fetch (lines.filterMap parseFetchLine)).attempt.onFst with
      | .ok () => pure ()
      | .error e => logLine ("[git-remote] fetch error: " ++ e)
      writeLines [""]
  | .push lines => do
      match ← (helper.push (lines.filterMap parsePushLine)).attempt.onFst with
      | .ok results => writeLines (results.map PushResult.line)
      | .error e => logLine ("[git-remote] push error: " ++ e)
      writeLines [""]
  | .option => writeLines ["unsupported"]
  | .unknown => return ()

/-- `run_helper`, on what each `read_line` takes from stdin: it ends at the end of
input, at a blank line, and with an error at a line that is no text. -/
def run : List Bytes → Session (σ × Console) String Unit
  | [] => return ()
  | piece :: stdin =>
      match fromUtf8 piece with
      | none => Session.fail "reading stdin"
      | some line =>
          let trimmed := trimChars line.toList
          if trimmed = [] then return ()
          else do
            answer helper (readRequest trimmed stdin).1
            run (readRequest trimmed stdin).2
termination_by stdin => stdin.length
decreasing_by
  exact Nat.lt_succ_of_le (length_readRequest_le _ _)

/-- `run_helper`: what it returns, the helper as it leaves it, and what it writes. -/
def runHelper (stdin : Bytes) (s : σ) : Outcome String Unit × σ × Console :=
  run helper (readLines lineBreak stdin) (s, Console.empty)

end RemoteHelper

end Loop

end GitHelpers

end Gnostr
