/-
Messages of the chat, how they are shown, and the events of the UI: `chat/src/msg.rs` and
`event.rs`.
-/
import Gnostr.Lib.Lines
import Gnostr.Lib.Outcome

namespace Gnostr

namespace Chat

/-- Message categories understood by the chat UI and P2P transport. -/
inductive MsgKind
  | chat | join | leave | system | raw | command
  | gitCommitId | gitCommitParent | gitCommitTree | gitCommitAuthor | gitCommitName
  | gitCommitEmail | gitCommitMessagePart | gitCommitHeader | gitCommitBody | gitCommitTime
  | nostrEvent | gitDiff | oneShot | debug
deriving DecidableEq, Repr

structure CommitId where
  oid : Vector UInt8 20
deriving DecidableEq

def CommitId.zeroSha1 : CommitId := ⟨Vector.replicate 20 0⟩

/-- A single chat message or structured payload moving through the swarm; `sender` is
the field `from`. -/
structure Msg (E : Type) where
  sender : String
  content : List String
  kind : MsgKind
  commitId : CommitId
  nostrEvent : Option E
  messageId : Option String
  sequenceNum : Option ℕ
  totalChunks : Option ℕ
deriving DecidableEq

variable {E : Type}

namespace Msg

/-- The default message of a user. -/
def default (userName : String) : Msg E :=
  ⟨userName, ["", ""], .chat, .zeroSha1, none, none, none, none⟩

def setKind (m : Msg E) (kind : MsgKind) : Msg E := { m with kind }

/-- `content[i]`. -/
def line (m : Msg E) (i : ℕ) : Outcome Empty String :=
  match m.content[i]? with
  | some line => .ok line
  | none => .panic

def setContent (m : Msg E) (content : String) : Outcome Empty (Msg E) :=
  match m.content with
  | [] => .panic
  | _ :: rest => .ok { m with content := content :: rest }

/-- The text of an object with one member. -/
def labelled (label value : String) : String :=
  "\x7b\"" ++ label ++ "\": \"" ++ value ++ "\"\x7d"

def fmtGitCommit (m : Msg E) (label : String) : Outcome Empty String := do
  let first ← m.line 0
  let second ← m.line 1
  return labelled label first ++ " " ++ second

/-- `Display`. -/
def fmt (m : Msg E) : Outcome Empty String :=
  match m.kind with
  | .join => .ok (m.sender ++ " joined!")
  | .leave => .ok (m.sender ++ " left!")
  | .chat => (m.sender ++ ": " ++ ·) <$> m.line 0
  | .system => ("[System] " ++ ·) <$> m.line 0
  | .raw => m.line 0
  | .command => ("[Command] " ++ m.sender ++ ":" ++ ·) <$> m.line 0
  | .debug => ("[DEBUG] " ++ m.sender ++ ": " ++ ·) <$> m.line 0
  | .gitCommitId => m.fmtGitCommit "commit"
  | .gitCommitTree => m.fmtGitCommit "tree"
  | .gitCommitParent => m.fmtGitCommit "parent"
  | .gitCommitHeader => m.fmtGitCommit "header"
  | .gitCommitAuthor => m.fmtGitCommit "Author"
  | .gitCommitEmail => m.fmtGitCommit "email"
  | .gitCommitName => m.fmtGitCommit "name"
  | .gitCommitBody => m.fmtGitCommit "body"
  | .gitCommitMessagePart => m.fmtGitCommit "msg"
  | .gitCommitTime => m.fmtGitCommit "time"
  | .nostrEvent => ("[Nostr Event] " ++ ·) <$> m.line 0
  | .gitDiff => .ok "[Git Diff]"
  | .oneShot => ("[ONESHOT] " ++ m.sender ++ ": " ++ ·) <$> m.line 0

end Msg

section Line

inductive Color
  | red | green | yellow | blue | magenta | cyan | white
  | rgb (r g b : UInt8)
deriving DecidableEq, Repr

structure Style where
  fg : Option Color
  bold : Bool
  italic : Bool
deriving DecidableEq, Repr

def Style.default : Style := ⟨none, false, false⟩

def Style.italics : Style := ⟨none, false, true⟩

/-- A part of a line on the screen. -/
structure Span where
  content : String
  style : Style
deriving DecidableEq, Repr

def Span.raw (content : String) : Span := ⟨content, .default⟩

/-- The lines of a text, without what ends them. -/
def strLines (text : String) : List String :=
  (readLines '\n' text.toList).map fun piece =>
    match piece.reverse with
    | '\n' :: '\r' :: rest | '\n' :: rest => String.ofList rest.reverse
    | _ => String.ofList piece

/-- `Display` of a span, which leaves line breaks out. -/
def Span.fmt (span : Span) : String := String.join (strLines span.content)

namespace Msg

/-- Two spans, which are formatted and lose their style. -/
def gitCommitSpans (m : Msg E) (label : String) : Outcome Empty (List Span) := do
  let first ← m.line 0
  let second ← m.line 1
  return [⟨labelled label first, .italics⟩, Span.raw second].map fun span =>
    Span.raw span.fmt

/-- The first line behind the sender, the others as they are, all in one style. -/
def styledSpans (m : Msg E) (leader : String) (style : Style) : List Span :=
  (m.content.head?.map fun first => ⟨leader ++ m.sender ++ ": " ++ first, style⟩).toList ++
    m.content.tail.map fun line => ⟨line, style⟩

def diffStyle (line : String) : Style :=
  let color :=
    match line.toList.head? with
    | some '+' => Color.green
    | some '-' => Color.red
    | some '@' | some '\\' => Color.cyan
    | _ => Color.white
  ⟨some color, false, false⟩

/-- The message as a line on the screen. -/
def toLine (m : Msg E) : Outcome Empty (List Span) :=
  match m.kind with
  | .system => (fun text => [⟨text, some .red, false, true⟩]) <$> m.fmt
  | .join => (fun text => [⟨text, some .green, false, true⟩]) <$> m.fmt
  | .leave => (fun text => [⟨text, some .yellow, false, true⟩]) <$> m.fmt
  | .chat => .ok (m.styledSpans "" .default)
  | .raw => (fun text => (strLines text).map Span.raw) <$> m.line 0
  | .command => do
      let text ← m.line 0
      return [⟨"Command: " ++ m.sender ++ "> ", .italics⟩, Span.raw text]
  | .gitCommitId => m.gitCommitSpans "commit"
  | .gitCommitTree => m.gitCommitSpans "tree"
  | .gitCommitAuthor => m.gitCommitSpans "Author"
  | .gitCommitParent => m.gitCommitSpans "parent"
  | .gitCommitMessagePart => m.gitCommitSpans "msg"
  | .gitCommitName => m.gitCommitSpans "name"
  | .gitCommitEmail => m.gitCommitSpans "email"
  | .gitCommitTime => m.gitCommitSpans "time"
  | .gitCommitHeader => m.gitCommitSpans "header"
  | .gitCommitBody => m.gitCommitSpans "body"
  | .nostrEvent => do
      let text ← m.line 0
      return [⟨"[Nostr Event]", some .magenta, true, false⟩, Span.raw text]
  | .gitDiff => .ok (m.content.map fun line => ⟨line, diffStyle line⟩)
  | .oneShot => .ok (m.styledSpans "[ONESHOT] " ⟨some (.rgb 255 165 0), false, false⟩)
  | .debug => .ok (m.styledSpans "[DEBUG] " ⟨some .blue, false, false⟩)

end Msg

end Line

/-- What the UI and the event loop tell each other, `chat/src/event.rs`. -/
inductive ChatEvent (E : Type)
  | chatMessage (msg : Msg E)
  | showErrorMsg (text : String)
  | showInfoMsg (text : String)
  | peerConnected (peerId endpoint : String)
  | crawlerSearch (nip : Int32)

section Lines

/-- How many lines of content the display of a kind reads. -/
def MsgKind.linesRead : MsgKind → ℕ
  | .join | .leave | .gitDiff => 0
  | .gitCommitId | .gitCommitParent | .gitCommitTree | .gitCommitAuthor | .gitCommitName
  | .gitCommitEmail | .gitCommitMessagePart | .gitCommitHeader | .gitCommitBody
  | .gitCommitTime => 2
  | _ => 1

namespace Msg

variable (m : Msg E)

theorem returns_line_iff (i : ℕ) : (m.line i).Returns ↔ i < m.content.length := by
  unfold line
  split
  · rename_i line hline
    exact iff_of_true (Outcome.returns_ok line) (List.getElem?_eq_some_iff.mp hline).1
  · rename_i hnone
    exact iff_of_false Outcome.not_returns_panic
      (Nat.not_lt.mpr (List.getElem?_eq_none_iff.mp hnone))

theorem returns_two_lines_iff {α : Type} (next : String → String → Outcome Empty α)
    (hnext : ∀ first second, (next first second).Returns) :
    (m.line 0 >>= fun first => m.line 1 >>= next first).Returns ↔ 2 ≤ m.content.length := by
  rw [Outcome.returns_bind_iff, returns_line_iff]
  constructor
  · rintro ⟨hzero, hrest⟩
    unfold line at hrest
    rw [List.getElem?_eq_getElem hzero] at hrest
    have hsecond := (Outcome.returns_bind_iff.mp (hrest _ rfl)).1
    exact (returns_line_iff m 1).mp hsecond
  · intro htwo
    refine ⟨Nat.lt_of_lt_of_le Nat.zero_lt_two htwo, fun first _ => ?_⟩
    exact Outcome.returns_bind_iff.mpr
      ⟨(returns_line_iff m 1).mpr htwo, fun second _ => hnext first second⟩

theorem returns_fmtGitCommit_iff (label : String) :
    (m.fmtGitCommit label).Returns ↔ 2 ≤ m.content.length :=
  m.returns_two_lines_iff _ fun _ _ => Outcome.returns_ok _

theorem returns_gitCommitSpans_iff (label : String) :
    (m.gitCommitSpans label).Returns ↔ 2 ≤ m.content.length :=
  m.returns_two_lines_iff _ fun _ _ => Outcome.returns_ok _

/-- A message can be displayed exactly when it has the lines its kind reads. -/
theorem returns_fmt_iff : m.fmt.Returns ↔ m.kind.linesRead ≤ m.content.length := by
  unfold fmt
  cases m.kind <;>
    simp only [MsgKind.linesRead, Outcome.returns_map_iff, returns_line_iff,
      returns_fmtGitCommit_iff, Outcome.returns_ok, Nat.zero_le, Nat.succ_le_iff]

/-- The screen reads no more lines than the display. -/
theorem returns_toLine (hlines : m.kind.linesRead ≤ m.content.length) :
    m.toLine.Returns := by
  have hfmt := m.returns_fmt_iff.mpr hlines
  unfold toLine
  revert hlines
  cases m.kind <;>
    simp only [MsgKind.linesRead, Outcome.returns_map_iff, returns_line_iff, hfmt,
      returns_gitCommitSpans_iff, Outcome.returns_ok, Outcome.returns_bind_iff,
      Nat.succ_le_iff, imp_self, implies_true, and_true, Outcome.pure_eq]

end Msg

end Lines

end Chat

end Gnostr
