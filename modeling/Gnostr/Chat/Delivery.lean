/-
What arrives on the topic on its way to the screen: the message arm of `evt_loop` in
`chat/src/p2p.rs`.
-/
import Gnostr.Chat.Counting
import Gnostr.Types.FilterJson

namespace Gnostr

namespace Chat

open Gnostr.Types

variable {E : Type}

section Wrapping

/-- `textwrap::fill` to a width. -/
abbrev Fill := String → ℕ → String

def startsWith (text : String) (leader : String) : Bool :=
  leader.toList.isPrefixOf text.toList

def dropChars (text : String) (count : ℕ) : String := String.ofList (text.toList.drop count)

/-- What stands before the content of a line of a diff, and the content; a header line is
not taken apart. -/
def splitDiffLine (line : String) : Option (String × String) :=
  if startsWith line "+" then some ("+", dropChars line 1)
  else if startsWith line "-" then some ("-", dropChars line 1)
  else if startsWith line " " then some (" ", dropChars line 1)
  else if startsWith line "diff --git" || startsWith line "index" ||
      startsWith line "--- a/" || startsWith line "+++ b/" then none
  else if startsWith line "@@" then some ("@@", dropChars line 2)
  else some ("", line)

def wrapDiffLine (fill : Fill) (terminalWidth : ℕ) (line : String) : List String :=
  match splitDiffLine line with
  | none => [line]
  | some (leader, content) =>
      let indent := leader.toList.length
      let wrapWidth :=
        if terminalWidth > indent then terminalWidth - indent else terminalWidth
      (strLines (fill content wrapWidth)).mapIdx fun i segment =>
        if i = 0 then leader ++ segment
        else String.ofList (List.replicate indent ' ') ++ segment

def applyTextWrapping (fill : Fill) (msg : Msg E) (terminalWidth : ℕ) : Msg E :=
  match msg.content with
  | [] => msg
  | first :: _ =>
      match msg.kind with
      | .chat | .oneShot | .debug =>
          { msg with content := strLines (fill first terminalWidth) }
      | .gitDiff =>
          { msg with content := (strLines first).flatMap (wrapDiffLine fill terminalWidth) }
      | _ => msg

end Wrapping

section Reading

/-- The names of the kinds. -/
def MsgKind.name : MsgKind → String
  | .chat => "Chat" | .join => "Join" | .leave => "Leave" | .system => "System"
  | .raw => "Raw" | .command => "Command" | .gitCommitId => "GitCommitId"
  | .gitCommitParent => "GitCommitParent" | .gitCommitTree => "GitCommitTree"
  | .gitCommitAuthor => "GitCommitAuthor" | .gitCommitName => "GitCommitName"
  | .gitCommitEmail => "GitCommitEmail" | .gitCommitMessagePart => "GitCommitMessagePart"
  | .gitCommitHeader => "GitCommitHeader" | .gitCommitBody => "GitCommitBody"
  | .gitCommitTime => "GitCommitTime" | .nostrEvent => "NostrEvent" | .gitDiff => "GitDiff"
  | .oneShot => "OneShot" | .debug => "Debug"

def MsgKind.all : List MsgKind :=
  [.chat, .join, .leave, .system, .raw, .command, .gitCommitId, .gitCommitParent,
    .gitCommitTree, .gitCommitAuthor, .gitCommitName, .gitCommitEmail,
    .gitCommitMessagePart, .gitCommitHeader, .gitCommitBody, .gitCommitTime, .nostrEvent,
    .gitDiff, .oneShot, .debug]

/-- A kind is written as its name, or as an object with nothing under its name. -/
def MsgKind.ofJson : Json → Option MsgKind
  | .str name | .obj [(name, .null)] => MsgKind.all.find? fun kind => kind.name = name
  | _ => none

/-- What the messages are read with: JSON, object ids and events, and the text of an
error. -/
structure MsgReader (E : Type) where
  parse : Bytes → Option Json
  oidFromStr : String → Option CommitId
  eventOfJson : Json → Option E
  errorText : Bytes → String

namespace MsgReader

variable (reader : MsgReader E)

def commitIdOfJson (value : Json) : Option CommitId :=
  (deserializeString value).bind reader.oidFromStr

def usizeOfJson (value : Json) : Option ℕ := (deserializeUsize value).map UInt64.toNat

def fieldNames : List String :=
  ["from", "content", "kind", "commit_id", "nostr_event", "message_id", "sequence_num",
    "total_chunks"]

/-- The fields of an object by their names, those of an array by their places. -/
def members : Json → Option (List (String × Json))
  | .obj members => some members
  | .arr items =>
      if items.length ≤ fieldNames.length then some (fieldNames.zip items) else none
  | _ => none

/-- Every field has a default. -/
def msgOfJson (default : Msg E) (value : Json) : Option (Msg E) := do
  let members ← members value
  let sender ← deserializeField members "from" default.sender deserializeString
  let content ← deserializeField members "content" default.content
    (deserializeList deserializeString)
  let kind ← deserializeField members "kind" default.kind MsgKind.ofJson
  let commitId ← deserializeField members "commit_id" default.commitId reader.commitIdOfJson
  let nostrEvent ← deserializeField members "nostr_event" default.nostrEvent
    (deserializeOption reader.eventOfJson)
  let messageId ← deserializeField members "message_id" default.messageId
    (deserializeOption deserializeString)
  let sequenceNum ← deserializeField members "sequence_num" default.sequenceNum
    (deserializeOption usizeOfJson)
  let totalChunks ← deserializeField members "total_chunks" default.totalChunks
    (deserializeOption usizeOfJson)
  return ⟨sender, content, kind, commitId, nostrEvent, messageId, sequenceNum, totalChunks⟩

/-- `serde_json::from_slice`. -/
def fromSlice (userName : String) (data : Bytes) : Except String (Msg E) :=
  match (reader.parse data).bind (reader.msgOfJson (.default userName)) with
  | some msg => .ok msg
  | none => .error (reader.errorText data)

end MsgReader

end Reading

section Receive

variable (p : Process) (fill : Fill) (reader : MsgReader E)

/-- A message of the topic, and the width of the terminal when it comes. -/
structure Incoming where
  data : Bytes
  terminalWidth : ℕ

/-- The message arm of the event loop. -/
def receive (incoming : Incoming) : Session (Buffer E) Empty (Option (ChatEvent E)) :=
  match reader.fromSlice p.userName incoming.data with
  | .ok msg =>
      if msg.messageId.isSome && msg.sequenceNum.isSome && msg.totalChunks.isSome then do
        match ← addChunkAndReassemble p msg with
        | some reassembledMsg =>
            return some (.chatMessage
              (applyTextWrapping fill reassembledMsg incoming.terminalWidth))
        | none => return none
      else return some (.chatMessage (applyTextWrapping fill msg incoming.terminalWidth))
  | .error e => do
      let m : Msg E ← Session.lift
        ((Msg.default p.userName).setContent ("Error deserializing message: " ++ e))
      let text ← Session.lift (m.setKind .system).fmt
      return some (.showErrorMsg text)

def receiveAll : List Incoming → Session (Buffer E) Empty (List (Option (ChatEvent E)))
  | [] => pure []
  | incoming :: rest => do
      let event ← receive p fill reader incoming
      let events ← receiveAll rest
      return event :: events

/-- The message can be displayed and put on the screen. -/
def ChatEvent.Renders : ChatEvent E → Prop
  | chatMessage msg => msg.fmt.Returns ∧ msg.toLine.Returns
  | _ => True

/-- The message is received, and what the UI is told of it can be shown. -/
def Survives (buffer : Buffer E) (incoming : Incoming) : Prop :=
  ∃ event after, receive p fill reader incoming buffer = (.ok event, after) ∧
    ∀ e ∈ event, e.Renders

/-- The message has the lines its kind reads, and its first line is not wrapped to
nothing. -/
def Presentable (terminalWidth : ℕ) (msg : Msg E) : Prop :=
  msg.kind.linesRead ≤ msg.content.length ∧
    (msg.kind = .chat ∨ msg.kind = .oneShot ∨ msg.kind = .debug →
      ∀ first ∈ msg.content.head?, fill first terminalWidth ≠ "")

/-- A chunk can be added, and if it completes a message that can be presented; any other
message can be presented. -/
def Handles (buffer : Buffer E) (terminalWidth : ℕ) (msg : Msg E) : Prop :=
  match msg.messageId, msg.sequenceNum, msg.totalChunks with
  | some messageId, some sequenceNum, some totalChunks =>
      Accepts p buffer msg messageId sequenceNum totalChunks ∧
        ∀ first rest, (buffer.entryFor messageId totalChunks).Completes msg sequenceNum
          totalChunks (first :: rest) → Presentable fill terminalWidth (joined first rest)
  | _, _, _ => Presentable fill terminalWidth msg

end Receive

section Presentable

variable {fill : Fill} {msg : Msg E} {terminalWidth : ℕ}

theorem strLines_eq_nil_iff {text : String} : strLines text = [] ↔ text = "" := by
  rw [strLines, List.map_eq_nil_iff]
  constructor
  · intro hnil
    rw [← String.toList_inj, String.toList_empty]
    cases hchars : text.toList with
    | nil => rfl
    | cons c rest =>
        rw [hchars, readLines] at hnil
        split at hnil
        · cases hnil
        · split at hnil
          · cases hnil
          · cases hnil
  · rintro rfl
    rfl

/-- Wrapping leaves the lines a kind reads, unless it leaves nothing of the first. -/
theorem linesRead_applyTextWrapping_iff :
    (applyTextWrapping fill msg terminalWidth).kind.linesRead ≤
        (applyTextWrapping fill msg terminalWidth).content.length ↔
      Presentable fill terminalWidth msg := by
  unfold applyTextWrapping Presentable
  cases hcontent : msg.content with
  | nil => simp [hcontent]
  | cons first rest =>
      have hwrapped : 1 ≤ (strLines (fill first terminalWidth)).length ↔
          fill first terminalWidth ≠ "" := by
        rw [Nat.one_le_iff_ne_zero, ne_eq, List.length_eq_zero_iff, strLines_eq_nil_iff]
      cases hkind : msg.kind <;> simp [MsgKind.linesRead, hkind, hcontent, hwrapped]

theorem renders_applyTextWrapping_iff :
    (ChatEvent.chatMessage (applyTextWrapping fill msg terminalWidth)).Renders ↔
      Presentable fill terminalWidth msg := by
  rw [← linesRead_applyTextWrapping_iff, ChatEvent.Renders, Msg.returns_fmt_iff]
  exact and_iff_left_of_imp (Msg.returns_toLine _)

end Presentable

section Survival

variable {p : Process} {fill : Fill} {reader : MsgReader E} {buffer : Buffer E}
  {incoming : Incoming} {msg : Msg E}

theorem survives_of_error {e : String}
    (hread : reader.fromSlice p.userName incoming.data = .error e) :
    Survives p fill reader buffer incoming := by
  have hreceive : receive p fill reader incoming buffer =
      (.ok (some (.showErrorMsg ("[System] " ++ ("Error deserializing message: " ++ e)))),
        buffer) := by
    rw [receive, hread]
    rfl
  refine ⟨_, buffer, hreceive, fun event hevent => ?_⟩
  cases hevent
  trivial

/-- A message in one part goes to the screen as it is wrapped. -/
theorem survives_iff_of_receive {result : Option (Msg E)} {after : Buffer E}
    (hreceive : receive p fill reader incoming buffer =
      (.ok (result.map fun msg =>
        .chatMessage (applyTextWrapping fill msg incoming.terminalWidth)), after)) :
    Survives p fill reader buffer incoming ↔
      ∀ msg ∈ result, Presentable fill incoming.terminalWidth msg := by
  rw [Survives, hreceive]
  constructor
  · rintro ⟨event, _, heq, hrenders⟩ msg rfl
    cases heq
    exact renders_applyTextWrapping_iff.mp (hrenders _ rfl)
  · intro hpresentable
    refine ⟨_, _, rfl, fun event hevent => ?_⟩
    obtain ⟨msg, hmsg, rfl⟩ := Option.map_eq_some_iff.mp hevent
    exact renders_applyTextWrapping_iff.mpr (hpresentable msg hmsg)

theorem survives_iff_of_single (hread : reader.fromSlice p.userName incoming.data = .ok msg)
    (hsingle : (msg.messageId.isSome && msg.sequenceNum.isSome && msg.totalChunks.isSome) =
      false) :
    Survives p fill reader buffer incoming ↔
      Presentable fill incoming.terminalWidth msg := by
  have hreceive : receive p fill reader incoming buffer =
      (.ok ((some msg).map fun msg =>
        .chatMessage (applyTextWrapping fill msg incoming.terminalWidth)), buffer) := by
    rw [receive, hread]
    dsimp only
    rw [hsingle]
    rfl
  rw [survives_iff_of_receive hreceive]
  exact ⟨fun hall => hall msg rfl, fun hmsg other hother => Option.some.inj hother ▸ hmsg⟩

/-- A chunk goes to the reassembler, and what that returns to the screen. -/
theorem survives_iff_of_chunk (hbuffer : buffer.Counted)
    (hread : reader.fromSlice p.userName incoming.data = .ok msg) {messageId : String}
    {sequenceNum totalChunks : ℕ} (hid : msg.messageId = some messageId)
    (hnumber : msg.sequenceNum = some sequenceNum)
    (htotal : msg.totalChunks = some totalChunks) :
    Survives p fill reader buffer incoming ↔
      Accepts p buffer msg messageId sequenceNum totalChunks ∧
        ∀ first rest, (buffer.entryFor messageId totalChunks).Completes msg sequenceNum
          totalChunks (first :: rest) →
            Presentable fill incoming.terminalWidth (joined first rest) := by
  have hreturns := returns_addChunkAndReassemble_iff (p := p) hbuffer hid hnumber htotal
  have hreceive : receive p fill reader incoming =
      addChunkAndReassemble p msg >>= fun
        | some reassembledMsg => pure (some (.chatMessage
            (applyTextWrapping fill reassembledMsg incoming.terminalWidth)))
        | none => pure none := by
    rw [receive, hread]
    dsimp only
    rw [hid, hnumber, htotal]
    rfl
  by_cases haccepts : Accepts p buffer msg messageId sequenceNum totalChunks
  · rw [and_iff_right haccepts]
    rcases haccepts.addChunkAndReassemble_cases hbuffer hid hnumber htotal with
      ⟨first, rest, after, hcompletes, hcall⟩ | ⟨hnot, after, hcall⟩
    · have hevent : receive p fill reader incoming buffer =
          (.ok ((some (joined first rest)).map fun msg =>
            .chatMessage (applyTextWrapping fill msg incoming.terminalWidth)), after) := by
        rw [hreceive, Session.bind_of_ok hcall]
        rfl
      rw [survives_iff_of_receive hevent]
      constructor
      · intro hall first' rest' hcompletes'
        cases hcompletes.unique hcompletes'
        exact hall _ rfl
      · rintro hall msg ⟨⟩
        exact hall first rest hcompletes
    · have hevent : receive p fill reader incoming buffer =
          (.ok ((none : Option (Msg E)).map fun msg =>
            .chatMessage (applyTextWrapping fill msg incoming.terminalWidth)), after) := by
        rw [hreceive, Session.bind_of_ok hcall]
        rfl
      rw [survives_iff_of_receive hevent]
      exact iff_of_true nofun fun first rest hcompletes => absurd hcompletes (hnot _)
  · refine iff_of_false ?_ fun hboth => haccepts hboth.1
    rintro ⟨event, after, hevent, _⟩
    have hpanic : (addChunkAndReassemble p msg buffer).1 = .panic := by
      by_contra hne
      exact haccepts (hreturns.mp hne)
    have hcall : addChunkAndReassemble p msg buffer =
        (.panic, (addChunkAndReassemble p msg buffer).2) := Prod.ext hpanic rfl
    rw [hreceive, Session.bind_of_panic hcall] at hevent
    cases hevent

theorem survives_iff_handles_of_counted (hbuffer : buffer.Counted) :
    Survives p fill reader buffer incoming ↔
      ∀ msg, reader.fromSlice p.userName incoming.data = .ok msg →
        Handles p fill buffer incoming.terminalWidth msg := by
  cases hread : reader.fromSlice p.userName incoming.data with
  | error e => exact iff_of_true (survives_of_error hread) nofun
  | ok msg =>
      have hmsg : (∀ other, Except.ok msg = (.ok other : Except String (Msg E)) →
          Handles p fill buffer incoming.terminalWidth other) ↔
            Handles p fill buffer incoming.terminalWidth msg :=
        ⟨fun hall => hall msg rfl, fun hhandles _ hother => Except.ok.inj hother ▸ hhandles⟩
      rw [hmsg, Handles]
      split
      · rename_i messageId sequenceNum totalChunks hid hnumber htotal
        exact survives_iff_of_chunk hbuffer hread hid hnumber htotal
      · rename_i hnot
        refine survives_iff_of_single hread ?_
        by_contra hchunk
        simp only [Bool.not_eq_false, Bool.and_eq_true, Option.isSome_iff_exists] at hchunk
        obtain ⟨⟨⟨messageId, hid⟩, sequenceNum, hnumber⟩, totalChunks, htotal⟩ := hchunk
        exact hnot _ _ _ hid hnumber htotal

/-- Whatever arrives, the counters stay right. -/
theorem keeps_receive (incoming : Incoming) :
    (receive p fill reader incoming).Keeps Buffer.Counted := by
  unfold receive
  split
  · rename_i msg _
    split
    · refine Session.Keeps.bind (fun s hs => hs.addChunkAndReassemble p msg) ?_
      intro result
      cases result with
      | none => exact Session.keeps_lift _
      | some reassembledMsg => exact Session.keeps_lift _
    · exact Session.keeps_lift _
  · exact (Session.keeps_lift _).bind fun m => (Session.keeps_lift _).bind fun text =>
      Session.keeps_lift _

theorem keeps_receiveAll (arrived : List Incoming) :
    (receiveAll p fill reader arrived).Keeps Buffer.Counted := by
  induction arrived with
  | nil => exact Session.keeps_lift _
  | cons incoming arrived ih =>
      exact (keeps_receive incoming).bind fun event => ih.bind fun events =>
        Session.keeps_lift _

/-- In every state that a session can reach, what arrives is survived exactly when it
cannot be read, or is handled. -/
theorem survives_iff_handles {arrived : List Incoming}
    {events : List (Option (ChatEvent E))}
    (hreached : receiveAll p fill reader arrived ∅ = (.ok events, buffer)) :
    Survives p fill reader buffer incoming ↔
      ∀ msg, reader.fromSlice p.userName incoming.data = .ok msg →
        Handles p fill buffer incoming.terminalWidth msg := by
  have hcounted : (receiveAll p fill reader arrived ∅).2.Counted :=
    keeps_receiveAll arrived ∅ Buffer.counted_empty
  rw [hreached] at hcounted
  exact survives_iff_handles_of_counted hcounted

end Survival

section Sample

/-- How a text of one line that is shorter than the terminal is wide is filled. -/
def fillShort : Fill := fun text _ =>
  String.ofList (text.toList.reverse.dropWhile (· = ' ')).reverse

def demoReader : MsgReader Empty where
  parse data := (fromUtf8 data).bind JsonReader.compact.read
  oidFromStr _ := none
  eventOfJson _ := none
  errorText _ := "expected value"

/-- A process with memory for vectors of fewer than `2 ^ 63` bytes. -/
def boundedProcess : Process :=
  ⟨"ana", false, false, fun slots => decide (200 * slots < 2 ^ 63)⟩

/-- An object with the given members, on a terminal of 80 columns. -/
def object (members : String) : Incoming := ⟨utf8 ("\x7b" ++ members ++ "\x7d"), 80⟩

theorem fromSlice_hi : demoReader.fromSlice "ana" (object "\"content\":[\"hi\"]").data =
    .ok ⟨"ana", ["hi"], .chat, .zeroSha1, none, none, none, none⟩ := by
  decide +kernel

theorem survives_hi :
    Survives boundedProcess fillShort demoReader ∅ (object "\"content\":[\"hi\"]") := by
  have hreached : receiveAll boundedProcess fillShort demoReader [] ∅ = (.ok [], ∅) := rfl
  refine (survives_iff_handles hreached).mpr fun msg hmsg => ?_
  cases fromSlice_hi.symm.trans hmsg
  refine ⟨le_rfl, fun _ first hfirst => ?_⟩
  cases hfirst
  decide

theorem fromSlice_noContent :
    demoReader.fromSlice "ana" (object "\"content\":[]").data =
      .ok ⟨"ana", [], .chat, .zeroSha1, none, none, none, none⟩ := by
  decide +kernel

theorem fromSlice_blank :
    demoReader.fromSlice "ana" (object "\"content\":[\" \"]").data =
      .ok ⟨"ana", [" "], .chat, .zeroSha1, none, none, none, none⟩ := by
  decide +kernel

theorem fromSlice_manyChunks :
    demoReader.fromSlice "ana" (object
        "\"message_id\":\"m\",\"sequence_num\":0,\"total_chunks\":18446744073709551615").data =
      .ok ⟨"ana", ["", ""], .chat, .zeroSha1, none, some "m", some 0,
        some 18446744073709551615⟩ := by
  decide +kernel

/-- No lines, a first line that is wrapped to nothing, and more slots than there is
memory for. -/
theorem not_survives_noContent :
    ¬ Survives boundedProcess fillShort demoReader ∅ (object "\"content\":[]") ∧
    ¬ Survives boundedProcess fillShort demoReader ∅ (object "\"content\":[\" \"]") ∧
    ¬ Survives boundedProcess fillShort demoReader ∅ (object
      "\"message_id\":\"m\",\"sequence_num\":0,\"total_chunks\":18446744073709551615") := by
  refine ⟨fun hsurvives => ?_, fun hsurvives => ?_, fun hsurvives => ?_⟩
  · have hhandles := (survives_iff_handles_of_counted Buffer.counted_empty).mp hsurvives _
      fromSlice_noContent
    exact absurd hhandles.1 (by decide)
  · have hhandles := (survives_iff_handles_of_counted Buffer.counted_empty).mp hsurvives _
      fromSlice_blank
    exact hhandles.2 (Or.inl rfl) " " rfl (by decide)
  · have hhandles := (survives_iff_handles_of_counted Buffer.counted_empty).mp hsurvives _
      fromSlice_manyChunks
    exact absurd (hhandles.1.allocates (Finmap.lookup_empty _)) (by decide)

end Sample

end Chat

end Gnostr
