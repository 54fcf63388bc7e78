/-
How commands are framed on the wire: what `run_helper` makes of the lines that spell a
sequence of commands.
-/
import Gnostr.GitHelpers.Protocol

namespace Gnostr

namespace GitHelpers

open Gnostr.Types

section Requests

/-- The requests read until the input ends, and how reading them ends. -/
def requests : List Bytes → List Request × Outcome String Unit
  | [] => ([], .ok ())
  | piece :: stdin =>
      match fromUtf8 piece with
      | none => ([], .err "reading stdin")
      | some line =>
          let trimmed := trimChars line.toList
          if trimmed = [] then ([], .ok ())
          else
            let read := readRequest trimmed stdin
            let rest := requests read.2
            (read.1 :: rest.1, rest.2)
termination_by stdin => stdin.length
decreasing_by
  exact Nat.lt_succ_of_le (length_readRequest_le _ _)

/-- A line with a visible character is read as a request. -/
theorem requests_cons {piece : Bytes} {line : String}
    (hpiece : fromUtf8 piece = some line) (hline : trimChars line.toList ≠ [])
    (stdin : List Bytes) :
    requests (piece :: stdin) =
      let read := readRequest (trimChars line.toList) stdin
      (read.1 :: (requests read.2).1, (requests read.2).2) := by
  rw [requests, hpiece]
  dsimp only
  rw [if_neg hline]

variable {σ : Type} (helper : RemoteHelper σ)

/-- The answers to requests, one after the other. -/
def RemoteHelper.answerAll : List Request → Session (σ × Console) String Unit
  | [] => return ()
  | request :: rest => do
      helper.answer request
      answerAll rest

/-- What is read does not depend on the answers. -/
theorem RemoteHelper.run_eq (stdin : List Bytes) :
    helper.run stdin = (do
      helper.answerAll (requests stdin).1
      Session.lift (requests stdin).2) := by
  induction stdin using requests.induct with
  | case1 => rw [run, requests]; rfl
  | case2 piece stdin hpiece =>
      rw [run, requests, hpiece]
      rfl
  | case3 piece stdin line hpiece trimmed hblank =>
      rw [run, requests, hpiece]
      dsimp only
      rw [if_pos hblank, if_pos hblank]
      rfl
  | case4 piece stdin line hpiece trimmed hline read ih =>
      rw [run, requests_cons hpiece hline, hpiece]
      dsimp only
      rw [if_neg hline, ih]
      exact (Session.bind_assoc _ _ _).symm

end Requests

section Commands

/-- The commands git sends, a fetch or a push with all the lines of its batch. -/
inductive Command where
  | capabilities
  | list (forPush : Bool)
  | option (name value : String)
  | fetch (cmds : List FetchCmd)
  | push (specs : List PushSpec)
deriving DecidableEq

def FetchCmd.line (cmd : FetchCmd) : List Char :=
  "fetch ".toList ++ cmd.oid.toList ++ ' ' :: cmd.name.toList

theorem FetchCmd.line_eq (cmd : FetchCmd) :
    cmd.line = "fetch ".toList ++ cmd.oid.toList ++ ' ' :: cmd.name.toList := rfl

def PushSpec.line (spec : PushSpec) : List Char :=
  "push ".toList ++ (if spec.force then ['+'] else []) ++ spec.src.toList ++
    ':' :: spec.dst.toList

theorem PushSpec.line_eq (spec : PushSpec) :
    spec.line = "push ".toList ++ (if spec.force then ['+'] else []) ++ spec.src.toList ++
      ':' :: spec.dst.toList := rfl

namespace Command

def lines : Command → List (List Char)
  | capabilities => ["capabilities".toList]
  | list false => ["list".toList]
  | list true => ["list for-push".toList]
  | option name value => ["option ".toList ++ name.toList ++ ' ' :: value.toList]
  | fetch cmds => cmds.map FetchCmd.line
  | push specs => specs.map PushSpec.line

def isBatch : Command → Bool
  | fetch _ => true
  | push _ => true
  | _ => false

end Command

/-- What git admits as the name of a reference, as far as lines are cut at it: no ASCII
control character, no space and no colon. -/
def IsRefName (name : String) : Prop :=
  name.toList ≠ [] ∧ ∀ c ∈ name.toList, 0x20 < c.toNat ∧ c.toNat ≠ 0x7F ∧ c ≠ ':'

instance (name : String) : Decidable (IsRefName name) :=
  decidable_of_iff (name.toList ≠ [] ∧ (name.toList.all fun c =>
      decide (0x20 < c.toNat ∧ c.toNat ≠ 0x7F ∧ c ≠ ':')) = true)
    (and_congr Iff.rfl (by simp only [List.all_eq_true, decide_eq_true_eq]))

structure FetchCmd.WellFormed (cmd : FetchCmd) : Prop where
  oid_ne : cmd.oid.toList ≠ []
  isAlphanum : ∀ c ∈ cmd.oid.toList, c.isAlphanum = true
  isRefName : IsRefName cmd.name

/-- A source that begins with a plus sign is not told from a forced one. -/
structure PushSpec.WellFormed (spec : PushSpec) : Prop where
  src : spec.src = "" ∨ IsRefName spec.src
  plus : ['+'] <+: spec.src.toList → spec.force = true
  isRefName : IsRefName spec.dst

def OneLine (text : String) : Prop := '\n' ∉ text.toList

instance (text : String) : Decidable (OneLine text) :=
  inferInstanceAs (Decidable ('\n' ∉ text.toList))

def Command.WellFormed : Command → Prop
  | capabilities => True
  | list _ => True
  | option name value =>
      name.toList ≠ [] ∧ (∀ c ∈ name.toList, c.isAlphanum = true ∨ c = '-') ∧ OneLine value
  | fetch cmds => cmds ≠ [] ∧ ∀ cmd ∈ cmds, cmd.WellFormed
  | push specs => specs ≠ [] ∧ ∀ spec ∈ specs, spec.WellFormed

/-- Each line with its line break. -/
def linesText (lines : List (List Char)) : List Char :=
  lines.flatMap fun line => line ++ ['\n']

/-- The texts that spell a sequence of commands: a batch is ended by a blank line or
by the end of the input, which may also end the last line of all; a blank line may
follow the last command. -/
inductive Spells : List Command → List Char → Prop
  | nil : Spells [] []
  | blank : Spells [] ['\n']
  | single {command : Command} {commands : List Command} {text : List Char} :
      command.isBatch = false → Spells commands text →
      Spells (command :: commands) (linesText command.lines ++ text)
  | batch {command : Command} {commands : List Command} {text : List Char} :
      command.isBatch = true → Spells commands text →
      Spells (command :: commands) (linesText command.lines ++ '\n' :: text)
  | eof {command : Command} : Spells [command] (linesText command.lines)
  | unfinished {command : Command} {before : List (List Char)} {last : List Char} :
      command.lines = before ++ [last] → Spells [command] (linesText before ++ last)

/-- The text does not end in white space. -/
def EndsVisible (text : String) : Prop :=
  ∀ hne : text.toList ≠ [], ¬ isWhiteSpace (text.toList.getLast hne) = true

/-- No line of the command ends in a name with white space at its end. -/
def Command.EndsVisible : Command → Prop
  | fetch cmds => ∀ cmd ∈ cmds, GitHelpers.EndsVisible cmd.name
  | push specs => ∀ spec ∈ specs, GitHelpers.EndsVisible spec.dst
  | _ => True

end Commands

section Received

def trimEnd (text : String) : String :=
  String.ofList (text.toList.rdropWhile isWhiteSpace)

/-- What the reader makes of a line of a fetch; a name that is all white space is
lost, and the line with it. -/
def FetchCmd.received (cmd : FetchCmd) : Option FetchCmd :=
  if cmd.name.toList.rdropWhile isWhiteSpace = [] then none
  else some { cmd with name := trimEnd cmd.name }

def PushSpec.received (spec : PushSpec) : PushSpec :=
  { spec with dst := trimEnd spec.dst }

def Command.received : Command → Command
  | fetch cmds => fetch (cmds.filterMap FetchCmd.received)
  | push specs => push (specs.map PushSpec.received)
  | command => command

/-- The request the lines of a command are read as. -/
def Command.request : Command → Request
  | capabilities => .capabilities
  | list forPush => .list forPush
  | option _ _ => .option
  | fetch cmds => .fetch (cmds.map fun cmd => trimChars cmd.line)
  | push specs => .push (specs.map fun spec => trimChars spec.line)

theorem trimChars_append_newline (line : List Char) :
    trimChars (line ++ ['\n']) = trimChars line := by
  unfold trimChars
  have hspace : isWhiteSpace '\n' = true := by decide
  rw [List.dropWhile_append]
  split
  · rename_i hblank
    rw [List.isEmpty_iff] at hblank
    rw [hblank, List.dropWhile_cons_of_pos hspace, List.dropWhile_nil]
  · exact List.rdropWhile_concat_pos _ _ _ hspace

theorem trimChars_cons {c : Char} (hc : isWhiteSpace c = false) (line : List Char) :
    trimChars (c :: line) = (c :: line).rdropWhile isWhiteSpace := by
  rw [trimChars, List.dropWhile_cons_of_neg (by rw [hc]; exact Bool.false_ne_true)]

theorem toNat_of_isAlphanum {c : Char} (hc : c.isAlphanum = true) :
    0x20 < c.toNat ∧ c.toNat < 0x80 := by
  change (decide (c.val ≥ 'A'.val ∧ c.val ≤ 'Z'.val) ||
    decide (c.val ≥ 'a'.val) && decide (c.val ≤ 'z'.val) ||
    decide (c.val ≥ '0'.val) && decide (c.val ≤ '9'.val)) = true at hc
  simp only [Bool.or_eq_true, Bool.and_eq_true, decide_eq_true_eq,
    UInt32.le_iff_toNat_le] at hc
  have hnat : c.toNat = c.val.toNat := rfl
  simp at hc
  omega

theorem isWhiteSpace_of_isAlphanum {c : Char} (hc : c.isAlphanum = true) :
    isWhiteSpace c = false :=
  isWhiteSpace_eq_false (toNat_of_isAlphanum hc).1 (toNat_of_isAlphanum hc).2

theorem FetchCmd.trimChars_line {cmd : FetchCmd} (hcmd : cmd.WellFormed) :
    trimChars cmd.line =
      "fetch ".toList ++ (cmd.oid.toList ++
        (' ' :: cmd.name.toList).rdropWhile isWhiteSpace) := by
  obtain ⟨before, last, hoid⟩ :=
    (List.eq_nil_or_concat cmd.oid.toList).resolve_left hcmd.oid_ne
  have hlast : isWhiteSpace last = false :=
    isWhiteSpace_of_isAlphanum (hcmd.isAlphanum last (by rw [hoid]; simp))
  have hfirst : isWhiteSpace 'f' = false := by decide
  have hline : cmd.line =
      ('f' :: "etch ".toList ++ before) ++ last :: (' ' :: cmd.name.toList) := by
    rw [FetchCmd.line_eq, hoid]
    simp
  rw [hline, List.cons_append, List.cons_append, trimChars_cons hfirst,
    ← List.cons_append, ← List.cons_append, rdropWhile_append_cons hlast, hoid]
  simp

theorem PushSpec.trimChars_line (spec : PushSpec) :
    trimChars spec.line =
      "push ".toList ++ ((if spec.force then ['+'] else []) ++ (spec.src.toList ++
        ':' :: spec.dst.toList.rdropWhile isWhiteSpace)) := by
  have hfirst : isWhiteSpace 'p' = false := by decide
  have hcolon : isWhiteSpace ':' = false := by decide
  have hline : spec.line =
      ('p' :: ("ush ".toList ++ (if spec.force then ['+'] else []) ++ spec.src.toList)) ++
        ':' :: spec.dst.toList := by
    simp [PushSpec.line_eq]
  rw [hline, List.cons_append, trimChars_cons hfirst, ← List.cons_append,
    rdropWhile_append_cons hcolon]
  simp

theorem FetchCmd.parse_trimChars_line {cmd : FetchCmd} (hcmd : cmd.WellFormed) :
    parseFetchLine (trimChars cmd.line) = cmd.received := by
  have hspace : ' ' ∉ cmd.oid.toList := by
    intro hmem
    exact absurd (hcmd.isAlphanum ' ' hmem) (by decide)
  rw [FetchCmd.trimChars_line hcmd, parseFetchLine,
    List.dropPrefix?_append_of_beq _ (beq_self_eq_true _), rdropWhile_cons,
    FetchCmd.received, Option.bind_eq_bind, Option.bind_some]
  split
  · have hblank : [' '].rdropWhile isWhiteSpace = [] := by decide
    rw [hblank, List.append_nil, splitOnce_of_notMem hspace]
    rfl
  · rw [splitOnce_append hspace]
    show some (FetchCmd.mk (String.ofList cmd.oid.toList) (trimEnd cmd.name)) = _
    rw [String.ofList_toList]

theorem PushSpec.parse_trimChars_line {spec : PushSpec} (hspec : spec.WellFormed) :
    parsePushLine (trimChars spec.line) = some spec.received := by
  have hcolon : ':' ∉ spec.src.toList := by
    rcases hspec.src with hsrc | hsrc
    · rw [hsrc]
      exact List.not_mem_nil
    · exact fun hmem => (hsrc.2 ':' hmem).2.2 rfl
  have hsplit := splitOnce_append hcolon (spec.dst.toList.rdropWhile isWhiteSpace)
  rw [PushSpec.trimChars_line, parsePushLine,
    List.dropPrefix?_append_of_beq _ (beq_self_eq_true _), Option.bind_eq_bind,
    Option.bind_some]
  cases hforce : spec.force with
  | true =>
      rw [if_pos rfl, List.dropPrefix?_append_of_beq _ (beq_self_eq_true _)]
      dsimp only
      rw [hsplit]
      show some (PushSpec.mk true (String.ofList spec.src.toList) (trimEnd spec.dst)) = _
      rw [String.ofList_toList, PushSpec.received, hforce]
  | false =>
      have hplus : ((spec.src.toList ++ ':' :: spec.dst.toList.rdropWhile
          isWhiteSpace)).dropPrefix? ['+'] = none := by
        cases hsrc : spec.src.toList with
        | nil => exact dropPrefix?_cons_of_ne (by decide) _ _
        | cons c chars =>
            refine dropPrefix?_cons_of_ne (fun heq => ?_) _ _
            have hforced := hspec.plus (hsrc ▸ heq ▸ ⟨chars, rfl⟩)
            rw [hforce] at hforced
            cases hforced
      rw [if_neg Bool.false_ne_true, List.nil_append, hplus]
      dsimp only
      rw [hsplit]
      show some (PushSpec.mk false (String.ofList spec.src.toList) (trimEnd spec.dst)) = _
      rw [String.ofList_toList, PushSpec.received, hforce]

end Received

section Reading

/-- What each `read_line` takes from a text. -/
def pieces (text : List Char) : List Bytes :=
  readLines lineBreak (utf8 (String.ofList text))

theorem pieces_append {line : List Char} (hline : '\n' ∉ line) (rest : List Char) :
    pieces (line ++ '\n' :: rest) =
      utf8 (String.ofList (line ++ ['\n'])) :: pieces rest := by
  have hbyte : lineBreak ∉ utf8 (String.ofList line) :=
    lineBreak_notMem_utf8 (by rwa [String.toList_ofList])
  have hnewline : utf8 (String.ofList ['\n']) = [lineBreak] := by decide
  rw [pieces, ← List.singleton_append, String.ofList_append, String.ofList_append,
    utf8_append, utf8_append, hnewline, List.singleton_append, readLines_append hbyte,
    String.ofList_append, utf8_append, hnewline]
  rfl

theorem pieces_of_notMem {line : List Char} (hne : line ≠ []) (hline : '\n' ∉ line) :
    pieces line = [utf8 (String.ofList line)] := by
  refine readLines_of_notMem (fun hempty => hne ?_)
    (lineBreak_notMem_utf8 (by rwa [String.toList_ofList]))
  have hlength := (length_utf8_ofList_bounds line).1
  rw [hempty] at hlength
  exact List.eq_nil_of_length_eq_zero (Nat.le_zero.mp hlength)

theorem pieces_linesText {lines : List (List Char)} (hlines : ∀ line ∈ lines, '\n' ∉ line)
    (rest : List Char) :
    pieces (linesText lines ++ rest) =
      lines.map (fun line => utf8 (String.ofList (line ++ ['\n']))) ++ pieces rest := by
  induction lines with
  | nil => rfl
  | cons line lines ih =>
      rw [linesText, List.flatMap_cons, List.append_assoc, List.append_assoc,
        List.singleton_append, pieces_append (hlines line List.mem_cons_self)]
      exact congrArg _ (ih fun line hline => hlines line (List.mem_cons_of_mem _ hline))

/-- The line that a piece is read as, up to the white space around it. -/
def ReadAs (line : List Char) (piece : Bytes) : Prop :=
  ∃ text, fromUtf8 piece = some text ∧ trimChars text.toList = trimChars line

theorem readAs_utf8 (line : List Char) : ReadAs line (utf8 (String.ofList line)) :=
  ⟨_, fromUtf8_utf8 _, by rw [String.toList_ofList]⟩

theorem readAs_utf8_newline (line : List Char) :
    ReadAs line (utf8 (String.ofList (line ++ ['\n']))) :=
  ⟨_, fromUtf8_utf8 _, by rw [String.toList_ofList, trimChars_append_newline]⟩

theorem forall₂_readAs (lines : List (List Char)) :
    List.Forall₂ ReadAs lines
      (lines.map fun line => utf8 (String.ofList (line ++ ['\n']))) := by
  induction lines with
  | nil => exact .nil
  | cons line lines ih => exact .cons (readAs_utf8_newline line) ih

/-- The lines of a batch are read up to where it ends. -/
theorem batchLines_append {leader : List Char} (hleader : leader ≠ [])
    {lines : List (List Char)} (hlines : ∀ line ∈ lines, leader <+: trimChars line)
    {ps : List Bytes} (hps : List.Forall₂ ReadAs lines ps) {tail left : List Bytes}
    (htail : batchLines leader tail = ([], left)) :
    batchLines leader (ps ++ tail) = (lines.map trimChars, left) := by
  induction hps with
  | nil => exact htail
  | cons hpiece _ ih =>
      obtain ⟨text, htext, htrim⟩ := hpiece
      have hline := hlines _ List.mem_cons_self
      have hvisible := hline.ne_nil hleader
      rw [List.cons_append, batchLines, htext]
      dsimp only
      rw [htrim, if_neg hvisible, if_pos (List.isPrefixOf_iff_prefix.mpr hline),
        ih fun line hmem => hlines line (List.mem_cons_of_mem _ hmem)]
      rfl

theorem fromUtf8_lineBreak : fromUtf8 [lineBreak] = some "\n" :=
  fromUtf8_eq_some_iff.mpr (by decide)

theorem trimChars_newline : trimChars "\n".toList = [] := by decide

/-- A blank line ends a batch. -/
theorem batchLines_blank (leader : List Char) (stdin : List Bytes) :
    batchLines leader ([lineBreak] :: stdin) = ([], stdin) := by
  rw [batchLines, fromUtf8_lineBreak]
  dsimp only
  rw [if_pos trimChars_newline]

/-- A blank line ends the input. -/
theorem requests_blank (stdin : List Bytes) :
    requests ([lineBreak] :: stdin) = ([], .ok ()) := by
  rw [requests, fromUtf8_lineBreak]
  dsimp only
  rw [if_pos trimChars_newline]

theorem readRequest_fetch {trimmed : List Char} (hline : "fetch ".toList <+: trimmed)
    (stdin : List Bytes) :
    readRequest trimmed stdin =
      (.fetch (trimmed :: (batchLines "fetch ".toList stdin).1),
        (batchLines "fetch ".toList stdin).2) := by
  have hnot : ∀ word : List Char, ¬ "fetch ".toList <+: word → trimmed ≠ word :=
    fun word hword heq => hword (heq ▸ hline)
  rw [readRequest, if_neg (hnot _ (by decide)),
    if_neg (not_or.mpr ⟨hnot _ (by decide), hnot _ (by decide)⟩),
    if_pos (List.isPrefixOf_iff_prefix.mpr hline)]

theorem readRequest_push {trimmed : List Char} (hline : "push ".toList <+: trimmed)
    (stdin : List Bytes) :
    readRequest trimmed stdin =
      (.push (trimmed :: (batchLines "push ".toList stdin).1),
        (batchLines "push ".toList stdin).2) := by
  have hnot : ∀ word : List Char, ¬ "push ".toList <+: word → trimmed ≠ word :=
    fun word hword heq => hword (heq ▸ hline)
  have hfetch : ¬ "fetch ".toList <+: trimmed :=
    not_isPrefix_of_isPrefix hline (by decide) (by decide)
  rw [readRequest, if_neg (hnot _ (by decide)),
    if_neg (not_or.mpr ⟨hnot _ (by decide), hnot _ (by decide)⟩),
    if_neg (mt List.isPrefixOf_iff_prefix.mp hfetch),
    if_pos (List.isPrefixOf_iff_prefix.mpr hline)]

theorem readRequest_option {trimmed : List Char} (hline : "option ".toList <+: trimmed)
    (stdin : List Bytes) : readRequest trimmed stdin = (.option, stdin) := by
  have hnot : ∀ word : List Char, ¬ "option ".toList <+: word → trimmed ≠ word :=
    fun word hword heq => hword (heq ▸ hline)
  have hfetch : ¬ "fetch ".toList <+: trimmed :=
    not_isPrefix_of_isPrefix hline (by decide) (by decide)
  have hpush : ¬ "push ".toList <+: trimmed :=
    not_isPrefix_of_isPrefix hline (by decide) (by decide)
  rw [readRequest, if_neg (hnot _ (by decide)),
    if_neg (not_or.mpr ⟨hnot _ (by decide), hnot _ (by decide)⟩),
    if_neg (mt List.isPrefixOf_iff_prefix.mp hfetch),
    if_neg (mt List.isPrefixOf_iff_prefix.mp hpush),
    if_pos (List.isPrefixOf_iff_prefix.mpr hline)]

theorem isPrefix_trimChars_optionLine {name : String} (hne : name.toList ≠ [])
    (hname : ∀ c ∈ name.toList, c.isAlphanum = true ∨ c = '-') (value : String) :
    "option ".toList <+:
      trimChars ("option ".toList ++ name.toList ++ ' ' :: value.toList) := by
  obtain ⟨c, chars, hchars⟩ := List.exists_cons_of_ne_nil hne
  have hc : isWhiteSpace c = false := by
    rcases hname c (by rw [hchars]; exact List.mem_cons_self) with hc | rfl
    · exact isWhiteSpace_of_isAlphanum hc
    · decide
  have hfirst : isWhiteSpace 'o' = false := by decide
  have hline : "option ".toList ++ name.toList ++ ' ' :: value.toList =
      ('o' :: "ption ".toList) ++ c :: (chars ++ ' ' :: value.toList) := by
    rw [hchars]
    simp
  rw [hline, List.cons_append, trimChars_cons hfirst, ← List.cons_append,
    rdropWhile_append_cons hc]
  exact List.prefix_append _ _

theorem FetchCmd.isPrefix_trimChars_line {cmd : FetchCmd} (hcmd : cmd.WellFormed) :
    "fetch ".toList <+: trimChars cmd.line := by
  rw [FetchCmd.trimChars_line hcmd]
  exact List.prefix_append _ _

theorem PushSpec.isPrefix_trimChars_line (spec : PushSpec) :
    "push ".toList <+: trimChars spec.line := by
  rw [PushSpec.trimChars_line]
  exact List.prefix_append _ _

/-- The lines of a command, with what ends its batch, are read as its request. -/
theorem Command.readRequest_lines {command : Command} (hformed : command.WellFormed)
    {first : Bytes} {ps tail left : List Bytes}
    (hps : List.Forall₂ ReadAs command.lines (first :: ps))
    (htail : command.isBatch = true → ∀ leader, batchLines leader tail = ([], left))
    (hsingle : command.isBatch = false → tail = left) :
    ∃ text, fromUtf8 first = some text ∧ trimChars text.toList ≠ [] ∧
      readRequest (trimChars text.toList) (ps ++ tail) = (command.request, left) := by
  cases command with
  | capabilities =>
      cases hps with
      | cons hfirst hrest =>
          cases hrest
          obtain ⟨text, htext, htrim⟩ := hfirst
          have hword : trimChars "capabilities".toList = "capabilities".toList := by decide
          rw [hword] at htrim
          refine ⟨text, htext, by rw [htrim]; decide, ?_⟩
          rw [htrim, List.nil_append, hsingle rfl]
          rfl
  | list forPush =>
      obtain ⟨word, hword, htrim, hread⟩ : ∃ word, (Command.list forPush).lines = [word] ∧
          trimChars word = word ∧
          ∀ stdin, readRequest word stdin = (.list forPush, stdin) := by
        cases forPush
        · exact ⟨"list".toList, rfl, by decide, fun _ => rfl⟩
        · exact ⟨"list for-push".toList, rfl, by decide, fun _ => rfl⟩
      rw [hword] at hps
      cases hps with
      | cons hfirst hrest =>
          cases hrest
          obtain ⟨text, htext, htext'⟩ := hfirst
          rw [htrim] at htext'
          refine ⟨text, htext, ?_, ?_⟩
          · rw [htext']
            rintro rfl
            cases hread []
          · rw [htext', List.nil_append, hread, hsingle rfl]
            rfl
  | option name value =>
      cases hps with
      | cons hfirst hrest =>
          cases hrest
          obtain ⟨text, htext, htrim⟩ := hfirst
          have hline := isPrefix_trimChars_optionLine hformed.1 hformed.2.1 value
          rw [← htrim] at hline
          refine ⟨text, htext, hline.ne_nil (by decide), ?_⟩
          rw [List.nil_append, readRequest_option hline, hsingle rfl]
          rfl
  | fetch cmds =>
      obtain ⟨hne, hcmds⟩ := hformed
      obtain ⟨cmd, rest, rfl⟩ := List.exists_cons_of_ne_nil hne
      cases hps with
      | cons hfirst hrest =>
          obtain ⟨text, htext, htrim⟩ := hfirst
          have hline := FetchCmd.isPrefix_trimChars_line (hcmds cmd List.mem_cons_self)
          have hlines : ∀ line ∈ rest.map FetchCmd.line,
              "fetch ".toList <+: trimChars line :=
            List.forall_mem_map.mpr fun cmd hcmd =>
              FetchCmd.isPrefix_trimChars_line (hcmds cmd (List.mem_cons_of_mem _ hcmd))
          refine ⟨text, htext, by rw [htrim]; exact hline.ne_nil (by decide), ?_⟩
          rw [htrim, readRequest_fetch hline,
            batchLines_append (by decide) hlines hrest (htail rfl _), List.map_map]
          rfl
  | push specs =>
      obtain ⟨spec, rest, rfl⟩ := List.exists_cons_of_ne_nil hformed.1
      cases hps with
      | cons hfirst hrest =>
          obtain ⟨text, htext, htrim⟩ := hfirst
          have hline := spec.isPrefix_trimChars_line
          have hlines : ∀ line ∈ rest.map PushSpec.line,
              "push ".toList <+: trimChars line :=
            List.forall_mem_map.mpr fun spec _ => spec.isPrefix_trimChars_line
          refine ⟨text, htext, by rw [htrim]; exact hline.ne_nil (by decide), ?_⟩
          rw [htrim, readRequest_push hline,
            batchLines_append (by decide) hlines hrest (htail rfl _), List.map_map]
          rfl

theorem Command.lines_ne_nil {command : Command} (hformed : command.WellFormed) :
    command.lines ≠ [] := by
  cases command with
  | capabilities => exact List.cons_ne_nil _ _
  | list forPush => cases forPush <;> exact List.cons_ne_nil _ _
  | option name value => exact List.cons_ne_nil _ _
  | fetch cmds => exact fun hnil => hformed.1 (List.map_eq_nil_iff.mp hnil)
  | push specs => exact fun hnil => hformed.1 (List.map_eq_nil_iff.mp hnil)

theorem Command.line_ne_nil (command : Command) : ∀ line ∈ command.lines, line ≠ [] := by
  cases command with
  | capabilities => decide
  | list forPush => cases forPush <;> decide
  | option name value => exact List.forall_mem_singleton.mpr (List.cons_ne_nil _ _)
  | fetch cmds => exact List.forall_mem_map.mpr fun cmd _ => List.cons_ne_nil _ _
  | push specs => exact List.forall_mem_map.mpr fun spec _ => List.cons_ne_nil _ _

theorem requests_lines {command : Command} (hformed : command.WellFormed)
    {ps tail left : List Bytes} (hps : List.Forall₂ ReadAs command.lines ps)
    (htail : command.isBatch = true → ∀ leader, batchLines leader tail = ([], left))
    (hsingle : command.isBatch = false → tail = left) :
    requests (ps ++ tail) = (command.request :: (requests left).1, (requests left).2) := by
  cases ps with
  | nil => exact absurd (List.forall₂_nil_right_iff.mp hps) (Command.lines_ne_nil hformed)
  | cons first ps =>
      obtain ⟨text, htext, hvisible, hread⟩ :=
        Command.readRequest_lines hformed hps htail hsingle
      rw [List.cons_append, requests_cons htext hvisible, hread]

theorem Command.oneLine {command : Command} (hformed : command.WellFormed) :
    ∀ line ∈ command.lines, '\n' ∉ line := by
  have hname : ∀ {name : String}, IsRefName name → '\n' ∉ name.toList := by
    intro name hname hmem
    exact absurd (hname.2 _ hmem).1 (by decide)
  cases command with
  | capabilities => decide
  | list forPush => cases forPush <;> decide
  | option name value =>
      intro line hline
      rw [Command.lines, List.mem_singleton] at hline
      have hnewline : '\n' ∉ name.toList := by
        intro hmem
        exact absurd (hformed.2.1 _ hmem) (by decide)
      have hvalue : '\n' ∉ value.toList := hformed.2.2
      simp [hline, hnewline, hvalue]
  | fetch cmds =>
      refine List.forall_mem_map.mpr fun cmd hcmd => ?_
      have hoid : '\n' ∉ cmd.oid.toList := by
        intro hmem
        exact absurd ((hformed.2 cmd hcmd).isAlphanum _ hmem) (by decide)
      simp [FetchCmd.line_eq, hoid, hname (hformed.2 cmd hcmd).isRefName]
  | push specs =>
      refine List.forall_mem_map.mpr fun spec hspec => ?_
      have hsrc : '\n' ∉ spec.src.toList := by
        rcases (hformed.2 spec hspec).src with hsrc | hsrc
        · rw [hsrc]
          exact List.not_mem_nil
        · exact hname hsrc
      have hdst := hname (hformed.2 spec hspec).isRefName
      cases hforce : spec.force <;> simp [PushSpec.line_eq, hforce, hsrc, hdst]

/-- A text that spells commands is read as their requests. -/
theorem requests_of_spells {commands : List Command} {text : List Char}
    (htext : Spells commands text) (hformed : ∀ command ∈ commands, command.WellFormed) :
    requests (pieces text) = (commands.map Command.request, .ok ()) := by
  have hnil : requests [] = ([], .ok ()) := by rw [requests]
  induction htext with
  | nil => exact hnil
  | blank => exact requests_blank []
  | single hbatch _ ih =>
      rw [pieces_linesText (Command.oneLine (hformed _ List.mem_cons_self)),
        requests_lines (hformed _ List.mem_cons_self) (forall₂_readAs _)
          (fun h => absurd h (by rw [hbatch]; exact Bool.false_ne_true)) fun _ => rfl,
        ih fun command hcommand => hformed command (List.mem_cons_of_mem _ hcommand)]
      rfl
  | @batch command _ text hbatch _ ih =>
      have hblankLine : pieces ('\n' :: text) = [lineBreak] :: pieces text :=
        pieces_append List.not_mem_nil text
      rw [pieces_linesText (Command.oneLine (hformed _ List.mem_cons_self)), hblankLine,
        requests_lines (hformed _ List.mem_cons_self) (forall₂_readAs _)
          (fun _ leader => batchLines_blank leader (pieces text))
          (fun h => absurd hbatch (by rw [h]; exact Bool.false_ne_true)),
        ih fun command hcommand => hformed command (List.mem_cons_of_mem _ hcommand)]
      rfl
  | @eof command =>
      have hcommand := hformed _ List.mem_cons_self
      have hps := pieces_linesText (Command.oneLine hcommand) []
      rw [List.append_nil] at hps
      rw [hps, requests_lines hcommand (forall₂_readAs _) (fun _ _ => rfl) fun _ => rfl]
      exact congrArg (fun read => (command.request :: read.1, read.2)) hnil
  | @unfinished command before last hlines =>
      have hcommand := hformed _ List.mem_cons_self
      have hone := Command.oneLine hcommand
      rw [hlines, List.forall_mem_append, List.forall_mem_singleton] at hone
      have hlast : last ≠ [] :=
        command.line_ne_nil last (by rw [hlines]; exact List.mem_concat_self)
      have hps : List.Forall₂ ReadAs command.lines (pieces (linesText before ++ last)) := by
        rw [hlines, pieces_linesText hone.1, pieces_of_notMem hlast hone.2]
        exact List.rel_append (forall₂_readAs before) (.cons (readAs_utf8 last) .nil)
      rw [← List.append_nil (pieces _),
        requests_lines hcommand hps (fun _ _ => rfl) fun _ => rfl]
      exact congrArg (fun read => (command.request :: read.1, read.2)) hnil

end Reading

section Conversation

theorem unlines_append (first second : List String) :
    unlines (first ++ second) = unlines first ++ unlines second := by
  induction first with
  | nil => rw [List.nil_append, unlines, String.empty_append]
  | cons line first ih =>
      rw [List.cons_append, unlines, unlines, ih]
      exact (String.append_assoc ..).symm

namespace RemoteHelper

variable {σ : Type} (helper : RemoteHelper σ)

/-- A command handed to the helper, and the lines of the response to it. -/
def respond : Command → Session σ String (List String)
  | .capabilities => fun s => (.ok (helper.capabilities s ++ [""]), s)
  | .list forPush => do
      let refs ← helper.list forPush
      return refs.map GitRef.line ++ [""]
  | .option _ _ => return ["unsupported"]
  | .fetch cmds => do
      helper.fetch cmds
      return [""]
  | .push specs => do
      let results ← helper.push specs
      return results.map PushResult.line ++ [""]

/-- The commands handed to the helper in order, with one response each. -/
def converse : List Command → Session σ String (List (List String))
  | [] => return []
  | command :: rest => do
      let response ← helper.respond command
      let responses ← converse rest
      return response :: responses

variable {helper} {s t : σ}

/-- A request is answered as the command that was received. -/
theorem answer_of_respond {command : Command} (hformed : command.WellFormed)
    {lines : List String} (hlines : helper.respond command.received s = (.ok lines, t))
    (con : Console) :
    helper.answer command.request (s, con) =
      (.ok (), t, { con with stdout := con.stdout ++ unlines lines }) := by
  cases command with
  | capabilities =>
      cases hlines
      rw [unlines_append, ← String.append_assoc]
      rfl
  | list forPush =>
      obtain ⟨refs, middle, hrefs, hlines⟩ := Session.bind_eq_ok_iff.mp hlines
      cases hlines
      rw [Command.request, answer,
        Session.bind_of_ok (Session.onFst_of_eq (Session.attempt_of_ok hrefs) con),
        unlines_append, ← String.append_assoc]
      rfl
  | option name value =>
      cases hlines
      rfl
  | fetch cmds =>
      obtain ⟨_, middle, hfetch, hlines⟩ := Session.bind_eq_ok_iff.mp hlines
      cases hlines
      have hcmds : (cmds.map fun cmd => trimChars cmd.line).filterMap parseFetchLine =
          cmds.filterMap FetchCmd.received := by
        rw [List.filterMap_map]
        exact List.filterMap_congr fun cmd hcmd =>
          FetchCmd.parse_trimChars_line (hformed.2 cmd hcmd)
      rw [Command.request, answer, hcmds,
        Session.bind_of_ok (Session.onFst_of_eq (Session.attempt_of_ok hfetch) con)]
      rfl
  | push specs =>
      obtain ⟨results, middle, hpush, hlines⟩ := Session.bind_eq_ok_iff.mp hlines
      cases hlines
      have hspecs : (specs.map fun spec => trimChars spec.line).filterMap parsePushLine =
          specs.map PushSpec.received := by
        rw [List.filterMap_map, ← List.filterMap_eq_map]
        exact List.filterMap_congr fun spec hspec =>
          PushSpec.parse_trimChars_line (hformed.2 spec hspec)
      rw [Command.request, answer, hspecs,
        Session.bind_of_ok (Session.onFst_of_eq (Session.attempt_of_ok hpush) con),
        unlines_append, ← String.append_assoc]
      rfl

theorem answerAll_of_converse {commands : List Command}
    (hformed : ∀ command ∈ commands, command.WellFormed) {responses : List (List String)}
    (hresponses : helper.converse (commands.map Command.received) s = (.ok responses, t))
    (con : Console) :
    helper.answerAll (commands.map Command.request) (s, con) =
      (.ok (), t, { con with stdout := con.stdout ++ unlines responses.flatten }) := by
  induction commands generalizing s con responses with
  | nil =>
      cases hresponses
      rw [List.flatten_nil, unlines, String.append_empty]
      rfl
  | cons command commands ih =>
      obtain ⟨lines, middle, hlines, hrest⟩ := Session.bind_eq_ok_iff.mp hresponses
      obtain ⟨rest, final, hrest, hall⟩ := Session.bind_eq_ok_iff.mp hrest
      cases hall
      rw [List.map_cons, answerAll,
        Session.bind_of_ok (answer_of_respond (hformed _ List.mem_cons_self) hlines con),
        ih (fun command hcommand => hformed command (List.mem_cons_of_mem _ hcommand)) hrest,
        List.flatten_cons, unlines_append, ← String.append_assoc]

/-- What `run_helper` does on a text that spells commands: it converses as they are
received. -/
theorem runHelper_of_converse {commands : List Command}
    (hformed : ∀ command ∈ commands, command.WellFormed) {text : List Char}
    (htext : Spells commands text) {responses : List (List String)}
    (hresponses : helper.converse (commands.map Command.received) s = (.ok responses, t)) :
    helper.runHelper (utf8 (String.ofList text)) s =
      (.ok (), t, ⟨unlines responses.flatten, ""⟩) := by
  have hread := requests_of_spells htext hformed
  rw [runHelper, run_eq]
  show (helper.answerAll (requests (pieces text)).1 >>= fun _ =>
    Session.lift (requests (pieces text)).2) (s, Console.empty) = _
  rw [hread, Session.bind_of_ok (answerAll_of_converse hformed hresponses _)]
  rfl

/-- The helper's operations return `Ok`, with names and messages in one line. -/
structure Cooperates (helper : RemoteHelper σ) : Prop where
  capabilities : ∀ s, ∀ capability ∈ helper.capabilities s, OneLine capability
  list : ∀ forPush s, ∃ refs t, helper.list forPush s = (.ok refs, t) ∧
    ∀ r ∈ refs, OneLine r.line
  fetch : ∀ cmds s, ∃ t, helper.fetch cmds s = (.ok (), t)
  push : ∀ specs s, ∃ results t, helper.push specs s = (.ok results, t) ∧
    ∀ r ∈ results, OneLine r.line

theorem forall_oneLine_append_blank {lines : List String}
    (hlines : ∀ line ∈ lines, OneLine line) : ∀ line ∈ lines ++ [""], OneLine line := by
  rw [List.forall_mem_append, List.forall_mem_singleton]
  exact ⟨hlines, List.not_mem_nil⟩

theorem Cooperates.exists_respond (hhelper : helper.Cooperates) (command : Command) (s : σ) :
    ∃ lines t, helper.respond command s = (.ok lines, t) ∧
      ∀ line ∈ lines, OneLine line := by
  cases command with
  | capabilities =>
      exact ⟨_, s, rfl, forall_oneLine_append_blank (hhelper.capabilities s)⟩
  | list forPush =>
      obtain ⟨refs, t, hrefs, hone⟩ := hhelper.list forPush s
      exact ⟨_, t, Session.bind_eq_ok_iff.mpr ⟨refs, t, hrefs, rfl⟩,
        forall_oneLine_append_blank (List.forall_mem_map.mpr hone)⟩
  | option name value =>
      exact ⟨_, s, rfl, List.forall_mem_singleton.mpr (by decide)⟩
  | fetch cmds =>
      obtain ⟨t, hfetch⟩ := hhelper.fetch cmds s
      exact ⟨_, t, Session.bind_eq_ok_iff.mpr ⟨(), t, hfetch, rfl⟩,
        List.forall_mem_singleton.mpr (by decide)⟩
  | push specs =>
      obtain ⟨results, t, hpush, hone⟩ := hhelper.push specs s
      exact ⟨_, t, Session.bind_eq_ok_iff.mpr ⟨results, t, hpush, rfl⟩,
        forall_oneLine_append_blank (List.forall_mem_map.mpr hone)⟩

theorem Cooperates.exists_converse (hhelper : helper.Cooperates) (commands : List Command)
    (s : σ) :
    ∃ responses t, helper.converse commands s = (.ok responses, t) ∧
      ∀ line ∈ responses.flatten, OneLine line := by
  induction commands generalizing s with
  | nil => exact ⟨[], s, rfl, fun _ hline => absurd hline List.not_mem_nil⟩
  | cons command commands ih =>
      obtain ⟨lines, middle, hlines, hone⟩ := hhelper.exists_respond command s
      obtain ⟨rest, t, hrest, hones⟩ := ih middle
      refine ⟨lines :: rest, t, ?_, ?_⟩
      · exact Session.bind_eq_ok_iff.mpr ⟨lines, middle, hlines,
          Session.bind_eq_ok_iff.mpr ⟨rest, t, hrest, rfl⟩⟩
      · rw [List.flatten_cons, List.forall_mem_append]
        exact ⟨hone, hones⟩

theorem toList_unlines (lines : List String) :
    (unlines lines).toList = lines.flatMap fun line => line.toList ++ ['\n'] := by
  induction lines with
  | nil => rfl
  | cons line lines ih =>
      rw [unlines, String.toList_append, String.toList_append, ih, List.flatMap_cons]
      rfl

/-- Lines that are written are read as they are. -/
theorem readLines_unlines {lines : List String} (hlines : ∀ line ∈ lines, OneLine line) :
    readLines '\n' (unlines lines).toList = lines.map fun line => line.toList ++ ['\n'] := by
  have hread := readLines_flatMap (List.forall_mem_map.mpr hlines) []
  rw [List.append_nil, List.flatMap_map, List.map_map] at hread
  rw [toList_unlines, hread]
  exact List.append_nil _

end RemoteHelper

end Conversation

section Frames

open RemoteHelper

/-- A text conveys the commands: every cooperating helper is handed exactly them, in
order, and what is written is, line by line, one response to each. -/
def Conveys (commands : List Command) (text : List Char) : Prop :=
  ∀ (σ : Type) (helper : RemoteHelper σ), helper.Cooperates → ∀ s, ∃ responses t,
    helper.converse commands s = (.ok responses, t) ∧
      helper.runHelper (utf8 (String.ofList text)) s =
        (.ok (), t, ⟨unlines responses.flatten, ""⟩) ∧
      readLines '\n' (unlines responses.flatten).toList =
        responses.flatten.map fun line => line.toList ++ ['\n']

theorem trimEnd_eq_self_iff {text : String} : trimEnd text = text ↔ EndsVisible text := by
  rw [trimEnd, ← String.toList_inj, String.toList_ofList, List.rdropWhile_eq_self_iff]
  rfl

instance (text : String) : Decidable (EndsVisible text) :=
  decidable_of_iff _ trimEnd_eq_self_iff

theorem Command.received_of_endsVisible {command : Command} (hformed : command.WellFormed)
    (hvisible : command.EndsVisible) : command.received = command := by
  cases command with
  | capabilities => rfl
  | list forPush => rfl
  | option name value => rfl
  | fetch cmds =>
      have hcmds : cmds.filterMap FetchCmd.received = cmds.filterMap some := by
        refine List.filterMap_congr fun cmd hcmd => ?_
        have htrim := trimEnd_eq_self_iff.mpr (hvisible cmd hcmd)
        have hname : cmd.name.toList.rdropWhile isWhiteSpace = cmd.name.toList := by
          rw [trimEnd, ← String.toList_inj, String.toList_ofList] at htrim
          exact htrim
        rw [FetchCmd.received, hname, if_neg (hformed.2 cmd hcmd).isRefName.1, htrim]
      rw [Command.received, hcmds, List.filterMap_some]
  | push specs =>
      have hspecs : specs.map PushSpec.received = specs.map id := by
        refine List.map_congr_left fun spec hspec => ?_
        rw [PushSpec.received, trimEnd_eq_self_iff.mpr (hvisible spec hspec)]
        rfl
      rw [Command.received, hspecs, List.map_id]

theorem conveys_of_endsVisible {commands : List Command} {text : List Char}
    (hformed : ∀ command ∈ commands, command.WellFormed) (htext : Spells commands text)
    (hvisible : ∀ command ∈ commands, command.EndsVisible) : Conveys commands text := by
  intro σ helper hhelper s
  obtain ⟨responses, t, hresponses, hone⟩ := hhelper.exists_converse commands s
  have hreceived : commands.map Command.received = commands.map id :=
    List.map_congr_left fun command hcommand =>
      Command.received_of_endsVisible (hformed command hcommand) (hvisible command hcommand)
  rw [List.map_id] at hreceived
  refine ⟨responses, t, hresponses, ?_, readLines_unlines hone⟩
  refine runHelper_of_converse hformed htext ?_
  rw [hreceived]
  exact hresponses

/-- A helper that records the batches it is handed. -/
def recorder : RemoteHelper (List Command) where
  capabilities _ := []
  list _ := return []
  fetch cmds := fun batches => (.ok (), batches ++ [.fetch cmds])
  push specs := fun batches => (.ok [], batches ++ [.push specs])

theorem recorder_cooperates : recorder.Cooperates where
  capabilities _ _ hmem := absurd hmem List.not_mem_nil
  list _ batches := ⟨[], batches, rfl, fun _ hmem => absurd hmem List.not_mem_nil⟩
  fetch cmds batches := ⟨batches ++ [.fetch cmds], rfl⟩
  push specs batches :=
    ⟨[], batches ++ [.push specs], rfl, fun _ hmem => absurd hmem List.not_mem_nil⟩

theorem recorder_respond (command : Command) (batches : List Command) :
    ∃ lines, recorder.respond command batches =
      (.ok lines, batches ++ [command].filter Command.isBatch) := by
  have hnone : batches = batches ++ [] := (List.append_nil batches).symm
  cases command with
  | capabilities => exact ⟨_, congrArg (Prod.mk _) hnone⟩
  | list forPush => exact ⟨_, congrArg (Prod.mk _) hnone⟩
  | option name value => exact ⟨_, congrArg (Prod.mk _) hnone⟩
  | fetch cmds => exact ⟨_, rfl⟩
  | push specs => exact ⟨_, rfl⟩

theorem recorder_converse (commands : List Command) (batches : List Command) :
    ∃ responses, recorder.converse commands batches =
      (.ok responses, batches ++ commands.filter Command.isBatch) := by
  induction commands generalizing batches with
  | nil => exact ⟨[], by rw [List.filter_nil, List.append_nil]; rfl⟩
  | cons command commands ih =>
      obtain ⟨lines, hlines⟩ := recorder_respond command batches
      obtain ⟨rest, hrest⟩ := ih (batches ++ [command].filter Command.isBatch)
      refine ⟨lines :: rest, ?_⟩
      rw [converse, Session.bind_of_ok hlines, Session.bind_of_ok hrest, List.append_assoc,
        ← List.filter_append, List.singleton_append]
      rfl

theorem endsVisible_trimEnd (text : String) : EndsVisible (trimEnd text) := by
  refine trimEnd_eq_self_iff.mp ?_
  rw [trimEnd, trimEnd, String.toList_ofList, List.rdropWhile_idempotent]

/-- What is received ends in no white space. -/
theorem Command.endsVisible_received (command : Command) : command.received.EndsVisible := by
  cases command with
  | capabilities => trivial
  | list forPush => trivial
  | option name value => trivial
  | fetch cmds =>
      intro cmd hcmd
      obtain ⟨sent, _, hreceived⟩ := List.mem_filterMap.mp hcmd
      rw [FetchCmd.received] at hreceived
      split at hreceived
      · cases hreceived
      · cases hreceived
        exact endsVisible_trimEnd sent.name
  | push specs =>
      exact List.forall_mem_map.mpr fun sent _ => endsVisible_trimEnd sent.dst

theorem endsVisible_of_conveys {commands : List Command} {text : List Char}
    (hformed : ∀ command ∈ commands, command.WellFormed) (htext : Spells commands text)
    (hconveys : Conveys commands text) : ∀ command ∈ commands, command.EndsVisible := by
  intro command hcommand
  -- the recorder has the batches as they were sent, and as they were received
  obtain ⟨responses, t, hsent, hrun, _⟩ :=
    hconveys (List Command) recorder recorder_cooperates []
  obtain ⟨_, hsent'⟩ := recorder_converse commands []
  obtain ⟨_, hreceived⟩ := recorder_converse (commands.map Command.received) []
  have ht : t = commands.filter Command.isBatch := by
    rw [hsent'] at hsent
    exact (congrArg Prod.snd hsent).symm
  have ht' : t = (commands.map Command.received).filter Command.isBatch := by
    rw [runHelper_of_converse hformed htext hreceived] at hrun
    exact (congrArg (fun result => result.2.1) hrun).symm
  by_cases hbatch : command.isBatch = true
  · have hmem : command ∈ t := by
      rw [ht]
      exact List.mem_filter.mpr ⟨hcommand, hbatch⟩
    rw [ht'] at hmem
    obtain ⟨sent, _, rfl⟩ := List.mem_map.mp (List.mem_filter.mp hmem).1
    exact sent.endsVisible_received
  · cases command with
    | fetch cmds => exact absurd rfl hbatch
    | push specs => exact absurd rfl hbatch
    | _ => trivial

/-- A sequence of well-formed commands is conveyed exactly when the names at the ends of
its fetch and push lines do not end in white space, which `line.trim()` removes with the
line break. -/
theorem conveys_iff {commands : List Command} {text : List Char}
    (hformed : ∀ command ∈ commands, command.WellFormed) (htext : Spells commands text) :
    Conveys commands text ↔ ∀ command ∈ commands, command.EndsVisible :=
  ⟨endsVisible_of_conveys hformed htext, conveys_of_endsVisible hformed htext⟩

/-- A fetch and a push, the last batch ended by the end of the input. -/
theorem conveys_fetch_push :
    Conveys
      [.fetch [⟨"a1", "refs/heads/main"⟩, ⟨"b2", "HEAD"⟩],
        .push [⟨true, "HEAD", "refs/heads/main"⟩, ⟨false, "", "refs/heads/old"⟩]]
      "fetch a1 refs/heads/main\nfetch b2 HEAD\n\npush +HEAD:refs/heads/main\npush :refs/heads/old".toList := by
  refine (conveys_iff ?_ ?_).mpr ?_
  · rw [List.forall_mem_cons, List.forall_mem_singleton]
    refine ⟨⟨List.cons_ne_nil _ _, ?_⟩, ⟨List.cons_ne_nil _ _, ?_⟩⟩
    · rw [List.forall_mem_cons, List.forall_mem_singleton]
      exact ⟨⟨by decide, List.all_eq_true.mp rfl, by decide⟩,
        ⟨by decide, List.all_eq_true.mp rfl, by decide⟩⟩
    · rw [List.forall_mem_cons, List.forall_mem_singleton]
      exact ⟨⟨Or.inr (by decide), fun _ => rfl, by decide⟩,
        ⟨Or.inl rfl, fun hplus => absurd hplus (by decide), by decide⟩⟩
  · have hlast : "push +HEAD:refs/heads/main\npush :refs/heads/old".toList =
        linesText ["push +HEAD:refs/heads/main".toList] ++
          "push :refs/heads/old".toList := by
      decide +kernel
    have hpush : Spells [.push [⟨true, "HEAD", "refs/heads/main"⟩,
        ⟨false, "", "refs/heads/old"⟩]]
        "push +HEAD:refs/heads/main\npush :refs/heads/old".toList := by
      rw [hlast]
      exact Spells.unfinished (by decide +kernel)
    have htext : ("fetch a1 refs/heads/main\nfetch b2 HEAD\n\n" ++
          "push +HEAD:refs/heads/main\npush :refs/heads/old").toList =
        linesText (Command.fetch [⟨"a1", "refs/heads/main"⟩, ⟨"b2", "HEAD"⟩]).lines ++
          '\n' :: "push +HEAD:refs/heads/main\npush :refs/heads/old".toList := by
      decide +kernel
    exact htext ▸ Spells.batch rfl hpush
  · rw [List.forall_mem_cons, List.forall_mem_singleton]
    refine ⟨?_, ?_⟩
    · exact List.forall_mem_cons.mpr ⟨by decide, List.forall_mem_singleton.mpr (by decide)⟩
    · exact List.forall_mem_cons.mpr ⟨by decide, List.forall_mem_singleton.mpr (by decide)⟩

/-- The name of a reference may end in a no-break space, which the helper is not told. -/
theorem not_conveys_noBreakSpace :
    (∀ command ∈ [Command.fetch [⟨"a1", "refs/heads/a\u00A0"⟩]], command.WellFormed) ∧
      Spells [Command.fetch [⟨"a1", "refs/heads/a\u00A0"⟩]]
        "fetch a1 refs/heads/a\u00A0\n\n".toList ∧
      ¬ Conveys [Command.fetch [⟨"a1", "refs/heads/a\u00A0"⟩]]
        "fetch a1 refs/heads/a\u00A0\n\n".toList := by
  have hformed : ∀ command ∈ [Command.fetch [⟨"a1", "refs/heads/a\u00A0"⟩]],
      command.WellFormed := by
    rw [List.forall_mem_singleton]
    exact ⟨List.cons_ne_nil _ _,
      List.forall_mem_singleton.mpr ⟨by decide, List.all_eq_true.mp rfl, by decide⟩⟩
  have htext : Spells [Command.fetch [⟨"a1", "refs/heads/a\u00A0"⟩]]
      "fetch a1 refs/heads/a\u00A0\n\n".toList :=
    @Spells.batch (.fetch [⟨"a1", "refs/heads/a\u00A0"⟩]) _ _ rfl .nil
  refine ⟨hformed, htext, fun hconveys => ?_⟩
  have hvisible := endsVisible_of_conveys hformed htext hconveys _ List.mem_cons_self
    ⟨"a1", "refs/heads/a\u00A0"⟩ List.mem_cons_self
  exact absurd hvisible (by decide)

end Frames

end GitHelpers

end Gnostr
