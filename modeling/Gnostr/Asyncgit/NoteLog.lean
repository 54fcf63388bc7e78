/-
The notes on an object as a log: what is kept of the note by any mixture of amendments and
minings, and what happens to it where the old note cannot be read or is trimmed.
-/
import Gnostr.Asyncgit.Notes
import Gnostr.Lib.Digits
import Gnostr.Lib.Occurrences
import Gnostr.Lib.Steps

namespace Gnostr

open Gnostr.Types

namespace Asyncgit

section Texts

theorem trimEnd_append (text : String) :
    ∃ space, (∀ c ∈ space.toList, isWhiteSpace c = true) ∧
      text = trimEnd text ++ space := by
  refine ⟨String.ofList (text.toList.rtakeWhile isWhiteSpace), ?_, ?_⟩
  · intro c hc
    rw [String.toList_ofList] at hc
    exact List.mem_rtakeWhile_imp hc
  · apply String.toList_injective
    simp [trimEnd, List.rdropWhile_append_rtakeWhile]

theorem trimEnd_eq_self {text : String} (hne : text.toList ≠ [])
    (hlast : isWhiteSpace (text.toList.getLast hne) = false) : trimEnd text = text := by
  apply String.toList_injective
  rw [trimEnd, String.toList_ofList, List.rdropWhile_eq_self_iff]
  intro _
  simp [hlast]

/-- A text that ends in one that is not trimmed is not trimmed. -/
theorem trimEnd_of_isSuffix {text ending : String} (hne : ending ≠ "")
    (hsuffix : ending.toList <:+ text.toList) (hending : trimEnd ending = ending) :
    trimEnd text = text := by
  have hnil : ending.toList ≠ [] := fun hnil => hne (String.toList_eq_nil_iff.mp hnil)
  have hkept := congrArg String.toList hending
  rw [trimEnd, String.toList_ofList, List.rdropWhile_eq_self_iff] at hkept
  obtain ⟨before, htext⟩ := hsuffix
  have htextNil : text.toList ≠ [] := by
    rw [← htext]
    exact List.append_ne_nil_of_right_ne_nil before hnil
  apply trimEnd_eq_self htextNil
  have hlast : text.toList.getLast htextNil = ending.toList.getLast hnil := by
    simp only [← htext]
    exact List.getLast_append_of_ne_nil _ hnil
  rw [hlast]
  simpa using hkept hnil

theorem nonceHex_ne_empty (nonce : UInt64) : nonceHex nonce ≠ "" := by
  intro hempty
  have hnil := congrArg String.toList hempty
  simp [nonceHex, List.leftpad] at hnil

theorem trimEnd_nonceHex (nonce : UInt64) : trimEnd (nonceHex nonce) = nonceHex nonce := by
  have hne : (nonceHex nonce).toList ≠ [] := fun hnil =>
    nonceHex_ne_empty nonce (String.toList_eq_nil_iff.mp hnil)
  apply trimEnd_eq_self hne
  have hlast := List.getLast_mem hne
  generalize (nonceHex nonce).toList.getLast hne = c at hlast
  have hdigit : c ∈ Hex.hexDigits := by
    rw [nonceHex, String.toList_ofList, List.leftpad] at hlast
    rcases List.mem_append.mp hlast with hpad | hnumber
    · rw [List.eq_of_mem_replicate hpad]
      decide
    · exact mem_hexDigits_of_mem_toDigits (by decide) (by decide) hnumber
  have hall : Hex.hexDigits.all (fun c => !isWhiteSpace c) = true := by decide
  simpa using List.all_eq_true.mp hall c hdigit

/-- What `append_nonce` writes begins with the message. -/
theorem appendNonce_eq (message : String) (nonce : UInt64) (idPrefix : String) :
    ∃ between, appendNonce message nonce idPrefix =
      message ++ between ++ nonceHex nonce := by
  rw [appendNonce]
  split_ifs with hempty
  · exact ⟨idPrefix ++ "-", by simp [hempty]⟩
  · exact ⟨"\n\n" ++ idPrefix ++ "-", by simp [String.append_assoc]⟩

theorem trimEnd_appendNonce (message : String) (nonce : UInt64) (idPrefix : String) :
    trimEnd (appendNonce message nonce idPrefix) = appendNonce message nonce idPrefix := by
  obtain ⟨between, heq⟩ := appendNonce_eq message nonce idPrefix
  apply trimEnd_of_isSuffix (nonceHex_ne_empty nonce) _ (trimEnd_nonceHex nonce)
  rw [heq, String.toList_append]
  exact List.suffix_append _ _

/-- Two texts with a line break between them if neither is empty. -/
def joined (existing note : String) : String :=
  if existing = "" then note else if note = "" then existing else existing ++ "\n" ++ note

theorem joined_eq (existing note : String) :
    ∃ separator, joined existing note = existing ++ separator ++ note := by
  rw [joined]
  split_ifs with hexisting hnote
  · exact ⟨"", by simp [hexisting]⟩
  · exact ⟨"", by simp [hnote]⟩
  · exact ⟨"\n", rfl⟩

theorem joined_empty (existing : String) : joined existing "" = existing := by
  by_cases hexisting : existing = ""
  · simp [joined, hexisting]
  · simp [joined, hexisting]

end Texts

section Log

/-- The notes of a repository with the texts that were passed so far, and the last text, if
it is not empty, that was amended since the last mining. -/
structure NoteLog where
  repo : NoteState
  texts : List String
  lastAmended : String

def NoteLog.start (repo : NoteState) : NoteLog := ⟨repo, [], ""⟩

def NoteEdit.text : NoteEdit → String
  | amend note => note
  | mine note _ _ => note

def NoteEdit.amendedAfter (lastAmended : String) : NoteEdit → String
  | amend note => if note = "" then lastAmended else note
  | mine _ _ _ => ""

variable (git : Git) (objectId : Oid) (notesRef : Option String)

def attached (s : NoteState) : Option Bytes := s.notes (git.refName notesRef) objectId

/-- A call that succeeds with an id. -/
structure LogStep (overflowChecks : Bool) (s : NoteLog) (call : NoteEdit × Oid)
    (t : NoteLog) : Prop where
  success : ∃ fuel uuid, git.refName notesRef ≠ mineTempRef objectId uuid ∧
    call.1.run git overflowChecks fuel uuid objectId notesRef s.repo =
      (.ok (some call.2), t.repo)
  texts : t.texts = s.texts ++ [call.1.text]
  lastAmended : t.lastAmended = call.1.amendedAfter s.lastAmended

/-- The previous note, with white space at its end removed, is how the next one begins. -/
def Keeps (previous next : Bytes) : Prop :=
  ∃ kept space, (∀ c ∈ String.toList space, isWhiteSpace c = true) ∧
    previous = kept ++ utf8 space ∧ kept <+: next

/-- An attestation that is appended to a log keeps it. -/
theorem keeps_appendPublicAttestationLog (existing : String) (timestamp : Int64)
    (eventId commitId : String) (powBits : UInt8) :
    Keeps (utf8 existing) (utf8
      (appendPublicAttestationLog (some existing) timestamp eventId commitId powBits)) := by
  obtain ⟨space, hspace, hexisting⟩ := trimEnd_append existing
  refine ⟨utf8 (trimEnd existing), space, hspace, ?_, ?_⟩
  · rw [← utf8_append, ← hexisting]
  · simp only [appendPublicAttestationLog, Option.map_some]
    split_ifs with hempty
    · simp [hempty, show utf8 "" = [] from rfl]
    · rw [String.append_assoc, utf8_append]
      exact List.prefix_append _ _

/-- What is promised of a call: the note has grown, the texts are in it, and the id of a
mined note is good and the one of the note. -/
structure Grows (s : NoteLog) (call : NoteEdit × Oid) (t : NoteLog) : Prop where
  keeps : ∀ previous, attached git objectId notesRef s.repo = some previous →
    ∃ next, attached git objectId notesRef t.repo = some next ∧ Keeps previous next
  texts : ∃ next, attached git objectId notesRef t.repo = some next ∧
    OccurInOrder (t.texts.map utf8) next
  mined : ∀ note powTargetBits idPrefix, call.1 = .mine note powTargetBits idPrefix →
    GoodId powTargetBits (idPrefix.getD defaultMineNotePrefix) call.2 ∧
      ∃ next, attached git objectId notesRef t.repo = some next ∧ call.2 = git.blobId next

/-- The note, if there is one, is a text without a zero byte. -/
def Readable (note : Option Bytes) : Prop :=
  ∀ bytes, note = some bytes → 0 ∉ bytes ∧ ∃ text, bytes = utf8 text

/-- A note is only mined when the text that was amended last loses nothing by it. -/
def NoteEdit.TrimsNoText (s : NoteLog) : NoteEdit → Prop
  | amend _ => True
  | mine _ _ _ => trimEnd s.lastAmended = s.lastAmended

/-- A step by which no text is trimmed. -/
def MeetingStep (overflowChecks : Bool) (s : NoteLog) (call : NoteEdit × Oid)
    (t : NoteLog) : Prop :=
  LogStep git objectId notesRef overflowChecks s call t ∧ call.1.TrimsNoText s

/-- The texts are in the note, also when it is trimmed, unless it ends in the last text. -/
structure Logged (s : NoteLog) (text : String) : Prop where
  note : (attached git objectId notesRef s.repo).getD [] = utf8 text
  nul : 0 ∉ utf8 text
  texts : OccurInOrder (s.texts.map utf8) (utf8 text)
  trimmed : s.lastAmended = "" → OccurInOrder (s.texts.map utf8) (utf8 (trimEnd text))
  ending : s.lastAmended.toList <:+ text.toList

variable {git objectId notesRef}

theorem logged_start {repo : NoteState}
    (hreadable : Readable (attached git objectId notesRef repo)) :
    ∃ text, Logged git objectId notesRef (.start repo) text := by
  cases hnote : attached git objectId notesRef repo with
  | none =>
      refine ⟨"", ?_, ?_, trivial, fun _ => trivial, List.nil_suffix⟩
      · exact congrArg (·.getD []) hnote
      · exact List.not_mem_nil
  | some bytes =>
      obtain ⟨hnul, text, rfl⟩ := hreadable bytes hnote
      exact ⟨text, congrArg (·.getD []) hnote, hnul, trivial, fun _ => trivial,
        List.nil_suffix⟩

theorem noteMessage_utf8 {text : String} (hnul : 0 ∉ utf8 text) :
    noteMessage (utf8 text) = some text := by
  have hall : (utf8 text).takeWhile (· != 0) = utf8 text := by
    apply List.takeWhile_eq_self_iff.mpr
    intro byte hbyte
    have hne : byte ≠ 0 := fun hzero => hnul (hzero ▸ hbyte)
    simpa using hne
  rw [noteMessage, hall, fromUtf8_utf8]

theorem amendedMessage_eq {existing : Option Bytes} {text : String}
    (hnote : existing.getD [] = utf8 text) (hnul : 0 ∉ utf8 text) (note : String) :
    amendedMessage existing note = joined text note := by
  cases existing with
  | none =>
      obtain rfl : text = "" := utf8_injective (hnote.symm.trans rfl)
      simp [amendedMessage, joined]
  | some bytes =>
      obtain rfl : bytes = utf8 text := hnote
      simp [amendedMessage, noteMessage_utf8 hnul, joined]

theorem combineNoteMessages_eq {existing : Option Bytes} {text : String}
    (hnote : existing.getD [] = utf8 text) (hnul : 0 ∉ utf8 text) (note : String) :
    combineNoteMessages (existing.bind noteMessage) note = joined (trimEnd text) note := by
  cases existing with
  | none =>
      obtain rfl : text = "" := utf8_injective (hnote.symm.trans rfl)
      simp [combineNoteMessages, joined, trimEnd]
  | some bytes =>
      obtain rfl : bytes = utf8 text := hnote
      simp [combineNoteMessages, noteMessage_utf8 hnul, joined]

theorem logged_amend {overflowChecks : Bool} {s t : NoteLog} {note text : String}
    {noteId : Oid} (hlogged : Logged git objectId notesRef s text)
    (hstep : LogStep git objectId notesRef overflowChecks s (.amend note, noteId) t) :
    attached git objectId notesRef t.repo = some (utf8 (joined text note)) ∧
      Logged git objectId notesRef t (joined text note) := by
  obtain ⟨⟨fuel, uuid, -, hrun⟩, htexts, hlast⟩ := hstep
  obtain ⟨hattached, hnul⟩ := amendNote_eq_ok (run_amend_eq_ok_iff.mp hrun)
  have hmessage : amendedMessage (s.repo.notes (git.refName notesRef) objectId) note =
      joined text note := amendedMessage_eq hlogged.note hlogged.nul note
  rw [hmessage] at hattached hnul
  obtain ⟨separator, hjoined⟩ := joined_eq text note
  have hbytes : utf8 (joined text note) = utf8 text ++ utf8 separator ++ utf8 note := by
    rw [hjoined, utf8_append, utf8_append]
  refine ⟨hattached, congrArg (·.getD []) hattached, hnul, ?_, ?_, ?_⟩
  · rw [htexts, List.map_append, hbytes]
    exact (hlogged.texts.append _).snoc _
  · intro hempty
    rw [hlast] at hempty
    have hnote : note = "" := by
      by_contra hne
      simp [NoteEdit.amendedAfter, hne] at hempty
    subst hnote
    have hbefore : s.lastAmended = "" := by simpa [NoteEdit.amendedAfter] using hempty
    rw [htexts, List.map_append, joined_empty, ← List.append_nil (utf8 (trimEnd text))]
    exact (hlogged.trimmed hbefore).snoc _
  · rw [hlast]
    by_cases hnote : note = ""
    · simpa [NoteEdit.amendedAfter, hnote, joined_empty] using hlogged.ending
    · rw [hjoined, String.toList_append, NoteEdit.amendedAfter, if_neg hnote]
      exact List.suffix_append _ _

/-- No text is lost when the note is trimmed. -/
theorem occurInOrder_trimEnd {s : NoteLog} {text : String}
    (hlogged : Logged git objectId notesRef s text)
    (htrims : trimEnd s.lastAmended = s.lastAmended) :
    OccurInOrder (s.texts.map utf8) (utf8 (trimEnd text)) := by
  by_cases hempty : s.lastAmended = ""
  · exact hlogged.trimmed hempty
  · rw [trimEnd_of_isSuffix hempty hlogged.ending htrims]
    exact hlogged.texts

theorem logged_mine {overflowChecks : Bool} {s t : NoteLog} {note text : String}
    {powTargetBits : UInt8} {idPrefix : Option String} {noteId : Oid}
    (hlogged : Logged git objectId notesRef s text)
    (hstep : LogStep git objectId notesRef overflowChecks s
      (.mine note powTargetBits idPrefix, noteId) t)
    (htrims : trimEnd s.lastAmended = s.lastAmended) :
    ∃ next more, attached git objectId notesRef t.repo = some (utf8 next) ∧
      Logged git objectId notesRef t next ∧ next = trimEnd text ++ more ∧
      noteId = git.blobId (utf8 next) ∧
      GoodId powTargetBits (idPrefix.getD defaultMineNotePrefix) noteId := by
  obtain ⟨⟨fuel, uuid, hne, hrun⟩, htexts, hlast⟩ := hstep
  obtain ⟨index, hattached, hnul, hid, hgood⟩ := mineNote_eq_ok hne hrun
  have hbase : baseMessage git s.repo objectId notesRef note = joined (trimEnd text) note :=
    combineNoteMessages_eq hlogged.note hlogged.nul note
  rw [hbase, candidate] at hattached hnul hid
  obtain ⟨separator, hjoined⟩ := joined_eq (trimEnd text) note
  obtain ⟨between, hnext⟩ := appendNonce_eq (joined (trimEnd text) note)
    (UInt64.ofNat index) (idPrefix.getD defaultMineNotePrefix)
  have htrimmed := trimEnd_appendNonce (joined (trimEnd text) note) (UInt64.ofNat index)
    (idPrefix.getD defaultMineNotePrefix)
  have hoccur : OccurInOrder (t.texts.map utf8)
      (utf8 (appendNonce (joined (trimEnd text) note) (UInt64.ofNat index)
        (idPrefix.getD defaultMineNotePrefix))) := by
    rw [htexts, List.map_append, hnext, hjoined]
    simp only [utf8_append]
    exact ((((occurInOrder_trimEnd hlogged htrims).append _).snoc _).append _).append _
  refine ⟨_, separator ++ note ++ between ++ nonceHex (UInt64.ofNat index), hattached, ?_,
    ?_, hid, hgood⟩
  · refine ⟨congrArg (·.getD []) hattached, hnul, hoccur, ?_, ?_⟩
    · intro _
      rw [htrimmed]
      exact hoccur
    · rw [hlast]
      exact List.nil_suffix
  · rw [hnext, hjoined]
    simp only [String.append_assoc]

/-- A step by which no text is trimmed does what is promised. -/
theorem grows_of_logged {overflowChecks : Bool} {s t : NoteLog} {call : NoteEdit × Oid}
    {text : String} (hlogged : Logged git objectId notesRef s text)
    (hstep : MeetingStep git objectId notesRef overflowChecks s call t) :
    Grows git objectId notesRef s call t ∧ ∃ next, Logged git objectId notesRef t next := by
  have hprevious : ∀ {previous}, attached git objectId notesRef s.repo = some previous →
      previous = utf8 text := fun hattached =>
    (congrArg (·.getD []) hattached).symm.trans hlogged.note
  obtain ⟨hstep, htrims⟩ := hstep
  obtain ⟨edit, noteId⟩ := call
  cases edit with
  | amend note =>
      obtain ⟨hattached, hnext⟩ := logged_amend hlogged hstep
      refine ⟨⟨?_, ⟨_, hattached, hnext.texts⟩, fun _ _ _ hmine => ?_⟩, _, hnext⟩
      · intro previous hbefore
        obtain ⟨separator, hjoined⟩ := joined_eq text note
        refine ⟨_, hattached, utf8 text, "", by simp, ?_, ?_⟩
        · rw [hprevious hbefore, ← utf8_append, String.append_empty]
        · rw [hjoined, String.append_assoc, utf8_append]
          exact List.prefix_append _ _
      · cases hmine
  | mine note powTargetBits idPrefix =>
      obtain ⟨next, more, hattached, hnext, heq, hid, hgood⟩ :=
        logged_mine hlogged hstep htrims
      refine ⟨⟨?_, ⟨_, hattached, hnext.texts⟩, ?_⟩, next, hnext⟩
      · intro previous hbefore
        obtain ⟨space, hspace, htext⟩ := trimEnd_append text
        refine ⟨_, hattached, utf8 (trimEnd text), space, hspace, ?_, ?_⟩
        · rw [hprevious hbefore, ← utf8_append, ← htext]
        · rw [heq, utf8_append]
          exact List.prefix_append _ _
      · intro note' powTargetBits' idPrefix' hmine
        cases hmine
        exact ⟨hgood, _, hattached, hid⟩

/-- The notes on an object are a log: from a note that can be read, in every run whose
steps trim no text, each step does what is promised. -/
theorem grows_of_steps {repo : NoteState}
    (hreadable : Readable (attached git objectId notesRef repo)) {overflowChecks : Bool}
    {calls : List (NoteEdit × Oid)} {s t : NoteLog} {call : NoteEdit × Oid}
    (hrun : Steps (MeetingStep git objectId notesRef overflowChecks) (.start repo) calls s)
    (hstep : MeetingStep git objectId notesRef overflowChecks s call t) :
    Grows git objectId notesRef s call t := by
  have hlogged : ∃ text, Logged git objectId notesRef s text := by
    apply hrun.invariant (logged_start hreadable)
    rintro _ label before after ⟨text, hbefore⟩ hlabel
    exact (grows_of_logged hbefore hlabel).2
  obtain ⟨text, htext⟩ := hlogged
  exact (grows_of_logged htext hstep).1

theorem logStep_amend {overflowChecks : Bool} {s : NoteLog} {uuid note : String}
    {noteId : Oid} {t : NoteState} (hne : git.refName notesRef ≠ mineTempRef objectId uuid)
    (hok : amendNote git objectId note notesRef s.repo = (.ok noteId, t)) :
    LogStep git objectId notesRef overflowChecks s (.amend note, noteId)
      ⟨t, s.texts ++ [note], (NoteEdit.amend note).amendedAfter s.lastAmended⟩ :=
  ⟨⟨0, uuid, hne, run_amend_eq_ok_iff.mpr hok⟩, rfl, rfl⟩

theorem logStep_mine {overflowChecks : Bool} {s : NoteLog} {uuid note : String}
    {powTargetBits : UInt8} {idPrefix : Option String} {fuel : ℕ} {noteId : Oid}
    {t : NoteState} (hne : git.refName notesRef ≠ mineTempRef objectId uuid)
    (hok : mineNote git overflowChecks fuel uuid objectId note notesRef powTargetBits
      idPrefix s.repo = (.ok (some noteId), t)) :
    LogStep git objectId notesRef overflowChecks s
      (.mine note powTargetBits idPrefix, noteId) ⟨t, s.texts ++ [note], ""⟩ :=
  ⟨⟨fuel, uuid, hne, hok⟩, rfl, rfl⟩

end Log

section Examples

theorem refName_faultless_ne : faultless.refName none ≠
    mineTempRef (Vector.replicate 20 0) "67e5504410b1426f9247bb680e5fe0c8" := by
  decide

theorem exists_grows_amend_mine :
    ∃ calls s noteId t,
      Steps (MeetingStep faultless (Vector.replicate 20 0) none true)
          (.start (notedWith (some (utf8 "old\n")))) calls s ∧
        calls.map Prod.fst = [.amend "new"] ∧
        Grows faultless (Vector.replicate 20 0) none s (.mine "more" 0 (some ""), noteId)
          t := by
  have hreadable : Readable (attached faultless (Vector.replicate 20 0) none
      (notedWith (some (utf8 "old\n")))) := by
    intro bytes hbytes
    obtain rfl := Option.some.inj hbytes
    exact ⟨by decide, "old\n", rfl⟩
  obtain ⟨text, hstart⟩ := logged_start hreadable
  obtain rfl : "old\n" = text := utf8_injective hstart.note
  obtain ⟨amendedId, amended, hamend⟩ := @exists_amendNote_ok faultless
    (notedWith (some (utf8 "old\n"))) (Vector.replicate 20 0) none "new" (fun _ => rfl)
    (by decide)
  have hfirst := @logStep_amend faultless (Vector.replicate 20 0) none true
    (.start (notedWith (some (utf8 "old\n")))) _ _ _ _ refName_faultless_ne hamend
  obtain ⟨-, hlogged⟩ := logged_amend hstart hfirst
  have hbase : baseMessage faultless amended (Vector.replicate 20 0) none "more" =
      "old\n\nnew\nmore" :=
    (combineNoteMessages_eq hlogged.note hlogged.nul "more").trans (by decide)
  have hnul : ∀ i ≤ 0, 0 ∉ utf8 (candidate (baseMessage faultless amended
      (Vector.replicate 20 0) none "more") ((some "").getD defaultMineNotePrefix) i) := by
    intro i hi
    rw [hbase, Nat.le_zero.mp hi]
    decide
  obtain ⟨fuel, minedId, mined, hmine⟩ := @exists_mineNote_ok faultless amended
    (Vector.replicate 20 0) none true _ "more" 0 (some "") (fun _ => rfl)
    refName_faultless_ne 0 ⟨List.nil_prefix, Nat.zero_le _⟩ hnul
  exact ⟨[(.amend "new", amendedId)], _, minedId, _, .snoc .nil ⟨hfirst, trivial⟩, rfl,
    grows_of_steps hreadable (.snoc .nil ⟨hfirst, trivial⟩)
      ⟨@logStep_mine faultless _ none true ⟨amended, ["new"], "new"⟩ _ _ _ _ _ _ _
        refName_faultless_ne hmine, (by decide : trimEnd "new" = "new")⟩⟩

/-- A note that is not UTF-8 is lost when a text is amended. -/
theorem not_grows_unreadable :
    ∃ noteId t,
      LogStep faultless (Vector.replicate 20 0) none true
          (.start (notedWith (some [0xFF]))) (.amend "new", noteId) t ∧
        ¬ Grows faultless (Vector.replicate 20 0) none
          (.start (notedWith (some [0xFF]))) (.amend "new", noteId) t := by
  obtain ⟨noteId, amended, hamend⟩ := @exists_amendNote_ok faultless
    (notedWith (some [0xFF])) (Vector.replicate 20 0) none "new" (fun _ => rfl) (by decide)
  refine ⟨noteId, _, logStep_amend refName_faultless_ne hamend, fun hgrows => ?_⟩
  obtain ⟨next, hnext, kept, space, -, hprevious, hkept⟩ := hgrows.keeps [0xFF] rfl
  have hnew : next = utf8 "new" := Option.some.inj
    (hnext.symm.trans ((amendNote_eq_ok hamend).1.trans (by decide)))
  subst hnew
  rcases kept with _ | ⟨byte, kept⟩
  · have hread : fromUtf8 [0xFF] = some space := by
      rw [hprevious, List.nil_append, fromUtf8_utf8]
    exact absurd (show fromUtf8 [0xFF] = none by decide) (by simp [hread])
  · obtain ⟨rfl, -⟩ := List.cons.inj hprevious
    exact absurd (List.cons_prefix_cons.mp hkept).1 (by decide)

end Examples

end Asyncgit

end Gnostr
