/-
What git can tell of a run: its output and its exit status.  Which failures of the helper
are seen in them.
-/
import Gnostr.GitHelpers.Framing

namespace Gnostr

namespace GitHelpers

open Gnostr.Types

section Exchanges

/-- A request with what the helper returned on it. -/
inductive Exchange where
  | capabilities (names : List String)
  | list (forPush : Bool) (answer : Except String (List GitRef))
  | fetch (lines : List (List Char)) (answer : Except String Unit)
  | push (lines : List (List Char)) (answer : Except String (List PushResult))
  | option
  | unknown

namespace Exchange

/-- The lines written on stdout. -/
def reply : Exchange → List String
  | capabilities names => names ++ [""]
  | list _ (.ok refs) => refs.map GitRef.line ++ [""]
  | list _ (.error _) => [""]
  | fetch _ _ => [""]
  | push _ (.ok results) => results.map PushResult.line ++ [""]
  | push _ (.error _) => [""]
  | option => ["unsupported"]
  | unknown => []

/-- The lines written on stderr. -/
def log : Exchange → List String
  | capabilities _ => []
  | list _ (.ok _) => []
  | list _ (.error e) => ["[git-remote] list error: " ++ e]
  | fetch _ (.ok ()) => []
  | fetch _ (.error e) => ["[git-remote] fetch error: " ++ e]
  | push _ (.ok _) => []
  | push _ (.error e) => ["[git-remote] push error: " ++ e]
  | option => []
  | unknown => []

/-- The helper was called. -/
def isCall : Exchange → Bool
  | list _ _ => true
  | fetch _ _ => true
  | push _ _ => true
  | _ => false

/-- The call returned `Err`. -/
def failed : Exchange → Bool
  | list _ (.error _) => true
  | fetch _ (.error _) => true
  | push _ (.error _) => true
  | _ => false

end Exchange

namespace RemoteHelper

variable {σ : Type} (helper : RemoteHelper σ)

/-- A call, with what it returned as a value. -/
def called {α : Type} (x : Session σ String α) (wrap : Except String α → Exchange) :
    Session σ String Exchange := do
  let answer ← x.attempt
  return wrap answer

/-- A request handed to the helper. -/
def exchange : Request → Session σ String Exchange
  | .capabilities => fun s => (.ok (.capabilities (helper.capabilities s)), s)
  | .list forPush => called (helper.list forPush) (.list forPush)
  | .fetch lines => called (helper.fetch (lines.filterMap parseFetchLine)) (.fetch lines)
  | .push lines => called (helper.push (lines.filterMap parsePushLine)) (.push lines)
  | .option => return .option
  | .unknown => return .unknown

/-- The requests handed to the helper one after the other, up to one it panics on. -/
def exchanges : List Request → σ → List Exchange
  | [], _ => []
  | request :: rest, s =>
      match helper.exchange request s with
      | (.ok e, t) => e :: exchanges rest t
      | _ => []

/-- What the helper was asked and returned in a run. -/
def exchangesOf (stdin : Bytes) (s : σ) : List Exchange :=
  helper.exchanges (requests (readLines lineBreak stdin)).1 s

/-- The calls of the helper in a run. -/
def callsOf (stdin : Bytes) (s : σ) : List Exchange :=
  (helper.exchangesOf stdin s).filter Exchange.isCall

/-- What git sees of a run over requests: how it ends and what it writes. -/
def transcriptOn (read : List Request × Outcome String Unit) (s : σ) :
    Outcome String Unit × String :=
  let ran := (do
    helper.answerAll read.1
    Session.lift read.2 : Session (σ × Console) String Unit) (s, Console.empty)
  (ran.1, ran.2.2.stdout)

/-- What git sees of a run. -/
def transcript (stdin : Bytes) (s : σ) : Outcome String Unit × String :=
  ((helper.runHelper stdin s).1, (helper.runHelper stdin s).2.2.stdout)

theorem transcript_eq (stdin : Bytes) (s : σ) :
    helper.transcript stdin s =
      helper.transcriptOn (requests (readLines lineBreak stdin)) s := by
  rw [transcript, runHelper, run_eq]
  rfl

/-- A call that reports success with nothing to report where it fails, if it is the
one of the given number; calls are counted in the state. -/
def hush {α : Type} (number : ℕ) (nothing : α) (x : Session σ String α) :
    Session (σ × ℕ) String α :=
  fun s =>
    match x s.1 with
    | (.err error, t) => (if s.2 = number then .ok nothing else .err error, t, s.2 + 1)
    | (outcome, t) => (outcome, t, s.2 + 1)

/-- The helper whose call of the given number never fails. -/
def hushAt (number : ℕ) : RemoteHelper (σ × ℕ) where
  capabilities s := helper.capabilities s.1
  list forPush := hush number [] (helper.list forPush)
  fetch cmds := hush number () (helper.fetch cmds)
  push specs := hush number [] (helper.push specs)

variable {helper}

theorem called_of_ok {α : Type} {x : Session σ String α} {wrap : Except String α → Exchange}
    {value : α} {s t : σ} (hx : x s = (.ok value, t)) :
    called x wrap s = (.ok (wrap (.ok value)), t) :=
  Session.bind_of_ok (Session.attempt_of_ok hx)

theorem called_of_err {α : Type} {x : Session σ String α}
    {wrap : Except String α → Exchange} {error : String} {s t : σ}
    (hx : x s = (.err error, t)) : called x wrap s = (.ok (wrap (.error error)), t) :=
  Session.bind_of_ok (Session.attempt_of_err hx)

theorem called_of_panic {α : Type} {x : Session σ String α}
    {wrap : Except String α → Exchange} {s t : σ} (hx : x s = (.panic, t)) :
    called x wrap s = (.panic, t) :=
  Session.bind_of_panic (Session.attempt_of_panic hx)

/-- The console after an exchange, or as it was when the helper panicked. -/
def afterwards (con : Console) :
    Outcome String Exchange × σ → Outcome String Unit × σ × Console
  | (.ok e, t) => (.ok (), t, ⟨con.stdout ++ unlines e.reply, con.stderr ++ unlines e.log⟩)
  | (.err error, t) => (.err error, t, con)
  | (.panic, t) => (.panic, t, con)

theorem console_silent (con : Console) (stdout : String) :
    (⟨stdout, con.stderr ++ unlines []⟩ : Console) = { con with stdout := stdout } := by
  rw [unlines, String.append_empty]

/-- What is written on a call is what the exchange has to say, and nothing on a panic. -/
theorem bind_attempt_eq_afterwards {α : Type} {x : Session σ String α}
    {wrap : Except String α → Exchange}
    {write : Except String α → Session (σ × Console) String Unit} {con : Console}
    (hwrite : ∀ result t, write result (t, con) = afterwards con (.ok (wrap result), t))
    (s : σ) :
    (x.attempt.onFst >>= write) (s, con) = afterwards con (called x wrap s) := by
  rcases hx : x s with ⟨value | error | _, t⟩
  · rw [called_of_ok hx,
      Session.bind_of_ok (Session.onFst_of_eq (Session.attempt_of_ok hx) con)]
    exact hwrite (.ok value) t
  · rw [called_of_err hx,
      Session.bind_of_ok (Session.onFst_of_eq (Session.attempt_of_err hx) con)]
    exact hwrite (.error error) t
  · rw [called_of_panic hx,
      Session.bind_of_panic (Session.onFst_of_eq (Session.attempt_of_panic hx) con)]
    rfl

/-- An answer writes what the exchange it comes from has to say. -/
theorem answer_eq (request : Request) (s : σ) (con : Console) :
    helper.answer request (s, con) = afterwards con (helper.exchange request s) := by
  cases request with
  | capabilities =>
      rw [exchange, afterwards, Exchange.reply, Exchange.log, console_silent,
        unlines_append, ← String.append_assoc]
      rfl
  | list forPush =>
      apply bind_attempt_eq_afterwards
      intro result t
      cases result with
      | ok refs =>
          rw [afterwards, Exchange.reply, Exchange.log, console_silent, unlines_append,
            ← String.append_assoc]
          rfl
      | error e => rfl
  | fetch lines =>
      apply bind_attempt_eq_afterwards
      intro result t
      cases result with
      | ok value =>
          rw [afterwards, Exchange.log, console_silent]
          rfl
      | error e => rfl
  | push lines =>
      apply bind_attempt_eq_afterwards
      intro result t
      cases result with
      | ok results =>
          rw [afterwards, Exchange.reply, Exchange.log, console_silent, unlines_append,
            ← String.append_assoc]
          rfl
      | error e => rfl
  | option =>
      show _ = (Outcome.ok (), s, (⟨_, con.stderr ++ unlines []⟩ : Console))
      rw [console_silent]
      rfl
  | unknown =>
      show _ = (Outcome.ok (), s, (⟨con.stdout ++ "", con.stderr ++ unlines []⟩ : Console))
      rw [console_silent, String.append_empty]
      rfl

end RemoteHelper

end Exchanges

section Alike

open RemoteHelper

variable {σ τ : Type}

/-- Two exchanges that git cannot tell apart, in states that stay related. -/
def Alike (R : σ → τ → Prop) :
    Outcome String Exchange × σ → Outcome String Exchange × τ → Prop
  | (.ok e, s), (.ok e', t) => e.reply = e'.reply ∧ R s t
  | (.panic, _), (.panic, _) => True
  | _, _ => False

variable {helper : RemoteHelper σ} {other : RemoteHelper τ} {R : σ → τ → Prop}

theorem answerAll_alike
    (halike : ∀ request s t, R s t → Alike R (helper.exchange request s)
      (other.exchange request t))
    (all : List Request) {s : σ} {t : τ} (hst : R s t) {con con' : Console}
    (hcon : con.stdout = con'.stdout) :
    (helper.answerAll all (s, con)).1 = (other.answerAll all (t, con')).1 ∧
      (helper.answerAll all (s, con)).2.2.stdout =
        (other.answerAll all (t, con')).2.2.stdout := by
  induction all generalizing s t con con' with
  | nil => exact ⟨rfl, hcon⟩
  | cons request rest ih =>
      have hrequest := halike request s t hst
      have hfirst := @answer_eq _ helper request s con
      have hsecond := @answer_eq _ other request t con'
      rcases hs : helper.exchange request s with ⟨e | error | _, s'⟩
      · rcases ht : other.exchange request t with ⟨e' | error' | _, t'⟩
        · rw [hs, ht] at hrequest
          rw [hs] at hfirst
          rw [ht] at hsecond
          rw [answerAll, answerAll, Session.bind_of_ok hfirst, Session.bind_of_ok hsecond]
          exact ih hrequest.2 (by rw [hcon, hrequest.1])
        · rw [hs, ht] at hrequest
          exact hrequest.elim
        · rw [hs, ht] at hrequest
          exact hrequest.elim
      · rw [hs] at hrequest
        exact hrequest.elim
      · rcases ht : other.exchange request t with ⟨e' | error' | _, t'⟩
        · rw [hs, ht] at hrequest
          exact hrequest.elim
        · rw [hs, ht] at hrequest
          exact hrequest.elim
        · rw [hs] at hfirst
          rw [ht] at hsecond
          rw [answerAll, answerAll, Session.bind_of_panic hfirst,
            Session.bind_of_panic hsecond]
          exact ⟨rfl, hcon⟩

/-- Helpers whose exchanges git cannot tell apart have the same transcripts. -/
theorem transcriptOn_alike
    (halike : ∀ request s t, R s t → Alike R (helper.exchange request s)
      (other.exchange request t))
    (read : List Request × Outcome String Unit) {s : σ} {t : τ} (hst : R s t) :
    helper.transcriptOn read s = other.transcriptOn read t := by
  obtain ⟨houtcome, hstdout⟩ := answerAll_alike halike read.1 hst
    (rfl : Console.empty.stdout = Console.empty.stdout)
  unfold transcriptOn
  rcases hs : helper.answerAll read.1 (s, Console.empty) with ⟨first, s'⟩
  rcases ht : other.answerAll read.1 (t, Console.empty) with ⟨second, t'⟩
  rw [hs, ht] at houtcome hstdout
  obtain rfl : first = second := houtcome
  cases first with
  | ok value =>
      rw [Session.bind_of_ok hs, Session.bind_of_ok ht]
      exact Prod.ext rfl hstdout
  | err error =>
      rw [Session.bind_of_err hs, Session.bind_of_err ht]
      exact Prod.ext rfl hstdout
  | panic =>
      rw [Session.bind_of_panic hs, Session.bind_of_panic ht]
      exact Prod.ext rfl hstdout

/-- A failing call looks like one with nothing to report. -/
theorem called_hush_alike {α : Type} {number : ℕ} {nothing : α} {x : Session σ String α}
    {wrap : Except String α → Exchange}
    (hwrap : ∀ error, (wrap (.error error)).reply = (wrap (.ok nothing)).reply)
    (s : σ) (count : ℕ) :
    Alike (fun (s : σ) (t : σ × ℕ) => t.1 = s) (called x wrap s)
      (called (hush number nothing x) wrap (s, count)) := by
  rcases hx : x s with ⟨value | error | _, t⟩
  · have hhush : hush number nothing x (s, count) = (.ok value, t, count + 1) := by
      rw [hush, hx]
    rw [called_of_ok hx, called_of_ok hhush]
    exact ⟨rfl, rfl⟩
  · rw [called_of_err hx]
    by_cases hcount : count = number
    · have hhush : hush number nothing x (s, count) = (.ok nothing, t, count + 1) := by
        rw [hush, hx]
        dsimp only
        rw [if_pos hcount]
      rw [called_of_ok hhush]
      exact ⟨hwrap error, rfl⟩
    · have hhush : hush number nothing x (s, count) = (.err error, t, count + 1) := by
        rw [hush, hx]
        dsimp only
        rw [if_neg hcount]
      rw [called_of_err hhush]
      exact ⟨rfl, rfl⟩
  · have hhush : hush number nothing x (s, count) = (.panic, t, count + 1) := by
      rw [hush, hx]
    rw [called_of_panic hx, called_of_panic hhush]
    trivial

theorem exchange_hushAt_alike (number : ℕ) (request : Request) (s : σ) (count : ℕ) :
    Alike (fun (s : σ) (t : σ × ℕ) => t.1 = s) (helper.exchange request s)
      ((helper.hushAt number).exchange request (s, count)) := by
  cases request with
  | capabilities => exact ⟨rfl, rfl⟩
  | list forPush => exact called_hush_alike (fun _ => rfl) s count
  | fetch lines => exact called_hush_alike (fun _ => rfl) s count
  | push lines => exact called_hush_alike (fun _ => rfl) s count
  | option => exact ⟨rfl, rfl⟩
  | unknown => exact ⟨rfl, rfl⟩

theorem transcript_hushAt (helper : RemoteHelper σ) (number : ℕ) (stdin : Bytes) (s : σ) :
    (helper.hushAt number).transcript stdin (s, 0) = helper.transcript stdin s := by
  rw [transcript_eq, transcript_eq]
  refine (transcriptOn_alike (R := fun (s : σ) (t : σ × ℕ) => t.1 = s) ?_ _ rfl).symm
  rintro request s ⟨_, count⟩ rfl
  exact exchange_hushAt_alike number request _ count

end Alike

section Visible

/-- The reference a line of a push is for; the whole refspec where it has no colon. -/
def pushTarget (line : List Char) : String :=
  match parsePushLine line with
  | some spec => spec.dst
  | none => String.ofList (line.drop "push ".toList.length)

/-- Each line of a push has its own result, and each result its own line. -/
def AnswersEach (lines : List (List Char)) (results : List PushResult) : Prop :=
  results.map PushResult.dst = lines.map pushTarget ∧
    readLines '\n' (unlines (results.map PushResult.line)).toList =
      results.map fun r => r.line.toList ++ ['\n']

/-- A line of a push is left out. -/
def Request.forget (line : List Char) : Request → Request
  | push lines => push (lines.filter fun other => decide (other ≠ line))
  | request => request

variable {σ : Type} (helper : RemoteHelper σ) (stdin : Bytes) (s : σ)

/-- Failures are visible to git: a run with a failing call is not taken for the one in
which this call succeeds with nothing to report, nor one with a line of a push that is
not understood for the one without the line, and every refspec is answered. -/
structure FailuresVisible : Prop where
  calls : ∀ number e, (helper.callsOf stdin s)[number]? = some e → e.failed = true →
    helper.transcript stdin s ≠ (helper.hushAt number).transcript stdin (s, 0)
  lines : ∀ lines answer, .push lines answer ∈ helper.exchangesOf stdin s →
    ∀ line ∈ lines, parsePushLine line = none →
      helper.transcript stdin s ≠ helper.transcriptOn
        ((requests (readLines lineBreak stdin)).1.map (Request.forget line),
          (requests (readLines lineBreak stdin)).2) s
  reports : ∀ lines answer, .push lines answer ∈ helper.exchangesOf stdin s →
    ∃ results, answer = .ok results ∧ AnswersEach lines results

/-- Nothing fails: no call returns `Err`, every line of a push is understood, and each
refspec has a result in one line, as the trait asks of `push`. -/
structure NothingFails : Prop where
  calls : ∀ e ∈ helper.exchangesOf stdin s, e.failed = false
  lines : ∀ lines answer, .push lines answer ∈ helper.exchangesOf stdin s →
    ∀ line ∈ lines, parsePushLine line ≠ none
  results : ∀ lines results, .push lines (.ok results) ∈ helper.exchangesOf stdin s →
    results.map PushResult.dst = (lines.filterMap parsePushLine).map PushSpec.dst ∧
      ∀ r ∈ results, OneLine r.line

variable {helper stdin s}

theorem RemoteHelper.answer_forget {line : List Char} (hline : parsePushLine line = none)
    (request : Request) :
    helper.answer (request.forget line) = helper.answer request := by
  cases request with
  | push lines =>
      have hlines : (lines.filter fun other => decide (other ≠ line)).filterMap parsePushLine =
          lines.filterMap parsePushLine := by
        induction lines with
        | nil => rfl
        | cons first lines ih =>
            by_cases hfirst : first = line
            · rw [List.filter_cons_of_neg (by simpa using hfirst), ih,
                List.filterMap_cons_none (hfirst ▸ hline)]
            · rw [List.filter_cons_of_pos (by simpa using hfirst)]
              cases hparse : parsePushLine first with
              | none =>
                  rw [List.filterMap_cons_none hparse, List.filterMap_cons_none hparse, ih]
              | some spec =>
                  rw [List.filterMap_cons_some hparse, List.filterMap_cons_some hparse, ih]
      rw [Request.forget, answer, answer, hlines]
  | _ => rfl

/-- A line that is not understood leaves no trace. -/
theorem RemoteHelper.transcriptOn_forget {line : List Char}
    (hline : parsePushLine line = none) (read : List Request × Outcome String Unit) :
    helper.transcriptOn (read.1.map (Request.forget line), read.2) s =
      helper.transcriptOn read s := by
  have hall : helper.answerAll (read.1.map (Request.forget line)) =
      helper.answerAll read.1 := by
    induction read.1 with
    | nil => rfl
    | cons request rest ih =>
        rw [List.map_cons, answerAll, answerAll, answer_forget hline, ih]
  rw [transcriptOn, transcriptOn, hall]

theorem map_pushTarget {lines : List (List Char)}
    (hlines : ∀ line ∈ lines, parsePushLine line ≠ none) :
    lines.map pushTarget = (lines.filterMap parsePushLine).map PushSpec.dst := by
  induction lines with
  | nil => rfl
  | cons line lines ih =>
      obtain ⟨spec, hspec⟩ := Option.ne_none_iff_exists'.mp (hlines line List.mem_cons_self)
      rw [List.map_cons, pushTarget, hspec, List.filterMap_cons_some hspec, List.map_cons,
        ih fun other hother => hlines other (List.mem_cons_of_mem _ hother)]

theorem Exchange.isCall_of_failed {e : Exchange} (hfailed : e.failed = true) :
    e.isCall = true := by
  cases e with
  | list forPush answer => rfl
  | fetch lines answer => rfl
  | push lines answer => rfl
  | _ => cases hfailed

theorem FailuresVisible.nothingFails (hvisible : FailuresVisible helper stdin s) :
    NothingFails helper stdin s where
  calls e he := by
    rw [← Bool.not_eq_true]
    intro hfailed
    obtain ⟨number, hnumber⟩ := List.mem_iff_getElem?.mp
      (List.mem_filter.mpr ⟨he, Exchange.isCall_of_failed hfailed⟩)
    exact hvisible.calls number e hnumber hfailed (transcript_hushAt helper number stdin s).symm
  lines lines answer hexchange line hline hparse := by
    refine hvisible.lines lines answer hexchange line hline hparse ?_
    rw [RemoteHelper.transcriptOn_forget hparse, RemoteHelper.transcript_eq]
  results lines results hexchange := by
    obtain ⟨results', hresults, htargets, hread⟩ := hvisible.reports lines _ hexchange
    cases hresults
    have hlines : ∀ line ∈ lines, parsePushLine line ≠ none := by
      intro line hline hparse
      refine hvisible.lines lines _ hexchange line hline hparse ?_
      rw [RemoteHelper.transcriptOn_forget hparse, RemoteHelper.transcript_eq]
    refine ⟨by rw [htargets, map_pushTarget hlines], fun r hr => ?_⟩
    refine @notMem_of_mem_readLines _ _ _ (unlines (results.map PushResult.line)).toList _ ?_
    rw [hread]
    exact List.mem_map_of_mem hr

theorem NothingFails.failuresVisible (hnothing : NothingFails helper stdin s) :
    FailuresVisible helper stdin s where
  calls number e hnumber hfailed := by
    have he := List.mem_of_mem_filter (List.mem_of_getElem? hnumber)
    rw [hnothing.calls e he] at hfailed
    cases hfailed
  lines lines answer hexchange line hline hparse :=
    absurd hparse (hnothing.lines lines answer hexchange line hline)
  reports lines answer hexchange := by
    cases answer with
    | error error => cases hnothing.calls _ hexchange
    | ok results =>
        obtain ⟨hdst, hone⟩ := hnothing.results lines results hexchange
        have hread := RemoteHelper.readLines_unlines (List.forall_mem_map.mpr hone)
        rw [List.map_map] at hread
        exact ⟨results, rfl,
          by rw [hdst, map_pushTarget (hnothing.lines lines _ hexchange)], hread⟩

/-- Failures are visible exactly in the runs in which nothing fails: an `Err` and a line
that is not understood leave the transcript as it is, and a line break in a message ends
its line. -/
theorem failuresVisible_iff (helper : RemoteHelper σ) (stdin : Bytes) (s : σ) :
    FailuresVisible helper stdin s ↔ NothingFails helper stdin s :=
  ⟨FailuresVisible.nothingFails, NothingFails.failuresVisible⟩

/-- A helper whose remote cannot be reached. -/
def unreachable : RemoteHelper Unit where
  capabilities _ := ["fetch", "push", "option"]
  list _ := Session.fail "connection refused"
  fetch _ := Session.fail "connection refused"
  push _ := Session.fail "connection refused"

/-- To git the remote that cannot be reached is an empty one. -/
theorem not_failuresVisible_unreachable :
    ¬ FailuresVisible unreachable (utf8 "list\n") () := by
  intro hvisible
  have hread := requests_of_spells (@Spells.eof (.list false))
    (List.forall_mem_singleton.mpr trivial)
  have htext : String.ofList (linesText (Command.list false).lines) = "list\n" := by decide
  rw [pieces, htext] at hread
  have hexchange : Exchange.list false (.error "connection refused") ∈
      unreachable.exchangesOf (utf8 "list\n") () := by
    rw [RemoteHelper.exchangesOf, hread]
    exact List.mem_singleton.mpr rfl
  cases hvisible.nothingFails.calls _ hexchange

end Visible

end GitHelpers

end Gnostr
