/-
Parsers that move a cursor over the bytes of a text.  From a place of the text every one of
them leads to a place at or behind it, so that a run cuts the text into words; the rules
say which words a sequence, a choice, a loop and a search cut off.
-/
import Gnostr.Lib.TextPos

namespace Gnostr

open String (utf8Len)

/-- What a parser comes to from a position of a text, and the position it moves to. -/
def CursorParser (ε α : Type) := List Char → ℕ → Outcome ε α × ℕ

namespace CursorParser

/-- `start..stop`. -/
structure Span where
  start : ℕ
  stop : ℕ
deriving DecidableEq, Repr

variable {ε α β : Type}

def stop (outcome : Outcome ε α) : CursorParser ε α := fun _ cursor => (outcome, cursor)

/-- One parser goes on where another came to its end, whatever that was. -/
def andThen (p : CursorParser ε α) (next : Outcome ε α → CursorParser ε β) :
    CursorParser ε β :=
  fun text cursor => next (p text cursor).1 text (p text cursor).2

/-- What is done behind an end, when only a value lets the parser go on. -/
def onValue (next : α → CursorParser ε β) : Outcome ε α → CursorParser ε β
  | .ok value => next value
  | .err error => stop (.err error)
  | .panic => stop .panic

instance : Monad (CursorParser ε) where
  pure value := stop (.ok value)
  bind p next := andThen p (onValue next)

/-- Where the cursor is. -/
def position : CursorParser ε ℕ := fun _ cursor => (.ok cursor, cursor)

def fail (error : ℕ → ε) : CursorParser ε α := fun _ cursor => (.err (error cursor), cursor)

/-- What is done behind an end, when an error lets the parser go on. -/
def onError (next : CursorParser ε α) : Outcome ε α → CursorParser ε α
  | .ok value => stop (.ok value)
  | .err _ => next
  | .panic => stop .panic

/-- `or_else`: the second parser goes on where the first one failed. -/
def orElse (p q : CursorParser ε α) : CursorParser ε α := andThen p (onError q)

/-- `map_err`, with the position the parser failed at. -/
def mapErr (p : CursorParser ε α) (error : ℕ → ε) : CursorParser ε α := orElse p (fail error)

/-- `is_ok`. -/
def isOk (p : CursorParser ε α) : CursorParser ε Bool :=
  orElse (p >>= fun _ => pure true) (pure false)

/-- What a parser got over. -/
def spanOf (p : CursorParser ε α) : CursorParser ε Span := do
  let start ← position
  let _ ← p
  let stop ← position
  pure ⟨start, stop⟩

/-- A test of the cursor that does not move it. -/
abbrev Test := List Char → ℕ → Bool

def ask (test : Test) : CursorParser ε Bool := fun text cursor => (.ok (test text cursor), cursor)

/-- A loop that runs out of its fuel does not come back. -/
def whileLoop (condition : Test) (body : CursorParser ε α) : ℕ → CursorParser ε (List α)
  | 0 => stop .panic
  | fuel + 1 => do
      if ← ask condition then
        let value ← body
        let values ← whileLoop condition body fuel
        pure (value :: values)
      else pure []

/-- `while condition { body }`, with all that the body answers. -/
def whileDo (condition : Test) (body : CursorParser ε α) : CursorParser ε (List α) :=
  fun text cursor => whileLoop condition body (utf8Len text + 1) text cursor

/-- What a try of a search comes to, unless it goes on. -/
def settled : Outcome ε α → Option (Outcome ε α)
  | .ok value => some (.ok value)
  | .err _ => none
  | .panic => some .panic

/-- What a parser comes to at so many positions from one on. -/
def tries (p : CursorParser ε α) (text : List Char) (start count : ℕ) : List (Outcome ε α) :=
  (List.range' start count).map fun pos => (p text pos).1

/-- The first position from the cursor on where a parser succeeds; the cursor stays.  The
error is made of the first one of the tries. -/
def find (p : CursorParser ε α) (lost : ℕ → ε → ε) : CursorParser ε α := fun text cursor =>
  let tried := tries p text cursor (utf8Len text + 1 - cursor)
  match tried.findSome? settled, tried.head? with
  | some found, _ => (found, cursor)
  | none, some (.err error) => (.err (lost cursor error), cursor)
  | none, _ => (.panic, cursor)

/-- Steps behind a span. -/
def stepTo (span : Span) : CursorParser ε Unit := fun _ _ => (.ok (), span.stop)

/-- Scans to the first position where the parser finds a span and steps behind it; answers
with what was scanned over and with the span. -/
def consumeUntil (p : CursorParser ε Span) (lost : ℕ → ε → ε) : CursorParser ε (Span × Span) := do
  let start ← position
  let found ← find p lost
  stepTo found
  pure (⟨start, found.start⟩, found)

/-- From a place of a text a parser leads to one at or behind it. -/
class Forward (p : CursorParser ε α) : Prop where
  forward : ∀ before rest, ∃ word after, rest = word ++ after ∧
    (p (before ++ rest) (utf8Len before)).2 = utf8Len before + utf8Len word

/-- From behind the first part of a text, the parser gets over the next word and comes to
this end. -/
def Leads (p : CursorParser ε α) (before word after : List Char) (outcome : Outcome ε α) :
    Prop :=
  p (before ++ (word ++ after)) (utf8Len before) = (outcome, utf8Len before + utf8Len word)

/-- The parser reads the next word and answers. -/
def Reads (p : CursorParser ε α) (before word after : List Char) (value : α) : Prop :=
  p.Leads before word after (.ok value)

/-- The parser gets over the next word and then fails. -/
def Fails (p : CursorParser ε α) (before word after : List Char) : Prop :=
  ∃ error, p.Leads before word after (.err error)

/-- The parser gets over the next word and then does not come back. -/
def Panics (p : CursorParser ε α) (before word after : List Char) : Prop :=
  p.Leads before word after .panic

variable {p q : CursorParser ε α} {before word after : List Char} {outcome : Outcome ε α}
  {value : α}

section Ends

theorem utf8Len_inj_of_append {word' after' : List Char}
    (htext : word ++ after = word' ++ after')
    (hlength : utf8Len before + utf8Len word = utf8Len before + utf8Len word') :
    word = word' ∧ after = after' :=
  append_inj_of_utf8Len htext (Nat.add_left_cancel hlength)

theorem Leads.unique {word' after' : List Char} {outcome' : Outcome ε α}
    (hleads : p.Leads before word after outcome) (hleads' : p.Leads before word' after' outcome')
    (htext : word ++ after = word' ++ after') :
    word = word' ∧ after = after' ∧ outcome = outcome' := by
  rw [Leads, htext] at hleads
  obtain ⟨houtcome, hlength⟩ := Prod.ext_iff.mp (hleads.symm.trans hleads')
  obtain ⟨rfl, rfl⟩ := utf8Len_inj_of_append htext hlength
  exact ⟨rfl, rfl, houtcome⟩

/-- From every place a parser comes to some end. -/
theorem exists_leads (p : CursorParser ε α) [Forward p] (before rest : List Char) :
    ∃ word after outcome, rest = word ++ after ∧ p.Leads before word after outcome := by
  obtain ⟨word, after, rfl, hmoved⟩ := Forward.forward (p := p) before rest
  exact ⟨word, after, _, rfl, Prod.ext rfl hmoved⟩

/-- An answer for a text is an answer behind a first part of it. -/
theorem exists_reads [Forward p] {text : List Char} {moved : ℕ}
    (hanswer : p text 0 = (.ok value, moved)) :
    ∃ word after, text = word ++ after ∧ p.Reads [] word after value := by
  obtain ⟨word, after, outcome, rfl, hleads⟩ := exists_leads p [] text
  obtain rfl : outcome = .ok value := (Prod.ext_iff.mp (hleads.symm.trans hanswer)).1
  exact ⟨word, after, rfl, hleads⟩

instance forward_stop (outcome : Outcome ε α) : Forward (stop outcome) where
  forward _ rest := ⟨[], rest, rfl, rfl⟩

theorem stop_leads_iff {outcome' : Outcome ε α} :
    (stop outcome').Leads before word after outcome ↔ word = [] ∧ outcome = outcome' := by
  change (outcome', utf8Len before) = _ ↔ _
  rw [Prod.mk.injEq, left_eq_add, String.utf8Len_eq_zero, and_comm, eq_comm (a := outcome')]

section AndThen

variable {next : Outcome ε α → CursorParser ε β} [∀ outcome, Forward (next outcome)]

/-- Behind the end of a parser the next one goes on from a place of the text. -/
theorem Leads.andThen_apply {first rest : List Char} (next : Outcome ε α → CursorParser ε β)
    (hfirst : p.Leads before first rest outcome) :
    andThen p next (before ++ (first ++ rest)) (utf8Len before) =
      next outcome (before ++ first ++ rest) (utf8Len (before ++ first)) := by
  rw [andThen, hfirst, List.append_assoc, String.utf8Len_append]

instance forward_andThen [Forward p] : Forward (andThen p next) where
  forward before rest := by
    obtain ⟨first, rest, outcome, rfl, hfirst⟩ := exists_leads p before rest
    obtain ⟨last, after, rfl, hlast⟩ :=
      Forward.forward (p := next outcome) (before ++ first) rest
    refine ⟨first ++ last, after, (List.append_assoc _ _ _).symm, ?_⟩
    rw [hfirst.andThen_apply, hlast, String.utf8Len_append, String.utf8Len_append,
      Nat.add_assoc]

theorem andThen_leads_iff [Forward p] {outcome : Outcome ε β} :
    (andThen p next).Leads before word after outcome ↔
      ∃ first last outcome', word = first ++ last ∧
        p.Leads before first (last ++ after) outcome' ∧
        (next outcome').Leads (before ++ first) last after outcome := by
  constructor
  · intro hleads
    obtain ⟨first, rest, outcome', htext, hfirst⟩ := exists_leads p before (word ++ after)
    obtain ⟨last, after', rfl, hlast⟩ :=
      Forward.forward (p := next outcome') (before ++ first) rest
    rw [Leads, htext, hfirst.andThen_apply] at hleads
    have hmoved : utf8Len before + utf8Len (first ++ last) = utf8Len before + utf8Len word := by
      rw [String.utf8Len_append, ← Nat.add_assoc, ← String.utf8Len_append, ← hlast, hleads]
    rw [← List.append_assoc] at htext
    obtain ⟨rfl, rfl⟩ := utf8Len_inj_of_append htext hmoved.symm
    refine ⟨first, last, outcome', rfl, hfirst, hleads.trans ?_⟩
    rw [String.utf8Len_append, String.utf8Len_append, Nat.add_assoc]
  · rintro ⟨first, last, outcome', rfl, hfirst, hlast⟩
    rw [Leads, List.append_assoc, hfirst.andThen_apply]
    refine hlast.trans ?_
    rw [String.utf8Len_append, String.utf8Len_append, Nat.add_assoc]

end AndThen

end Ends

section Sequence

instance forward_pure (value : α) : Forward (pure value : CursorParser ε α) :=
  forward_stop (.ok value)

instance forward_position : Forward (position : CursorParser ε ℕ) where
  forward _ rest := ⟨[], rest, rfl, rfl⟩

instance forward_fail (error : ℕ → ε) : Forward (fail error : CursorParser ε α) where
  forward _ rest := ⟨[], rest, rfl, rfl⟩

instance forward_ask (test : Test) : Forward (ask test : CursorParser ε Bool) where
  forward _ rest := ⟨[], rest, rfl, rfl⟩

instance forward_ite {condition : Prop} [Decidable condition] [Forward p] [Forward q] :
    Forward (if condition then p else q) := by
  split_ifs <;> assumption

theorem pure_reads_iff {value' : α} :
    (pure value' : CursorParser ε α).Reads before word after value ↔
      word = [] ∧ value = value' := by
  refine stop_leads_iff.trans ?_
  rw [Outcome.ok.injEq]

theorem ask_bind_leads_iff {test : Test} {next : Bool → CursorParser ε α} :
    (ask test >>= next).Leads before word after outcome ↔
      (next (test (before ++ (word ++ after)) (utf8Len before))).Leads before word after outcome :=
  Iff.rfl

theorem position_bind_leads_iff {next : ℕ → CursorParser ε α} :
    (position >>= next).Leads before word after outcome ↔
      (next (utf8Len before)).Leads before word after outcome :=
  Iff.rfl

section Bind

variable {next : α → CursorParser ε β}

instance forward_onValue [∀ value, Forward (next value)] (outcome : Outcome ε α) :
    Forward (onValue next outcome) := by
  cases outcome with
  | ok value => exact inferInstanceAs (Forward (next value))
  | err error => exact forward_stop (.err error)
  | panic => exact forward_stop .panic

instance forward_bind [Forward p] [∀ value, Forward (next value)] : Forward (p >>= next) :=
  inferInstanceAs (Forward (andThen p (onValue next)))

variable [Forward p] [∀ value, Forward (next value)]

theorem bind_leads_iff {outcome : Outcome ε β} :
    (p >>= next).Leads before word after outcome ↔
      (∃ first last x, word = first ++ last ∧ p.Reads before first (last ++ after) x ∧
        (next x).Leads (before ++ first) last after outcome) ∨
      (∃ error, outcome = .err error ∧ p.Leads before word after (.err error)) ∨
        outcome = .panic ∧ p.Panics before word after := by
  change (andThen p (onValue next)).Leads before word after outcome ↔ _
  rw [andThen_leads_iff]
  constructor
  · rintro ⟨first, last, outcome', rfl, hfirst, hlast⟩
    cases outcome' with
    | ok x => exact Or.inl ⟨first, last, x, rfl, hfirst, hlast⟩
    | err error =>
        obtain ⟨rfl, rfl⟩ := stop_leads_iff.mp hlast
        rw [List.nil_append] at hfirst
        exact Or.inr (Or.inl ⟨error, rfl, by rwa [List.append_nil]⟩)
    | panic =>
        obtain ⟨rfl, rfl⟩ := stop_leads_iff.mp hlast
        rw [List.nil_append] at hfirst
        exact Or.inr (Or.inr ⟨rfl, by rwa [List.append_nil]⟩)
  · rintro (⟨first, last, x, rfl, hfirst, hlast⟩ | ⟨error, rfl, hleads⟩ | ⟨rfl, hleads⟩)
    · exact ⟨first, last, .ok x, rfl, hfirst, hlast⟩
    · exact ⟨word, [], .err error, (List.append_nil word).symm, hleads,
        stop_leads_iff.mpr ⟨rfl, rfl⟩⟩
    · exact ⟨word, [], .panic, (List.append_nil word).symm, hleads,
        stop_leads_iff.mpr ⟨rfl, rfl⟩⟩

theorem bind_reads_iff {value : β} :
    (p >>= next).Reads before word after value ↔
      ∃ first last x, word = first ++ last ∧ p.Reads before first (last ++ after) x ∧
        (next x).Reads (before ++ first) last after value := by
  rw [Reads, bind_leads_iff]
  simp [Reads]

theorem bind_panics_iff :
    (p >>= next).Panics before word after ↔
      (∃ first last x, word = first ++ last ∧ p.Reads before first (last ++ after) x ∧
        (next x).Panics (before ++ first) last after) ∨ p.Panics before word after := by
  rw [Panics, bind_leads_iff]
  simp [Panics]

end Bind

theorem spanOf_apply (text : List Char) (pos : ℕ) :
    spanOf p text pos =
      match p text pos with
      | (.ok _, moved) => (.ok ⟨pos, moved⟩, moved)
      | (.err error, moved) => (.err error, moved)
      | (.panic, moved) => (.panic, moved) := by
  simp only [spanOf, bind, andThen, position, onValue]
  rcases p text pos with ⟨outcome, moved⟩
  cases outcome <;> rfl

instance forward_spanOf [Forward p] : Forward (spanOf p) :=
  inferInstanceAs (Forward (position >>= fun _ => p >>= fun _ => position >>= fun _ => pure _))

theorem spanOf_reads_iff [Forward p] {span : Span} :
    (spanOf p).Reads before word after span ↔
      (∃ value, p.Reads before word after value) ∧
        span = ⟨utf8Len before, utf8Len before + utf8Len word⟩ := by
  rw [Reads, Leads, spanOf_apply]
  obtain ⟨word', after', outcome', htext, hleads⟩ := exists_leads p before (word ++ after)
  constructor
  · intro hreads
    rw [htext, hleads] at hreads
    cases outcome' with
    | ok value =>
        obtain ⟨hspan, hmoved⟩ := Prod.ext_iff.mp hreads
        obtain ⟨rfl, rfl⟩ := utf8Len_inj_of_append htext hmoved.symm
        exact ⟨⟨value, hleads⟩, (Outcome.ok.inj hspan).symm⟩
    | err error => cases hreads
    | panic => cases hreads
  · rintro ⟨⟨value, hreads⟩, rfl⟩
    rw [hreads]

end Sequence

section Choice

instance forward_onError [Forward q] (outcome : Outcome ε α) : Forward (onError q outcome) := by
  cases outcome with
  | ok value => exact forward_stop (.ok value)
  | err _ => exact inferInstanceAs (Forward q)
  | panic => exact forward_stop .panic

instance forward_orElse [Forward p] [Forward q] : Forward (orElse p q) :=
  inferInstanceAs (Forward (andThen p (onError q)))

instance forward_mapErr [Forward p] {error : ℕ → ε} : Forward (mapErr p error) :=
  inferInstanceAs (Forward (orElse p (fail error)))

instance forward_isOk [Forward p] : Forward (isOk p) :=
  inferInstanceAs (Forward (orElse (p >>= fun _ => pure true) (pure false)))

variable [Forward p]

theorem orElse_leads_iff [Forward q] :
    (orElse p q).Leads before word after outcome ↔
      (∃ first last, word = first ++ last ∧ p.Fails before first (last ++ after) ∧
        q.Leads (before ++ first) last after outcome) ∨
      (∃ value, outcome = .ok value ∧ p.Reads before word after value) ∨
        outcome = .panic ∧ p.Panics before word after := by
  rw [orElse, andThen_leads_iff]
  constructor
  · rintro ⟨first, last, outcome', rfl, hfirst, hlast⟩
    cases outcome' with
    | ok value =>
        obtain ⟨rfl, rfl⟩ := stop_leads_iff.mp hlast
        rw [List.nil_append] at hfirst
        exact Or.inr (Or.inl ⟨value, rfl, by rwa [List.append_nil]⟩)
    | err error => exact Or.inl ⟨first, last, rfl, ⟨error, hfirst⟩, hlast⟩
    | panic =>
        obtain ⟨rfl, rfl⟩ := stop_leads_iff.mp hlast
        rw [List.nil_append] at hfirst
        exact Or.inr (Or.inr ⟨rfl, by rwa [List.append_nil]⟩)
  · rintro (⟨first, last, rfl, ⟨error, hfirst⟩, hlast⟩ | ⟨value, rfl, hleads⟩ | ⟨rfl, hleads⟩)
    · exact ⟨first, last, .err error, rfl, hfirst, hlast⟩
    · exact ⟨word, [], .ok value, (List.append_nil word).symm, hleads,
        stop_leads_iff.mpr ⟨rfl, rfl⟩⟩
    · exact ⟨word, [], .panic, (List.append_nil word).symm, hleads,
        stop_leads_iff.mpr ⟨rfl, rfl⟩⟩

theorem orElse_reads_iff [Forward q] :
    (orElse p q).Reads before word after value ↔ p.Reads before word after value ∨
      ∃ first last, word = first ++ last ∧ p.Fails before first (last ++ after) ∧
        q.Reads (before ++ first) last after value := by
  rw [Reads, orElse_leads_iff, or_comm]
  simp [Reads]

theorem orElse_fails_iff [Forward q] :
    (orElse p q).Fails before word after ↔
      ∃ first last, word = first ++ last ∧ p.Fails before first (last ++ after) ∧
        q.Fails (before ++ first) last after := by
  simp only [Fails, orElse_leads_iff, reduceCtorEq, false_and, exists_false, or_false]
  constructor
  · rintro ⟨error, first, last, hword, hfirst, hlast⟩
    exact ⟨first, last, hword, hfirst, error, hlast⟩
  · rintro ⟨first, last, hword, hfirst, error, hlast⟩
    exact ⟨error, first, last, hword, hfirst, hlast⟩

theorem not_fail_reads {error : ℕ → ε} :
    ¬ (fail error : CursorParser ε α).Reads before word after value := by
  intro hreads
  cases congrArg Prod.fst hreads

theorem fail_fails_iff {error : ℕ → ε} :
    (fail error : CursorParser ε α).Fails before word after ↔ word = [] := by
  constructor
  · rintro ⟨_, hleads⟩
    exact String.utf8Len_eq_zero.mp (Nat.left_eq_add.mp (congrArg Prod.snd hleads))
  · rintro rfl
    exact ⟨_, rfl⟩

theorem mapErr_reads_iff {error : ℕ → ε} :
    (mapErr p error).Reads before word after value ↔ p.Reads before word after value := by
  rw [mapErr, orElse_reads_iff]
  simp [not_fail_reads]

theorem mapErr_fails_iff {error : ℕ → ε} :
    (mapErr p error).Fails before word after ↔ p.Fails before word after := by
  rw [mapErr, orElse_fails_iff]
  simp only [fail_fails_iff]
  constructor
  · rintro ⟨first, last, rfl, hfirst, rfl⟩
    rwa [List.append_nil]
  · exact fun hfails => ⟨word, [], (List.append_nil word).symm, hfails, rfl⟩

end Choice

section Loop

variable {condition : Test} {body : CursorParser ε α} {values : List α}

/-- A loop whose condition does not hold, or holds and is followed by the body and a loop. -/
inductive Repeats (condition : Test) (body : CursorParser ε α) :
    List Char → List Char → List Char → List α → Prop
  | done {before after : List Char}
      (hcondition : condition (before ++ after) (utf8Len before) = false) :
      Repeats condition body before [] after []
  | go {before first last after : List Char} {value : α} {values : List α}
      (hcondition : condition (before ++ (first ++ (last ++ after))) (utf8Len before) = true)
      (hbody : body.Reads before first (last ++ after) value)
      (hlast : Repeats condition body (before ++ first) last after values) :
      Repeats condition body before (first ++ last) after (value :: values)

/-- The body of a loop does not leave the cursor where it is. -/
class Advances (condition : Test) (body : CursorParser ε α) : Prop where
  ne_nil : ∀ {before word after value},
    condition (before ++ (word ++ after)) (utf8Len before) = true →
      body.Reads before word after value → word ≠ []

instance forward_whileLoop [Forward body] (fuel : ℕ) : Forward (whileLoop condition body fuel) := by
  induction fuel with
  | zero => exact forward_stop .panic
  | succ fuel ih => exact inferInstanceAs (Forward (ask condition >>= fun _ => _))

instance forward_whileDo [Forward body] : Forward (whileDo condition body) where
  forward before rest :=
    (forward_whileLoop (utf8Len (before ++ rest) + 1)).forward before rest

theorem Reads.repeats [Forward body] {fuel : ℕ}
    (hreads : (whileLoop condition body fuel).Reads before word after values) :
    Repeats condition body before word after values := by
  induction fuel generalizing before word values with
  | zero => exact absurd (stop_leads_iff.mp hreads).2 (by simp)
  | succ fuel ih =>
      have hstep := ask_bind_leads_iff.mp hreads
      split_ifs at hstep with hcondition
      · obtain ⟨first, last, value, rfl, hbody, hlast⟩ := bind_reads_iff.mp hstep
        obtain ⟨more, none, rest, rfl, hmore, hnone⟩ := bind_reads_iff.mp hlast
        obtain ⟨rfl, rfl⟩ := pure_reads_iff.mp hnone
        rw [List.nil_append] at hmore
        rw [List.append_nil] at hbody hcondition ⊢
        rw [List.append_assoc] at hcondition
        exact .go hcondition hbody (ih hmore)
      · obtain ⟨rfl, rfl⟩ := pure_reads_iff.mp hstep
        exact .done (by simpa using hcondition)

end Loop

section ComesBack

/-- The parser comes back from every place of the text. -/
class ComesBack (text : List Char) (p : CursorParser ε α) : Prop where
  not_panics : ∀ before word after, before ++ (word ++ after) = text →
    ¬ p.Panics before word after

variable {text : List Char}

instance comesBack_pure : ComesBack text (pure value : CursorParser ε α) where
  not_panics _ _ _ _ hpanics := absurd (stop_leads_iff.mp hpanics).2 (by simp)

instance comesBack_position : ComesBack text (position : CursorParser ε ℕ) where
  not_panics _ _ _ _ hpanics := by cases congrArg Prod.fst hpanics

instance comesBack_fail {error : ℕ → ε} : ComesBack text (fail error : CursorParser ε α) where
  not_panics _ _ _ _ hpanics := by cases congrArg Prod.fst hpanics

instance comesBack_ask {test : Test} : ComesBack text (ask test : CursorParser ε Bool) where
  not_panics _ _ _ _ hpanics := by cases congrArg Prod.fst hpanics

instance comesBack_ite {condition : Prop} [Decidable condition] [ComesBack text p]
    [ComesBack text q] : ComesBack text (if condition then p else q) := by
  split_ifs <;> assumption

instance comesBack_bind [Forward p] [ComesBack text p] {next : α → CursorParser ε β}
    [∀ value, Forward (next value)] [∀ value, ComesBack text (next value)] :
    ComesBack text (p >>= next) where
  not_panics := by
    intro before word after htext hpanics
    rcases bind_panics_iff.mp hpanics with ⟨first, last, x, rfl, -, hlast⟩ | hpanics
    · have hbehind : before ++ first ++ (last ++ after) = text := by simpa using htext
      exact ComesBack.not_panics (before ++ first) last after hbehind hlast
    · exact ComesBack.not_panics before word after htext hpanics

instance comesBack_orElse [Forward p] [Forward q] [ComesBack text p] [ComesBack text q] :
    ComesBack text (orElse p q) where
  not_panics := by
    intro before word after htext hpanics
    rcases orElse_leads_iff.mp hpanics with
      ⟨first, last, rfl, -, hlast⟩ | ⟨_, hok, -⟩ | ⟨-, hpanics⟩
    · have hbehind : before ++ first ++ (last ++ after) = text := by simpa using htext
      exact ComesBack.not_panics (before ++ first) last after hbehind hlast
    · cases hok
    · exact ComesBack.not_panics before word after htext hpanics

instance comesBack_mapErr [Forward p] [ComesBack text p] {error : ℕ → ε} :
    ComesBack text (mapErr p error) :=
  inferInstanceAs (ComesBack text (orElse p (fail error)))

instance comesBack_isOk [Forward p] [ComesBack text p] : ComesBack text (isOk p) :=
  inferInstanceAs (ComesBack text (orElse (p >>= fun _ => pure true) (pure false)))

instance comesBack_spanOf [Forward p] [ComesBack text p] : ComesBack text (spanOf p) :=
  inferInstanceAs (ComesBack text
    (position >>= fun _ => p >>= fun _ => position >>= fun _ => pure _))

/-- A parser that comes back answers or fails. -/
theorem ComesBack.answers [Forward p] (hback : ComesBack text p) :
    (∃ value moved, p text 0 = (.ok value, moved)) ∨
      ∃ error moved, p text 0 = (.err error, moved) := by
  obtain ⟨word, after, outcome, htext, hleads⟩ := exists_leads p [] text
  rw [htext]
  cases outcome with
  | ok value => exact Or.inl ⟨value, _, hleads⟩
  | err error => exact Or.inr ⟨error, _, hleads⟩
  | panic => exact absurd hleads (hback.not_panics [] word after htext.symm)

variable [Forward body] [Advances condition body] [ComesBack text body]

theorem not_whileLoop_panics {fuel : ℕ} (htext : before ++ (word ++ after) = text)
    (hfuel : utf8Len word + utf8Len after < fuel) :
    ¬ (whileLoop condition body fuel).Panics before word after := by
  induction fuel generalizing before word with
  | zero => exact absurd hfuel (Nat.not_lt_zero _)
  | succ fuel ih =>
      intro hpanics
      have hstep := ask_bind_leads_iff.mp hpanics
      split_ifs at hstep with hcondition
      · rcases bind_panics_iff.mp hstep with ⟨first, last, x, rfl, hfirst, hlast⟩ | hpanics
        · have hne : first ≠ [] :=
            Advances.ne_nil (by rwa [List.append_assoc] at hcondition) hfirst
          have hlength := mt String.utf8Len_eq_zero.mp hne
          rw [String.utf8Len_append] at hfuel
          rcases bind_panics_iff.mp hlast with ⟨more, none, xs, rfl, -, hnone⟩ | hlast
          · exact absurd (stop_leads_iff.mp hnone).2 (by simp)
          · exact ih (by simpa using htext) (by omega) hlast
        · exact ComesBack.not_panics before word after htext hpanics
      · exact absurd (stop_leads_iff.mp hstep).2 (by simp)

instance comesBack_whileDo : ComesBack text (whileDo condition body) where
  not_panics := by
    rintro before word after rfl hpanics
    apply not_whileLoop_panics rfl ?_ hpanics
    simp only [String.utf8Len_append]
    omega

end ComesBack

section Search

/-- From within a character the parser fails. -/
class OnPlaces (p : CursorParser ε α) : Prop where
  fails : ∀ text pos, splitAtByte text pos = none → ∃ error, (p text pos).1 = .err error

/-- The parser fails somewhere in this text. -/
def FailsAt (p : CursorParser ε α) (before rest : List Char) : Prop :=
  ∃ word after, rest = word ++ after ∧ p.Fails before word after

theorem failsAt_iff [Forward p] {rest : List Char} :
    p.FailsAt before rest ↔ settled (p (before ++ rest) (utf8Len before)).1 = none := by
  constructor
  · rintro ⟨word, after, rfl, error, hleads⟩
    rw [hleads]
    rfl
  · intro hsettled
    obtain ⟨word, after, outcome, rfl, hleads⟩ := exists_leads p before rest
    rw [hleads] at hsettled
    cases outcome with
    | ok value => cases hsettled
    | err error => exact ⟨word, after, rfl, error, hleads⟩
    | panic => cases hsettled

theorem splitAtByte_within (before rest : List Char) {c : Char} {pos : ℕ} (hpos : 0 < pos)
    (hlt : pos < c.utf8Size) : splitAtByte (before ++ c :: rest) (utf8Len before + pos) = none := by
  obtain ⟨pos, rfl⟩ := Nat.exists_eq_add_one.mpr hpos
  rw [splitAtByte_append_add, splitAtByte, if_neg (by omega)]
  rfl

/-- The search tries the place where it is, and goes on behind the next character. -/
theorem findSome?_tries_cons [OnPlaces p] (before : List Char) (c : Char) (rest : List Char) :
    (tries p (before ++ c :: rest) (utf8Len before) (utf8Len (c :: rest) + 1)).findSome? settled =
      (settled (p (before ++ c :: rest) (utf8Len before)).1).or
        ((tries p (before ++ c :: rest) (utf8Len (before ++ [c]))
          (utf8Len rest + 1)).findSome? settled) := by
  obtain ⟨size, hsize⟩ := Nat.exists_eq_add_one.mpr c.utf8Size_pos
  have hwithin : (tries p (before ++ c :: rest) (utf8Len before + 1) size).findSome? settled =
      none := by
    rw [List.findSome?_eq_none_iff]
    intro outcome houtcome
    obtain ⟨pos, hpos, rfl⟩ := List.mem_map.mp houtcome
    obtain ⟨hle, hlt⟩ := List.mem_range'_1.mp hpos
    obtain ⟨error, herror⟩ := OnPlaces.fails (p := p) (before ++ c :: rest) pos (by
      have hwithin := @splitAtByte_within before rest c (pos - utf8Len before) (by omega) (by omega)
      rwa [Nat.add_sub_cancel' (by omega)] at hwithin)
    rw [herror]
    rfl
  have hcount : utf8Len (c :: rest) + 1 = 1 + (size + (utf8Len rest + 1)) := by
    rw [String.utf8Len_cons, hsize]
    omega
  have hnext : utf8Len (before ++ [c]) = utf8Len before + 1 + size := by
    rw [String.utf8Len_append, String.utf8Len_cons, String.utf8Len_nil, hsize]
    omega
  rw [tries, hcount, ← List.range'_append_1, ← List.range'_append_1, List.map_append,
    List.map_append, List.findSome?_append, List.findSome?_append, hnext]
  rw [tries] at hwithin
  rw [hwithin, Option.none_or]
  simp [tries]

theorem tries_append (before rest : List Char) {c : Char} :
    tries p (before ++ c :: rest) = tries p (before ++ [c] ++ rest) := by
  rw [List.append_assoc]
  rfl

/-- A search comes to the first place where the parser does not fail. -/
theorem findSome?_tries_eq_some_iff [Forward p] [OnPlaces p] {rest : List Char} :
    (tries p (before ++ rest) (utf8Len before) (utf8Len rest + 1)).findSome? settled =
        some outcome ↔
      ∃ skipped after, rest = skipped ++ after ∧
        settled (p (before ++ rest) (utf8Len (before ++ skipped))).1 = some outcome ∧
        ∀ first last, skipped = first ++ last → last ≠ [] →
          p.FailsAt (before ++ first) (last ++ after) := by
  induction rest generalizing before with
  | nil =>
      have hone : tries p (before ++ []) (utf8Len before) (utf8Len [] + 1) =
          [(p (before ++ []) (utf8Len before)).1] := rfl
      rw [hone]
      constructor
      · intro hfound
        refine ⟨[], [], rfl, ?_, ?_⟩
        · simpa using hfound
        · intro first last hnil hne
          exact absurd (List.append_eq_nil_iff.mp hnil.symm).2 hne
      · rintro ⟨skipped, after, hnil, hsettled, -⟩
        obtain ⟨rfl, rfl⟩ := List.append_eq_nil_iff.mp hnil.symm
        simpa using hsettled
  | cons c rest ih =>
      rw [findSome?_tries_cons, tries_append]
      cases hhere : settled (p (before ++ c :: rest) (utf8Len before)).1 with
      | some found =>
          rw [Option.some_or, Option.some.injEq]
          constructor
          · rintro rfl
            refine ⟨[], c :: rest, rfl, by rwa [List.append_nil], ?_⟩
            intro first last hnil hne
            exact absurd (List.append_eq_nil_iff.mp hnil.symm).2 hne
          · rintro ⟨skipped, after, htext, hsettled, hearlier⟩
            cases skipped with
            | nil =>
                rw [List.append_nil, hhere] at hsettled
                exact Option.some.inj hsettled
            | cons d skipped =>
                have hfails := hearlier [] (d :: skipped) rfl (List.cons_ne_nil _ _)
                rw [failsAt_iff] at hfails
                rw [List.append_nil, ← htext, hhere] at hfails
                cases hfails
      | none =>
          rw [Option.none_or, ih]
          constructor
          · rintro ⟨skipped, after, rfl, hsettled, hearlier⟩
            refine ⟨c :: skipped, after, rfl, ?_, ?_⟩
            · simpa using hsettled
            · intro first last hsplit hne
              cases first with
              | nil =>
                  obtain rfl : c :: skipped = last := hsplit
                  rw [List.append_nil]
                  exact failsAt_iff.mpr hhere
              | cons d first =>
                  obtain ⟨rfl, hrest⟩ := List.cons_eq_cons.mp hsplit
                  simpa using hearlier first last hrest hne
          · rintro ⟨skipped, after, htext, hsettled, hearlier⟩
            cases skipped with
            | nil =>
                rw [List.append_nil, hhere] at hsettled
                cases hsettled
            | cons d skipped =>
                obtain ⟨rfl, rfl⟩ := List.cons_eq_cons.mp htext
                refine ⟨skipped, after, rfl, ?_, ?_⟩
                · simpa using hsettled
                · intro first last hsplit hne
                  have hfails := hearlier (c :: first) last (congrArg (List.cons c) hsplit) hne
                  simpa using hfails

theorem findSome?_tries_eq_none_iff [Forward p] [OnPlaces p] {rest : List Char} :
    (tries p (before ++ rest) (utf8Len before) (utf8Len rest + 1)).findSome? settled = none ↔
      ∀ first last, rest = first ++ last → p.FailsAt (before ++ first) last := by
  induction rest generalizing before with
  | nil =>
      have hone : tries p (before ++ []) (utf8Len before) (utf8Len [] + 1) =
          [(p (before ++ []) (utf8Len before)).1] := rfl
      rw [hone, List.findSome?_singleton, ← failsAt_iff]
      constructor
      · intro hfails first last hnil
        obtain ⟨rfl, rfl⟩ := List.append_eq_nil_iff.mp hnil.symm
        rwa [List.append_nil]
      · intro hall
        simpa using hall [] [] rfl
  | cons c rest ih =>
      rw [findSome?_tries_cons, tries_append, Option.or_eq_none_iff, ← failsAt_iff, ih]
      constructor
      · rintro ⟨hhere, hlater⟩ first last hsplit
        cases first with
        | nil =>
            obtain rfl : c :: rest = last := hsplit
            rwa [List.append_nil]
        | cons d first =>
            obtain ⟨rfl, hrest⟩ := List.cons_eq_cons.mp hsplit
            simpa using hlater first last hrest
      · intro hall
        refine ⟨by simpa using hall [] (c :: rest) rfl, fun first last hrest => ?_⟩
        simpa using hall (c :: first) last (congrArg (List.cons c) hrest)

section Find

variable {lost : ℕ → ε → ε} [Forward p] [OnPlaces p]

omit [Forward p] [OnPlaces p] in
theorem tries_find (before rest : List Char) :
    tries p (before ++ rest) (utf8Len before) (utf8Len (before ++ rest) + 1 - utf8Len before) =
      tries p (before ++ rest) (utf8Len before) (utf8Len rest + 1) := by
  rw [String.utf8Len_append, Nat.add_assoc, Nat.add_sub_cancel_left]

/-- A search stays where it is; it comes to what the parser comes to at the first place where
it does not fail, or fails when there is none. -/
theorem find_apply (lost : ℕ → ε → ε) (before rest : List Char) :
    (∃ outcome, (tries p (before ++ rest) (utf8Len before) (utf8Len rest + 1)).findSome? settled =
        some outcome ∧ find p lost (before ++ rest) (utf8Len before) = (outcome, utf8Len before)) ∨
      (tries p (before ++ rest) (utf8Len before) (utf8Len rest + 1)).findSome? settled = none ∧
        ∃ error, find p lost (before ++ rest) (utf8Len before) =
          (.err error, utf8Len before) := by
  cases hfound : (tries p (before ++ rest) (utf8Len before) (utf8Len rest + 1)).findSome?
      settled with
  | some outcome => exact Or.inl ⟨outcome, rfl, by simp only [find, tries_find, hfound]⟩
  | none =>
      refine Or.inr ⟨rfl, ?_⟩
      obtain ⟨word, after, rfl, error, hhere⟩ :=
        findSome?_tries_eq_none_iff.mp hfound [] rest rfl
      rw [List.append_nil] at hhere
      have hhead : (tries p (before ++ (word ++ after)) (utf8Len before)
          (utf8Len (word ++ after) + 1)).head? = some (.err error) := by
        rw [tries, List.range'_succ, List.map_cons, List.head?_cons, hhere]
      exact ⟨_, by simp only [find, tries_find, hfound, hhead]; rfl⟩

/-- What a parser answers is what it read. -/
class Ranged (p : CursorParser ε Span) : Prop where
  eq : ∀ {text pos span moved}, p text pos = (.ok span, moved) → span = ⟨pos, moved⟩

variable {p : CursorParser ε Span} [Forward p] [OnPlaces p] [Ranged p]

section Classes

/-- A parser that fails leaves the cursor where it was. -/
class Unmoved (p : CursorParser ε α) : Prop where
  eq : ∀ {text pos error moved}, p text pos = (.err error, moved) → moved = pos

omit [Forward p] [OnPlaces p] [Ranged p]

variable {q r : CursorParser ε α}

theorem orElse_apply {text : List Char} {pos moved : ℕ} {outcome : Outcome ε α}
    (hq : q text pos = (outcome, moved)) : orElse q r text pos = onError r outcome text moved := by
  rw [orElse, andThen, hq]

instance onPlaces_orElse [OnPlaces q] [Unmoved q] [OnPlaces r] : OnPlaces (orElse q r) where
  fails text pos hpos := by
    obtain ⟨error, herror⟩ := OnPlaces.fails (p := q) text pos hpos
    have hq : q text pos = (.err error, (q text pos).2) := Prod.ext herror rfl
    rw [Unmoved.eq hq] at hq
    rw [orElse_apply hq]
    exact OnPlaces.fails (p := r) text pos hpos

instance unmoved_fail (error : ℕ → ε) : Unmoved (fail error : CursorParser ε α) where
  eq hfails := by
    cases hfails
    rfl

instance unmoved_orElse [Unmoved q] [Unmoved r] : Unmoved (orElse q r) where
  eq {text pos error moved} hfails := by
    cases hq : q text pos with
    | mk outcome moved' =>
        rw [orElse_apply hq] at hfails
        cases outcome with
        | ok value => cases hfails
        | err error' =>
            rw [Unmoved.eq hq] at hfails
            exact Unmoved.eq (p := r) hfails
        | panic => cases hfails

instance onPlaces_mapErr [OnPlaces q] {error : ℕ → ε} : OnPlaces (mapErr q error) where
  fails text pos hpos := by
    obtain ⟨error', herror⟩ := OnPlaces.fails (p := q) text pos hpos
    have hq : q text pos = (.err error', (q text pos).2) := Prod.ext herror rfl
    exact ⟨_, by rw [mapErr, orElse_apply hq]; rfl⟩

instance onPlaces_bind {next : α → CursorParser ε β} [OnPlaces q] : OnPlaces (q >>= next) where
  fails text pos hpos := by
    obtain ⟨error, herror⟩ := OnPlaces.fails (p := q) text pos hpos
    refine ⟨error, ?_⟩
    simp only [bind, andThen, herror, onValue]
    rfl

instance onPlaces_spanOf [OnPlaces q] : OnPlaces (spanOf q) where
  fails text pos hpos := by
    obtain ⟨error, herror⟩ := OnPlaces.fails (p := q) text pos hpos
    have hq : q text pos = (.err error, (q text pos).2) := Prod.ext herror rfl
    exact ⟨error, by rw [spanOf_apply, hq]⟩

instance ranged_spanOf : Ranged (spanOf q) where
  eq {text pos span moved} hread := by
    rw [spanOf_apply] at hread
    rcases hq : q text pos with ⟨outcome, moved'⟩
    rw [hq] at hread
    cases outcome <;> cases hread
    rfl

instance unmoved_mapErr [Unmoved q] {error : ℕ → ε} : Unmoved (mapErr q error) :=
  inferInstanceAs (Unmoved (orElse q (fail error)))

variable {q r : CursorParser ε Span}

instance ranged_fail (error : ℕ → ε) : Ranged (fail error : CursorParser ε Span) where
  eq hread := by cases congrArg Prod.fst hread

instance ranged_orElse [Ranged q] [Unmoved q] [Ranged r] : Ranged (orElse q r) where
  eq {text pos span moved} hread := by
    cases hq : q text pos with
    | mk outcome moved' =>
        rw [orElse_apply hq] at hread
        cases outcome with
        | ok value =>
            cases hread
            exact Ranged.eq hq
        | err error =>
            rw [Unmoved.eq hq] at hread
            exact Ranged.eq (p := r) hread
        | panic => cases hread

instance ranged_mapErr [Ranged q] [Unmoved q] {error : ℕ → ε} : Ranged (mapErr q error) :=
  inferInstanceAs (Ranged (orElse q (fail error)))

end Classes

omit [Forward p] [OnPlaces p] [Ranged p] in
theorem consumeUntil_apply (text : List Char) (cursor : ℕ) :
    consumeUntil p lost text cursor =
      match find p lost text cursor with
      | (.ok found, _) => (.ok (⟨cursor, found.start⟩, found), found.stop)
      | (.err error, moved) => (.err error, moved)
      | (.panic, moved) => (.panic, moved) := by
  simp only [consumeUntil, bind, andThen, position, onValue]
  rcases find p lost text cursor with ⟨outcome, moved⟩
  cases outcome <;> rfl

theorem consumeUntil_reads {skipped last : List Char} {found : Span}
    (hreads : p.Reads (before ++ skipped) last after found)
    (hearlier : ∀ first between, skipped = first ++ between → between ≠ [] →
      p.FailsAt (before ++ first) (between ++ (last ++ after))) :
    (consumeUntil p lost).Reads before (skipped ++ last) after
      (⟨utf8Len before, utf8Len before + utf8Len skipped⟩, found) := by
  have hsettled : settled (p (before ++ (skipped ++ (last ++ after)))
      (utf8Len (before ++ skipped))).1 = some (.ok found) := by
    rw [← List.append_assoc before, hreads]
    rfl
  have hfound := findSome?_tries_eq_some_iff.mpr ⟨skipped, last ++ after, rfl, hsettled, hearlier⟩
  rcases find_apply (p := p) lost before (skipped ++ (last ++ after)) with
    ⟨outcome, hfound', hfind⟩ | ⟨hnone, -⟩
  · obtain rfl := Option.some.inj (hfound.symm.trans hfound')
    obtain rfl := Ranged.eq hreads
    rw [Reads, Leads, List.append_assoc, consumeUntil_apply, hfind]
    simp [Nat.add_assoc]
  · cases hfound.symm.trans hnone

/-- A scan goes over the text up to the first place where the parser reads something and over
what it reads there. -/
theorem consumeUntil_cases (lost : ℕ → ε → ε) (before rest : List Char) :
    (∃ skipped word after found, rest = skipped ++ (word ++ after) ∧
      p.Reads (before ++ skipped) word after found ∧
      (∀ first last, skipped = first ++ last → last ≠ [] →
        p.FailsAt (before ++ first) (last ++ (word ++ after))) ∧
      (consumeUntil p lost).Reads before (skipped ++ word) after
        (⟨utf8Len before, utf8Len before + utf8Len skipped⟩, found)) ∨
    (∃ skipped word after, rest = skipped ++ (word ++ after) ∧
      p.Panics (before ++ skipped) word after ∧
      (consumeUntil p lost).Panics before [] rest) ∨
    (∀ first last, rest = first ++ last → p.FailsAt (before ++ first) last) ∧
      (consumeUntil p lost).Fails before [] rest := by
  rcases find_apply (p := p) lost before rest with
    ⟨outcome, hfound, hfind⟩ | ⟨hnone, error, hfind⟩
  · obtain ⟨skipped, rest, rfl, hsettled, hearlier⟩ := findSome?_tries_eq_some_iff.mp hfound
    obtain ⟨word, after, outcome', rfl, hleads⟩ := exists_leads p (before ++ skipped) rest
    rw [← List.append_assoc, hleads] at hsettled
    cases outcome' with
    | ok found =>
        obtain rfl := Option.some.inj hsettled
        exact Or.inl ⟨skipped, word, after, found, rfl, hleads, hearlier,
          consumeUntil_reads hleads hearlier⟩
    | err error => cases hsettled
    | panic =>
        obtain rfl := Option.some.inj hsettled
        refine Or.inr (Or.inl ⟨skipped, word, after, rfl, hleads, ?_⟩)
        rw [Panics, Leads, List.nil_append, consumeUntil_apply, hfind]
        rfl
  · refine Or.inr (Or.inr ⟨findSome?_tries_eq_none_iff.mp hnone, error, ?_⟩)
    rw [Leads, List.nil_append, consumeUntil_apply, hfind]
    rfl

instance forward_consumeUntil : Forward (consumeUntil p lost) where
  forward before rest := by
    rcases consumeUntil_cases (p := p) lost before rest with
      ⟨skipped, word, after, found, rfl, -, -, hleads⟩ | ⟨_, _, _, _, -, hleads⟩ |
        ⟨-, error, hleads⟩
    · refine ⟨skipped ++ word, after, (List.append_assoc _ _ _).symm, ?_⟩
      rw [← List.append_assoc skipped, hleads]
    · exact ⟨[], rest, rfl, congrArg Prod.snd hleads⟩
    · exact ⟨[], rest, rfl, congrArg Prod.snd hleads⟩

theorem consumeUntil_reads_iff {scanned found : Span} :
    (consumeUntil p lost).Reads before word after (scanned, found) ↔
      ∃ skipped last, word = skipped ++ last ∧
        scanned = ⟨utf8Len before, utf8Len before + utf8Len skipped⟩ ∧
        p.Reads (before ++ skipped) last after found ∧
        ∀ first between, skipped = first ++ between → between ≠ [] →
          p.FailsAt (before ++ first) (between ++ (last ++ after)) := by
  constructor
  · intro hreads
    rcases consumeUntil_cases (p := p) lost before (word ++ after) with
      ⟨skipped, last, after', found', htext, hfound, hearlier, hleads⟩ |
        ⟨_, _, _, _, -, hleads⟩ | ⟨-, error, hleads⟩
    · rw [← List.append_assoc] at htext
      obtain ⟨rfl, rfl, heq⟩ := Leads.unique hreads hleads htext
      cases heq
      exact ⟨skipped, last, rfl, rfl, hfound, hearlier⟩
    · cases (Leads.unique hreads hleads rfl).2.2
    · cases (Leads.unique hreads hleads rfl).2.2
  · rintro ⟨skipped, last, rfl, rfl, hreads, hearlier⟩
    exact consumeUntil_reads hreads hearlier

instance comesBack_consumeUntil {text : List Char} [ComesBack text p] :
    ComesBack text (consumeUntil p lost) where
  not_panics := by
    intro before word after htext hpanics
    rcases consumeUntil_cases (p := p) lost before (word ++ after) with
      ⟨skipped, last, after', found', hsplit, -, -, hleads⟩ |
        ⟨skipped, last, after', hsplit, hleads, -⟩ | ⟨-, error, hleads⟩
    · rw [← List.append_assoc] at hsplit
      cases (Leads.unique hpanics hleads hsplit).2.2
    · have hbehind : before ++ skipped ++ (last ++ after') = text := by
        rw [← htext, hsplit, List.append_assoc]
      exact ComesBack.not_panics (before ++ skipped) last after' hbehind hleads
    · cases (Leads.unique hpanics hleads rfl).2.2

end Find

end Search

end CursorParser

end Gnostr
