/-
What a query returns against what the relays delivered: `send` goes on to the next relay
where a read fails, whatever the relay delivered before.
-/
import Gnostr.Crawler.Send
import Mathlib.Data.List.Find

namespace Gnostr

namespace Crawler

open Gnostr.Types

section Transcripts

/-- The EVENT frames that a relay delivers before it is done, times out, closes or fails,
and whether it fails. -/
structure Transcript where
  delivered : List String
  failed : Bool
deriving DecidableEq

variable (hex : Hex) (reader : JsonReader)

def transcript : List Read → Transcript
  | [] => ⟨[], false⟩
  | .timedOut :: _ => ⟨[], false⟩
  | .failed _ :: _ => ⟨[], true⟩
  | .otherFrame :: reads => transcript reads
  | .text frame :: reads =>
      match RelayMessageV5.fromJsonString hex reader frame with
      | .ok (.event _ _) => { transcript reads with
          delivered := frame :: (transcript reads).delivered }
      | .ok (.eose _) => ⟨[], false⟩
      | _ => transcript reads

/-- A relay that takes no query has failed. -/
def transcriptOf (met : Relay) (queryString : String) : Transcript :=
  match met.connection, met.written with
  | .connected, .ok () => transcript hex reader (met.answers queryString)
  | _, _ => ⟨[], true⟩

def transcripts (network : Network) (queryString : String) : ℕ → List Url → List Transcript
  | _, [] => []
  | attempt, relay :: rest =>
      transcriptOf hex reader (network attempt relay) queryString ::
        transcripts network queryString (attempt + 1) rest

/-- The limit as a number; without one it is the greatest there is. -/
def limitOf (limit : Option Int32) : ℕ := (limit.getD Int32.maxValue).toNatClampNeg

end Transcripts

section Specification

def Transcript.Delivers (transcript : Transcript) : Prop := transcript.delivered ≠ []

/-- A read fails before as many frames were delivered as were asked for. -/
def Transcript.CutOff (limit : ℕ) (transcript : Transcript) : Prop :=
  transcript.failed = true ∧ transcript.delivered.length < limit

instance : DecidablePred Transcript.Delivers :=
  fun _ => inferInstanceAs (Decidable (_ ≠ _))

instance (limit : ℕ) : DecidablePred (Transcript.CutOff limit) :=
  fun _ => inferInstanceAs (Decidable (_ ∧ _))

/-- What is to be returned: the first frames of the first relay that delivers any, nothing
where some relay answers without an error, and otherwise an error. -/
def expected (limit : ℕ) (transcripts : List Transcript) : Option (List String) :=
  match transcripts.find? fun transcript => transcript.Delivers with
  | some transcript => some (transcript.delivered.take limit)
  | none => if transcripts.any fun transcript => !transcript.failed then some [] else none

/-- The first relay that delivers frames is not cut off, or the first one that is not
delivers the same; and some frame is asked for. -/
def Unharmed (limit : ℕ) (transcripts : List Transcript) : Prop :=
  ∀ first, transcripts.find? (fun transcript => transcript.Delivers) = some first →
    0 < limit ∧ ∃ other,
      transcripts.find? (fun transcript =>
          transcript.Delivers ∧ ¬ transcript.CutOff limit) = some other ∧
        other.delivered.take limit = first.delivered.take limit

end Specification

section Answers

/-- What one relay gives: a limit of zero is met by the first frame as well. -/
def Transcript.answer (limit : ℕ) (transcript : Transcript) : Option (List String) :=
  if max 1 limit ≤ transcript.delivered.length then
    some (transcript.delivered.take (max 1 limit))
  else if transcript.failed then none
  else some transcript.delivered

variable {hex : Hex} {reader : JsonReader}

/-- The frame that was counted last meets the limit or not, as a number of frames. -/
theorem limit_le_iff {limit : Int32} (hlimit : 0 ≤ limit) {n : ℕ} (hn : n < 2 ^ 31) :
    limit ≤ Int32.ofNat n ↔ limit.toNatClampNeg ≤ n := by
  rw [Int32.le_iff_toInt_le, Int32.toInt_ofNat_of_lt hn,
    ← Int32.cast_toNatClampNeg limit hlimit]
  exact Int.ofNat_le

/-- The loop over the frames, in terms of the frames that are delivered. -/
theorem toOption_readResults {limit : Int32} (hlimit : 0 ≤ limit) (reads : List Read)
    {results : List String} (hroom : results.length < max 1 limit.toNatClampNeg) :
    (readResults hex reader limit reads results).toOption =
      ({ transcript hex reader reads with
        delivered := results ++ (transcript hex reader reads).delivered } :
          Transcript).answer limit.toNatClampNeg := by
  have hshort : ¬ max 1 limit.toNatClampNeg ≤ results.length := Nat.not_le.mpr hroom
  induction reads generalizing results with
  | nil => simp [readResults, transcript, Transcript.answer, hshort]; rfl
  | cons read reads ih =>
      cases read with
      | timedOut => simp [readResults, transcript, Transcript.answer, hshort]; rfl
      | failed error => simp [readResults, transcript, Transcript.answer, hshort]; rfl
      | otherFrame => exact ih hroom hshort
      | text frame =>
          cases hread : RelayMessageV5.fromJsonString hex reader frame with
          | err error =>
              simp only [readResults, transcript, hread]
              exact ih hroom hshort
          | panic =>
              simp only [readResults, transcript, hread]
              exact ih hroom hshort
          | ok message =>
              cases message with
              | event id event =>
                  have hbound := Int32.toNatClampNeg_lt limit
                  have hlength : (results ++ [frame]).length = results.length + 1 := by simp
                  have hmeets : limit ≤ Int32.ofNat (results ++ [frame]).length ↔
                      limit.toNatClampNeg ≤ results.length + 1 := by
                    rw [limit_le_iff hlimit (by omega), hlength]
                  simp only [readResults, transcript, hread]
                  by_cases hmet : limit.toNatClampNeg ≤ results.length + 1
                  · -- the frame that meets the limit is the last that is taken
                    have hmax : max 1 limit.toNatClampNeg = results.length + 1 := by omega
                    rw [if_pos (hmeets.mpr hmet)]
                    simp [Transcript.answer, hmax, List.take_append, Except.toOption]
                  · rw [if_neg (mt hmeets.mp hmet), ih (by omega) (by omega)]
                    simp
              | eose id =>
                  simp [readResults, transcript, hread, Transcript.answer, hshort]
                  rfl
              | _ =>
                  simp only [readResults, transcript, hread]
                  exact ih hroom hshort

theorem toOption_sendToRelay {limit : Option Int32} (hlimit : ∀ l ∈ limit, 0 ≤ l)
    (met : Relay) (relay : Url) (queryString : String) :
    (sendToRelay hex reader met relay queryString limit).1.toOption =
      (transcriptOf hex reader met queryString).answer (limitOf limit) := by
  have hnone : (⟨[], true⟩ : Transcript).answer (limitOf limit) = none := by
    simp [Transcript.answer]
  have hnonneg : 0 ≤ limit.getD Int32.maxValue := by
    cases limit with
    | none => decide
    | some l => exact hlimit l rfl
  unfold sendToRelay transcriptOf
  cases met.connection with
  | failed error => exact hnone.symm
  | timedOut => exact hnone.symm
  | connected =>
      cases met.written with
      | error error => exact hnone.symm
      | ok _ => exact toOption_readResults hnonneg _ (by simp)

/-- The loop over the relays: the first answer with frames, and otherwise an empty one if
there was one. -/
theorem toOption_sendFrom {limit : Option Int32} (hlimit : ∀ l ∈ limit, 0 ≤ l)
    {network : Network} {queryString : String} (attempt : ℕ) (relays : List Url)
    (lastError : Option String) (lastSuccess : Option (List String)) :
    (sendFrom hex reader network queryString limit attempt relays lastError
        lastSuccess).1.toOption =
      let answers := (transcripts hex reader network queryString attempt relays).map
        (Transcript.answer (limitOf limit))
      (answers.findSome? fun answer => answer.filter (· ≠ [])).or
        (if some [] ∈ answers then some [] else lastSuccess) := by
  induction relays generalizing attempt lastError lastSuccess with
  | nil => cases lastSuccess <;> simp [sendFrom, transcripts] <;> rfl
  | cons relay rest ih =>
      have hrelay := @toOption_sendToRelay hex reader limit hlimit (network attempt relay)
        relay queryString
      rw [transcripts, List.map_cons, ← hrelay, sendFrom]
      dsimp only
      cases (sendToRelay hex reader (network attempt relay) relay queryString limit).1 with
      | error error =>
          dsimp only
          rw [ih]
          simp [Except.toOption]
      | ok results =>
          cases results with
          | nil =>
              dsimp only
              rw [ih]
              simp [Except.toOption]
          | cons first results => simp [Except.toOption, Option.filter]

end Answers

section Returned

variable {limit : ℕ}

/-- An answer with frames comes from a relay that delivers some and is not cut off. -/
theorem filter_answer (transcript : Transcript) :
    (transcript.answer limit).filter (· ≠ []) =
      if transcript.Delivers ∧ ¬ transcript.CutOff limit then
        some (transcript.delivered.take (max 1 limit)) else none := by
  by_cases hdelivers : transcript.Delivers
  · have hpos := List.length_pos_iff.mpr hdelivers
    have hkept : transcript.delivered.take (max 1 limit) ≠ [] := by
      rw [← List.length_pos_iff, List.length_take]
      omega
    by_cases hcut : transcript.CutOff limit
    · rw [if_neg (by simp [hcut]), Transcript.answer, if_neg (by have := hcut.2; omega),
        if_pos hcut.1]
      rfl
    · rw [if_pos ⟨hdelivers, hcut⟩, Transcript.answer]
      by_cases hle : max 1 limit ≤ transcript.delivered.length
      · simp [hle, Option.filter, hkept]
      · have hfailed : transcript.failed = false := by
          by_contra hfailed
          exact hcut ⟨Bool.not_eq_false _ ▸ hfailed, by omega⟩
        rw [if_neg hle, hfailed, List.take_of_length_le (by omega)]
        have hframes : transcript.delivered ≠ [] := hdelivers
        simp [Option.filter, hframes]
  · rw [if_neg (by simp [hdelivers]), Transcript.answer, not_not.mp hdelivers]
    cases transcript.failed <;> simp [Option.filter]

/-- An empty answer comes from a relay that delivers nothing and does not fail. -/
theorem answer_eq_nil_iff {transcript : Transcript} :
    transcript.answer limit = some [] ↔
      ¬ transcript.Delivers ∧ transcript.failed = false := by
  unfold Transcript.answer Transcript.Delivers
  cases hframes : transcript.delivered with
  | nil => cases hfailed : transcript.failed <;> simp
  | cons first frames =>
      simp only [ne_eq, reduceCtorEq, not_false_eq_true, not_true, false_and, iff_false]
      split_ifs with hle <;> simp

theorem findSome?_ite {α β : Type} (p : α → Prop) [DecidablePred p] (f : α → β)
    (list : List α) :
    (list.findSome? fun a => if p a then some (f a) else none) =
      (list.find? fun a => p a).map f := by
  induction list with
  | nil => rfl
  | cons a list ih =>
      by_cases ha : p a <;> simp [ha, ih]

/-- What the relays give together. -/
theorem answers_eq (transcripts : List Transcript) :
    ((transcripts.map (Transcript.answer limit)).findSome? fun answer =>
        answer.filter (· ≠ [])).or
        (if some [] ∈ transcripts.map (Transcript.answer limit) then some [] else none) =
      ((transcripts.find? fun transcript =>
        transcript.Delivers ∧ ¬ transcript.CutOff limit).map fun transcript =>
          transcript.delivered.take (max 1 limit)).or
        (if ∃ transcript ∈ transcripts, ¬ transcript.Delivers ∧ transcript.failed = false
          then some [] else none) := by
  rw [List.findSome?_map, ← findSome?_ite]
  congr 1
  · congr 1
    funext transcript
    exact filter_answer transcript
  · apply if_congr ?_ rfl rfl
    simp [answer_eq_nil_iff]

theorem any_not_failed_iff {transcripts : List Transcript}
    (hnone : transcripts.find? (fun transcript => transcript.Delivers) = none) :
    (∃ transcript ∈ transcripts, ¬ transcript.Delivers ∧ transcript.failed = false) ↔
      (transcripts.any fun transcript => !transcript.failed) = true := by
  simp only [List.find?_eq_none, decide_eq_true_eq] at hnone
  simp only [List.any_eq_true, Bool.not_eq_true']
  apply exists_congr fun transcript => and_congr_right fun hmem => ?_
  exact and_iff_right (hnone transcript hmem)

/-- The relays together give what is expected exactly when no harm is done. -/
theorem answers_eq_expected_iff (transcripts : List Transcript) :
    ((transcripts.find? fun transcript =>
        transcript.Delivers ∧ ¬ transcript.CutOff limit).map fun transcript =>
          transcript.delivered.take (max 1 limit)).or
        (if ∃ transcript ∈ transcripts, ¬ transcript.Delivers ∧ transcript.failed = false
          then some [] else none) = expected limit transcripts ↔
      Unharmed limit transcripts := by
  unfold expected Unharmed
  cases hfirst : transcripts.find? fun transcript => transcript.Delivers with
  | none =>
      have hkept : transcripts.find? (fun transcript =>
          transcript.Delivers ∧ ¬ transcript.CutOff limit) = none := by
        simp only [List.find?_eq_none, decide_eq_true_eq] at hfirst ⊢
        exact fun transcript hmem hboth => hfirst transcript hmem hboth.1
      rw [hkept]
      simp [any_not_failed_iff hfirst]
  | some first =>
      have hfound := List.find?_some hfirst
      have hdelivers : first.delivered ≠ [] := of_decide_eq_true hfound
      simp only [Option.some.injEq, forall_eq']
      rcases Nat.eq_zero_or_pos limit with rfl | hpos
      · -- with a limit of zero one frame is returned, and none is expected
        have hkept : transcripts.find? (fun transcript =>
            transcript.Delivers ∧ ¬ transcript.CutOff 0) = some first := by
          simpa [Transcript.CutOff] using hfirst
        rw [hkept]
        simpa using hdelivers
      · have hmax : max 1 limit = limit := max_eq_right hpos
        have hne : first.delivered.take limit ≠ [] := by
          simpa [hpos.ne'] using hdelivers
        rw [hmax, and_iff_right hpos]
        cases transcripts.find? fun transcript =>
            transcript.Delivers ∧ ¬ transcript.CutOff limit with
        | some other => simp
        | none =>
            simp only [Option.map_none, Option.none_or]
            split_ifs <;> simp [Ne.symm hne]

end Returned

/-- For any relays, any transcripts and any limit that is not negative, the query returns
what is to be returned exactly when some frame is asked for and the first relay that
delivers frames is not cut off, or the next one delivers the same. -/
theorem send_eq_expected_iff (hex : Hex) (reader : JsonReader) (network : Network)
    (queryString : String) {relays : List Url} (hrelays : relays ≠ [])
    {limit : Option Int32} (hlimit : ∀ l ∈ limit, 0 ≤ l) :
    (send hex reader network queryString relays limit).1.toOption =
        expected (limitOf limit) (transcripts hex reader network queryString 0 relays) ↔
      Unharmed (limitOf limit) (transcripts hex reader network queryString 0 relays) := by
  rw [send, if_neg hrelays, toOption_sendFrom hlimit, ← answers_eq_expected_iff]
  dsimp only
  rw [answers_eq]

section Notes

def note : EventV3 where
  id := ⟨Vector.replicate 32 1⟩
  pubkey := ⟨Vector.replicate 32 2⟩
  createdAt := 1700000000
  kind := .wellKnown .textNote
  sig := ⟨Vector.replicate 64 0⟩
  content := ""
  tags := []

def noteFrame : String :=
  (RelayMessageV5.event ⟨"gnostr-query"⟩ note).toJsonString Hex.reference

/-- A relay that delivers the note, and what comes after it. -/
def noteNetwork (rest : List Read) : Network := fun _ _ =>
  ⟨.connected, .ok (), fun _ => .text noteFrame :: rest⟩

def relayExample : Url := ⟨"wss://relay.example/"⟩

theorem fromJsonString_noteFrame :
    RelayMessageV5.fromJsonString Hex.reference JsonReader.compact noteFrame =
      .ok (.event ⟨"gnostr-query"⟩ note) := by
  rw [noteFrame, RelayMessageV5.fromJsonString_toJsonString_iff]
  rfl

theorem transcripts_noteNetwork (rest : List Read) (queryString : String) :
    transcripts Hex.reference JsonReader.compact (noteNetwork rest) queryString 0
        [relayExample] =
      [⟨noteFrame :: (transcript Hex.reference JsonReader.compact rest).delivered,
        (transcript Hex.reference JsonReader.compact rest).failed⟩] := by
  simp [transcripts, transcriptOf, noteNetwork, transcript, fromJsonString_noteFrame]

theorem readResults_noteFrame_failed (error : String) :
    readResults Hex.reference JsonReader.compact Int32.maxValue
        [.text noteFrame, .failed error] [] = .error error := by
  have hroom : ¬ Int32.maxValue ≤ Int32.ofNat ([] ++ [noteFrame]).length := by decide
  rw [readResults, fromJsonString_noteFrame]
  exact (if_neg hroom).trans rfl

theorem sendToRelay_noteNetwork_failed (error : String) :
    sendToRelay Hex.reference JsonReader.compact
      (noteNetwork [.failed error] 0 relayExample) relayExample "" none =
        (.error error, [⟨relayExample, ""⟩]) := by
  simp only [sendToRelay, noteNetwork, Option.getD_none, readResults_noteFrame_failed]

/-- One note and the end of the stream, with a limit of one. -/
theorem send_eq_expected_note :
    (send Hex.reference JsonReader.compact (noteNetwork []) "" [relayExample]
        (some 1)).1.toOption =
      expected (limitOf (some 1)) (transcripts Hex.reference JsonReader.compact
        (noteNetwork []) "" 0 [relayExample]) := by
  rw [send_eq_expected_iff _ _ _ _ (List.cons_ne_nil _ _) (by simp),
    transcripts_noteNetwork]
  intro first hfirst
  obtain rfl : _ = first := by simpa [Transcript.Delivers] using hfirst
  exact ⟨by decide, _, by simp [Transcript.Delivers, Transcript.CutOff, transcript], rfl⟩

/-- One note and a read that fails: an error is returned, and the note was delivered. -/
theorem send_ne_expected_failed :
    (send Hex.reference JsonReader.compact (noteNetwork [.failed "connection reset"]) ""
        [relayExample] none).1.toOption = none ∧
      expected (limitOf none) (transcripts Hex.reference JsonReader.compact
        (noteNetwork [.failed "connection reset"]) "" 0 [relayExample]) =
          some [noteFrame] := by
  constructor
  · rw [send, if_neg (List.cons_ne_nil _ _), sendFrom, sendToRelay_noteNetwork_failed]
    rfl
  · rw [transcripts_noteNetwork]
    simp [expected, Transcript.Delivers, transcript]
    decide

end Notes

end Crawler

end Gnostr
