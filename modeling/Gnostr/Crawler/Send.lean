/-
A query is sent to one relay after the other until one has results: `send` and
`send_to_relay` of `crawler/src/query/mod.rs`.
-/
import Gnostr.Types.Messages

namespace Gnostr

namespace Crawler

open Gnostr.Types

/-- A parsed URL. -/
structure Url where
  serialization : String
deriving DecidableEq

/-- How connecting to a relay ends, within the timeout. -/
inductive Connection
  | connected
  | failed (error : String)
  | timedOut
deriving DecidableEq

/-- What `read.next()` gives within the timeout, until the stream ends. -/
inductive Read
  | text (frame : String)
  | otherFrame
  | failed (error : String)
  | timedOut

/-- A relay as it is met: whether it takes a connection and a frame, and what it answers
to the text of the frame. -/
structure Relay where
  connection : Connection
  written : Except String Unit
  answers : String → List Read

/-- The relay met at an attempt, counted from zero, at a URL. -/
abbrev Network := ℕ → Url → Relay

/-- A text that was sent to a relay. -/
structure Request where
  relay : Url
  text : String
deriving DecidableEq

section Send

variable (hex : Hex) (reader : JsonReader)

/-- The loop over the frames of a relay, with the events so far. -/
def readResults (limit : Int32) : List Read → List String → Except String (List String)
  | [], results => .ok results
  | .timedOut :: _, results => .ok results
  | .failed error :: _, _ => .error error
  | .otherFrame :: reads, results => readResults limit reads results
  | .text frame :: reads, results =>
      match RelayMessageV5.fromJsonString hex reader frame with
      | .ok (.event _ _) =>
          let results := results ++ [frame]
          if limit ≤ Int32.ofNat results.length then .ok results
          else readResults limit reads results
      | .ok (.eose _) => .ok results
      | _ => readResults limit reads results

def sendToRelay (met : Relay) (relay : Url) (queryString : String) (limit : Option Int32) :
    Except String (List String) × List Request :=
  match met.connection with
  | .failed error => (.error error, [])
  | .timedOut => (.error ("timed out connecting to relay " ++ relay.serialization), [])
  | .connected =>
      match met.written with
      | .error error => (.error error, [])
      | .ok () =>
          (readResults hex reader (limit.getD Int32.maxValue) (met.answers queryString) [],
            [⟨relay, queryString⟩])

/-- The loop over the relays, from an attempt on. -/
def sendFrom (network : Network) (queryString : String) (limit : Option Int32) :
    ℕ → List Url → Option String → Option (List String) →
      Except String (List String) × List Request
  | _, [], _, some result => (.ok result, [])
  | _, [], lastError, none =>
      (.error ("failed to connect to any relay" ++
        (lastError.elim "" fun err => " (" ++ err ++ ")")), [])
  | attempt, relay :: rest, lastError, lastSuccess =>
      let tried := sendToRelay hex reader (network attempt relay) relay queryString limit
      let goOn := sendFrom network queryString limit (attempt + 1) rest
      match tried.1 with
      | .ok [] =>
          let later := goOn lastError (some [])
          (later.1, tried.2 ++ later.2)
      | .ok (first :: results) => (.ok (first :: results), tried.2)
      | .error err =>
          let later := goOn (some (relay.serialization ++ ": " ++ err)) lastSuccess
          (later.1, tried.2 ++ later.2)

def send (network : Network) (queryString : String) (relayUrl : List Url)
    (limit : Option Int32) : Except String (List String) × List Request :=
  if relayUrl = [] then (.error "no valid relay URLs available", [])
  else sendFrom hex reader network queryString limit 0 relayUrl none none

end Send

section Requests

variable {hex : Hex} {reader : JsonReader}

/-- The relay takes a connection and a frame. -/
def Relay.Takes (met : Relay) : Prop := met.connection = .connected ∧ met.written = .ok ()

theorem requests_sendToRelay_of_takes {met : Relay} (htakes : met.Takes) (relay : Url)
    (queryString : String) (limit : Option Int32) :
    (sendToRelay hex reader met relay queryString limit).2 = [⟨relay, queryString⟩] := by
  rw [sendToRelay, htakes.1]
  dsimp only
  rw [htakes.2]

/-- A relay that does not take the frame is sent nothing, and gives an error. -/
theorem sendToRelay_of_not_takes {met : Relay} (hrefuses : ¬ met.Takes) (relay : Url)
    (queryString : String) (limit : Option Int32) :
    ∃ error, sendToRelay hex reader met relay queryString limit = (.error error, []) := by
  unfold sendToRelay
  split
  · exact ⟨_, rfl⟩
  · exact ⟨_, rfl⟩
  · rename_i hconnection
    split
    · exact ⟨_, rfl⟩
    · rename_i hwritten
      exact absurd ⟨hconnection, hwritten⟩ hrefuses

variable {network : Network} {queryString : String} {limit : Option Int32}

/-- The requests of a relay come first, and then those of the other relays, or none. -/
theorem requests_sendFrom_cons (attempt : ℕ) (relay : Url) (rest : List Url)
    (lastError : Option String) (lastSuccess : Option (List String)) :
    ∃ later, (sendFrom hex reader network queryString limit attempt (relay :: rest)
        lastError lastSuccess).2 =
      (sendToRelay hex reader (network attempt relay) relay queryString limit).2 ++ later ∧
      (later = [] ∨ ∃ lastError lastSuccess,
        later = (sendFrom hex reader network queryString limit (attempt + 1) rest lastError
          lastSuccess).2) := by
  rw [sendFrom]
  dsimp only
  split
  · exact ⟨_, rfl, .inr ⟨_, _, rfl⟩⟩
  · exact ⟨[], (List.append_nil _).symm, .inl rfl⟩
  · exact ⟨_, rfl, .inr ⟨_, _, rfl⟩⟩

/-- A relay that does not take the frame is passed over. -/
theorem sendFrom_cons_of_not_takes {attempt : ℕ} {relay : Url}
    (hrefuses : ¬ (network attempt relay).Takes) (rest : List Url)
    (lastError : Option String) (lastSuccess : Option (List String)) :
    ∃ lastError', sendFrom hex reader network queryString limit attempt (relay :: rest)
        lastError lastSuccess =
      sendFrom hex reader network queryString limit (attempt + 1) rest lastError'
        lastSuccess := by
  obtain ⟨error, herror⟩ :=
    @sendToRelay_of_not_takes hex reader _ hrefuses relay queryString limit
  rw [sendFrom, herror]
  exact ⟨_, rfl⟩

/-- Nothing but the query is sent. -/
theorem text_of_mem_requests_sendFrom {attempt : ℕ} {relays : List Url}
    {lastError : Option String} {lastSuccess : Option (List String)} {request : Request}
    (hrequest : request ∈ (sendFrom hex reader network queryString limit attempt relays
      lastError lastSuccess).2) : request.text = queryString := by
  induction relays generalizing attempt lastError lastSuccess with
  | nil => cases lastSuccess <;> exact absurd hrequest List.not_mem_nil
  | cons relay rest ih =>
      obtain ⟨later, hrequests, hlater⟩ := @requests_sendFrom_cons hex reader network
        queryString limit attempt relay rest lastError lastSuccess
      rw [hrequests] at hrequest
      rcases List.mem_append.mp hrequest with hnow | hrequest
      · by_cases htakes : (network attempt relay).Takes
        · rw [requests_sendToRelay_of_takes htakes] at hnow
          rw [List.mem_singleton.mp hnow]
        · obtain ⟨error, herror⟩ :=
            @sendToRelay_of_not_takes hex reader _ htakes relay queryString limit
          rw [herror] at hnow
          exact absurd hnow List.not_mem_nil
      · rcases hlater with rfl | ⟨lastError, lastSuccess, rfl⟩
        · exact absurd hrequest List.not_mem_nil
        · exact ih hrequest

/-- Nothing is sent exactly when no relay takes the frame. -/
theorem requests_sendFrom_eq_nil_iff (attempt : ℕ) (relays : List Url)
    (lastError : Option String) (lastSuccess : Option (List String)) :
    (sendFrom hex reader network queryString limit attempt relays lastError
        lastSuccess).2 = [] ↔
      ∀ i, ∀ hi : i < relays.length, ¬ (network (attempt + i) relays[i]).Takes := by
  induction relays generalizing attempt lastError lastSuccess with
  | nil => cases lastSuccess <;> simp [sendFrom]
  | cons relay rest ih =>
      by_cases htakes : (network attempt relay).Takes
      · obtain ⟨later, hrequests, -⟩ := @requests_sendFrom_cons hex reader network
          queryString limit attempt relay rest lastError lastSuccess
        rw [hrequests, requests_sendToRelay_of_takes htakes]
        refine iff_of_false (List.cons_ne_nil _ _) fun hnone => ?_
        exact hnone 0 (Nat.succ_pos _) htakes
      · obtain ⟨lastError', hgoOn⟩ := @sendFrom_cons_of_not_takes hex reader network
          queryString limit attempt relay htakes rest lastError lastSuccess
        rw [hgoOn, ih]
        constructor
        · intro hrest i hi
          cases i with
          | zero => exact htakes
          | succ i =>
              have hi' := hrest i (Nat.lt_of_succ_lt_succ hi)
              rw [Nat.add_right_comm] at hi'
              exact hi'
        · intro hall i hi
          rw [Nat.add_right_comm]
          exact hall (i + 1) (Nat.succ_lt_succ hi)

/-- The relays are asked in the order of the list. -/
theorem sublist_requests_sendFrom {attempt : ℕ} {relays : List Url}
    {lastError : Option String} {lastSuccess : Option (List String)} :
    ((sendFrom hex reader network queryString limit attempt relays lastError
      lastSuccess).2.map Request.relay).Sublist relays := by
  induction relays generalizing attempt lastError lastSuccess with
  | nil => cases lastSuccess <;> exact List.nil_sublist []
  | cons relay rest ih =>
      obtain ⟨later, hrequests, hlater⟩ := @requests_sendFrom_cons hex reader network
        queryString limit attempt relay rest lastError lastSuccess
      have hrest : (later.map Request.relay).Sublist rest := by
        rcases hlater with rfl | ⟨lastError, lastSuccess, rfl⟩
        · exact List.nil_sublist rest
        · exact ih
      rw [hrequests, List.map_append]
      by_cases htakes : (network attempt relay).Takes
      · rw [requests_sendToRelay_of_takes htakes]
        exact hrest.cons_cons relay
      · obtain ⟨error, herror⟩ :=
          @sendToRelay_of_not_takes hex reader _ htakes relay queryString limit
        rw [herror]
        exact hrest.cons relay

theorem sublist_requests_send {relays : List Url} :
    ((send hex reader network queryString relays limit).2.map Request.relay).Sublist
      relays := by
  unfold send
  split_ifs
  · exact List.nil_sublist relays
  · exact sublist_requests_sendFrom

theorem text_of_mem_requests_send {relays : List Url} {request : Request}
    (hrequest : request ∈ (send hex reader network queryString relays limit).2) :
    request.text = queryString := by
  unfold send at hrequest
  split_ifs at hrequest
  · exact absurd hrequest List.not_mem_nil
  · exact text_of_mem_requests_sendFrom hrequest

theorem requests_send_eq_nil_iff (relays : List Url) :
    (send hex reader network queryString relays limit).2 = [] ↔
      ∀ i, ∀ hi : i < relays.length, ¬ (network i relays[i]).Takes := by
  unfold send
  split_ifs with hempty
  · subst hempty
    exact iff_of_true rfl fun i hi => absurd hi (Nat.not_lt_zero i)
  · rw [requests_sendFrom_eq_nil_iff]
    simp only [Nat.zero_add]

end Requests

end Crawler

end Gnostr
