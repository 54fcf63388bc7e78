/-
When a crawl stops, `crawler/src/relay_manager.rs`: the relays that have signalled the end
of their stored events are counted, and those that are connected.
-/
import Gnostr.Lib.Machine
import Mathlib.Data.Finmap

namespace Gnostr

namespace Crawler

section Source

inductive RelayStatus
  | initialized
  | pending
  | connecting
  | connected
  | disconnected
  | terminated
deriving Repr, DecidableEq

/-- The relays of the client, and `eose_relays`. -/
structure Crawl where
  relays : Finmap fun _ : String => RelayStatus
  eoseRelays : Finset String

/-- A relay is added or changes its status, or it is removed; a notification comes, and
after it the last event is `lastAge` seconds ago and `reconnect` ends well or not. -/
inductive CrawlEvent
  | status (url : String) (status : RelayStatus)
  | remove (url : String)
  | endOfStoredEvents (url : String) (lastAge : ℕ) (reconnected : Bool)
  | otherNotification (lastAge : ℕ) (reconnected : Bool)
  | shutdown

inductive StopReason
  | allSignalled
  | quiet
  | shutdown
  | reconnectError
deriving Repr, DecidableEq

/-- The end of the loop, with the state it ended in. -/
structure Stop where
  reason : StopReason
  crawl : Crawl

def Crawl.withStatus (crawl : Crawl) (status : RelayStatus) : Finset String :=
  crawl.relays.keys.filter fun url => crawl.relays.lookup url = some status

def Crawl.signal (crawl : Crawl) (url : String) : Crawl :=
  { crawl with eoseRelays := insert url crawl.eoseRelays }

/-- What stands behind every branch that does not leave the loop. -/
def afterMessage (crawl : Crawl) (lastAge : ℕ) (reconnected : Bool) :
    Option Crawl × List Stop :=
  if 20 < lastAge ∧ 2 ≤ crawl.eoseRelays.card then (none, [⟨.quiet, crawl⟩])
  else if reconnected then (some crawl, [])
  else (none, [⟨.reconnectError, crawl⟩])

def waitAndHandleMessages (crawl : Crawl) : CrawlEvent → Option Crawl × List Stop
  | .status url status =>
      (some { crawl with relays := crawl.relays.insert url status }, [])
  | .remove url => (some { crawl with relays := crawl.relays.erase url }, [])
  | .endOfStoredEvents url lastAge reconnected =>
      let crawl := crawl.signal url
      let n1 := crawl.eoseRelays.card
      let nConnected := (crawl.withStatus .connected).card
      let nConnecting := (crawl.withStatus .connecting).card
      if nConnected + nConnecting ≤ n1 ∧ 0 < nConnected + nConnecting then
        (none, [⟨.allSignalled, crawl⟩])
      else afterMessage crawl lastAge reconnected
  | .otherNotification lastAge reconnected => afterMessage crawl lastAge reconnected
  | .shutdown => (none, [⟨.shutdown, crawl⟩])

/-- A crawl, which is `none` once it has stopped. -/
def crawlMachine : Machine (Option Crawl) CrawlEvent Stop where
  step
    | none, _ => (none, [])
    | some crawl, event => waitAndHandleMessages crawl event

end Source

section Specification

/-- The relays that are connected or connecting. -/
def Crawl.live (crawl : Crawl) : Finset String :=
  crawl.withStatus .connected ∪ crawl.withStatus .connecting

/-- When it is said that all relays have signalled, there are such relays, and every one
of them has. -/
def Stop.Sound (stop : Stop) : Prop :=
  stop.reason = .allSignalled →
    stop.crawl.live.Nonempty ∧ stop.crawl.live ⊆ stop.crawl.eoseRelays

instance (stop : Stop) : Decidable stop.Sound :=
  inferInstanceAs (Decidable (_ → _))

/-- While some relay is still to signal, fewer have signalled and gone than are still to
signal. -/
def FewGone (crawl : Crawl) : CrawlEvent → Prop
  | .endOfStoredEvents url _ _ =>
      ¬ crawl.live ⊆ (crawl.signal url).eoseRelays →
        ((crawl.signal url).eoseRelays \ crawl.live).card <
          (crawl.live \ (crawl.signal url).eoseRelays).card
  | _ => True

end Specification

section Stops

variable {crawl : Crawl}

@[simp] theorem mem_withStatus {status : RelayStatus} {url : String} :
    url ∈ crawl.withStatus status ↔ crawl.relays.lookup url = some status := by
  simp only [Crawl.withStatus, Finset.mem_filter, Finmap.mem_keys, and_iff_right_iff_imp]
  exact Finmap.mem_of_lookup_eq_some

/-- The two counts are those of the relays that are connected or connecting. -/
theorem card_live (crawl : Crawl) :
    crawl.live.card =
      (crawl.withStatus .connected).card + (crawl.withStatus .connecting).card := by
  apply Finset.card_union_of_disjoint
  rw [Finset.disjoint_left]
  intro url hconnected hconnecting
  simp only [mem_withStatus] at hconnected hconnecting
  rw [hconnected] at hconnecting
  cases hconnecting

theorem sound_of_mem_afterMessage {lastAge : ℕ} {reconnected : Bool} {stop : Stop}
    (hstop : stop ∈ (afterMessage crawl lastAge reconnected).2) : stop.Sound := by
  unfold afterMessage at hstop
  split_ifs at hstop
  · simp_all [Stop.Sound]
  · simp at hstop
  · simp_all [Stop.Sound]

/-- Among as many relays as are live all the live ones are found, unless as many others
stand in for those that are missing. -/
theorem subset_or_card_lt_iff (signalled live : Finset String) :
    (live.card ≤ signalled.card → live ⊆ signalled) ↔
      (¬ live ⊆ signalled → (signalled \ live).card < (live \ signalled).card) := by
  rw [Finset.card_sdiff_lt_card_sdiff_iff, ← not_le]
  tauto

/-- An event ends the loop soundly exactly when few enough relays have signalled and
gone. -/
theorem sound_emit_iff (crawl : Crawl) (event : CrawlEvent) :
    (∀ stop ∈ (waitAndHandleMessages crawl event).2, stop.Sound) ↔
      FewGone crawl event := by
  cases event with
  | status url status => simp [waitAndHandleMessages, FewGone]
  | remove url => simp [waitAndHandleMessages, FewGone]
  | shutdown => simp [waitAndHandleMessages, FewGone, Stop.Sound]
  | otherNotification lastAge reconnected =>
      exact iff_of_true (fun stop => sound_of_mem_afterMessage) trivial
  | endOfStoredEvents url lastAge reconnected =>
      have hlive : (crawl.signal url).live = crawl.live := rfl
      have hcard := card_live (crawl.signal url)
      simp only [FewGone, waitAndHandleMessages]
      rw [← subset_or_card_lt_iff, ← hcard, hlive]
      split_ifs with hstop
      · simp only [List.mem_singleton, forall_eq, Stop.Sound, forall_const, hlive]
        have hne : crawl.live.Nonempty := Finset.card_pos.mp hstop.2
        simp [hne, hstop.1]
      · apply iff_of_true fun stop => sound_of_mem_afterMessage
        intro hle
        have hnone : crawl.live = ∅ := by
          rw [← Finset.card_eq_zero]
          exact Nat.eq_zero_of_not_pos fun hpos => hstop ⟨hle, hpos⟩
        simp [hnone]

end Stops

section Runs

/-- In a crawl every stop for the end of stored events is sound exactly when at each such
signal few enough relays have signalled and gone. -/
theorem sound_stops_iff (crawl : Crawl) (events : List CrawlEvent) :
    (∀ stop ∈ crawlMachine.trace (some crawl) events, stop.Sound) ↔
      crawlMachine.EachStep
        (fun state event => ∀ crawl ∈ state, FewGone crawl event) (some crawl) events := by
  rw [Machine.forall_trace_iff_eachStep]
  refine @Machine.eachStep_congr _ _ _ crawlMachine (fun _ => True) _ _
    (fun _ _ _ => trivial) ?_ _ trivial events
  intro state event _
  cases state with
  | none => simp [crawlMachine, Machine.emit]
  | some crawl =>
      simp only [Option.mem_def, Option.some.injEq, forall_eq']
      exact sound_emit_iff crawl event

/-- Three relays are connected, the first signals and goes, the second signals. -/
def firstGone : List CrawlEvent :=
  [.status "wss://a/" .connected, .status "wss://b/" .connected,
    .status "wss://c/" .connected, .endOfStoredEvents "wss://a/" 0 true,
    .status "wss://a/" .disconnected, .endOfStoredEvents "wss://b/" 0 true]

/-- The crawl stops while the third has not signalled. -/
theorem not_sound_firstGone :
    ¬ ∀ stop ∈ crawlMachine.trace (some ⟨∅, ∅⟩) firstGone, stop.Sound := by
  decide +kernel

end Runs

end Crawler

end Gnostr
