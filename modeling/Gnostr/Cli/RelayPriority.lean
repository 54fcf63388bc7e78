/-
The order of the relays of a query, of `sub_commands/query.rs`: explicit relays are put in
front of the others, unless they are in the list already.
-/
import Gnostr.Crawler.Send
import Gnostr.Lib.Firsts

namespace Gnostr

namespace Cli

open Crawler

/-- `Url::parse("ws://127.0.0.1:8080")`. -/
def localRelay : Url := ⟨"ws://127.0.0.1:8080/"⟩

def prependLocalRelay (relays : List Url) : List Url := pushFront localRelay relays

def prioritizeQueryRelays (explicitRelays crawlerRelays : List Url) : List Url :=
  explicitRelays.reverse.foldl (fun relays relay => pushFront relay relays)
    (prependLocalRelay crawlerRelays)

section Spec

/-- The elements of a list at their first occurrences. -/
def firstOccurrences (relays : List Url) : List Url := relays.foldl pushNew []

/-- What is promised of the list of the relays: none comes twice, the explicit ones come
first and in their order, there is no other than these, the local one and those of the
crawler, and no other is asked before all explicit ones were. -/
structure Prioritized (explicitRelays crawlerRelays relays : List Url) : Prop where
  nodup : relays.Nodup
  first : firstOccurrences explicitRelays <+: relays
  mem : ∀ relay, relay ∈ relays ↔
    relay ∈ explicitRelays ∨ relay = localRelay ∨ relay ∈ crawlerRelays
  asked : ∀ hex reader network queryString limit, ∃ sooner later,
    (send hex reader network queryString relays limit).2 = sooner ++ later ∧
      (∀ request ∈ sooner, request.relay ∈ explicitRelays) ∧
      ∀ request ∈ later, request.relay ∉ explicitRelays

/-- The crawler's relays do not repeat, and the explicit ones are new ones, in the order of
their last occurrences, and then the first ones of the list they are put in front of. -/
def FrontFits (explicitRelays crawlerRelays : List Url) : Prop :=
  crawlerRelays.Nodup ∧ ∃ known,
    firstOccurrences explicitRelays =
      (explicitRelays.filter (· ∉ prependLocalRelay crawlerRelays)).dedup ++ known ∧
      known <+: prependLocalRelay crawlerRelays

end Spec

section Order

variable {explicitRelays crawlerRelays : List Url}

theorem prioritizeQueryRelays_eq (explicitRelays crawlerRelays : List Url) :
    prioritizeQueryRelays explicitRelays crawlerRelays =
      (explicitRelays.filter (· ∉ prependLocalRelay crawlerRelays)).dedup ++
        prependLocalRelay crawlerRelays := by
  rw [prioritizeQueryRelays, List.foldl_reverse]
  exact foldr_pushFront explicitRelays _

theorem mem_prependLocalRelay {relay : Url} :
    relay ∈ prependLocalRelay crawlerRelays ↔
      relay = localRelay ∨ relay ∈ crawlerRelays := by
  rw [prependLocalRelay, pushFront]
  split_ifs with hlocal
  · constructor
    · exact .inr
    · rintro (rfl | hmem)
      · exact hlocal
      · exact hmem
  · exact List.mem_cons

theorem nodup_prependLocalRelay_iff :
    (prependLocalRelay crawlerRelays).Nodup ↔ crawlerRelays.Nodup := by
  rw [prependLocalRelay, pushFront]
  split_ifs with hlocal
  · exact Iff.rfl
  · simp [hlocal]

theorem mem_firstOccurrences {relay : Url} :
    relay ∈ firstOccurrences explicitRelays ↔ relay ∈ explicitRelays := by
  simp [firstOccurrences]

theorem mem_prioritizeQueryRelays {relay : Url} :
    relay ∈ prioritizeQueryRelays explicitRelays crawlerRelays ↔
      relay ∈ explicitRelays ∨ relay = localRelay ∨ relay ∈ crawlerRelays := by
  rw [prioritizeQueryRelays_eq, List.mem_append, List.mem_dedup, List.mem_filter,
    ← mem_prependLocalRelay]
  by_cases hknown : relay ∈ prependLocalRelay crawlerRelays
  · simp [hknown]
  · simp [hknown]

theorem nodup_prioritizeQueryRelays_iff :
    (prioritizeQueryRelays explicitRelays crawlerRelays).Nodup ↔ crawlerRelays.Nodup := by
  rw [prioritizeQueryRelays_eq, ← @nodup_prependLocalRelay_iff crawlerRelays]
  constructor
  · exact fun hnodup => hnodup.of_append_right
  · intro hnodup
    refine List.Nodup.append (List.nodup_dedup _) hnodup fun relay hnew hknown => ?_
    have hnot := (List.mem_filter.mp (List.mem_dedup.mp hnew)).2
    simp [hknown] at hnot

/-- The explicit relays come first if they are the new ones and the first of the known
ones. -/
theorem isPrefix_prioritizeQueryRelays_iff :
    firstOccurrences explicitRelays <+: prioritizeQueryRelays explicitRelays crawlerRelays ↔
      ∃ known,
        firstOccurrences explicitRelays =
          (explicitRelays.filter (· ∉ prependLocalRelay crawlerRelays)).dedup ++ known ∧
          known <+: prependLocalRelay crawlerRelays := by
  rw [prioritizeQueryRelays_eq]
  constructor
  · intro hfirst
    have hlength :
        (explicitRelays.filter (· ∉ prependLocalRelay crawlerRelays)).dedup.length ≤
          (firstOccurrences explicitRelays).length := by
      refine ((List.nodup_dedup _).subperm fun relay hnew => ?_).length_le
      exact mem_firstOccurrences.mpr (List.mem_filter.mp (List.mem_dedup.mp hnew)).1
    obtain ⟨known, hknown⟩ :=
      List.prefix_of_prefix_length_le (List.prefix_append _ _) hfirst hlength
    refine ⟨known, hknown.symm, ?_⟩
    rw [← hknown] at hfirst
    exact (List.prefix_append_right_inj _).mp hfirst
  · rintro ⟨known, heq, hknown⟩
    rw [heq]
    exact (List.prefix_append_right_inj _).mpr hknown

/-- Where the explicit relays come first and none twice, no other is asked before them. -/
theorem exists_requests_split {relays : List Url} (hnodup : relays.Nodup)
    (hfirst : firstOccurrences explicitRelays <+: relays) (hex : Hex)
    (reader : JsonReader) (network : Network) (queryString : String)
    (limit : Option Int32) :
    ∃ sooner later, (send hex reader network queryString relays limit).2 = sooner ++ later ∧
      (∀ request ∈ sooner, request.relay ∈ explicitRelays) ∧
      ∀ request ∈ later, request.relay ∉ explicitRelays := by
  obtain ⟨others, rfl⟩ := hfirst
  have hsublist := @sublist_requests_send hex reader network queryString limit
    (firstOccurrences explicitRelays ++ others)
  obtain ⟨asked, askedLater, hasked, hsooner, hlater⟩ := List.sublist_append_iff.mp hsublist
  obtain ⟨sooner, later, hrequests, rfl, rfl⟩ := List.map_eq_append_iff.mp hasked
  refine ⟨sooner, later, hrequests, fun request hrequest => ?_, fun request hrequest => ?_⟩
  · exact mem_firstOccurrences.mp (hsooner.subset (List.mem_map_of_mem hrequest))
  · intro hexplicit
    exact (List.nodup_append.mp hnodup).2.2 _ (mem_firstOccurrences.mpr hexplicit) _
      (hlater.subset (List.mem_map_of_mem hrequest)) rfl

end Order

/-- The list is as promised exactly if the crawler's relays do not repeat and the explicit
ones fit in front. -/
theorem prioritized_iff_frontFits (explicitRelays crawlerRelays : List Url) :
    Prioritized explicitRelays crawlerRelays
        (prioritizeQueryRelays explicitRelays crawlerRelays) ↔
      FrontFits explicitRelays crawlerRelays := by
  constructor
  · intro hprioritized
    exact ⟨nodup_prioritizeQueryRelays_iff.mp hprioritized.nodup,
      isPrefix_prioritizeQueryRelays_iff.mp hprioritized.first⟩
  · rintro ⟨hnodup, hfirst⟩
    have hnodup' : (prioritizeQueryRelays explicitRelays crawlerRelays).Nodup :=
      nodup_prioritizeQueryRelays_iff.mpr hnodup
    have hfirst' := isPrefix_prioritizeQueryRelays_iff.mpr hfirst
    exact ⟨hnodup', hfirst', fun _ => mem_prioritizeQueryRelays,
      exists_requests_split hnodup' hfirst'⟩

/-- A relay that the crawler knows is not moved to the front. -/
theorem not_prioritized_knownRelay :
    ¬ Prioritized [⟨"wss://relay.example/"⟩] [⟨"wss://relay.example/"⟩]
      (prioritizeQueryRelays [⟨"wss://relay.example/"⟩] [⟨"wss://relay.example/"⟩]) := by
  intro hprioritized
  exact absurd hprioritized.first (by decide)

end Cli

end Gnostr
