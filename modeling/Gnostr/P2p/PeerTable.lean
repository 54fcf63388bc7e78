/-
The table of discovered peers, `p2p/src/embedded_network.rs`: the hundred peers that
were seen last, each with the addresses that were reported for it.
-/
import Gnostr.Lib.Firsts
import Gnostr.Lib.Machine
import Mathlib.Data.List.Sort
import Mathlib.Data.String.Basic

namespace Gnostr

namespace P2p

section Source

structure DiscoveredPeer where
  peerId : String
  source : String
  addresses : List String
  lastSeenSecs : ℕ
deriving Repr, DecidableEq

/-- The comparison of `sort_by` does not put the first peer behind the second: it was
seen later, or at the same time and has the smaller id. -/
def DiscoveredPeer.Precedes (a b : DiscoveredPeer) : Prop :=
  b.lastSeenSecs < a.lastSeenSecs ∨
    b.lastSeenSecs = a.lastSeenSecs ∧ a.peerId ≤ b.peerId

instance : DecidableRel DiscoveredPeer.Precedes :=
  fun _ _ => inferInstanceAs (Decidable (_ ∨ _))

/-- One call of `record_peer_discovery`, with the time it reads from the clock. -/
structure Report where
  peerId : String
  source : String
  addresses : List String
  now : ℕ
deriving Repr, DecidableEq

/-- The addresses without repetitions. -/
def normalizeAddresses (addresses : List String) : List String :=
  (addresses.foldl (Firsts.push id) ⟨∅, []⟩).kept

/-- What a report makes of the entry its peer has. -/
def DiscoveredPeer.update (report : Report) (existing : DiscoveredPeer) :
    DiscoveredPeer where
  peerId := existing.peerId
  source := report.source
  addresses := (normalizeAddresses report.addresses).foldl pushNew existing.addresses
  lastSeenSecs := report.now

def Report.newPeer (report : Report) : DiscoveredPeer where
  peerId := report.peerId
  source := report.source
  addresses := normalizeAddresses report.addresses
  lastSeenSecs := report.now

/-- The peers with the report entered, before they are sorted. -/
def enterReport (peers : List DiscoveredPeer) (report : Report) : List DiscoveredPeer :=
  match updateFirst (fun peer => peer.peerId == report.peerId) (.update report) peers with
  | some peers => peers
  | none => peers ++ [report.newPeer]

def sortPeers (peers : List DiscoveredPeer) : List DiscoveredPeer :=
  peers.mergeSort fun a b => decide (a.Precedes b)

def mergePeerDiscovery (peers : List DiscoveredPeer) (report : Report) :
    List DiscoveredPeer :=
  let peers := sortPeers (enterReport peers report)
  if 100 < peers.length then peers.take 100 else peers

/-- The table from report to report. -/
def peerTable : Machine (List DiscoveredPeer) Report Empty where
  step peers report := (mergePeerDiscovery peers report, [])

theorem mergePeerDiscovery_eq_take (peers : List DiscoveredPeer) (report : Report) :
    mergePeerDiscovery peers report = (sortPeers (enterReport peers report)).take 100 := by
  unfold mergePeerDiscovery
  dsimp only
  split_ifs with hlength
  · rfl
  · exact (List.take_of_length_le (Nat.not_lt.mp hlength)).symm

end Source

section Entered

theorem nodup_normalizeAddresses (addresses : List String) :
    (normalizeAddresses addresses).Nodup := by
  have hnodup := @Firsts.nodup_foldl_push String String id _ ⟨∅, []⟩ List.nodup_nil
    (fun _ hmem => absurd hmem List.not_mem_nil) addresses
  rwa [List.map_id] at hnodup

@[simp] theorem mem_normalizeAddresses {addresses : List String} {address : String} :
    address ∈ normalizeAddresses addresses ↔ address ∈ addresses := by
  have hholds := (@Firsts.holds_nil String String id).foldl addresses
  rw [List.nil_append] at hholds
  refine (hholds.kept address).trans ⟨IsFirst.mem, fun hmem => ?_⟩
  obtain ⟨before, after, rfl, hnot⟩ := List.eq_append_cons_of_mem hmem
  refine ⟨before, after, rfl, fun other hother heq => hnot ?_⟩
  rwa [← show other = address from heq]

/-- What a report does to the entries: the one its peer has is updated, or there was none
and one is added. -/
theorem enterReport_cases (peers : List DiscoveredPeer) (report : Report) :
    (∃ before existing after, peers = before ++ existing :: after ∧
      existing.peerId = report.peerId ∧
      enterReport peers report = before ++ existing.update report :: after) ∨
    ((∀ peer ∈ peers, peer.peerId ≠ report.peerId) ∧
      enterReport peers report = peers ++ [report.newPeer]) := by
  unfold enterReport
  split
  next updated hupdated =>
    obtain ⟨before, existing, after, hpeers, hid, rfl⟩ :=
      exists_of_updateFirst_eq_some hupdated
    exact .inl ⟨before, existing, after, hpeers, beq_iff_eq.mp hid, rfl⟩
  next hnone =>
    refine .inr ⟨fun peer hmem => ?_, rfl⟩
    exact beq_eq_false_iff_ne.mp (updateFirst_eq_none_iff.mp hnone peer hmem)

/-- The entry of a peer that has reported has its data, and the addresses it had. -/
theorem mem_enterReport {peers : List DiscoveredPeer} {report : Report}
    (hids : (peers.map DiscoveredPeer.peerId).Nodup) {peer : DiscoveredPeer}
    (hmem : peer ∈ enterReport peers report) :
    (peer ∈ peers ∧ peer.peerId ≠ report.peerId) ∨
    (peer.peerId = report.peerId ∧ peer.source = report.source ∧
      peer.lastSeenSecs = report.now ∧ report.addresses ⊆ peer.addresses ∧
      ∀ old ∈ peers, old.peerId = report.peerId → old.addresses ⊆ peer.addresses) := by
  obtain ⟨before, existing, after, rfl, hid, hentered⟩ | ⟨hnone, hentered⟩ :=
    enterReport_cases peers report
  · rw [hentered, List.mem_append, List.mem_cons] at hmem
    have hother : ∀ other ∈ before ++ after, other.peerId ≠ report.peerId := by
      intro other hother hsame
      rw [(List.perm_middle.map _).nodup_iff, List.map_cons, List.nodup_cons] at hids
      exact hids.1 (hid.trans hsame.symm ▸ List.mem_map_of_mem hother)
    rcases hmem with hbefore | rfl | hafter
    · exact .inl ⟨List.mem_append_left _ hbefore, hother _ (List.mem_append_left _ hbefore)⟩
    · refine .inr ⟨hid, rfl, rfl, fun address hmem => ?_, fun old hold hsame => ?_⟩
      · exact mem_foldl_pushNew.mpr (.inr (mem_normalizeAddresses.mpr hmem))
      · have hexisting : old = existing := by
          rcases List.mem_append.mp hold with hbefore | hrest
          · exact absurd hsame (hother old (List.mem_append_left _ hbefore))
          · rcases List.mem_cons.mp hrest with rfl | hafter
            · rfl
            · exact absurd hsame (hother old (List.mem_append_right _ hafter))
        intro address hmem
        exact mem_foldl_pushNew.mpr (.inl (hexisting ▸ hmem))
    · exact .inl ⟨List.mem_append_right _ (List.mem_cons_of_mem _ hafter),
        hother _ (List.mem_append_right _ hafter)⟩
  · rw [hentered, List.mem_append, List.mem_singleton] at hmem
    rcases hmem with hmem | rfl
    · exact .inl ⟨hmem, hnone peer hmem⟩
    · refine .inr ⟨rfl, rfl, rfl, fun address hmem => ?_, fun old hold hsame => ?_⟩
      · exact mem_normalizeAddresses.mpr hmem
      · exact absurd hsame (hnone old hold)

/-- No peer is missing once a report is entered. -/
theorem exists_mem_enterReport {peers : List DiscoveredPeer} {report : Report}
    {peerId : String}
    (hpeer : peerId ∈ peers.map DiscoveredPeer.peerId ∨ peerId = report.peerId) :
    ∃ peer ∈ enterReport peers report, peer.peerId = peerId := by
  obtain ⟨before, existing, after, rfl, hid, hentered⟩ | ⟨-, hentered⟩ :=
    enterReport_cases peers report
  · rw [hentered]
    have hupdated : existing.update report ∈ before ++ existing.update report :: after :=
      List.mem_append_right _ List.mem_cons_self
    rcases hpeer with hmem | rfl
    · obtain ⟨peer, hpeer, rfl⟩ := List.mem_map.mp hmem
      rcases List.mem_append.mp hpeer with hbefore | hrest
      · exact ⟨peer, List.mem_append_left _ hbefore, rfl⟩
      · rcases List.mem_cons.mp hrest with rfl | hafter
        · exact ⟨_, hupdated, rfl⟩
        · exact ⟨peer, List.mem_append_right _ (List.mem_cons_of_mem _ hafter), rfl⟩
    · exact ⟨_, hupdated, hid⟩
  · rw [hentered]
    rcases hpeer with hmem | rfl
    · obtain ⟨peer, hpeer, rfl⟩ := List.mem_map.mp hmem
      exact ⟨peer, List.mem_append_left _ hpeer, rfl⟩
    · exact ⟨_, List.mem_append_right _ (List.mem_singleton_self _), rfl⟩

theorem nodup_peerId_enterReport {peers : List DiscoveredPeer} {report : Report}
    (hids : (peers.map DiscoveredPeer.peerId).Nodup) :
    ((enterReport peers report).map DiscoveredPeer.peerId).Nodup := by
  obtain ⟨before, existing, after, rfl, hid, hentered⟩ | ⟨hnone, hentered⟩ :=
    enterReport_cases peers report
  · rw [hentered, List.map_append, List.map_cons]
    rwa [List.map_append, List.map_cons] at hids
  · rw [hentered, List.map_append, List.map_singleton, ← List.concat_eq_append]
    refine hids.concat fun hmem => ?_
    obtain ⟨peer, hpeer, hsame⟩ := List.mem_map.mp hmem
    exact hnone peer hpeer hsame

theorem nodup_addresses_enterReport {peers : List DiscoveredPeer} {report : Report}
    (haddresses : ∀ peer ∈ peers, peer.addresses.Nodup) :
    ∀ peer ∈ enterReport peers report, peer.addresses.Nodup := by
  obtain ⟨before, existing, after, rfl, -, hentered⟩ | ⟨-, hentered⟩ :=
    enterReport_cases peers report
  · rw [hentered]
    rw [List.forall_mem_append, List.forall_mem_cons] at haddresses ⊢
    exact ⟨haddresses.1, nodup_foldl_pushNew haddresses.2.1 _, haddresses.2.2⟩
  · rw [hentered, List.forall_mem_append]
    refine ⟨haddresses, fun peer hpeer => ?_⟩
    rw [List.mem_singleton.mp hpeer]
    exact nodup_normalizeAddresses report.addresses

end Entered

section Table

theorem precedes_trans (a b c : DiscoveredPeer) (hab : a.Precedes b) (hbc : b.Precedes c) :
    a.Precedes c := by
  rcases hab with hab | ⟨hab, hid⟩
  · rcases hbc with hbc | ⟨hbc, -⟩
    · exact .inl (hbc.trans hab)
    · exact .inl (hbc ▸ hab)
  · rcases hbc with hbc | ⟨hbc, hid'⟩
    · exact .inl (hab ▸ hbc)
    · exact .inr ⟨hbc.trans hab, hid.trans hid'⟩

theorem precedes_total (a b : DiscoveredPeer) : a.Precedes b ∨ b.Precedes a := by
  rcases lt_trichotomy a.lastSeenSecs b.lastSeenSecs with hlt | heq | hlt
  · exact .inr (.inl hlt)
  · exact (le_total a.peerId b.peerId).imp (fun hle => .inr ⟨heq.symm, hle⟩)
      fun hle => .inr ⟨heq, hle⟩
  · exact .inl (.inl hlt)

theorem sortPeers_perm (peers : List DiscoveredPeer) : (sortPeers peers).Perm peers :=
  List.mergeSort_perm _ _

theorem pairwise_sortPeers (peers : List DiscoveredPeer) :
    (sortPeers peers).Pairwise DiscoveredPeer.Precedes := by
  have hsorted := @List.pairwise_mergeSort _ (fun a b => decide (a.Precedes b))
    (fun a b c hab hbc => decide_eq_true
      (precedes_trans a b c (of_decide_eq_true hab) (of_decide_eq_true hbc)))
    (fun a b => by simpa using precedes_total a b) peers
  exact hsorted.imp of_decide_eq_true

/-- What holds of the table between two reports. -/
structure IsPeerTable (peers : List DiscoveredPeer) : Prop where
  length_le : peers.length ≤ 100
  nodup_peerId : (peers.map DiscoveredPeer.peerId).Nodup
  nodup_addresses : ∀ peer ∈ peers, peer.addresses.Nodup
  sorted : peers.Pairwise DiscoveredPeer.Precedes

theorem isPeerTable_nil : IsPeerTable [] where
  length_le := Nat.zero_le _
  nodup_peerId := List.nodup_nil
  nodup_addresses := List.forall_mem_nil _
  sorted := List.Pairwise.nil

theorem mem_enterReport_of_mem_merge {peers : List DiscoveredPeer} {report : Report}
    {peer : DiscoveredPeer} (hmem : peer ∈ mergePeerDiscovery peers report) :
    peer ∈ enterReport peers report := by
  rw [mergePeerDiscovery_eq_take] at hmem
  exact (sortPeers_perm _).mem_iff.mp (List.mem_of_mem_take hmem)

theorem IsPeerTable.merge {peers : List DiscoveredPeer} (htable : IsPeerTable peers)
    (report : Report) : IsPeerTable (mergePeerDiscovery peers report) where
  length_le := by
    rw [mergePeerDiscovery_eq_take]
    exact List.length_take_le _ _
  nodup_peerId := by
    rw [mergePeerDiscovery_eq_take]
    have hentered := @nodup_peerId_enterReport _ report htable.nodup_peerId
    have hsorted := ((sortPeers_perm _).map DiscoveredPeer.peerId).nodup_iff.mpr hentered
    exact hsorted.sublist ((List.take_sublist _ _).map _)
  nodup_addresses peer hmem :=
    nodup_addresses_enterReport htable.nodup_addresses peer
      (mem_enterReport_of_mem_merge hmem)
  sorted := by
    rw [mergePeerDiscovery_eq_take]
    exact (pairwise_sortPeers _).sublist (List.take_sublist _ _)

/-- A peer that falls out was not seen after any peer that stays. -/
theorem lastSeenSecs_le_of_evicted {peers : List DiscoveredPeer} {report : Report}
    {evicted kept : DiscoveredPeer} (hentered : evicted ∈ enterReport peers report)
    (hevicted : evicted ∉ mergePeerDiscovery peers report)
    (hkept : kept ∈ mergePeerDiscovery peers report) :
    evicted.lastSeenSecs ≤ kept.lastSeenSecs := by
  rw [mergePeerDiscovery_eq_take] at hevicted hkept
  have hsorted := pairwise_sortPeers (enterReport peers report)
  rw [← List.take_append_drop 100 (sortPeers (enterReport peers report))] at hsorted
  have hdropped : evicted ∈ (sortPeers (enterReport peers report)).drop 100 := by
    have hall := (sortPeers_perm _).mem_iff.mpr hentered
    rw [← List.take_append_drop 100 (sortPeers _), List.mem_append] at hall
    exact hall.resolve_left hevicted
  rcases (List.pairwise_append.mp hsorted).2.2 kept hkept evicted hdropped with hlt | heq
  · exact hlt.le
  · exact heq.1.le

end Table

section Runs

/-- The last report of a peer. -/
def lastReport? (reports : List Report) (peerId : String) : Option Report :=
  (reports.filter fun report => report.peerId == peerId).getLast?

theorem isPeerTable_run (reports : List Report) : IsPeerTable (peerTable.run [] reports) :=
  peerTable.run_preserves IsPeerTable (fun _ report _ htable => htable.merge report)
    isPeerTable_nil

theorem run_concat (reports : List Report) (report : Report) :
    peerTable.run [] (reports ++ [report]) =
      mergePeerDiscovery (peerTable.run [] reports) report := by
  rw [Machine.run_append]
  rfl

theorem lastReport?_concat_of_eq {reports : List Report} {report : Report} :
    lastReport? (reports ++ [report]) report.peerId = some report := by
  rw [lastReport?, List.filter_append, List.filter_cons_of_pos (by simp), List.filter_nil,
    List.getLast?_concat]

theorem lastReport?_concat_of_ne {reports : List Report} {report : Report}
    {peerId : String} (hne : report.peerId ≠ peerId) :
    lastReport? (reports ++ [report]) peerId = lastReport? reports peerId := by
  rw [lastReport?, List.filter_append, List.filter_cons_of_neg (by simpa using hne),
    List.filter_nil, List.append_nil, lastReport?]

/-- What a report enters for a peer stands for the last report of the peer. -/
theorem entered_lastReport {peers : List DiscoveredPeer} {reports : List Report}
    {report : Report} (hids : (peers.map DiscoveredPeer.peerId).Nodup)
    (hlast : ∀ peer ∈ peers, ∃ last, lastReport? reports peer.peerId = some last ∧
      peer.lastSeenSecs = last.now ∧ peer.source = last.source) :
    ∀ peer ∈ enterReport peers report,
      ∃ last, lastReport? (reports ++ [report]) peer.peerId = some last ∧
        peer.lastSeenSecs = last.now ∧ peer.source = last.source := by
  intro peer hmem
  obtain ⟨hold, hne⟩ | ⟨hid, hsource, hnow, -⟩ := mem_enterReport hids hmem
  · rw [lastReport?_concat_of_ne hne.symm]
    exact hlast peer hold
  · rw [hid]
    exact ⟨report, lastReport?_concat_of_eq, hnow, hsource⟩

theorem lastReport_of_mem_run (reports : List Report) :
    ∀ peer ∈ peerTable.run [] reports,
      ∃ last, lastReport? reports peer.peerId = some last ∧
        peer.lastSeenSecs = last.now ∧ peer.source = last.source := by
  induction reports using List.reverseRecOn with
  | nil => exact List.forall_mem_nil _
  | append_singleton reports report ih =>
      intro peer hmem
      rw [run_concat] at hmem
      exact entered_lastReport (isPeerTable_run reports).nodup_peerId ih peer
        (mem_enterReport_of_mem_merge hmem)

/-- The peer is in the table after a report of it and stays there to the end. -/
def StaysFrom (peerId : String) (before after : List Report) : Prop :=
  ∀ soFar, soFar <+: after →
    peerId ∈ (peerTable.run [] (before ++ soFar)).map DiscoveredPeer.peerId

/-- What holds of the peers at the end of a run. -/
structure PeersKept (reports : List Report) : Prop where
  table : IsPeerTable (peerTable.run [] reports)
  last_seen : ∀ peer ∈ peerTable.run [] reports,
    ∃ last, lastReport? reports peer.peerId = some last ∧
      peer.lastSeenSecs = last.now ∧ peer.source = last.source
  addresses : ∀ before report after, reports = before ++ report :: after →
    StaysFrom report.peerId (before ++ [report]) after →
    ∀ peer ∈ peerTable.run [] reports, peer.peerId = report.peerId →
      report.addresses ⊆ peer.addresses
  evicted : ∀ before report, reports = before ++ [report] →
    ∀ peerId last, lastReport? reports peerId = some last →
    (peerId ∈ (peerTable.run [] before).map DiscoveredPeer.peerId ∨
      peerId = report.peerId) →
    peerId ∉ (peerTable.run [] reports).map DiscoveredPeer.peerId →
    ∀ kept ∈ peerTable.run [] reports, last.now ≤ kept.lastSeenSecs

/-- The addresses of a report are listed as long as its peer stays in the table. -/
theorem addresses_subset_of_staysFrom {before : List Report} {report : Report}
    {after : List Report} (hstays : StaysFrom report.peerId (before ++ [report]) after) :
    ∀ peer ∈ peerTable.run [] (before ++ [report] ++ after),
      peer.peerId = report.peerId → report.addresses ⊆ peer.addresses := by
  induction after using List.reverseRecOn with
  | nil =>
      intro peer hmem hid
      rw [List.append_nil, run_concat] at hmem
      obtain ⟨-, hne⟩ | ⟨-, -, -, hlisted, -⟩ := mem_enterReport
        (isPeerTable_run before).nodup_peerId (mem_enterReport_of_mem_merge hmem)
      · exact absurd hid hne
      · exact hlisted
  | append_singleton after next ih =>
      intro peer hmem hid
      have hearlier := ih fun soFar hbegins =>
        hstays soFar (hbegins.trans (List.prefix_append _ _))
      obtain ⟨old, hold, hsame⟩ := List.mem_map.mp
        (hstays after (List.prefix_append _ _))
      rw [← List.append_assoc, run_concat] at hmem
      obtain ⟨hmem, -⟩ | ⟨hnext, -, -, -, hlisted⟩ := mem_enterReport
        (isPeerTable_run _).nodup_peerId (mem_enterReport_of_mem_merge hmem)
      · exact hearlier peer hmem hid
      · exact List.Subset.trans (hearlier old hold hsame)
          (hlisted old hold (hsame.trans (hid.symm.trans hnext)))

/-- However the reports come, and whatever the clock says. -/
theorem peersKept (reports : List Report) : PeersKept reports where
  table := isPeerTable_run reports
  last_seen := lastReport_of_mem_run reports
  addresses := by
    rintro before report after rfl hstays
    rw [List.append_cons]
    exact addresses_subset_of_staysFrom hstays
  evicted := by
    rintro before report rfl peerId last hlast hpeer hgone kept hkept
    obtain ⟨peer, hentered, rfl⟩ := exists_mem_enterReport hpeer
    obtain ⟨other, hother, hnow, -⟩ := entered_lastReport
      (isPeerTable_run before).nodup_peerId (lastReport_of_mem_run before) peer hentered
    rw [hlast, Option.some.injEq] at hother
    rw [run_concat] at hgone hkept
    rw [hother, ← hnow]
    exact lastSeenSecs_le_of_evicted hentered
      (fun hmem => hgone (List.mem_map_of_mem hmem)) hkept

end Runs

end P2p

end Gnostr
