/-
Repair of a single loss.  At every inner node the parity packet gives back
either half from the other one, so a batch that lost one data packet still
determines its payload; only a batch of one packet has nothing to repair from.
-/
import Gnostr.PerfectIp.Batch
import Mathlib.Data.List.MinMax

namespace Gnostr

namespace PerfectIp

open PacketTree

/-- The payload of a node from its two halves, or from one half and the parity
of the two. -/
def joinHalves (leftLen rightLen : ℕ) (parity : Option Bytes) :
    Option Bytes → Option Bytes → Option Bytes
  | some left, some right => some (left ++ right)
  | some left, none =>
      parity.map fun parity => left ++ recoverMissingData rightLen left parity
  | none, some right =>
      parity.map fun parity => recoverMissingData leftLen right parity ++ right
  | none, none => none

/-- Rebuild the payload below a node from whatever packets can be found. -/
def rebuild (find : String → Option Bytes) (id : String) (len : ℕ) :
    Option Bytes :=
  if len ≤ maxLeafPayload then find id
  else
    let half := len / 2
    joinHalves half (len - half) (find (id ++ ".P"))
      (rebuild find (id ++ ".0") half)
      (rebuild find (id ++ ".1") (len - half))
termination_by len
decreasing_by all_goals (rw [maxLeafPayload_eq] at *; omega)

def findData (packets : List ProtocolSlice) (id : String) : Option Bytes :=
  (packets.find? fun packet => packet.id == id).map ProtocolSlice.data

/-- The id of the root, read off the shortest id of a parity packet. -/
def rootId (packets : List ProtocolSlice) : Option String :=
  ((packets.filter fun packet => packet.isParity).argmin fun packet =>
    packet.id.length).bind fun packet => stripSuffix packet.id ".P"

/-- Rebuild a payload from the packets at hand and its length. -/
def rebuildPayload (packets : List ProtocolSlice) (len : ℕ) : Option Bytes :=
  if len = 0 then some []
  else (rootId packets).bind fun id => rebuild (findData packets) id len

theorem joinHalves_lost_right (left right : Bytes) :
    joinHalves left.length right.length (some (calculateParity left right))
      (some left) none = some (left ++ right) := by
  rw [joinHalves, Option.map_some, recoverMissingData_left]

theorem joinHalves_lost_left (left right : Bytes) :
    joinHalves left.length right.length (some (calculateParity left right))
      none (some right) = some (left ++ right) := by
  rw [joinHalves, Option.map_some, recoverMissingData_right]

theorem Frame.under_injective (label : Label) :
    Function.Injective (Frame.under label) := by
  rintro ⟨firstAddress, firstData, firstKind⟩
    ⟨secondAddress, secondData, secondKind⟩ hframe
  simpa [Frame.under] using hframe

/-- What can be found of the frames of a tree: nothing false, and at most one
frame is missing. -/
structure FindsAllButOne (find : String → Option Bytes) (root : String)
    (tree : PacketTree) : Prop where
  sound : ∀ frame ∈ tree.frames, ∀ bytes,
    find (renderId root frame.address) = some bytes → bytes = frame.data
  unique : ∀ first ∈ tree.frames, ∀ second ∈ tree.frames,
    find (renderId root first.address) = none →
    find (renderId root second.address) = none → first = second

theorem FindsAllButOne.child {find : String → Option Bytes} {root : String}
    {tree child : PacketTree} (hfinds : FindsAllButOne find root tree)
    (label : Label)
    (hchild : ∀ frame ∈ child.frames, frame.under label ∈ tree.frames) :
    FindsAllButOne find (root ++ label.text) child where
  sound frame hframe bytes hbytes :=
    hfinds.sound (frame.under label) (hchild frame hframe) bytes hbytes
  unique first hfirst second hsecond hfirstNone hsecondNone :=
    Frame.under_injective label (hfinds.unique _ (hchild first hfirst) _
      (hchild second hsecond) hfirstNone hsecondNone)

theorem under_zero_mem_frames {left right : PacketTree} {frame : Frame}
    (hframe : frame ∈ left.frames) :
    frame.under .zero ∈ (node left right).frames := by
  simp only [frames, List.mem_append, List.mem_map]
  exact Or.inl (Or.inl ⟨frame, hframe, rfl⟩)

theorem under_one_mem_frames {left right : PacketTree} {frame : Frame}
    (hframe : frame ∈ right.frames) :
    frame.under .one ∈ (node left right).frames := by
  simp only [frames, List.mem_append, List.mem_map]
  exact Or.inl (Or.inr ⟨frame, hframe, rfl⟩)

/-- When a data packet below a node is missing, its parity is at hand. -/
theorem FindsAllButOne.find_parity {find : String → Option Bytes}
    {root : String} {left right : PacketTree}
    (hfinds : FindsAllButOne find root (node left right)) {lost : Frame}
    (hlost : lost ∈ (node left right).frames)
    (hnone : find (renderId root lost.address) = none)
    (hdata : lost.isParity = false) :
    find (root ++ ".P") =
      some (calculateParity left.payload right.payload) := by
  have hparity : frameAt [] (node left right) ∈ (node left right).frames :=
    frameAt_mem_frames (subtree_nil _)
  cases hfind : find (root ++ ".P") with
  | none =>
      have hsame := hfinds.unique _ hparity _ hlost hfind hnone
      rw [← hsame] at hdata
      cases hdata
  | some bytes => exact congrArg some (hfinds.sound _ hparity bytes hfind)

theorem rebuild_of_le (find : String → Option Bytes) (id : String) {len : ℕ}
    (hle : len ≤ maxLeafPayload) : rebuild find id len = find id := by
  rw [rebuild, if_pos hle]

theorem rebuild_of_lt (find : String → Option Bytes) (id : String)
    {data : Bytes} (hlt : maxLeafPayload < data.length) :
    rebuild find id data.length =
      joinHalves (data.take (data.length / 2)).length
        (data.drop (data.length / 2)).length (find (id ++ ".P"))
        (rebuild find (id ++ ".0") (data.take (data.length / 2)).length)
        (rebuild find (id ++ ".1") (data.drop (data.length / 2)).length) := by
  rw [List.length_take, Nat.min_eq_left (Nat.div_le_self _ _),
    List.length_drop, rebuild, if_neg (Nat.not_le.mpr hlt)]

/-- Below a node everything is rebuilt, unless the node is a leaf and is
itself the missing packet. -/
theorem rebuild_eq_some_or_lost {find : String → Option Bytes} {id : String}
    {data : Bytes} (hfinds : FindsAllButOne find id (splitTree data)) :
    rebuild find id data.length = some data ∨
      rebuild find id data.length = none ∧ find id = none ∧
        frameAt [] (leaf data) ∈ (splitTree data).frames := by
  induction data using split_induction generalizing id with
  | leaf data hle =>
      rw [splitTree_of_le hle] at hfinds ⊢
      rw [rebuild_of_le find id hle]
      have hframe : frameAt [] (leaf data) ∈ (leaf data).frames :=
        List.mem_cons_self
      cases hfind : find id with
      | none => exact Or.inr ⟨rfl, rfl, hframe⟩
      | some bytes =>
          exact Or.inl (congrArg some (hfinds.sound _ hframe bytes hfind))
  | node data hlt ihLeft ihRight =>
      left
      rw [splitTree_of_lt hlt] at hfinds
      have hleft := @ihLeft (id ++ ".0")
        (hfinds.child .zero fun _ => under_zero_mem_frames)
      have hright := @ihRight (id ++ ".1")
        (hfinds.child .one fun _ => under_one_mem_frames)
      have hjoin := List.take_append_drop (data.length / 2) data
      rw [rebuild_of_lt find id hlt]
      rcases hleft with hleft | ⟨hleft, hnone, hframe⟩
      · rcases hright with hright | ⟨hright, hnone, hframe⟩
        · rw [hleft, hright, joinHalves, hjoin]
        · -- the lost packet is the right child, so the parity is at hand
          have hparity :=
            hfinds.find_parity (under_one_mem_frames hframe) hnone rfl
          rw [payload_splitTree, payload_splitTree] at hparity
          rw [hleft, hright, hparity, joinHalves_lost_right, hjoin]
      · have hparity :=
          hfinds.find_parity (under_zero_mem_frames hframe) hnone rfl
        rw [payload_splitTree, payload_splitTree] at hparity
        rcases hright with hright | ⟨_, hother, hotherFrame⟩
        · rw [hleft, hright, hparity, joinHalves_lost_left, hjoin]
        · -- both children would be lost
          have hsame := hfinds.unique _ (under_zero_mem_frames hframe) _
            (under_one_mem_frames hotherFrame) hnone hother
          simp [Frame.under] at hsame

section SingleLoss

variable {id : String} {data : Bytes} {lost : ProtocolSlice}
  {remaining : List ProtocolSlice}
  (hremaining : remaining.Perm ((packetize id data).packets.erase lost))

include hremaining

theorem mem_remaining_iff (packet : ProtocolSlice) :
    packet ∈ remaining ↔
      packet ≠ lost ∧ packet ∈ (packetize id data).packets := by
  rw [hremaining.mem_iff]
  exact (List.Nodup.of_map _ (map_id_packets_nodup id data)).mem_erase_iff

/-- Looking packets up by id finds all frames of the tree but the lost one. -/
theorem findsAllButOne_findData :
    FindsAllButOne (findData remaining) id (splitTree data) where
  sound frame hframe bytes hbytes := by
    obtain ⟨packet, hfind, rfl⟩ := Option.map_eq_some_iff.mp hbytes
    have hid := List.find?_some hfind
    have hpacket := List.mem_of_find?_eq_some hfind
    rw [mem_remaining_iff hremaining] at hpacket
    exact (packet_eq_frame hpacket.2 hframe (eq_of_beq hid)).1
  unique first hfirst second hsecond hfirstNone hsecondNone := by
    have hlost : ∀ frame ∈ (splitTree data).frames,
        findData remaining (renderId id frame.address) = none →
        lost.id = renderId id frame.address := by
      intro frame hframe hnone
      obtain ⟨packet, hpacket, hcarries⟩ := exists_packet_of_mem_frames id hframe
      have hid := hcarries.id_eq
      by_contra hne
      have hmem : packet ∈ remaining := by
        rw [mem_remaining_iff hremaining]
        refine ⟨?_, hpacket⟩
        rintro rfl
        exact hne hid
      have hmiss := List.find?_eq_none.mp (Option.map_eq_none_iff.mp hnone)
      exact hmiss packet hmem (beq_iff_eq.mpr hid)
    have haddress := renderId_injective id
      ((hlost first hfirst hfirstNone).symm.trans
        (hlost second hsecond hsecondNone))
    exact frame_eq_of_address_eq hfirst hsecond haddress

/-- The shortest parity id belongs to the root. -/
theorem rootId_eq_some (hlt : maxLeafPayload < data.length)
    (hdata : lost.isParity = false) : rootId remaining = some id := by
  obtain ⟨root, hroot, hrootId, hrootKind, _⟩ := exists_root_parity id hlt
  have hrootMem : root ∈ remaining.filter fun packet => packet.isParity := by
    rw [List.mem_filter, mem_remaining_iff hremaining]
    refine ⟨⟨?_, hroot⟩, hrootKind⟩
    rintro rfl
    rw [hrootKind] at hdata
    cases hdata
  rw [rootId]
  cases hshortest : (remaining.filter fun packet => packet.isParity).argmin
      fun packet => packet.id.length with
  | none =>
      rw [List.argmin_eq_none.mp hshortest] at hrootMem
      cases hrootMem
  | some shortest =>
      have hle := List.le_of_mem_argmin hrootMem hshortest
      have hmem := List.argmin_mem hshortest
      rw [List.mem_filter, mem_remaining_iff hremaining] at hmem
      obtain ⟨path, hpath⟩ := exists_path_of_parity hmem.1.2 hmem.2
      rw [hpath, hrootId, nodeId, length_renderId, List.length_append,
        List.length_map, String.length_append] at hle
      have htwo : ".P".length = 2 := rfl
      have hnil : path = [] := List.eq_nil_of_length_eq_zero (by
        rw [List.length_singleton, htwo] at hle
        omega)
      rw [Option.bind_some, hpath, hnil]
      exact stripSuffix_append id ".P"

/-- One lost data packet does not lose the payload. -/
theorem rebuildPayload_eq_some
    (hlength : data = [] ∨ maxLeafPayload < data.length)
    (hdata : lost.isParity = false) :
    rebuildPayload remaining data.length = some data := by
  rcases hlength with rfl | hlt
  · rfl
  · have hne : data.length ≠ 0 := by omega
    rw [rebuildPayload, if_neg hne, rootId_eq_some hremaining hlt hdata,
      Option.bind_some]
    rcases rebuild_eq_some_or_lost (findsAllButOne_findData hremaining) with
      hsome | ⟨_, _, hleaf⟩
    · exact hsome
    · exact absurd (length_data_le_of_leaf data _ hleaf rfl)
        (Nat.not_le.mpr hlt)

end SingleLoss

/-- The parity packet of an inner node gives back either half of the node's
payload from the other half. -/
theorem exists_parity_packet (id : String) {data : Bytes} {path : List Branch}
    {left right : PacketTree}
    (hsub : (splitTree data).subtree path = some (node left right)) :
    ∃ parity ∈ (packetize id data).packets,
      parity.id = nodeId id path .parity ∧ parity.isParity = true ∧
      recoverMissingData left.payload.length right.payload parity.data =
        left.payload ∧
      recoverMissingData right.payload.length left.payload parity.data =
        right.payload := by
  obtain ⟨parity, hparity, hid, hdata, hkind⟩ :=
    exists_packet_of_mem_frames id (frameAt_mem_frames hsub)
  refine ⟨parity, hparity, hid, hkind, ?_, ?_⟩
  · rw [hdata, frameAt, recoverMissingData_right]
  · rw [hdata, frameAt, recoverMissingData_left]

theorem totalPackets_of_mem_packets {id : String} {data : Bytes}
    {packet : ProtocolSlice} (hpacket : packet ∈ (packetize id data).packets) :
    packet.header.totalPackets = (packetize id data).totalPackets := by
  obtain ⟨_, _, rfl⟩ := List.mem_map.mp hpacket
  rfl

/-- A leaf packet repaired from its sibling and their parity is the lost packet
but for the sequence number, which is the next one. -/
theorem recoverMissingSlice_eq {id : String} {data : Bytes}
    {lost sibling parity : ProtocolSlice}
    (hlost : lost ∈ (packetize id data).packets)
    (hsibling : sibling ∈ (packetize id data).packets)
    (hparity : parity ∈ (packetize id data).packets)
    (hleaf : lost.isParity = false)
    (hdata : recoverMissingData lost.data.length sibling.data parity.data =
      lost.data) (seq : UInt32) :
    recoverMissingSlice lost.id lost.data.length sibling parity seq =
      ({ lost with header := { lost.header with seqNum := seq } }, seq + 1) := by
  have hmax : max lost.header.totalPackets lost.header.totalPackets =
      lost.header.totalPackets := ite_self _
  rw [recoverMissingSlice, totalPackets_of_mem_packets hsibling,
    totalPackets_of_mem_packets hparity,
    ← totalPackets_of_mem_packets hlost, hmax, hdata, ← hleaf]

/-- Either leaf under a lowest parity is repaired by `recoverMissingSlice`. -/
theorem recoverMissingSlice_of_leaves {id : String} {data : Bytes}
    {path : List Branch} {l r : Bytes}
    (hsub : (splitTree data).subtree path = some (node (leaf l) (leaf r)))
    {left right parity : ProtocolSlice}
    (hleft : left ∈ (packetize id data).packets)
    (hright : right ∈ (packetize id data).packets)
    (hparity : parity ∈ (packetize id data).packets)
    (hleftId : left.id = nodeId id path .zero)
    (hrightId : right.id = nodeId id path .one)
    (hparityId : parity.id = nodeId id path .parity) (seq : UInt32) :
    recoverMissingSlice left.id left.data.length right parity seq =
        ({ left with header := { left.header with seqNum := seq } },
          seq + 1) ∧
      recoverMissingSlice right.id right.data.length left parity seq =
        ({ right with header := { right.header with seqNum := seq } },
          seq + 1) := by
  obtain ⟨hzero, hone, hframe⟩ := mem_frames_of_leaves hsub
  obtain ⟨hleftData, hleftKind⟩ := packet_eq_frame hleft hzero hleftId
  obtain ⟨hrightData, hrightKind⟩ := packet_eq_frame hright hone hrightId
  obtain ⟨hparityData, _⟩ := packet_eq_frame hparity hframe hparityId
  constructor
  · apply recoverMissingSlice_eq hleft hright hparity hleftKind
    rw [hleftData, hrightData, hparityData, recoverMissingData_right]
  · apply recoverMissingSlice_eq hright hleft hparity hrightKind
    rw [hleftData, hrightData, hparityData, recoverMissingData_left]

/-- Every inner node repairs its halves from each other; and from whatever
remains of a batch after one data packet is lost, in whatever order, its
payload can be rebuilt, unless the lost packet was the whole batch. -/
theorem single_loss_repair (id : String) (data : Bytes) :
    (∀ path left right,
      (splitTree data).subtree path = some (node left right) →
      ∃ parity ∈ (packetize id data).packets,
        parity.id = nodeId id path .parity ∧ parity.isParity = true ∧
        recoverMissingData left.payload.length right.payload parity.data =
          left.payload ∧
        recoverMissingData right.payload.length left.payload parity.data =
          right.payload) ∧
    (data = [] ∨ maxLeafPayload < data.length →
      ∀ lost ∈ (packetize id data).packets, lost.isParity = false →
      ∀ remaining, remaining.Perm ((packetize id data).packets.erase lost) →
        rebuildPayload remaining data.length = some data) := by
  constructor
  · intro path left right hsub
    exact exists_parity_packet id hsub
  · intro hlength lost _ hdata remaining hremaining
    exact rebuildPayload_eq_some hremaining hlength hdata

/-- A packet of three lost and its payload rebuilt. -/
theorem single_loss_repair_three_packets :
    ∃ lost ∈ (packetize "ROOT" (List.replicate 1000 7)).packets,
      lost.id = "ROOT.0" ∧ lost.isParity = false ∧
      rebuildPayload
          ((packetize "ROOT" (List.replicate 1000 7)).packets.erase lost) 1000 =
        some (List.replicate 1000 7) := by
  have hlength : (List.replicate 1000 (7 : UInt8)).length = 1000 :=
    List.length_replicate
  have hlt : maxLeafPayload < (List.replicate 1000 (7 : UInt8)).length := by
    rw [hlength]
    decide
  obtain ⟨l, r, htree⟩ :=
    (splitTree_eq_leaves_iff (List.replicate 1000 7)).mpr
      ⟨hlt, by rw [hlength]; decide⟩
  have hsub : (splitTree (List.replicate 1000 7)).subtree [.left] =
      some (leaf l) := by
    rw [htree]
    rfl
  obtain ⟨lost, hlost, hcarries⟩ :=
    exists_packet_of_mem_frames "ROOT" (frameAt_mem_frames hsub)
  have hrebuilt := (single_loss_repair "ROOT" (List.replicate 1000 7)).2
    (Or.inr hlt) lost hlost hcarries.kind_eq _ (List.Perm.refl _)
  rw [hlength] at hrebuilt
  exact ⟨lost, hlost, hcarries.id_eq, hcarries.kind_eq, hrebuilt⟩

/-- A payload that fits into one packet is lost with it: what remains is the
same for every such payload. -/
theorem single_packet_not_repairable :
    ¬ ∃ rebuilt : List ProtocolSlice → ℕ → Option Bytes,
      ∀ id data, ∀ lost ∈ (packetize id data).packets, lost.isParity = false →
        rebuilt ((packetize id data).packets.erase lost) data.length =
          some data := by
  rintro ⟨rebuilt, hrebuilt⟩
  have hpackets : ∀ byte : UInt8, (packetize "ROOT" [byte]).packets =
      [⟨"ROOT", ⟨0, 1⟩, [byte], false⟩] := by
    intro byte
    rw [packetize, processSlice]
    rfl
  have hone : ∀ byte : UInt8, rebuilt [] 1 = some [byte] := by
    intro byte
    have hlost := hrebuilt "ROOT" [byte] ⟨"ROOT", ⟨0, 1⟩, [byte], false⟩
      (by rw [hpackets]; exact List.mem_cons_self) rfl
    rw [hpackets, List.erase_cons_head] at hlost
    exact hlost
  have hsame := (hone 0).symm.trans (hone 1)
  exact absurd hsame (by decide)

end PerfectIp

end Gnostr
