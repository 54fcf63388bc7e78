/-
What a finalized batch contains: the frames of the packet tree, numbered in
order.  The numbering is 32 bits wide, so it is faithful exactly for payloads
whose tree has at most `2 ^ 31` leaves; the parity frames outgrow the transport
ceiling as soon as the payload is longer than two of its packets.
-/
import Gnostr.PerfectIp.Tree

namespace Gnostr

namespace PerfectIp

/-- What of a packet is not numbering. -/
def ProtocolSlice.content (packet : ProtocolSlice) : String × Bytes × Bool :=
  (packet.id, packet.data, packet.isParity)

def Frame.content (root : String) (frame : Frame) : String × Bytes × Bool :=
  (renderId root frame.address, frame.data, frame.isParity)

/-- The packet carries the frame: its id, bytes and kind are the frame's. -/
structure ProtocolSlice.Carries (packet : ProtocolSlice) (root : String)
    (frame : Frame) : Prop where
  id_eq : packet.id = renderId root frame.address
  data_eq : packet.data = frame.data
  kind_eq : packet.isParity = frame.isParity

theorem carries_of_content_eq {packet : ProtocolSlice} {root : String}
    {frame : Frame} (hcontent : packet.content = frame.content root) :
    packet.Carries root frame := by
  simp only [ProtocolSlice.content, Frame.content, Prod.mk.injEq] at hcontent
  exact ⟨hcontent.1, hcontent.2.1, hcontent.2.2⟩

theorem getElem?_numberFrames (root : String) (seq : UInt32)
    (frames : List Frame) (i : ℕ) :
    (numberFrames root seq frames)[i]? =
      frames[i]?.map (Frame.slice root (seq + UInt32.ofNat i)) := by
  induction frames generalizing seq i with
  | nil => rfl
  | cons frame frames ih =>
      cases i with
      | zero => simp [numberFrames]
      | succ i =>
          rw [numberFrames, List.getElem?_cons_succ, List.getElem?_cons_succ, ih,
            Nat.add_comm i 1, UInt32.ofNat_add, UInt32.add_assoc]
          rfl

@[simp] theorem length_numberFrames (root : String) (seq : UInt32)
    (frames : List Frame) :
    (numberFrames root seq frames).length = frames.length := by
  induction frames generalizing seq with
  | nil => rfl
  | cons frame frames ih => exact congrArg (· + 1) (ih (seq + 1))

@[simp] theorem length_packets (id : String) (data : Bytes) :
    (packetize id data).packets.length = (splitTree data).frames.length := by
  simp [packetize, processSlice_eq_numberFrames]

theorem totalPackets_packetize (id : String) (data : Bytes) :
    (packetize id data).totalPackets =
      UInt32.ofNat (splitTree data).frames.length := by
  simp [packetize, processSlice_eq_numberFrames]

/-- Packet `i` of the batch is frame `i` of the tree, with its number. -/
theorem getElem?_packets (id : String) (data : Bytes) (i : ℕ) :
    (packetize id data).packets[i]? =
      (splitTree data).frames[i]?.map fun frame =>
        ⟨renderId id frame.address,
          ⟨UInt32.ofNat i, UInt32.ofNat (splitTree data).frames.length⟩,
          frame.data, frame.isParity⟩ := by
  simp only [packetize, processSlice_eq_numberFrames, List.getElem?_map,
    getElem?_numberFrames, length_numberFrames, Option.map_map,
    UInt32.zero_add]
  rfl

theorem map_content_packets (id : String) (data : Bytes) :
    (packetize id data).packets.map ProtocolSlice.content =
      (splitTree data).frames.map (Frame.content id) := by
  apply List.ext_getElem?
  intro i
  rw [List.getElem?_map, getElem?_packets, List.getElem?_map, Option.map_map]
  rfl

theorem exists_frame_of_mem_packets {id : String} {data : Bytes}
    {packet : ProtocolSlice} (hpacket : packet ∈ (packetize id data).packets) :
    ∃ frame ∈ (splitTree data).frames, packet.Carries id frame := by
  have hmem := List.mem_map_of_mem (f := ProtocolSlice.content) hpacket
  rw [map_content_packets] at hmem
  obtain ⟨frame, hframe, heq⟩ := List.mem_map.mp hmem
  exact ⟨frame, hframe, carries_of_content_eq heq.symm⟩

theorem exists_packet_of_mem_frames (id : String) {data : Bytes} {frame : Frame}
    (hframe : frame ∈ (splitTree data).frames) :
    ∃ packet ∈ (packetize id data).packets, packet.Carries id frame := by
  have hmem := List.mem_map_of_mem (f := Frame.content id) hframe
  rw [← map_content_packets] at hmem
  obtain ⟨packet, hpacket, heq⟩ := List.mem_map.mp hmem
  exact ⟨packet, hpacket, carries_of_content_eq heq⟩

/-- The ids of the batch are the manifest. -/
theorem map_id_packets (id : String) (data : Bytes) :
    (packetize id data).packets.map ProtocolSlice.id =
      generateManifest id data.length := by
  have hcontent := congrArg (List.map Prod.fst) (map_content_packets id data)
  rw [List.map_map, List.map_map] at hcontent
  rw [generateManifest_eq_map_frames]
  exact hcontent

theorem map_id_packets_nodup (id : String) (data : Bytes) :
    ((packetize id data).packets.map ProtocolSlice.id).Nodup := by
  have hnodup := (splitTree data).addresses_nodup.map
    (fun _ _ hid => renderId_injective id hid)
  rw [List.map_map] at hnodup
  rw [map_id_packets, generateManifest_eq_map_frames]
  exact hnodup

/-- Within a batch an id names one packet. -/
theorem packet_eq_of_id_eq {id : String} {data : Bytes}
    {first second : ProtocolSlice}
    (hfirst : first ∈ (packetize id data).packets)
    (hsecond : second ∈ (packetize id data).packets)
    (hid : first.id = second.id) : first = second :=
  List.inj_on_of_nodup_map (map_id_packets_nodup id data) hfirst hsecond hid

/-- A packet of the batch is the frame its id addresses. -/
theorem packet_eq_frame {id : String} {data : Bytes} {packet : ProtocolSlice}
    (hpacket : packet ∈ (packetize id data).packets) {frame : Frame}
    (hframe : frame ∈ (splitTree data).frames)
    (hid : packet.id = renderId id frame.address) :
    packet.data = frame.data ∧ packet.isParity = frame.isParity := by
  obtain ⟨other, hother, hcarries⟩ := exists_frame_of_mem_packets hpacket
  have haddress := renderId_injective id (hcarries.id_eq.symm.trans hid)
  rw [← PacketTree.frame_eq_of_address_eq hother hframe haddress]
  exact ⟨hcarries.data_eq, hcarries.kind_eq⟩

/-- A parity packet belongs to a node of the tree. -/
theorem exists_path_of_parity {id : String} {data : Bytes}
    {packet : ProtocolSlice} (hpacket : packet ∈ (packetize id data).packets)
    (hparity : packet.isParity = true) :
    ∃ path, packet.id = nodeId id path .parity := by
  obtain ⟨frame, hframe, hcarries⟩ := exists_frame_of_mem_packets hpacket
  obtain ⟨path, sub, _, rfl⟩ :=
    ((splitTree data).mem_frames_iff frame).mp hframe
  cases sub with
  | leaf bytes =>
      rw [hcarries.kind_eq] at hparity
      cases hparity
  | node left right => exact ⟨path, hcarries.id_eq⟩

/-- Leaves stay within the leaf budget. -/
theorem length_data_le_of_leaf (data : Bytes) :
    ∀ frame ∈ (splitTree data).frames, frame.isParity = false →
      frame.data.length ≤ maxLeafPayload := by
  induction data using split_induction with
  | leaf data hle =>
      rw [splitTree_of_le hle]
      intro frame hframe _
      rw [PacketTree.frames, List.mem_singleton] at hframe
      subst hframe
      exact hle
  | node data hlt ihLeft ihRight =>
      rw [splitTree_of_lt hlt]
      intro frame hframe hparity
      simp only [PacketTree.frames, List.mem_append, List.mem_map,
        List.mem_singleton] at hframe
      rcases hframe with (⟨inner, hinner, rfl⟩ | ⟨inner, hinner, rfl⟩) | rfl
      · exact ihLeft inner hinner hparity
      · exact ihRight inner hinner hparity
      · simp [PacketTree.frameAt] at hparity

theorem flatMap_data_packets (id : String) (data : Bytes) :
    ((packetize id data).packets.filter fun packet =>
      !packet.isParity).flatMap ProtocolSlice.data = data := by
  have hcontent := congrArg
    (fun contents => (contents.filter fun content : String × Bytes × Bool =>
      !content.2.2).flatMap fun content => content.2.1)
    (map_content_packets id data)
  simp only [List.filter_map, List.flatMap_map] at hcontent
  have hframes := (splitTree data).flatMap_data_frames
  rw [payload_splitTree] at hframes
  exact hcontent.trans hframes

/-- A payload of at most `2 ^ k` leaf budgets needs at most `2 ^ k` leaves. -/
theorem leafCount_splitTree_le {data : Bytes} {k : ℕ}
    (hle : data.length ≤ maxLeafPayload * 2 ^ k) :
    (splitTree data).leafCount ≤ 2 ^ k := by
  induction k generalizing data with
  | zero =>
      rw [pow_zero, Nat.mul_one] at hle
      rw [splitTree_of_le hle]
      exact le_rfl
  | succ k ih =>
      by_cases hleaf : data.length ≤ maxLeafPayload
      · rw [splitTree_of_le hleaf]
        exact Nat.one_le_two_pow
      · rw [splitTree_of_lt (Nat.lt_of_not_le hleaf), PacketTree.leafCount]
        rw [pow_succ, ← Nat.mul_assoc] at hle
        have hleft : (data.take (data.length / 2)).length ≤
            maxLeafPayload * 2 ^ k := by
          rw [List.length_take]
          omega
        have hright : (data.drop (data.length / 2)).length ≤
            maxLeafPayload * 2 ^ k := by
          rw [List.length_drop]
          omega
        have hleftCount := ih hleft
        have hrightCount := ih hright
        rw [pow_succ]
        omega

theorem length_le_leafCount_splitTree (data : Bytes) :
    data.length ≤ maxLeafPayload * (splitTree data).leafCount := by
  induction data using split_induction with
  | leaf data hle =>
      rw [splitTree_of_le hle, PacketTree.leafCount, Nat.mul_one]
      exact hle
  | node data hlt ihLeft ihRight =>
      rw [splitTree_of_lt hlt, PacketTree.leafCount, Nat.mul_add]
      rw [List.length_take] at ihLeft
      rw [List.length_drop] at ihRight
      omega

/-- The packets of a payload can be counted in 32 bits exactly when it fits
into `2 ^ 31` leaves. -/
theorem length_frames_lt_iff (data : Bytes) :
    (splitTree data).frames.length < 2 ^ 32 ↔
      data.length ≤ maxLeafPayload * 2 ^ 31 := by
  have hframes := (splitTree data).length_frames_add_one
  constructor
  · intro hlt
    have hcount : (splitTree data).leafCount ≤ 2 ^ 31 := by omega
    exact (length_le_leafCount_splitTree data).trans
      (Nat.mul_le_mul_left _ hcount)
  · intro hle
    have hcount := leafCount_splitTree_le hle
    omega

theorem toNat_totalPackets_iff (id : String) (data : Bytes) :
    (packetize id data).totalPackets.toNat =
        (packetize id data).packets.length ↔
      data.length ≤ maxLeafPayload * 2 ^ 31 := by
  rw [← length_frames_lt_iff, totalPackets_packetize, length_packets,
    UInt32.toNat_ofNat']
  exact ⟨fun heq => heq ▸ Nat.mod_lt _ (by decide), Nat.mod_eq_of_lt⟩

/-- A batch agrees with the manifest of its payload, packet by packet. -/
structure BatchMatchesManifest (id : String) (data : Bytes) : Prop where
  ids_eq : (packetize id data).packets.map ProtocolSlice.id =
    generateManifest id data.length
  ids_nodup : ((packetize id data).packets.map ProtocolSlice.id).Nodup
  numbered : ∀ (i : ℕ) (packet : ProtocolSlice),
    (packetize id data).packets[i]? = some packet →
    packet.header.seqNum.toNat = i ∧
      packet.header.totalPackets.toNat = (packetize id data).packets.length
  total_eq : (packetize id data).totalPackets.toNat =
    (packetize id data).packets.length
  leaf_le : ∀ packet ∈ (packetize id data).packets,
    packet.isParity = false → packet.data.length ≤ maxLeafPayload
  data_eq : ((packetize id data).packets.filter fun packet =>
    !packet.isParity).flatMap ProtocolSlice.data = data

/-- The batch agrees with the manifest exactly as long as its 32-bit counters
do not wrap around. -/
theorem batchMatchesManifest_iff (id : String) (data : Bytes) :
    BatchMatchesManifest id data ↔ data.length ≤ maxLeafPayload * 2 ^ 31 := by
  constructor
  · intro hbatch
    exact (toNat_totalPackets_iff id data).mp hbatch.total_eq
  · intro hle
    have htotal := (toNat_totalPackets_iff id data).mpr hle
    have hcount := (length_frames_lt_iff data).mpr hle
    refine ⟨map_id_packets id data, map_id_packets_nodup id data, ?_, htotal,
      ?_, flatMap_data_packets id data⟩
    · intro i packet hpacket
      have hi : i < (packetize id data).packets.length :=
        (List.getElem?_eq_some_iff.mp hpacket).1
      rw [length_packets] at hi
      rw [getElem?_packets] at hpacket
      obtain ⟨frame, _, rfl⟩ := Option.map_eq_some_iff.mp hpacket
      rw [length_packets]
      exact ⟨UInt32.toNat_ofNat_of_lt' (hi.trans hcount),
        UInt32.toNat_ofNat_of_lt' hcount⟩
    · intro packet hpacket hparity
      obtain ⟨frame, hframe, hcarries⟩ := exists_frame_of_mem_packets hpacket
      rw [hcarries.data_eq]
      exact length_data_le_of_leaf data frame hframe
        (hcarries.kind_eq.symm.trans hparity)

/-- One byte more than `2 ^ 31` leaves hold, and the batch miscounts itself. -/
theorem batch_miscounts_long_payload :
    (packetize "ROOT"
      (List.replicate (maxLeafPayload * 2 ^ 31 + 1) 0)).totalPackets.toNat ≠
      (packetize "ROOT"
        (List.replicate (maxLeafPayload * 2 ^ 31 + 1) 0)).packets.length ∧
    ¬ BatchMatchesManifest "ROOT"
      (List.replicate (maxLeafPayload * 2 ^ 31 + 1) 0) := by
  have hne : (packetize "ROOT"
      (List.replicate (maxLeafPayload * 2 ^ 31 + 1) 0)).totalPackets.toNat ≠
      (packetize "ROOT"
        (List.replicate (maxLeafPayload * 2 ^ 31 + 1) 0)).packets.length := by
    rw [ne_eq, toNat_totalPackets_iff, List.length_replicate]
    exact Nat.not_succ_le_self _
  exact ⟨hne, fun hbatch => hne hbatch.total_eq⟩

/-- No frame is longer than a leaf or than the longer half of the payload. -/
theorem length_data_le (data : Bytes) :
    ∀ frame ∈ (splitTree data).frames, frame.data.length ≤
      max maxLeafPayload (data.length - data.length / 2) := by
  induction data using split_induction with
  | leaf data hle =>
      rw [splitTree_of_le hle]
      intro frame hframe
      rw [PacketTree.frames, List.mem_singleton] at hframe
      subst hframe
      exact hle.trans (Nat.le_max_left _ _)
  | node data hlt ihLeft ihRight =>
      rw [splitTree_of_lt hlt]
      intro frame hframe
      simp only [PacketTree.frames, List.mem_append, List.mem_map,
        List.mem_singleton] at hframe
      rcases hframe with (⟨inner, hinner, rfl⟩ | ⟨inner, hinner, rfl⟩) | rfl
      · have hinnerLe := ihLeft inner hinner
        rw [List.length_take] at hinnerLe
        simp only [Frame.under]
        omega
      · have hinnerLe := ihRight inner hinner
        rw [List.length_drop] at hinnerLe
        simp only [Frame.under]
        omega
      · simp only [PacketTree.frameAt, length_calculateParity,
          payload_splitTree, List.length_take, List.length_drop]
        omega

/-- A payload longer than a leaf has a parity packet for all of it, as long as
the longer of its halves. -/
theorem exists_root_parity (id : String) {data : Bytes}
    (hlt : maxLeafPayload < data.length) :
    ∃ packet ∈ (packetize id data).packets, packet.id = id ++ ".P" ∧
      packet.isParity = true ∧
      packet.data.length = data.length - data.length / 2 := by
  have hroot : (splitTree data).frameAt [] ∈ (splitTree data).frames :=
    PacketTree.frameAt_mem_frames (splitTree data).subtree_nil
  obtain ⟨packet, hpacket, hcarries⟩ := exists_packet_of_mem_frames id hroot
  rw [splitTree_of_lt hlt] at hcarries
  refine ⟨packet, hpacket, hcarries.id_eq, hcarries.kind_eq, ?_⟩
  rw [hcarries.data_eq, PacketTree.frameAt, length_calculateParity,
    payload_splitTree, payload_splitTree, List.length_take, List.length_drop]
  omega

/-- Every packet respects the transport ceiling exactly when the payload is at
most two ceilings long: the parity of the root is half the payload. -/
theorem packets_le_mtuPayload_iff (id : String) (data : Bytes) :
    (∀ packet ∈ (packetize id data).packets,
      packet.data.length ≤ mtuPayload) ↔ data.length ≤ 2 * mtuPayload := by
  constructor
  · intro hall
    by_cases hlt : maxLeafPayload < data.length
    · obtain ⟨packet, hpacket, _, _, hlength⟩ := exists_root_parity id hlt
      have hle := hall packet hpacket
      omega
    · rw [maxLeafPayload_eq] at hlt
      rw [mtuPayload]
      omega
  · intro hle packet hpacket
    obtain ⟨frame, hframe, hcarries⟩ := exists_frame_of_mem_packets hpacket
    have hframeLe := length_data_le data frame hframe
    rw [maxLeafPayload_eq] at hframeLe
    rw [hcarries.data_eq]
    rw [mtuPayload] at hle ⊢
    omega

/-- A payload of four kilobytes gets a parity packet of two. -/
theorem root_parity_exceeds_mtuPayload :
    ∃ packet ∈ (packetize "ROOT" (List.replicate 4000 0)).packets,
      packet.id = "ROOT.P" ∧ packet.data.length = 2000 ∧
        mtuPayload < packet.data.length := by
  have hlt : maxLeafPayload < (List.replicate 4000 (0 : UInt8)).length := by
    rw [List.length_replicate]
    decide
  obtain ⟨packet, hpacket, hid, _, hlength⟩ :=
    exists_root_parity "ROOT" hlt
  rw [List.length_replicate] at hlength
  refine ⟨packet, hpacket, hid, hlength, ?_⟩
  rw [hlength]
  decide

end PerfectIp

end Gnostr
