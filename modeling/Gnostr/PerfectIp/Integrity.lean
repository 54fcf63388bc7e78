/-
What verification says about the packets of one batch.  The ids a parity slice
looks up are those of its two children, and a child is received under its own
id exactly when it is a leaf; so only the lowest parity slices are ever
compared with anything.
-/
import Gnostr.PerfectIp.Batch
import Gnostr.PerfectIp.Manager

namespace Gnostr

namespace PerfectIp

open PacketTree

/-- Every received slice sits at the id of a frame of the tree and is of that
frame's kind, whatever its bytes are. -/
def Shaped (root : String) (tree : PacketTree) (received : SliceMap) : Prop :=
  ∀ id slice, received.lookup id = some slice → ∃ frame ∈ tree.frames,
    id = renderId root frame.address ∧ slice.isParity = frame.isParity

/-- Only leaves are received under the id of their node. -/
theorem Shaped.eq_leaf {root : String} {tree : PacketTree} {received : SliceMap}
    (hshaped : Shaped root tree received) {path : List Branch}
    {sub : PacketTree} (hsub : tree.subtree path = some sub)
    {slice : ProtocolSlice}
    (hlookup : received.lookup (renderId root (path.map Branch.label)) =
      some slice) : ∃ data, sub = leaf data := by
  obtain ⟨frame, hframe, hid, _⟩ := hshaped _ _ hlookup
  have haddress := renderId_injective root hid
  obtain ⟨other, otherSub, hother, rfl⟩ := (tree.mem_frames_iff frame).mp hframe
  cases otherSub with
  | leaf data =>
      have hpath : path = other :=
        List.map_injective_iff.mpr Branch.label_injective haddress
      rw [← hpath, hsub, Option.some.injEq] at hother
      exact ⟨data, hother⟩
  | node left right =>
      have hparity : Label.parity ∈ path.map Branch.label := by
        rw [haddress]
        simp [frameAt]
      obtain ⟨branch, _, hbranch⟩ := List.mem_map.mp hparity
      cases branch <;> cases hbranch

theorem Shaped.left_eq_leaf {root : String} {tree l r : PacketTree}
    {received : SliceMap} (hshaped : Shaped root tree received)
    {path : List Branch} (hsub : tree.subtree path = some (node l r))
    {slice : ProtocolSlice}
    (hlookup : received.lookup (nodeId root path .zero) = some slice) :
    ∃ data, l = leaf data :=
  hshaped.eq_leaf (subtree_left hsub)
    ((nodeId_branch root path .left).symm ▸ hlookup)

theorem Shaped.right_eq_leaf {root : String} {tree l r : PacketTree}
    {received : SliceMap} (hshaped : Shaped root tree received)
    {path : List Branch} (hsub : tree.subtree path = some (node l r))
    {slice : ProtocolSlice}
    (hlookup : received.lookup (nodeId root path .one) = some slice) :
    ∃ data, r = leaf data :=
  hshaped.eq_leaf (subtree_right hsub)
    ((nodeId_branch root path .right).symm ▸ hlookup)

/-- The check of the parity slice of a node is about the node's children. -/
theorem checkParity_nodeId_iff (received : SliceMap) (root : String)
    (path : List Branch) {slice : ProtocolSlice}
    (hkind : slice.isParity = true) :
    IntegrityManager.checkParity received (nodeId root path .parity) slice =
        true ↔
      ∀ left right, received.lookup (nodeId root path .zero) = some left →
        received.lookup (nodeId root path .one) = some right →
        calculateParity left.data right.data = slice.data := by
  rw [nodeId_eq_append, nodeId_eq_append, nodeId_eq_append]
  exact IntegrityManager.checkParity_parity_iff received _ hkind

/-- Verification compares exactly the parity slices of nodes with two leaves. -/
theorem Shaped.verifyIntegrity_iff {root : String} {tree : PacketTree}
    {manager : IntegrityManager}
    (hshaped : Shaped root tree manager.receivedSlices)
    (order : IterOrder String) :
    manager.verifyIntegrity order = true ↔
      ∀ path l r, tree.subtree path = some (node (leaf l) (leaf r)) →
        ∀ left right parity,
          manager.receivedSlices.lookup (nodeId root path .zero) = some left →
          manager.receivedSlices.lookup (nodeId root path .one) = some right →
          manager.receivedSlices.lookup (nodeId root path .parity) =
            some parity → parity.isParity = true →
          calculateParity left.data right.data = parity.data := by
  rw [IntegrityManager.verifyIntegrity_iff]
  constructor
  · intro hall path l r _ left right parity hleft hright hparity hkind
    exact (checkParity_nodeId_iff _ root path hkind).mp (hall _ _ hparity) left
      right hleft hright
  · intro hall id slice hlookup
    by_cases hkind : slice.isParity = true
    · obtain ⟨frame, hframe, rfl, hframeKind⟩ := hshaped _ _ hlookup
      obtain ⟨path, sub, hsub, rfl⟩ := (tree.mem_frames_iff frame).mp hframe
      cases sub with
      | leaf data => simp [hkind, frameAt] at hframeKind
      | node l r =>
          apply (checkParity_nodeId_iff _ root path hkind).mpr
          intro left right hleft hright
          obtain ⟨_, rfl⟩ := hshaped.left_eq_leaf hsub hleft
          obtain ⟨_, rfl⟩ := hshaped.right_eq_leaf hsub hright
          exact hall path _ _ hsub left right slice hleft hright hlookup hkind
    · simp [IntegrityManager.checkParity, hkind]

/-- Every received slice is a packet of the batch, under its own id. -/
def DrawnFrom (id : String) (data : Bytes) (received : SliceMap) : Prop :=
  ∀ key slice, received.lookup key = some slice →
    slice ∈ (packetize id data).packets ∧ slice.id = key

theorem DrawnFrom.shaped {id : String} {data : Bytes} {received : SliceMap}
    (hdrawn : DrawnFrom id data received) :
    Shaped id (splitTree data) received := by
  intro key slice hlookup
  obtain ⟨hslice, rfl⟩ := hdrawn key slice hlookup
  obtain ⟨frame, hframe, hcarries⟩ := exists_frame_of_mem_packets hslice
  exact ⟨frame, hframe, hcarries.id_eq, hcarries.kind_eq⟩

theorem drawnFrom_recordAll {id : String} {data : Bytes}
    (expectedIds : List String) {slices : List ProtocolSlice}
    (hslices : ∀ slice ∈ slices, slice ∈ (packetize id data).packets) :
    DrawnFrom id data
      ((IntegrityManager.new expectedIds).recordAll slices).receivedSlices := by
  intro key slice hlookup
  obtain ⟨hslice, hid⟩ := IntegrityManager.lookup_recordAll_new hlookup
  exact ⟨hslices slice hslice, hid⟩

/-- Packets of one batch never contradict each other. -/
theorem DrawnFrom.verifyIntegrity {id : String} {data : Bytes}
    {manager : IntegrityManager}
    (hdrawn : DrawnFrom id data manager.receivedSlices)
    (order : IterOrder String) : manager.verifyIntegrity order = true := by
  apply (hdrawn.shaped.verifyIntegrity_iff order).mpr
  intro path l r hsub left right parity hleft hright hparity _
  obtain ⟨hzero, hone, hframe⟩ := mem_frames_of_leaves hsub
  obtain ⟨hleftMem, hleftId⟩ := hdrawn _ _ hleft
  obtain ⟨hrightMem, hrightId⟩ := hdrawn _ _ hright
  obtain ⟨hparityMem, hparityId⟩ := hdrawn _ _ hparity
  rw [(packet_eq_frame hleftMem hzero hleftId).1,
    (packet_eq_frame hrightMem hone hrightId).1,
    (packet_eq_frame hparityMem hframe hparityId).1]

/-- However the packets of one batch arrive, at every moment verification
passes and the missing ids are exactly those of the packets not yet recorded. -/
theorem honest_run_verifies_and_tracks (order : IterOrder String) (id : String)
    (data : Bytes) {slices done : List ProtocolSlice}
    (hslices : ∀ slice ∈ slices, slice ∈ (packetize id data).packets)
    (hdone : done <+: slices) :
    let manager :=
      (IntegrityManager.new (generateManifest id data.length)).recordAll done
    manager.verifyIntegrity order = true ∧
      (manager.getMissingNodes order).Nodup ∧
      (∀ key, key ∈ manager.getMissingNodes order ↔
        ∃ packet ∈ (packetize id data).packets,
          packet.id = key ∧ packet ∉ done) ∧
      (manager.getMissingNodes order = [] ↔
        ∀ packet ∈ (packetize id data).packets, packet ∈ done) := by
  intro manager
  have hmem : ∀ slice ∈ done, slice ∈ (packetize id data).packets :=
    fun slice hslice => hslices slice (hdone.subset hslice)
  have hmissing : ∀ key, key ∈ manager.getMissingNodes order ↔
      ∃ packet ∈ (packetize id data).packets,
        packet.id = key ∧ packet ∉ done := by
    intro key
    rw [IntegrityManager.mem_getMissingNodes_iff,
      IntegrityManager.mem_recordAll_new_iff,
      IntegrityManager.manifest_recordAll, IntegrityManager.new,
      List.mem_toFinset, ← map_id_packets, List.mem_map]
    constructor
    · rintro ⟨⟨packet, hpacket, rfl⟩, hnone⟩
      exact ⟨packet, hpacket, rfl, fun hin => hnone ⟨packet, hin, rfl⟩⟩
    · rintro ⟨packet, hpacket, rfl, hnot⟩
      refine ⟨⟨packet, hpacket, rfl⟩, ?_⟩
      rintro ⟨slice, hslice, hid⟩
      exact hnot (packet_eq_of_id_eq (hmem slice hslice) hpacket hid ▸ hslice)
  refine ⟨(drawnFrom_recordAll _ hmem).verifyIntegrity order,
    IntegrityManager.getMissingNodes_nodup order manager, hmissing, ?_⟩
  rw [List.eq_nil_iff_forall_not_mem]
  constructor
  · intro hnone packet hpacket
    by_contra hnot
    exact hnone packet.id
      ((hmissing packet.id).mpr ⟨packet, hpacket, rfl, hnot⟩)
  · intro hall key hkey
    obtain ⟨packet, hpacket, _, hnot⟩ := (hmissing key).mp hkey
    exact hnot (hall packet hpacket)

/-- A batch recorded backwards and then once more. -/
theorem honest_run_verifies_and_tracks_twice :
    ((IntegrityManager.new
        (generateManifest "ROOT"
          (List.replicate 2000 (7 : UInt8)).length)).recordAll
        ((packetize "ROOT" (List.replicate 2000 7)).packets.reverse ++
          (packetize "ROOT" (List.replicate 2000 7)).packets)).verifyIntegrity
        (IterOrder.some String) = true := by
  have hslices : ∀ slice ∈
      (packetize "ROOT" (List.replicate 2000 7)).packets.reverse ++
        (packetize "ROOT" (List.replicate 2000 7)).packets,
      slice ∈ (packetize "ROOT" (List.replicate 2000 7)).packets := by
    intro slice hslice
    rcases List.mem_append.mp hslice with hreverse | hagain
    · exact List.mem_reverse.mp hreverse
    · exact hagain
  exact (honest_run_verifies_and_tracks (IterOrder.some String) "ROOT"
    (List.replicate 2000 7) hslices List.prefix_rfl).1

/-- Overwriting the bytes of a slice leaves the shape as it is. -/
theorem Shaped.setData {root : String} {tree : PacketTree}
    {manager : IntegrityManager}
    (hshaped : Shaped root tree manager.receivedSlices) (id : String)
    (bytes : Bytes) : Shaped root tree (manager.setData id bytes).receivedSlices
    := by
  intro key slice hlookup
  by_cases hkey : key = id
  · subst hkey
    cases hbefore : manager.receivedSlices.lookup key with
    | none =>
        rw [IntegrityManager.setData, hbefore] at hlookup
        exact hshaped key slice hlookup
    | some before =>
        rw [IntegrityManager.lookup_setData_self hbefore,
          Option.some.injEq] at hlookup
        subst hlookup
        exact hshaped key before hbefore
  · rw [IntegrityManager.lookup_setData_of_ne manager hkey] at hlookup
    exact hshaped key slice hlookup

/-- The bytes found under `key` once `bytes` has replaced those under `id`. -/
def overwritten (id : String) (bytes : Bytes) (key : String) (old : Bytes) :
    Bytes :=
  if key = id then bytes else old

section Tamper

variable {id : String} {data : Bytes} {manager : IntegrityManager}
  (hdrawn : DrawnFrom id data manager.receivedSlices)
  (hfull : ∀ packet ∈ (packetize id data).packets,
    packet.id ∈ manager.receivedSlices)

include hdrawn hfull

/-- A full batch is found packet by packet. -/
theorem lookup_of_full {packet : ProtocolSlice}
    (hpacket : packet ∈ (packetize id data).packets) :
    manager.receivedSlices.lookup packet.id = some packet := by
  obtain ⟨slice, hlookup⟩ :=
    Option.isSome_iff_exists.mp (Finmap.lookup_isSome.mpr (hfull packet hpacket))
  obtain ⟨hslice, hid⟩ := hdrawn _ _ hlookup
  rw [hlookup, packet_eq_of_id_eq hslice hpacket hid]

/-- The frames of a full batch after one of them has been overwritten. -/
theorem exists_lookup_setData (target : String) (bytes : Bytes) {frame : Frame}
    (hframe : frame ∈ (splitTree data).frames) :
    ∃ slice, (manager.setData target bytes).receivedSlices.lookup
        (renderId id frame.address) = some slice ∧
      slice.isParity = frame.isParity ∧
      slice.data = overwritten target bytes (renderId id frame.address)
        frame.data := by
  obtain ⟨other, hother, hid, hdata, hkind⟩ :=
    exists_packet_of_mem_frames id hframe
  have hlookup := lookup_of_full hdrawn hfull hother
  rw [← hid, ← hdata, ← hkind, overwritten]
  by_cases hkey : other.id = target
  · rw [if_pos hkey, ← hkey]
    exact ⟨_, IntegrityManager.lookup_setData_self hlookup bytes, rfl, rfl⟩
  · rw [if_neg hkey, IntegrityManager.lookup_setData_of_ne manager hkey]
    exact ⟨other, hlookup, rfl, rfl⟩

/-- After one packet of a full batch has been overwritten, verification passes
when the parity equation still holds at every node with two leaves. -/
theorem verifyIntegrity_setData_iff (target : String) (bytes : Bytes)
    (order : IterOrder String) :
    (manager.setData target bytes).verifyIntegrity order = true ↔
      ∀ path l r,
        (splitTree data).subtree path = some (node (leaf l) (leaf r)) →
        calculateParity
            (overwritten target bytes (nodeId id path .zero) l)
            (overwritten target bytes (nodeId id path .one) r) =
          overwritten target bytes (nodeId id path .parity)
            (calculateParity l r) := by
  rw [(hdrawn.shaped.setData target bytes).verifyIntegrity_iff order]
  have hfind := fun {frame : Frame} (hframe : frame ∈ (splitTree data).frames) =>
    exists_lookup_setData hdrawn hfull target bytes hframe
  constructor
  · intro hall path l r hsub
    obtain ⟨hzero, hone, hparity⟩ := mem_frames_of_leaves hsub
    obtain ⟨left, hleft, _, hleftData⟩ := hfind hzero
    obtain ⟨right, hright, _, hrightData⟩ := hfind hone
    obtain ⟨parity, hparityLookup, hkind, hparityData⟩ := hfind hparity
    have hequal :=
      hall path l r hsub left right parity hleft hright hparityLookup hkind
    rw [hleftData, hrightData, hparityData] at hequal
    exact hequal
  · intro hall path l r hsub left right parity hleft hright hparity _
    obtain ⟨hzero, hone, hframe⟩ := mem_frames_of_leaves hsub
    obtain ⟨_, hleft', _, hleftData⟩ := hfind hzero
    obtain ⟨_, hright', _, hrightData⟩ := hfind hone
    obtain ⟨_, hparity', _, hparityData⟩ := hfind hframe
    obtain rfl := Option.some.inj (hleft.symm.trans hleft')
    obtain rfl := Option.some.inj (hright.symm.trans hright')
    obtain rfl := Option.some.inj (hparity.symm.trans hparity')
    rw [hleftData, hrightData, hparityData]
    exact hall path l r hsub

end Tamper

/-- What a replacement of one packet's bytes must meet to be seen: the packet
belongs to a node with two leaves, and when it is one of the leaves the new
bytes are not the old ones up to padding that the sibling hides. -/
def Noticeable (id : String) (data : Bytes) (target : String) (bytes : Bytes) :
    Prop :=
  ∃ path l r, (splitTree data).subtree path = some (node (leaf l) (leaf r)) ∧
    (target = nodeId id path .parity ∨
      target = nodeId id path .zero ∧ ¬ PadEq 0 r.length bytes l ∨
      target = nodeId id path .one ∧ ¬ PadEq 0 l.length bytes r)

/-- The parity equation of one node after a replacement, by which of its three
packets has been replaced. -/
theorem parity_overwritten_ne_iff {id target : String} {bytes l r : Bytes}
    {path : List Branch}
    (hbytes : target = nodeId id path .parity → bytes ≠ calculateParity l r) :
    calculateParity (overwritten target bytes (nodeId id path .zero) l)
          (overwritten target bytes (nodeId id path .one) r) ≠
        overwritten target bytes (nodeId id path .parity)
          (calculateParity l r) ↔
      target = nodeId id path .parity ∨
        target = nodeId id path .zero ∧ ¬ PadEq 0 r.length bytes l ∨
        target = nodeId id path .one ∧ ¬ PadEq 0 l.length bytes r := by
  have hne : ∀ label other : Label, label ≠ other →
      nodeId id path label ≠ nodeId id path other :=
    fun _ _ hlabel hid => hlabel (nodeId_injective id hid).2
  have hzeroOne := hne .zero .one (by decide)
  have hzeroParity := hne .zero .parity (by decide)
  have honeParity := hne .one .parity (by decide)
  by_cases hparity : target = nodeId id path .parity
  · subst hparity
    simp [overwritten, hzeroParity, honeParity, (hbytes rfl).symm]
  · by_cases hzero : target = nodeId id path .zero
    · subst hzero
      simp [overwritten, hzeroOne, hzeroOne.symm, hzeroParity,
        hzeroParity.symm, calculateParity_left_eq_iff]
    · by_cases hone : target = nodeId id path .one
      · subst hone
        simp [overwritten, hzeroOne, hzeroOne.symm, honeParity,
          honeParity.symm, calculateParity_right_eq_iff]
      · simp [overwritten, hparity, hzero, hone, Ne.symm hparity,
          Ne.symm hzero, Ne.symm hone]

/-- Replacing the bytes of one packet of a full batch makes verification fail
exactly when the replacement is noticeable. -/
theorem tampering_detected_iff (order : IterOrder String)
    (expectedIds : List String) (id : String) (data : Bytes)
    {slices : List ProtocolSlice}
    (hslices : ∀ slice, slice ∈ slices ↔ slice ∈ (packetize id data).packets)
    {packet : ProtocolSlice} (hpacket : packet ∈ (packetize id data).packets)
    {bytes : Bytes} (hbytes : bytes ≠ packet.data) :
    (((IntegrityManager.new expectedIds).recordAll slices).setData packet.id
        bytes).verifyIntegrity order = false ↔
      Noticeable id data packet.id bytes := by
  have hdrawn : DrawnFrom id data
      ((IntegrityManager.new expectedIds).recordAll slices).receivedSlices :=
    drawnFrom_recordAll expectedIds fun slice => (hslices slice).mp
  have hfull : ∀ other ∈ (packetize id data).packets, other.id ∈
      ((IntegrityManager.new expectedIds).recordAll slices).receivedSlices :=
    fun other hother => (IntegrityManager.mem_recordAll_new_iff _ _ _).mpr
      ⟨other, (hslices other).mpr hother, rfl⟩
  rw [← Bool.not_eq_true, verifyIntegrity_setData_iff hdrawn hfull]
  simp only [not_forall, Noticeable, exists_prop]
  refine exists_congr fun path => exists_congr fun l => exists_congr fun r =>
    and_congr_right fun hsub => parity_overwritten_ne_iff ?_
  intro hid
  have hdata : packet.data = calculateParity l r :=
    (packet_eq_frame hpacket (mem_frames_of_leaves hsub).2.2 hid).1
  exact hdata ▸ hbytes

/-- In a batch of three packets a changed parity is seen. -/
theorem tampering_detected_three_packets :
    (((IntegrityManager.new []).recordAll
        (packetize "ROOT" (List.replicate 1000 0)).packets).setData "ROOT.P"
        []).verifyIntegrity (IterOrder.some String) = false := by
  have hlength : (List.replicate 1000 (0 : UInt8)).length = 1000 :=
    List.length_replicate
  have hlt : maxLeafPayload < (List.replicate 1000 (0 : UInt8)).length := by
    rw [hlength]
    decide
  obtain ⟨packet, hpacket, hid, _, hparity⟩ :=
    exists_root_parity "ROOT" hlt
  have hbytes : [] ≠ packet.data := by
    intro hempty
    rw [← hempty, hlength] at hparity
    cases hparity
  obtain ⟨l, r, htree⟩ :=
    (splitTree_eq_leaves_iff (List.replicate 1000 0)).mpr
      ⟨hlt, by rw [hlength]; decide⟩
  have hroot : packet.id = "ROOT.P" := hid
  rw [← hroot]
  exact (tampering_detected_iff (IterOrder.some String) [] "ROOT"
    (List.replicate 1000 0) (fun _ => Iff.rfl) hpacket hbytes).mpr
    ⟨[], l, r, by rw [subtree_nil, htree], Or.inl hid⟩

/-- The parity of a root whose children are nodes is compared with nothing, so
its bytes can be dropped unseen. -/
theorem root_parity_tampering_unseen :
    ∃ packet ∈ (packetize "ROOT" (List.replicate 2000 0)).packets,
      packet.id = "ROOT.P" ∧ [] ≠ packet.data ∧
      ∀ order : IterOrder String,
        (((IntegrityManager.new (generateManifest "ROOT" 2000)).recordAll
            (packetize "ROOT" (List.replicate 2000 0)).packets).setData
            packet.id []).verifyIntegrity order = true := by
  have hlength : (List.replicate 2000 (0 : UInt8)).length = 2000 :=
    List.length_replicate
  have hlt : maxLeafPayload < (List.replicate 2000 (0 : UInt8)).length := by
    rw [hlength]
    decide
  obtain ⟨packet, hpacket, hid, _, hparity⟩ :=
    exists_root_parity "ROOT" hlt
  have hbytes : [] ≠ packet.data := by
    intro hempty
    rw [← hempty, hlength] at hparity
    cases hparity
  refine ⟨packet, hpacket, hid, hbytes, ?_⟩
  intro order
  have hdrawn : DrawnFrom "ROOT" (List.replicate 2000 0)
      ((IntegrityManager.new (generateManifest "ROOT" 2000)).recordAll
        (packetize "ROOT" (List.replicate 2000 0)).packets).receivedSlices :=
    drawnFrom_recordAll _ fun _ hslice => hslice
  apply (verifyIntegrity_setData_iff hdrawn ?_ _ _ order).mpr
  · intro path l r hsub
    have hpath : path ≠ [] := by
      rintro rfl
      rw [subtree_nil, Option.some.injEq] at hsub
      have hle := ((splitTree_eq_leaves_iff _).mp ⟨l, r, hsub⟩).2
      rw [hlength] at hle
      exact absurd hle (by decide)
    have hne : ∀ label, nodeId "ROOT" path label ≠ packet.id := by
      intro label heq
      have hroot : packet.id = nodeId "ROOT" [] .parity := hid
      exact hpath (nodeId_injective "ROOT" (heq.trans hroot)).1
    simp only [overwritten, if_neg (hne _)]
  · intro other hother
    exact (IntegrityManager.mem_recordAll_new_iff _ _ _).mpr
      ⟨other, hother, rfl⟩

end PerfectIp

end Gnostr
