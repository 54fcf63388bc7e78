/-
The packet tree protocol of `p2p/src/perfect_ip.rs`: recursive framing of a
payload into data and parity slices, the manifest of the ids, and the repair
of a missing sibling.
-/
import Gnostr.Lib.PadZip
import Mathlib.Data.List.Basic
import Mathlib.Tactic.Linarith

namespace Gnostr

namespace PerfectIp

abbrev Bytes := List UInt8

/-- Packet header metadata shared by all packet types in the tree. -/
structure Header where
  seqNum : UInt32
  totalPackets : UInt32
deriving Repr, DecidableEq

/-- A single packet produced by the recursive packetizer. -/
structure ProtocolSlice where
  id : String
  header : Header
  data : Bytes
  isParity : Bool
deriving Repr, DecidableEq

structure PacketBatch where
  totalPackets : UInt32
  packets : List ProtocolSlice
deriving Repr, DecidableEq

/-- Maximum payload size this packet protocol is allowed to emit. -/
def mtuPayload : ℕ := 1460

def maxLeafPayload : ℕ := mtuPayload / 2

theorem maxLeafPayload_eq : maxLeafPayload = 730 := rfl

/-- XOR two payloads into a parity buffer. -/
def calculateParity (left right : Bytes) : Bytes :=
  let maxLen := max left.length right.length
  (List.range maxLen).map fun i => left.getD i 0 ^^^ right.getD i 0

/-- Generate the expected packet ids for a recursive packet tree. -/
def generateManifest (id : String) (len : ℕ) : List String :=
  if len ≤ maxLeafPayload then [id]
  else
    let half := len / 2
    generateManifest (id ++ ".0") half ++
      generateManifest (id ++ ".1") (len - half) ++ [id ++ ".P"]
termination_by len
decreasing_by all_goals (rw [maxLeafPayload_eq] at *; omega)

/-- Recover the missing payload by XORing the sibling payload and parity
frame. -/
def recoverMissingData (expectedLen : ℕ) (sibling parity : Bytes) : Bytes :=
  (calculateParity sibling parity).take expectedLen

/-- Rebuild a missing packet using a sibling packet and parity packet.  The
second component is the next sequence number. -/
def recoverMissingSlice (id : String) (expectedLen : ℕ)
    (sibling parity : ProtocolSlice) (seq : UInt32) : ProtocolSlice × UInt32 :=
  let header : Header :=
    ⟨seq, max sibling.header.totalPackets parity.header.totalPackets⟩
  (⟨id, header, recoverMissingData expectedLen sibling.data parity.data, false⟩,
    seq + 1)

/-- Recursively split a payload into MTU-safe slices and parity frames.  The
second component is the sequence counter afterwards, which wraps around like
the `u32` of an optimized build. -/
def processSlice (id : String) (data : Bytes) (seq : UInt32) :
    List ProtocolSlice × UInt32 :=
  if data.length ≤ maxLeafPayload then
    ([⟨id, ⟨seq, 0⟩, data, false⟩], seq + 1)
  else
    let half := data.length / 2
    let leftData := data.take half
    let rightData := data.drop half
    let parity := calculateParity leftData rightData
    let left := processSlice (id ++ ".0") leftData seq
    let right := processSlice (id ++ ".1") rightData left.2
    (left.1 ++ right.1 ++ [⟨id ++ ".P", ⟨right.2, 0⟩, parity, true⟩],
      right.2 + 1)
termination_by data.length
decreasing_by
  all_goals
    simp only [List.length_take, List.length_drop]
    rw [maxLeafPayload_eq] at *
    omega

/-- Packetize a payload and finalize the batch metadata. -/
def packetize (id : String) (data : Bytes) : PacketBatch :=
  let packets := (processSlice id data 0).1
  let totalPackets := UInt32.ofNat packets.length
  ⟨totalPackets, packets.map fun packet =>
    { packet with header := { packet.header with totalPackets } }⟩

/-- The text before a suffix, when the text ends in it. -/
def stripSuffix (text suffix : String) : Option String :=
  (text.toList.dropSuffix? suffix.toList).map String.ofList

theorem stripSuffix_append (base suffix : String) :
    stripSuffix (base ++ suffix) suffix = some base := by
  have hdrop : (base ++ suffix).toList.dropSuffix? suffix.toList =
      some base.toList :=
    List.dropSuffix?_eq_some_iff.mpr (by simp [String.toList_append])
  rw [stripSuffix, hdrop]
  simp

theorem xor_cancel_left (a b : UInt8) : a ^^^ (a ^^^ b) = b := by
  rw [← UInt8.xor_assoc, UInt8.xor_self, UInt8.zero_xor]

theorem xor_cancel_right (a b : UInt8) : b ^^^ (a ^^^ b) = a := by
  rw [UInt8.xor_comm a, xor_cancel_left]

@[simp] theorem length_calculateParity (left right : Bytes) :
    (calculateParity left right).length = max left.length right.length :=
  length_padZip _ _ left right

/-- The parity of two siblings gives back the left one next to the right one. -/
theorem recoverMissingData_right (left right : Bytes) :
    recoverMissingData left.length right (calculateParity left right) = left :=
  take_padZip_right _ _ rfl xor_cancel_right left right

theorem recoverMissingData_left (left right : Bytes) :
    recoverMissingData right.length left (calculateParity left right) = right :=
  take_padZip_left _ _ rfl xor_cancel_left left right

theorem calculateParity_left_eq_iff (first second right : Bytes) :
    calculateParity first right = calculateParity second right ↔
      PadEq 0 right.length first second :=
  padZip_left_eq_iff _ _ rfl xor_cancel_right first second right

theorem calculateParity_right_eq_iff (left first second : Bytes) :
    calculateParity left first = calculateParity left second ↔
      PadEq 0 left.length first second :=
  padZip_right_eq_iff _ _ rfl xor_cancel_left left first second

end PerfectIp

end Gnostr
