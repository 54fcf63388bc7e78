/-
The integrity manager of `p2p/src/perfect_ip.rs`: the expected ids, the slices
received so far, and the two questions asked about them.  A hash set or map is
a finite set or map; the order in which the source iterates over it is a
parameter.
-/
import Gnostr.Lib.IterOrder
import Gnostr.PerfectIp.Packet
import Mathlib.Data.Finmap

namespace Gnostr

namespace PerfectIp

/-- Received slices by id. -/
abbrev SliceMap := Finmap fun _ : String => ProtocolSlice

/-- Tracks the expected manifest and the packets that have arrived so far. -/
structure IntegrityManager where
  manifest : Finset String
  receivedSlices : SliceMap

namespace IntegrityManager

/-- Create a manager from the set of expected packet ids. -/
def new (expectedIds : List String) : IntegrityManager :=
  ⟨expectedIds.toFinset, ∅⟩

/-- Record a received packet by id, replacing any prior packet with the same
id. -/
def recordSlice (manager : IntegrityManager) (slice : ProtocolSlice) :
    IntegrityManager :=
  { manager with
    receivedSlices := manager.receivedSlices.insert slice.id slice }

def recordAll (manager : IntegrityManager) (slices : List ProtocolSlice) :
    IntegrityManager :=
  slices.foldl recordSlice manager

/-- Overwrite the data bytes of a recorded packet in place. -/
def setData (manager : IntegrityManager) (id : String) (bytes : Bytes) :
    IntegrityManager :=
  match manager.receivedSlices.lookup id with
  | none => manager
  | some slice =>
      { manager with
        receivedSlices :=
          manager.receivedSlices.insert id { slice with data := bytes } }

/-- The packet ids from the manifest that are still missing. -/
def getMissingNodes (order : IterOrder String) (manager : IntegrityManager) :
    List String :=
  (order.list manager.manifest).filter fun id =>
    !decide (id ∈ manager.receivedSlices)

/-- What one received slice contributes to the verdict: a parity slice whose
siblings are both present must be their exclusive or. -/
def checkParity (received : SliceMap) (id : String) (slice : ProtocolSlice) :
    Bool :=
  if !slice.isParity then true
  else
    match stripSuffix id ".P" with
    | none => false
    | some baseId =>
        match received.lookup (baseId ++ ".0"),
          received.lookup (baseId ++ ".1") with
        | some left, some right =>
            calculateParity left.data right.data == slice.data
        | _, _ => true

/-- Verify that every parity slice matches the XOR of its sibling data
slices. -/
def verifyIntegrity (order : IterOrder String) (manager : IntegrityManager) :
    Bool :=
  (order.list manager.receivedSlices.keys).all fun id =>
    match manager.receivedSlices.lookup id with
    | none => true
    | some slice => checkParity manager.receivedSlices id slice

@[simp] theorem lookup_recordSlice_self (manager : IntegrityManager)
    (slice : ProtocolSlice) :
    (manager.recordSlice slice).receivedSlices.lookup slice.id = some slice :=
  Finmap.lookup_insert _

theorem lookup_recordSlice_of_ne (manager : IntegrityManager)
    {slice : ProtocolSlice} {id : String} (hne : id ≠ slice.id) :
    (manager.recordSlice slice).receivedSlices.lookup id =
      manager.receivedSlices.lookup id :=
  Finmap.lookup_insert_of_ne _ hne

@[simp] theorem recordAll_cons (manager : IntegrityManager)
    (slice : ProtocolSlice) (slices : List ProtocolSlice) :
    manager.recordAll (slice :: slices) =
      (manager.recordSlice slice).recordAll slices := rfl

@[simp] theorem manifest_recordAll (manager : IntegrityManager)
    (slices : List ProtocolSlice) :
    (manager.recordAll slices).manifest = manager.manifest := by
  induction slices generalizing manager with
  | nil => rfl
  | cons slice slices ih => exact ih (manager.recordSlice slice)

/-- What is stored was stored before or has been recorded since. -/
theorem lookup_recordAll_eq_some {manager : IntegrityManager}
    {slices : List ProtocolSlice} {id : String} {slice : ProtocolSlice}
    (hlookup : (manager.recordAll slices).receivedSlices.lookup id =
      some slice) :
    (slice ∈ slices ∧ slice.id = id) ∨
      manager.receivedSlices.lookup id = some slice := by
  induction slices generalizing manager with
  | nil => exact Or.inr hlookup
  | cons head slices ih =>
      rcases ih hlookup with ⟨hmem, hid⟩ | hbefore
      · exact Or.inl ⟨List.mem_cons_of_mem head hmem, hid⟩
      · by_cases hid : id = head.id
        · rw [hid, lookup_recordSlice_self, Option.some.injEq] at hbefore
          subst hbefore
          exact Or.inl ⟨List.mem_cons_self, hid.symm⟩
        · rw [lookup_recordSlice_of_ne manager hid] at hbefore
          exact Or.inr hbefore

/-- An id is present afterwards when it was present or has been recorded. -/
theorem mem_recordAll_iff (manager : IntegrityManager)
    (slices : List ProtocolSlice) (id : String) :
    id ∈ (manager.recordAll slices).receivedSlices ↔
      id ∈ manager.receivedSlices ∨ ∃ slice ∈ slices, slice.id = id := by
  induction slices generalizing manager with
  | nil => simp [recordAll]
  | cons head slices ih =>
      have htail := ih (manager.recordSlice head)
      simp only [recordSlice, Finmap.mem_insert] at htail
      rw [recordAll_cons, recordSlice, htail, List.exists_mem_cons_iff,
        eq_comm (a := id), or_left_comm, or_assoc]

/-- The slices a fresh manager holds after recording some. -/
theorem lookup_recordAll_new {expectedIds : List String}
    {slices : List ProtocolSlice} {id : String} {slice : ProtocolSlice}
    (hlookup : ((new expectedIds).recordAll slices).receivedSlices.lookup id =
      some slice) : slice ∈ slices ∧ slice.id = id := by
  rcases lookup_recordAll_eq_some hlookup with hrecorded | hbefore
  · exact hrecorded
  · simp [new] at hbefore

@[simp] theorem mem_recordAll_new_iff (expectedIds : List String)
    (slices : List ProtocolSlice) (id : String) :
    id ∈ ((new expectedIds).recordAll slices).receivedSlices ↔
      ∃ slice ∈ slices, slice.id = id := by
  rw [mem_recordAll_iff]
  simp [new, Finmap.notMem_empty]

theorem lookup_setData_self {manager : IntegrityManager} {id : String}
    {slice : ProtocolSlice}
    (hlookup : manager.receivedSlices.lookup id = some slice) (bytes : Bytes) :
    (manager.setData id bytes).receivedSlices.lookup id =
      some { slice with data := bytes } := by
  rw [setData, hlookup]
  exact Finmap.lookup_insert _

theorem lookup_setData_of_ne (manager : IntegrityManager) {id other : String}
    (hne : other ≠ id) (bytes : Bytes) :
    (manager.setData id bytes).receivedSlices.lookup other =
      manager.receivedSlices.lookup other := by
  rw [setData]
  cases manager.receivedSlices.lookup id with
  | none => rfl
  | some slice => exact Finmap.lookup_insert_of_ne _ hne

/-- The verdict is that every received slice passes its check, in whatever
order they are visited. -/
theorem verifyIntegrity_iff (order : IterOrder String)
    (manager : IntegrityManager) :
    manager.verifyIntegrity order = true ↔
      ∀ id slice, manager.receivedSlices.lookup id = some slice →
        checkParity manager.receivedSlices id slice = true := by
  rw [verifyIntegrity, order.all_list_iff]
  constructor
  · intro hall id slice hlookup
    have hkey : id ∈ manager.receivedSlices.keys :=
      Finmap.mem_keys.mpr (Finmap.mem_of_lookup_eq_some hlookup)
    simpa only [hlookup] using hall id hkey
  · intro hall id _
    cases hlookup : manager.receivedSlices.lookup id with
    | none => rfl
    | some slice => exact hall id slice hlookup

/-- The check of a parity slice, on the three slices it compares. -/
theorem checkParity_parity_iff (received : SliceMap) (base : String)
    {slice : ProtocolSlice} (hparity : slice.isParity = true) :
    checkParity received (base ++ ".P") slice = true ↔
      ∀ left right, received.lookup (base ++ ".0") = some left →
        received.lookup (base ++ ".1") = some right →
        calculateParity left.data right.data = slice.data := by
  rw [checkParity, hparity, stripSuffix_append]
  cases hleft : received.lookup (base ++ ".0") with
  | none => simp [hleft]
  | some left =>
      cases hright : received.lookup (base ++ ".1") with
      | none => simp [hleft, hright]
      | some right => simp [hleft, hright]

theorem mem_getMissingNodes_iff (order : IterOrder String)
    (manager : IntegrityManager) (id : String) :
    id ∈ manager.getMissingNodes order ↔
      id ∈ manager.manifest ∧ id ∉ manager.receivedSlices := by
  rw [getMissingNodes, order.mem_filter_list]
  simp

theorem getMissingNodes_nodup (order : IterOrder String)
    (manager : IntegrityManager) : (manager.getMissingNodes order).Nodup :=
  order.nodup_filter_list _ _

end IntegrityManager

end PerfectIp

end Gnostr
