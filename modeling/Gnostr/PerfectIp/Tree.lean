/-
The abstract packet tree.  A payload is cut along a binary tree; every tree
node contributes one frame, addressed by the path that leads to it.  The
recursive packetizer and the manifest generator both enumerate these frames.
-/
import Gnostr.PerfectIp.Packet
import Mathlib.Data.List.Nodup

namespace Gnostr

namespace PerfectIp

/-- One step of a packet id. -/
inductive Label where
  | zero
  | one
  | parity
deriving Repr, DecidableEq

def Label.text : Label → String
  | .zero => ".0"
  | .one => ".1"
  | .parity => ".P"

/-- The id at an address, the way the recursion appends to it. -/
def renderId (root : String) : List Label → String
  | [] => root
  | label :: labels => renderId (root ++ label.text) labels

theorem toList_renderId (root : String) (labels : List Label) :
    (renderId root labels).toList =
      root.toList ++ labels.flatMap (fun label => label.text.toList) := by
  induction labels generalizing root with
  | nil => simp [renderId]
  | cons label labels ih =>
      rw [renderId, ih, String.toList_append, List.flatMap_cons,
        List.append_assoc]

theorem renderId_append (root : String) (first last : List Label) :
    renderId root (first ++ last) = renderId (renderId root first) last := by
  induction first generalizing root with
  | nil => rfl
  | cons label first ih => exact ih (root ++ label.text)

theorem length_renderId (root : String) (labels : List Label) :
    (renderId root labels).length = root.length + 2 * labels.length := by
  induction labels generalizing root with
  | nil => rfl
  | cons label labels ih =>
      have htext : label.text.length = 2 := by cases label <;> rfl
      rw [renderId, ih, String.length_append, htext, List.length_cons]
      omega

/-- Every label is two characters and no two labels are the same two. -/
theorem flatMap_text_injective {first second : List Label}
    (htext : first.flatMap (fun label => label.text.toList) =
      second.flatMap (fun label => label.text.toList)) : first = second := by
  induction first generalizing second with
  | nil =>
      cases second with
      | nil => rfl
      | cons head tail => cases head <;> simp [Label.text] at htext
  | cons head tail ih =>
      cases second with
      | nil => cases head <;> simp [Label.text] at htext
      | cons other rest =>
          cases head <;> cases other <;> simp [Label.text] at htext ⊢ <;>
            exact ih htext

/-- Distinct addresses have distinct ids, whatever the root id looks like. -/
theorem renderId_injective (root : String) {first second : List Label}
    (hid : renderId root first = renderId root second) : first = second := by
  have hchars := congrArg String.toList hid
  rw [toList_renderId, toList_renderId] at hchars
  exact flatMap_text_injective (List.append_cancel_left hchars)

inductive Branch where
  | left
  | right
deriving Repr, DecidableEq

def Branch.label : Branch → Label
  | .left => .zero
  | .right => .one

theorem Branch.label_injective : Function.Injective Branch.label := by
  intro first second hlabel
  cases first <;> cases second <;> first | rfl | cases hlabel

/-- The id of the packet that hangs off the node at `path`: one of its two
children or its parity. -/
def nodeId (root : String) (path : List Branch) (label : Label) : String :=
  renderId root (path.map Branch.label ++ [label])

theorem nodeId_eq_append (root : String) (path : List Branch) (label : Label) :
    nodeId root path label =
      renderId root (path.map Branch.label) ++ label.text :=
  renderId_append root _ [label]

theorem nodeId_injective (root : String) {first second : List Branch}
    {label other : Label}
    (hid : nodeId root first label = nodeId root second other) :
    first = second ∧ label = other := by
  have haddress := List.append_inj' (renderId_injective root hid) rfl
  exact ⟨List.map_injective_iff.mpr Branch.label_injective haddress.1,
    List.singleton_inj.mp haddress.2⟩

theorem nodeId_branch (root : String) (path : List Branch) (branch : Branch) :
    nodeId root path branch.label =
      renderId root ((path ++ [branch]).map Branch.label) := by
  rw [nodeId, List.map_append]
  rfl

/-- A payload cut along a binary tree. -/
inductive PacketTree where
  | leaf (data : Bytes)
  | node (left right : PacketTree)
deriving Repr, DecidableEq

/-- One packet without its numbering: its address, content and kind. -/
structure Frame where
  address : List Label
  data : Bytes
  isParity : Bool
deriving Repr, DecidableEq

def Frame.under (label : Label) (frame : Frame) : Frame :=
  { frame with address := label :: frame.address }

namespace PacketTree

def payload : PacketTree → Bytes
  | leaf data => data
  | node left right => left.payload ++ right.payload

def leafCount : PacketTree → ℕ
  | leaf _ => 1
  | node left right => left.leafCount + right.leafCount

/-- The tree below a path of branches. -/
def subtree : PacketTree → List Branch → Option PacketTree
  | tree, [] => some tree
  | leaf _, _ :: _ => none
  | node left _, .left :: path => left.subtree path
  | node _ right, .right :: path => right.subtree path

/-- The frame a tree node contributes: its data when it is a leaf, otherwise
the parity of its two payloads. -/
def frameAt (address : List Label) : PacketTree → Frame
  | leaf data => ⟨address, data, false⟩
  | node left right =>
      ⟨address ++ [.parity], calculateParity left.payload right.payload, true⟩

/-- All frames in the order of emission. -/
def frames : PacketTree → List Frame
  | leaf data => [frameAt [] (leaf data)]
  | node left right =>
      left.frames.map (Frame.under .zero) ++
        right.frames.map (Frame.under .one) ++ [frameAt [] (node left right)]

@[simp] theorem subtree_nil (tree : PacketTree) :
    tree.subtree [] = some tree := by
  cases tree <;> rfl

theorem subtree_append (tree : PacketTree) (first last : List Branch) :
    tree.subtree (first ++ last) =
      (tree.subtree first).bind fun sub => sub.subtree last := by
  induction first generalizing tree with
  | nil => simp
  | cons branch first ih =>
      cases tree with
      | leaf data => rfl
      | node left right => cases branch <;> exact ih _

theorem subtree_left {tree left right : PacketTree} {path : List Branch}
    (hsub : tree.subtree path = some (node left right)) :
    tree.subtree (path ++ [.left]) = some left := by
  simp [subtree_append, hsub, subtree]

theorem subtree_right {tree left right : PacketTree} {path : List Branch}
    (hsub : tree.subtree path = some (node left right)) :
    tree.subtree (path ++ [.right]) = some right := by
  simp [subtree_append, hsub, subtree]

theorem frameAt_cons (label : Label) (address : List Label)
    (tree : PacketTree) :
    tree.frameAt (label :: address) = (tree.frameAt address).under label := by
  cases tree <;> rfl

/-- The frames of a tree are the frames of its nodes. -/
theorem mem_frames_iff (tree : PacketTree) (frame : Frame) :
    frame ∈ tree.frames ↔ ∃ path sub, tree.subtree path = some sub ∧
      frame = sub.frameAt (path.map Branch.label) := by
  induction tree generalizing frame with
  | leaf data =>
      constructor
      · intro hframe
        exact ⟨[], leaf data, rfl, by simpa [frames] using hframe⟩
      · rintro ⟨path, sub, hsub, rfl⟩
        cases path with
        | nil =>
            simp only [subtree_nil, Option.some.injEq] at hsub
            subst hsub
            simp [frames]
        | cons branch path => simp [subtree] at hsub
  | node left right ihLeft ihRight =>
      simp only [frames, List.mem_append, List.mem_map, List.mem_singleton]
      constructor
      · rintro ((⟨inner, hinner, rfl⟩ | ⟨inner, hinner, rfl⟩) | rfl)
        · obtain ⟨path, sub, hsub, rfl⟩ := (ihLeft inner).mp hinner
          exact ⟨.left :: path, sub, hsub, (frameAt_cons _ _ sub).symm⟩
        · obtain ⟨path, sub, hsub, rfl⟩ := (ihRight inner).mp hinner
          exact ⟨.right :: path, sub, hsub, (frameAt_cons _ _ sub).symm⟩
        · exact ⟨[], node left right, rfl, rfl⟩
      · rintro ⟨path, sub, hsub, rfl⟩
        cases path with
        | nil =>
            simp only [subtree_nil, Option.some.injEq] at hsub
            subst hsub
            exact Or.inr rfl
        | cons branch path =>
            cases branch with
            | left =>
                exact Or.inl (Or.inl ⟨_, (ihLeft _).mpr ⟨path, sub, hsub, rfl⟩,
                  (frameAt_cons _ _ sub).symm⟩)
            | right =>
                exact Or.inl (Or.inr ⟨_, (ihRight _).mpr ⟨path, sub, hsub, rfl⟩,
                  (frameAt_cons _ _ sub).symm⟩)

/-- Every node of the tree has its frame among the frames. -/
theorem frameAt_mem_frames {tree sub : PacketTree} {path : List Branch}
    (hsub : tree.subtree path = some sub) :
    sub.frameAt (path.map Branch.label) ∈ tree.frames :=
  (tree.mem_frames_iff _).mpr ⟨path, sub, hsub, rfl⟩

/-- The three frames of a node with two leaves. -/
theorem mem_frames_of_leaves {tree : PacketTree} {path : List Branch}
    {l r : Bytes} (hsub : tree.subtree path = some (node (leaf l) (leaf r))) :
    ⟨path.map Branch.label ++ [.zero], l, false⟩ ∈ tree.frames ∧
      ⟨path.map Branch.label ++ [.one], r, false⟩ ∈ tree.frames ∧
      ⟨path.map Branch.label ++ [.parity], calculateParity l r, true⟩ ∈
        tree.frames := by
  have hleft := frameAt_mem_frames (subtree_left hsub)
  have hright := frameAt_mem_frames (subtree_right hsub)
  rw [List.map_append] at hleft hright
  exact ⟨hleft, hright, frameAt_mem_frames hsub⟩

theorem map_address_under (label : Label) (frames : List Frame) :
    (frames.map (Frame.under label)).map Frame.address =
      (frames.map Frame.address).map (label :: ·) := by
  rw [List.map_map, List.map_map]
  rfl

/-- No two frames share an address. -/
theorem addresses_nodup (tree : PacketTree) :
    (tree.frames.map Frame.address).Nodup := by
  induction tree with
  | leaf data => exact List.nodup_singleton _
  | node left right ihLeft ihRight =>
      simp only [frames, List.map_append, map_address_under, List.map_cons,
        List.map_nil]
      have hleft := ihLeft.map (List.cons_injective (a := Label.zero))
      have hright := ihRight.map (List.cons_injective (a := Label.one))
      refine List.nodup_append'.mpr ⟨List.nodup_append'.mpr
        ⟨hleft, hright, ?_⟩, List.nodup_singleton _, ?_⟩
      · intro address hzero hone
        obtain ⟨_, _, rfl⟩ := List.mem_map.mp hzero
        obtain ⟨_, _, heq⟩ := List.mem_map.mp hone
        simp at heq
      · intro address hchild hparity
        rw [List.mem_singleton] at hparity
        subst hparity
        simp [frameAt] at hchild

/-- A frame is determined by its address. -/
theorem frame_eq_of_address_eq {tree : PacketTree} {first second : Frame}
    (hfirst : first ∈ tree.frames) (hsecond : second ∈ tree.frames)
    (haddress : first.address = second.address) : first = second :=
  List.inj_on_of_nodup_map tree.addresses_nodup hfirst hsecond haddress

/-- Every leaf is a frame, and every inner node adds one. -/
theorem length_frames_add_one (tree : PacketTree) :
    tree.frames.length + 1 = 2 * tree.leafCount := by
  induction tree with
  | leaf data => rfl
  | node left right ihLeft ihRight =>
      simp only [frames, leafCount, List.length_append, List.length_map,
        List.length_singleton]
      omega

theorem flatMap_data_under (label : Label) (frames : List Frame) :
    ((frames.map (Frame.under label)).filter (fun frame => !frame.isParity)).flatMap
        Frame.data =
      (frames.filter (fun frame => !frame.isParity)).flatMap Frame.data := by
  induction frames with
  | nil => rfl
  | cons frame frames ih =>
      cases hparity : frame.isParity <;>
        simp_all [Frame.under]

/-- The data frames in order of emission spell the payload. -/
theorem flatMap_data_frames (tree : PacketTree) :
    (tree.frames.filter (fun frame => !frame.isParity)).flatMap Frame.data =
      tree.payload := by
  induction tree with
  | leaf data => simp [frames, frameAt, payload]
  | node left right ihLeft ihRight =>
      simp only [frames, List.filter_append, List.flatMap_append,
        flatMap_data_under, ihLeft, ihRight]
      simp [frameAt, payload]

end PacketTree

/-- The tree along which the protocol cuts a payload. -/
def splitTree (data : Bytes) : PacketTree :=
  if data.length ≤ maxLeafPayload then .leaf data
  else
    .node (splitTree (data.take (data.length / 2)))
      (splitTree (data.drop (data.length / 2)))
termination_by data.length
decreasing_by
  all_goals
    simp only [List.length_take, List.length_drop]
    rw [maxLeafPayload_eq] at *
    omega

theorem splitTree_of_le {data : Bytes} (hle : data.length ≤ maxLeafPayload) :
    splitTree data = .leaf data := by
  rw [splitTree, if_pos hle]

theorem splitTree_of_lt {data : Bytes} (hlt : maxLeafPayload < data.length) :
    splitTree data = .node (splitTree (data.take (data.length / 2)))
      (splitTree (data.drop (data.length / 2))) := by
  rw [splitTree, if_neg (Nat.not_le.mpr hlt)]

/-- Induction over a payload the way the protocol cuts it. -/
theorem split_induction {motive : Bytes → Prop}
    (leaf : ∀ data, data.length ≤ maxLeafPayload → motive data)
    (node : ∀ data, maxLeafPayload < data.length →
      motive (data.take (data.length / 2)) →
      motive (data.drop (data.length / 2)) → motive data)
    (data : Bytes) : motive data := by
  induction data using splitTree.induct with
  | case1 data hle => exact leaf data hle
  | case2 data hlt ihLeft ihRight =>
      exact node data (Nat.not_le.mp hlt) ihLeft ihRight

@[simp] theorem payload_splitTree (data : Bytes) :
    (splitTree data).payload = data := by
  induction data using split_induction with
  | leaf data hle => rw [splitTree_of_le hle, PacketTree.payload]
  | node data hlt ihLeft ihRight =>
      rw [splitTree_of_lt hlt, PacketTree.payload, ihLeft, ihRight,
        List.take_append_drop]

/-- Below the cut of a payload there are only cuts of its parts. -/
theorem subtree_splitTree {data : Bytes} {path : List Branch} {sub : PacketTree}
    (hsub : (splitTree data).subtree path = some sub) :
    sub = splitTree sub.payload := by
  induction path generalizing data with
  | nil =>
      rw [PacketTree.subtree_nil, Option.some.injEq] at hsub
      rw [← hsub, payload_splitTree]
  | cons branch path ih =>
      by_cases hle : data.length ≤ maxLeafPayload
      · rw [splitTree_of_le hle] at hsub
        cases hsub
      · rw [splitTree_of_lt (Nat.lt_of_not_le hle)] at hsub
        cases branch with
        | left => exact ih hsub
        | right => exact ih hsub

theorem length_le_of_splitTree_eq_leaf {data bytes : Bytes}
    (htree : splitTree data = .leaf bytes) :
    data.length ≤ maxLeafPayload := by
  by_contra hlong
  rw [splitTree_of_lt (Nat.lt_of_not_le hlong)] at htree
  cases htree

/-- A payload is cut into two leaves when it is longer than a leaf but not
longer than a packet. -/
theorem splitTree_eq_leaves_iff (data : Bytes) :
    (∃ l r, splitTree data = .node (.leaf l) (.leaf r)) ↔
      maxLeafPayload < data.length ∧ data.length ≤ mtuPayload := by
  constructor
  · rintro ⟨l, r, htree⟩
    by_cases hle : data.length ≤ maxLeafPayload
    · rw [splitTree_of_le hle] at htree
      cases htree
    · rw [splitTree_of_lt (Nat.lt_of_not_le hle)] at htree
      have hright :=
        length_le_of_splitTree_eq_leaf (PacketTree.node.inj htree).2
      rw [List.length_drop, maxLeafPayload_eq] at hright
      refine ⟨Nat.lt_of_not_le hle, ?_⟩
      rw [mtuPayload]
      omega
  · rintro ⟨hlt, hle⟩
    rw [mtuPayload] at hle
    have hleft : (data.take (data.length / 2)).length ≤ maxLeafPayload := by
      rw [List.length_take, maxLeafPayload_eq]
      omega
    have hright : (data.drop (data.length / 2)).length ≤ maxLeafPayload := by
      rw [List.length_drop, maxLeafPayload_eq]
      omega
    exact ⟨_, _, by
      rw [splitTree_of_lt hlt, splitTree_of_le hleft, splitTree_of_le hright]⟩

/-- Whether the children of a node are leaves is a matter of its length. -/
theorem eq_leaves_iff_length_payload {data : Bytes} {path : List Branch}
    {sub : PacketTree} (hsub : (splitTree data).subtree path = some sub) :
    (∃ l r, sub = .node (.leaf l) (.leaf r)) ↔
      maxLeafPayload < sub.payload.length ∧
        sub.payload.length ≤ mtuPayload := by
  have hcut := splitTree_eq_leaves_iff sub.payload
  rw [← subtree_splitTree hsub] at hcut
  exact hcut

/-- A frame as the packet the recursion emits for it. -/
def Frame.slice (root : String) (seq : UInt32) (frame : Frame) : ProtocolSlice :=
  ⟨renderId root frame.address, ⟨seq, 0⟩, frame.data, frame.isParity⟩

/-- Frames numbered in order from `seq` on. -/
def numberFrames (root : String) : UInt32 → List Frame → List ProtocolSlice
  | _, [] => []
  | seq, frame :: frames =>
      frame.slice root seq :: numberFrames root (seq + 1) frames

theorem numberFrames_under (root : String) (label : Label) (seq : UInt32)
    (frames : List Frame) :
    numberFrames root seq (frames.map (Frame.under label)) =
      numberFrames (root ++ label.text) seq frames := by
  induction frames generalizing seq with
  | nil => rfl
  | cons frame frames ih => exact congrArg _ (ih (seq + 1))

theorem numberFrames_append (root : String) (seq : UInt32)
    (first last : List Frame) :
    numberFrames root seq (first ++ last) = numberFrames root seq first ++
      numberFrames root (seq + UInt32.ofNat first.length) last := by
  induction first generalizing seq with
  | nil => simp [numberFrames]
  | cons frame first ih =>
      rw [List.cons_append, numberFrames, ih, numberFrames, List.cons_append,
        List.length_cons, Nat.add_comm, UInt32.ofNat_add, UInt32.add_assoc]
      rfl

/-- The recursion emits the frames of the tree, numbered from its counter. -/
theorem processSlice_eq_numberFrames (id : String) (data : Bytes)
    (seq : UInt32) :
    processSlice id data seq =
      (numberFrames id seq (splitTree data).frames,
        seq + UInt32.ofNat (splitTree data).frames.length) := by
  induction data using split_induction generalizing id seq with
  | leaf data hle =>
      rw [processSlice, if_pos hle, splitTree_of_le hle]
      rfl
  | node data hlt ihLeft ihRight =>
      rw [processSlice, if_neg (Nat.not_le.mpr hlt), splitTree_of_lt hlt]
      simp only [ihLeft, ihRight, PacketTree.frames, numberFrames_append,
        numberFrames_under, List.length_append, List.length_map,
        UInt32.ofNat_add, UInt32.add_assoc, List.length_singleton,
        PacketTree.frameAt, payload_splitTree]
      rfl

/-- The manifest lists the ids of the same frames in the same order. -/
theorem generateManifest_eq_map_frames (id : String) (data : Bytes) :
    generateManifest id data.length =
      (splitTree data).frames.map fun frame => renderId id frame.address := by
  induction data using split_induction generalizing id with
  | leaf data hle =>
      rw [generateManifest, if_pos hle, splitTree_of_le hle]
      rfl
  | node data hlt ihLeft ihRight =>
      have hhalf : data.length / 2 ≤ data.length := Nat.div_le_self _ _
      have hleft := ihLeft (id ++ ".0")
      have hright := ihRight (id ++ ".1")
      rw [List.length_take, Nat.min_eq_left hhalf] at hleft
      rw [List.length_drop] at hright
      rw [generateManifest, if_neg (Nat.not_le.mpr hlt), splitTree_of_lt hlt]
      simp only [hleft, hright, PacketTree.frames, List.map_append,
        List.map_map, List.map_cons, List.map_nil]
      rfl

end PerfectIp

end Gnostr
