/-
Showing a file that is looked for: from a tree with only its root open, what lies above the
file is opened, upward and downward from the file.
-/
import Gnostr.Filetree.Tree
import Gnostr.Filetree.Visibility
import Mathlib.Data.List.Sublists

namespace Gnostr

namespace Filetree

/-- One path is strictly above another. -/
def strictlyAbove (path other : FilePath) : Bool := under path other && path ≠ other

@[simp] theorem strictlyAbove_iff {path other : FilePath} :
    strictlyAbove path other = true ↔ path <+: other ∧ path ≠ other := by
  simp [strictlyAbove]

theorem strictlyAbove_trans {first path last : FilePath} (habove : strictlyAbove first path)
    (hprefixed : path <+: last) : strictlyAbove first last = true := by
  obtain ⟨hup, hne⟩ := strictlyAbove_iff.mp habove
  refine strictlyAbove_iff.mpr ⟨hup.trans hprefixed, fun h => hne ?_⟩
  exact hup.eq_of_length (le_antisymm hup.length_le (h ▸ hprefixed.length_le))

/-- The items that lie strictly above a path. -/
def itemsAbove (items : List FileTreeItem) (path : FilePath) : List FileTreeItem :=
  items.filter fun above => strictlyAbove above.info.fullPath path

/-- The items of a file tree, before any is collapsed: the first item is the root, and every
directory has what it holds right behind it. -/
structure Skeleton (items : List FileTreeItem) : Prop where
  outline : IsOutline (paths items)
  filled : ∀ before item rest, items = before ++ item :: rest → item.kind.isPath = true →
    ∃ child more, rest = child :: more ∧ item.info.fullPath <+: child.info.fullPath
  onlyDirs : ∀ item ∈ items, ∀ other ∈ items,
    strictlyAbove item.info.fullPath other.info.fullPath → item.kind.isPath = true
  rooted : ∀ root rest, items = root :: rest → ∀ other ∈ rest,
    root.info.fullPath <+: other.info.fullPath
  indent : ∀ item ∈ items, item.info.indent = (itemsAbove items item.info.fullPath).length

section Above

variable {items before rest : List FileTreeItem} {item : FileTreeItem}

theorem Skeleton.at_split (hskel : Skeleton items) (hsplit : items = before ++ item :: rest) :
    At items before item rest := ⟨hsplit, hskel.outline⟩

theorem mem_itemsAbove_iff {path : FilePath} {above : FileTreeItem} :
    above ∈ itemsAbove items path ↔
      above ∈ items ∧ above.info.fullPath <+: path ∧ above.info.fullPath ≠ path := by
  simp [itemsAbove]

/-- Paths with fewer items above are indented less, and as much only with the same. -/
theorem itemsAbove_length {path other : FilePath}
    (hsub : ∀ above ∈ itemsAbove items path, above ∈ itemsAbove items other) :
    (itemsAbove items path).length ≤ (itemsAbove items other).length ∧
      ((itemsAbove items path).length = (itemsAbove items other).length →
        ∀ above ∈ itemsAbove items other, above ∈ itemsAbove items path) := by
  have hsublist : (itemsAbove items path).Sublist (itemsAbove items other) := by
    have : itemsAbove items path = (itemsAbove items other).filter fun above =>
        strictlyAbove above.info.fullPath path := by
      rw [itemsAbove, itemsAbove, List.filter_filter]
      refine List.filter_congr fun above hmem => ?_
      rw [Bool.eq_iff_iff, Bool.and_eq_true]
      refine (and_iff_left_of_imp fun habove => ?_).symm
      have := hsub above (List.mem_filter.mpr ⟨hmem, habove⟩)
      exact (List.mem_filter.mp this).2
    rw [this]
    exact List.filter_sublist
  exact ⟨hsublist.length_le, fun hlength above hmem =>
    (hsublist.eq_of_length hlength) ▸ hmem⟩

/-- What lies above an item comes before it. -/
theorem At.mem_before_of_above (hat : At items before item rest) {above : FileTreeItem}
    (habove : above ∈ itemsAbove items item.info.fullPath) : above ∈ before := by
  obtain ⟨hmem, hprefixed, hne⟩ := mem_itemsAbove_iff.mp habove
  rw [hat.split, List.mem_append, List.mem_cons] at hmem
  rcases hmem with hmem | rfl | hmem
  · exact hmem
  · exact absurd rfl hne
  · exact absurd hprefixed (hat.not_prefix_item hmem)

theorem Skeleton.hiddenIn_iff_above (hskel : Skeleton items) {closed : View}
    (hitem : item ∈ items) :
    hiddenIn items closed item.info.fullPath = true ↔
      ∃ above ∈ itemsAbove items item.info.fullPath, closed above.info.fullPath = true := by
  rw [hiddenIn_iff]
  constructor
  · rintro ⟨above, hmem, -, hclosed, hprefixed⟩
    exact ⟨above, mem_itemsAbove_iff.mpr ⟨hmem, hprefixed⟩, hclosed⟩
  · rintro ⟨above, habove, hclosed⟩
    obtain ⟨hmem, hprefixed⟩ := mem_itemsAbove_iff.mp habove
    exact ⟨above, hmem, hskel.onlyDirs above hmem item hitem (strictlyAbove_iff.mpr hprefixed),
      hclosed, hprefixed⟩

/-- What is on the way to a path lies above what comes later on it. -/
theorem At.mem_itemsAbove_of_before (hat : At items before item rest) {x : FileTreeItem}
    {path : FilePath} (hx : x ∈ before) (hprefixed : x.info.fullPath <+: path)
    (hitem : item.info.fullPath <+: path) : x ∈ itemsAbove items item.info.fullPath := by
  refine mem_itemsAbove_iff.mpr ⟨by simp [hat.split, hx], ?_, (hat.ne_of_mem_before hx).symm⟩
  exact (List.prefix_or_prefix_of_prefix hprefixed hitem).resolve_right (hat.not_prefix_before hx)

theorem Skeleton.nodup (hskel : Skeleton items) : items.Nodup :=
  List.Nodup.of_map _ hskel.outline.nodup

end Above

section Views

/-- Only the root is open. -/
def rootView (root : FilePath) : View := fun dir => dir ≠ root

/-- The root and what lies above a path is open. -/
def revealView (root path : FilePath) : View :=
  fun dir => dir ≠ root ∧ ¬ strictlyAbove dir path

variable {items : List FileTreeItem} {x : FileTreeItem} {root file : FilePath}

theorem revealView_of_not {dir : FilePath} (hdir : ¬ strictlyAbove dir file) :
    rootView root dir = revealView root file dir := by
  simp [rootView, revealView, hdir]

theorem Skeleton.hidden_rootView_iff (hskel : Skeleton items) (hx : x ∈ items) :
    hiddenIn items (rootView root) x.info.fullPath = true ↔
      ∃ above ∈ itemsAbove items x.info.fullPath, above.info.fullPath ≠ root := by
  simp [hskel.hiddenIn_iff_above hx, rootView]

theorem Skeleton.hidden_revealView_iff (hskel : Skeleton items) (hx : x ∈ items) :
    hiddenIn items (revealView root file) x.info.fullPath = true ↔
      ∃ above ∈ itemsAbove items x.info.fullPath, above.info.fullPath ≠ root ∧
        ¬ strictlyAbove above.info.fullPath file := by
  rw [hskel.hiddenIn_iff_above hx]
  refine exists_congr fun above => and_congr_right fun _ => ?_
  rw [revealView, decide_eq_true_iff]

/-- An item in a directory above the file is shown. -/
theorem Skeleton.reveal_dressItem (hskel : Skeleton items) (hx : x ∈ items)
    (hnot : ¬ strictlyAbove x.info.fullPath file)
    (habove : ∀ above ∈ itemsAbove items x.info.fullPath,
      strictlyAbove above.info.fullPath file) :
    (dressItem items (rootView root) x).reveal = dressItem items (revealView root file) x := by
  have hshown : hiddenIn items (revealView root file) x.info.fullPath = false := by
    rw [Bool.eq_false_iff, Ne, hskel.hidden_revealView_iff hx]
    rintro ⟨above, hmem, -, hcontra⟩
    exact hcontra (habove above hmem)
  simp only [dressItem, FileTreeItem.reveal, hshown, revealView_of_not hnot]
  rfl

/-- An item in another directory stays hidden. -/
theorem Skeleton.dressItem_hidden (hskel : Skeleton items) (hx : x ∈ items)
    (hnot : ¬ strictlyAbove x.info.fullPath file)
    (habove : ∃ above ∈ itemsAbove items x.info.fullPath, above.info.fullPath ≠ root ∧
      ¬ strictlyAbove above.info.fullPath file) :
    dressItem items (rootView root) x = dressItem items (revealView root file) x := by
  have hhidden := (hskel.hidden_revealView_iff hx).mpr habove
  have hold : hiddenIn items (rootView root) x.info.fullPath = true := by
    obtain ⟨above, hmem, hne, -⟩ := habove
    exact (hskel.hidden_rootView_iff hx).mpr ⟨above, hmem, hne⟩
  simp only [dressItem, hhidden, hold, revealView_of_not hnot]

/-- A directory above the file is opened. -/
theorem Skeleton.expand_dressItem (hskel : Skeleton items) (hx : x ∈ items)
    (hpath : x.kind.isPath = true) (habove : strictlyAbove x.info.fullPath file) :
    (dressItem items (rootView root) x).expandPath.reveal =
      dressItem items (revealView root file) x := by
  have hshown : hiddenIn items (revealView root file) x.info.fullPath = false := by
    rw [Bool.eq_false_iff, Ne, hskel.hidden_revealView_iff hx]
    rintro ⟨above, hmem, -, hcontra⟩
    obtain ⟨-, hprefixed, hne⟩ := mem_itemsAbove_iff.mp hmem
    exact hcontra (strictlyAbove_trans (strictlyAbove_iff.mpr ⟨hprefixed, hne⟩)
      (strictlyAbove_iff.mp habove).1)
  have hopen : revealView root file x.info.fullPath = false := by
    simp [revealView, habove]
  simp only [dressItem, FileTreeItem.reveal, FileTreeItem.expandPath, hshown, hopen, hpath]
  rfl

end Views

theorem FileTreeItem.reveal_of_visible {item : FileTreeItem}
    (hvisible : item.info.visible = true) : item.reveal = item := by
  rcases item with ⟨⟨indent, visible, folded, fullPath⟩, kind⟩
  obtain rfl : visible = true := hvisible
  rfl

section Upward

variable {items more : List FileTreeItem} {root file : FileTreeItem} (hskel : Skeleton items)
  (hroot : items = root :: more) (hfile : file ∈ items)
include hskel

/-- The first directory above the file that is met going up is one level up. -/
theorem itemsAbove_succ {pre mid post : List FileTreeItem} {x t : FileTreeItem}
    (hsplit : items = pre ++ x :: (mid ++ t :: post)) (hx : x.info.fullPath <+: t.info.fullPath)
    (ht : t.info.fullPath <+: file.info.fullPath)
    (hmid : ∀ m ∈ mid, ¬ m.info.fullPath <+: file.info.fullPath) :
    t.info.indent = x.info.indent + 1 := by
  have hatX := hskel.at_split hsplit
  have hatT := @Skeleton.at_split items (pre ++ x :: mid) post t hskel (by simp [hsplit])
  have hne : x.info.fullPath ≠ t.info.fullPath := hatX.ne_of_mem_rest (by simp)
  rw [hskel.indent t hatT.mem, hskel.indent x hatX.mem, ← List.length_cons (a := x)]
  apply List.Perm.length_eq
  refine (List.perm_ext_iff_of_nodup (hskel.nodup.filter _) ?_).mpr fun above => ?_
  · refine List.nodup_cons.mpr ⟨fun h => ?_, hskel.nodup.filter _⟩
    exact (mem_itemsAbove_iff.mp h).2.2 rfl
  · rw [List.mem_cons]
    constructor
    · intro habove
      obtain ⟨hmem, hprefixed, hneT⟩ := mem_itemsAbove_iff.mp habove
      have hbefore := hatT.mem_before_of_above habove
      rw [List.mem_append, List.mem_cons] at hbefore
      rcases hbefore with hbefore | rfl | hbefore
      · refine Or.inr (mem_itemsAbove_iff.mpr ⟨hmem, ?_, (hatX.ne_of_mem_before hbefore).symm⟩)
        exact (List.prefix_or_prefix_of_prefix hprefixed hx).resolve_right
          (hatX.not_prefix_before hbefore)
      · exact Or.inl rfl
      · exact absurd (hprefixed.trans ht) (hmid above hbefore)
    · rintro (rfl | habove)
      · exact mem_itemsAbove_iff.mpr ⟨hatX.mem, hx, hne⟩
      · obtain ⟨hmem, habove⟩ := mem_itemsAbove_iff.mp habove
        exact mem_itemsAbove_iff.mpr ⟨hmem, strictlyAbove_iff.mp
          (strictlyAbove_trans (strictlyAbove_iff.mpr habove) hx)⟩

/-- What is passed going up lies in the directory that is come from, or deeper. -/
theorem itemsAbove_sub {pre mid post : List FileTreeItem} {x t : FileTreeItem}
    (hsplit : items = pre ++ x :: (mid ++ t :: post))
    (hx : ¬ x.info.fullPath <+: file.info.fullPath)
    (ht : t.info.fullPath <+: file.info.fullPath)
    (hmid : ∀ m ∈ mid, ¬ m.info.fullPath <+: file.info.fullPath) :
    ∀ above ∈ itemsAbove items t.info.fullPath, above ∈ itemsAbove items x.info.fullPath := by
  intro above habove
  have hatX := hskel.at_split hsplit
  have hatT := @Skeleton.at_split items (pre ++ x :: mid) post t hskel (by simp [hsplit])
  obtain ⟨hmem, hprefixed, hneT⟩ := mem_itemsAbove_iff.mp habove
  have hbefore := hatT.mem_before_of_above habove
  rw [List.mem_append, List.mem_cons] at hbefore
  rcases hbefore with hbefore | rfl | hbefore
  · obtain ⟨first, between, rfl⟩ := List.append_of_mem hbefore
    have hatAbove := @Skeleton.at_split items first
      (between ++ x :: (mid ++ t :: post)) above hskel (by simp [hsplit])
    refine mem_itemsAbove_iff.mpr ⟨hmem, ?_, hatAbove.ne_of_mem_rest (by simp)⟩
    exact @At.prefix_of_between _ _ _ _ hatAbove (between ++ x :: mid) post t (by simp)
      hprefixed x (by simp)
  · exact absurd (hprefixed.trans ht) hx
  · exact absurd (hprefixed.trans ht) (hmid above hbefore)

/-- Once a directory above the file is shown, nothing changes before it. -/
theorem dressItem_before {before rest : List FileTreeItem} {x : FileTreeItem}
    (hat : At items before x rest) (hx : x.info.fullPath <+: file.info.fullPath)
    (hshown : hiddenIn items (rootView root.info.fullPath) x.info.fullPath = false) :
    ∀ y ∈ before, dressItem items (rootView root.info.fullPath) y =
      dressItem items (revealView root.info.fullPath file.info.fullPath) y := by
  have honly : ∀ y ∈ before, strictlyAbove y.info.fullPath file.info.fullPath →
      y.info.fullPath = root.info.fullPath := by
    intro y hy habove
    by_contra hne
    have hmem := hat.mem_itemsAbove_of_before hy (strictlyAbove_iff.mp habove).1 hx
    have := (hskel.hidden_rootView_iff hat.mem).mpr ⟨y, hmem, hne⟩
    exact absurd this (by simp [hshown])
  intro y hy
  apply dressItem_congr
  · by_cases habove : strictlyAbove y.info.fullPath file.info.fullPath
    · simp [rootView, revealView, honly y hy habove]
    · exact revealView_of_not habove
  · intro z hz hprefixed hne
    have hzy : z ∈ before := by
      obtain ⟨first, between, rfl⟩ := List.append_of_mem hy
      have hatY := @Skeleton.at_split items first (between ++ x :: rest) y hskel
        (by simp [hat.split])
      exact List.mem_append_left _
        (hatY.mem_before_of_above (mem_itemsAbove_iff.mpr ⟨hz, hprefixed, hne⟩))
    by_cases habove : strictlyAbove z.info.fullPath file.info.fullPath
    · simp [rootView, revealView, honly z hzy habove]
    · exact revealView_of_not habove

include hroot

theorem root_mem_itemsAbove {before rest : List FileTreeItem} {t : FileTreeItem}
    (hat : At items before t rest) (hne : before ≠ []) :
    root ∈ itemsAbove items t.info.fullPath := by
  have hatRoot := @Skeleton.at_split items [] more root hskel hroot
  obtain ⟨first, before, rfl⟩ := List.exists_cons_of_ne_nil hne
  have hmore : t ∈ more := by
    have := hat.split
    rw [hroot, List.cons_append, List.cons_eq_cons] at this
    simp [this.2]
  exact mem_itemsAbove_iff.mpr ⟨hatRoot.mem, hskel.rooted root more hroot t hmore,
    hatRoot.ne_of_mem_rest hmore⟩

include hfile

/-- Going up opens the directories above the file and shows what is in them. -/
theorem showUpward_eq {pre mid post : List FileTreeItem} {t : FileTreeItem}
    (hsplit : items = pre ++ (mid ++ t :: post)) (ht : t.info.fullPath <+: file.info.fullPath)
    (hmid : ∀ m ∈ mid, ¬ m.info.fullPath <+: file.info.fullPath) :
    FileTreeItems.showUpward t.info.indent
        (pre.map (dressItem items (rootView root.info.fullPath))).reverse =
      .ok (pre.map (dressItem items
        (revealView root.info.fullPath file.info.fullPath))).reverse := by
  induction pre using List.reverseRecOn generalizing mid t post with
  | nil => rfl
  | append_singleton pre x ih =>
      have hsplitX : items = pre ++ x :: (mid ++ t :: post) := by simp [hsplit]
      have hatX := hskel.at_split hsplitX
      have hatT := @Skeleton.at_split items (pre ++ x :: mid) post t hskel (by simp [hsplit])
      simp only [List.map_append, List.map_cons, List.map_nil, List.reverse_append,
        List.reverse_cons, List.reverse_nil, List.nil_append, List.cons_append]
      rw [FileTreeItems.showUpward]
      change (if x.info.indent = t.info.indent then _ else _) = _
      by_cases hx : x.info.fullPath <+: file.info.fullPath
      · have habove : strictlyAbove x.info.fullPath file.info.fullPath := by
          refine strictlyAbove_iff.mpr ⟨hx, fun h => ?_⟩
          exact hatX.not_prefix_item (by simp) (h ▸ ht)
        have hxt := hatT.mem_itemsAbove_of_before (by simp) hx ht
        have hsucc := itemsAbove_succ hskel hsplitX (mem_itemsAbove_iff.mp hxt).2.1 ht hmid
        have hpath := hskel.onlyDirs x hatX.mem file hfile habove
        have hexpand := @Skeleton.expand_dressItem items x root.info.fullPath file.info.fullPath
          hskel hatX.mem hpath habove
        rw [if_neg (by omega), if_neg (by omega)]
        change (if x.info.indent = t.info.indent - 1 then _ else _) = _
        rw [if_pos (by omega)]
        cases hshown : hiddenIn items (rootView root.info.fullPath) x.info.fullPath with
        | false =>
            have hvisible : (dressItem items (rootView root.info.fullPath) x).info.visible =
                true := by simp [dressItem, hshown]
            have hbefore := dressItem_before hskel hatX hx hshown
            have hstays : (dressItem items (rootView root.info.fullPath) x).expandPath.reveal =
                (dressItem items (rootView root.info.fullPath) x).expandPath :=
              FileTreeItem.reveal_of_visible hvisible
            rw [hstays] at hexpand
            rw [if_pos hvisible, hexpand, List.map_congr_left hbefore]
        | true =>
            have hvisible : (dressItem items (rootView root.info.fullPath) x).info.visible =
                false := by simp [dressItem, hshown]
            have hrun := @ih [] (mid ++ t :: post) x (by simp [hsplit]) hx (by simp)
            rw [if_neg (by simp [hvisible]), hexpand]
            change (do return _ :: (← FileTreeItems.showUpward x.info.indent _)) = _
            rw [hrun]
            rfl
      · have hsub := itemsAbove_sub hskel hsplitX hx ht hmid
        obtain ⟨hle, heq⟩ := itemsAbove_length hsub
        rw [← hskel.indent t hatT.mem, ← hskel.indent x hatX.mem] at hle heq
        have hnot : ¬ strictlyAbove x.info.fullPath file.info.fullPath :=
          fun h => hx (strictlyAbove_iff.mp h).1
        have hrun := @ih (x :: mid) post t (by simp [hsplit]) ht
          (fun m hm => (List.mem_cons.mp hm).elim (fun h => h ▸ hx) (hmid m))
        by_cases hsame : x.info.indent = t.info.indent
        · have hreveal := @Skeleton.reveal_dressItem items x root.info.fullPath file.info.fullPath
            hskel hatX.mem hnot fun above hmem => strictlyAbove_trans (strictlyAbove_iff.mpr
              (mem_itemsAbove_iff.mp (heq hsame.symm above hmem)).2) ht
          rw [if_pos hsame, hrun, hreveal]
          rfl
        · have hpos : t.info.indent ≠ 0 := by
            rw [hskel.indent t hatT.mem]
            exact (List.length_pos_of_mem
              (root_mem_itemsAbove hskel hroot hatT (by simp))).ne'
          have hother : ∃ above ∈ itemsAbove items x.info.fullPath,
              above.info.fullPath ≠ root.info.fullPath ∧
                ¬ strictlyAbove above.info.fullPath file.info.fullPath := by
            by_contra hnone
            refine hsame (le_antisymm ?_ hle)
            rw [hskel.indent t hatT.mem, hskel.indent x hatX.mem]
            refine (itemsAbove_length fun above hmem => ?_).1
            by_cases hrootPath : above.info.fullPath = root.info.fullPath
            · have := mem_itemsAbove_iff.mp (root_mem_itemsAbove hskel hroot hatT (by simp))
              rw [← hrootPath] at this
              exact mem_itemsAbove_iff.mpr ⟨(mem_itemsAbove_iff.mp hmem).1, this.2⟩
            · have habove : strictlyAbove above.info.fullPath file.info.fullPath := by
                by_contra hcontra
                exact hnone ⟨above, hmem, hrootPath, hcontra⟩
              have hbefore := hatX.mem_before_of_above hmem
              exact hatT.mem_itemsAbove_of_before (List.mem_append_left _ hbefore)
                (strictlyAbove_iff.mp habove).1 ht
          rw [if_neg hsame, if_neg hpos]
          change (if x.info.indent = t.info.indent - 1 then _ else _) = _
          rw [if_neg (by omega), hrun, hskel.dressItem_hidden hatX.mem hnot hother]
          rfl

end Upward

section Downward

/-- Behind the file no level is left out on the way up: the scan shows what is on the level
of the last item shown and what is one level up.  What is right under the root is shown
anyway, so that the scan may miss it, when it comes upon nothing on the two levels behind. -/
def NoGap (folder : ℕ) : List ℕ → Prop
  | [] => True
  | indent :: rest =>
      if folder ≤ indent then NoGap folder rest
      else if indent + 1 = folder then NoGap indent rest
      else indent ≤ 1 ∧ ∀ later ∈ rest, later ≠ folder ∧ later + 1 ≠ folder

instance decidableNoGap : (folder : ℕ) → (indents : List ℕ) → Decidable (NoGap folder indents)
  | _, [] => isTrue trivial
  | folder, indent :: rest =>
      have := decidableNoGap folder rest
      have := decidableNoGap indent rest
      inferInstanceAs (Decidable (if folder ≤ indent then NoGap folder rest
        else if indent + 1 = folder then NoGap indent rest
        else indent ≤ 1 ∧ ∀ later ∈ rest, later ≠ folder ∧ later + 1 ≠ folder))

variable {items more : List FileTreeItem} {root file : FileTreeItem}

theorem noGap_zero (indents : List ℕ) : NoGap 0 indents := by
  induction indents with
  | nil => trivial
  | cons indent rest ih =>
      rw [NoGap, if_pos (Nat.zero_le indent)]
      exact ih

theorem showDownward_zero {list : List FileTreeItem}
    (hdeep : ∀ item ∈ list, item.info.indent ≠ 0) :
    FileTreeItems.showDownward 0 list = list := by
  induction list with
  | nil => rfl
  | cons item list ih =>
      rw [FileTreeItems.showDownward, if_neg (hdeep item List.mem_cons_self), if_neg (by simp),
        ih fun other hother => hdeep other (List.mem_cons_of_mem _ hother)]

/-- The scan changes nothing when it comes upon nothing on its two levels. -/
theorem showDownward_eq_self_iff {folder : ℕ} {list : List FileTreeItem} (hpos : 0 < folder)
    (hhidden : ∀ item ∈ list, item.info.indent = folder ∨ item.info.indent + 1 = folder →
      item.info.visible = false) :
    FileTreeItems.showDownward folder list = list ↔
      ∀ item ∈ list, item.info.indent ≠ folder ∧ item.info.indent + 1 ≠ folder := by
  induction list with
  | nil => simp [FileTreeItems.showDownward]
  | cons item list ih =>
      have hne : item.info.indent = folder ∨ item.info.indent + 1 = folder →
          item.reveal ≠ item := fun hlevel heq => by
        have := congrArg (fun item : FileTreeItem => item.info.visible) heq
        rw [hhidden item List.mem_cons_self hlevel] at this
        exact absurd this (by simp [FileTreeItem.reveal])
      rw [FileTreeItems.showDownward, List.forall_mem_cons,
        ← ih fun other hother => hhidden other (List.mem_cons_of_mem _ hother)]
      by_cases hsame : item.info.indent = folder
      · rw [if_pos hsame]
        refine iff_of_false (fun h => hne (Or.inl hsame) (List.cons_eq_cons.mp h).1) ?_
        exact fun h => h.1.1 hsame
      · by_cases hup : item.info.indent + 1 = folder
        · rw [if_neg hsame, if_pos ⟨hpos, by omega⟩]
          refine iff_of_false (fun h => hne (Or.inr hup) (List.cons_eq_cons.mp h).1) ?_
          exact fun h => h.1.2 hup
        · rw [if_neg hsame, if_neg (fun h => hup (by omega)), List.cons_eq_cons]
          simp [hsame, hup]

/-- What lies right under the root has nothing but the root above it. -/
theorem indent_le_one_iff (hskel : Skeleton items) (hroot : items = root :: more)
    {before rest : List FileTreeItem} {x : FileTreeItem} (hat : At items before x rest) :
    x.info.indent ≤ 1 ↔ ∀ above ∈ itemsAbove items x.info.fullPath,
      above.info.fullPath = root.info.fullPath := by
  have hrootAt := @Skeleton.at_split items [] more root hskel hroot
  have hpathRoot : ∀ above ∈ items, above.info.fullPath = root.info.fullPath → above = root := by
    intro above hmem hpath
    rw [hroot] at hmem
    exact (List.mem_cons.mp hmem).resolve_right fun h => hrootAt.ne_of_mem_rest h hpath.symm
  rw [hskel.indent x hat.mem]
  constructor
  · intro hle above habove
    have hbefore : before ≠ [] := List.ne_nil_of_mem (hat.mem_before_of_above habove)
    have hmem := root_mem_itemsAbove hskel hroot hat hbefore
    have hlength : (itemsAbove items x.info.fullPath).length = 1 :=
      le_antisymm hle (List.length_pos_of_mem hmem)
    obtain ⟨only, honly⟩ := List.length_eq_one_iff.mp hlength
    rw [honly, List.mem_singleton] at habove hmem
    rw [habove, hmem]
  · intro hall
    have hreplicate : itemsAbove items x.info.fullPath =
        List.replicate (itemsAbove items x.info.fullPath).length root :=
      List.eq_replicate_of_mem fun above habove =>
        hpathRoot above (mem_itemsAbove_iff.mp habove).1 (hall above habove)
    have hnodup : (itemsAbove items x.info.fullPath).Nodup := hskel.nodup.filter _
    rw [hreplicate] at hnodup
    exact List.nodup_replicate.mp hnodup

/-- With only the root open, what lies right under the root is shown. -/
theorem shown_rootView_iff (hskel : Skeleton items) (hroot : items = root :: more)
    {before rest : List FileTreeItem} {x : FileTreeItem} (hat : At items before x rest) :
    hiddenIn items (rootView root.info.fullPath) x.info.fullPath = false ↔
      x.info.indent ≤ 1 := by
  rw [indent_le_one_iff hskel hroot hat, Bool.eq_false_iff, Ne,
    hskel.hidden_rootView_iff hat.mem]
  simp

/-- Behind an item right under the root, what the file opens opens nothing. -/
theorem dressItem_behind (hskel : Skeleton items) (hroot : items = root :: more)
    {before post : List FileTreeItem} {x : FileTreeItem} (hat : At items before x post)
    (hfile : file ∈ before) (hle : x.info.indent ≤ 1) :
    ∀ y ∈ post, dressItem items (rootView root.info.fullPath) y =
      dressItem items (revealView root.info.fullPath file.info.fullPath) y := by
  intro y hy
  obtain ⟨between, after, rfl⟩ := List.append_of_mem hy
  have hatY := hat.behind rfl
  have hbehind : ∀ z ∈ x :: (between ++ y :: after),
      ¬ strictlyAbove z.info.fullPath file.info.fullPath := by
    intro z hz habove
    rcases List.mem_cons.mp hz with rfl | hz
    · exact hat.not_prefix_before hfile (strictlyAbove_iff.mp habove).1
    · obtain ⟨first, last, hsplit⟩ := List.append_of_mem hz
      exact (hat.behind hsplit).not_prefix_before (by simp [hfile])
        (strictlyAbove_iff.mp habove).1
  by_cases hsome : ∃ above ∈ itemsAbove items y.info.fullPath,
      above.info.fullPath ≠ root.info.fullPath
  · obtain ⟨above, hmem, hne⟩ := hsome
    refine hskel.dressItem_hidden hatY.mem (hbehind y (by simp)) ⟨above, hmem, hne, ?_⟩
    intro habove
    have hbefore := hatY.mem_before_of_above hmem
    rw [List.mem_append] at hbefore
    rcases hbefore with hbefore | hbefore
    · obtain ⟨first, last, rfl⟩ := List.append_of_mem hbefore
      have hatAbove := @Skeleton.at_split items first
        (last ++ x :: (between ++ y :: after)) above hskel (by simp [hat.split])
      have hprefixed := @At.prefix_of_between _ _ _ _ hatAbove (last ++ x :: between) after y
        (by simp) (mem_itemsAbove_iff.mp hmem).2.1 x (by simp)
      exact hne ((indent_le_one_iff hskel hroot hat).mp hle above
        (mem_itemsAbove_iff.mpr ⟨hatAbove.mem, hprefixed, hatAbove.ne_of_mem_rest (by simp)⟩))
    · refine hbehind above ?_ habove
      rw [List.mem_cons] at hbefore ⊢
      exact hbefore.imp_right fun h => List.mem_append_left _ h
  · have hnone : ∀ closed : View, (∀ above ∈ itemsAbove items y.info.fullPath,
        closed above.info.fullPath = false) → hiddenIn items closed y.info.fullPath = false := by
      intro closed hopen
      rw [Bool.eq_false_iff, Ne, hskel.hiddenIn_iff_above hatY.mem]
      rintro ⟨above, hmem, hclosed⟩
      exact absurd hclosed (by simp [hopen above hmem])
    have honly : ∀ above ∈ itemsAbove items y.info.fullPath,
        above.info.fullPath = root.info.fullPath := fun above hmem => by
      by_contra hne
      exact hsome ⟨above, hmem, hne⟩
    rw [dressItem, dressItem, hnone _ fun above hmem => by simp [rootView, honly above hmem],
      hnone _ fun above hmem => by simp [revealView, honly above hmem],
      revealView_of_not (hbehind y (by simp))]

/-- The scan behind the file shows the view that opens what lies above it, exactly when it
leaves no level out. -/
theorem showDownward_iff (hskel : Skeleton items) (hroot : items = root :: more)
    {pre mid post : List FileTreeItem} {t : FileTreeItem}
    (hsplit : items = pre ++ t :: (mid ++ post)) (hne : pre ≠ [])
    (hfile : file ∈ pre ++ t :: mid)
    (habove : ∀ above ∈ itemsAbove items t.info.fullPath,
      strictlyAbove above.info.fullPath file.info.fullPath)
    (hnot : ¬ strictlyAbove t.info.fullPath file.info.fullPath)
    (hmid : ∀ m ∈ mid, t.info.fullPath <+: m.info.fullPath) :
    FileTreeItems.showDownward t.info.indent
        (post.map (dressItem items (rootView root.info.fullPath))) =
      post.map (dressItem items (revealView root.info.fullPath file.info.fullPath)) ↔
      NoGap t.info.indent (post.map fun item => item.info.indent) := by
  induction post generalizing pre mid t with
  | nil => simp [FileTreeItems.showDownward, NoGap]
  | cons x post ih =>
      have hatT := hskel.at_split hsplit
      have hatX := @Skeleton.at_split items (pre ++ t :: mid) post x hskel (by simp [hsplit])
      have hnotX : ¬ strictlyAbove x.info.fullPath file.info.fullPath := fun h =>
        hatX.not_prefix_before hfile (strictlyAbove_iff.mp h).1
      rw [List.map_cons, List.map_cons, List.map_cons, FileTreeItems.showDownward, NoGap]
      change (if x.info.indent = t.info.indent then _ else _) = _ ↔ _
      by_cases hunder : t.info.fullPath <+: x.info.fullPath
      · -- deeper than the last item shown
        have hrootAbove := root_mem_itemsAbove hskel hroot hatT hne
        have htx : t ∈ itemsAbove items x.info.fullPath :=
          mem_itemsAbove_iff.mpr ⟨hatT.mem, hunder, hatT.ne_of_mem_rest (by simp)⟩
        obtain ⟨hle, heq⟩ := @itemsAbove_length items t.info.fullPath x.info.fullPath
          fun above hmem => by
            obtain ⟨hin, hstrict⟩ := mem_itemsAbove_iff.mp hmem
            exact mem_itemsAbove_iff.mpr ⟨hin, strictlyAbove_iff.mp
              (strictlyAbove_trans (strictlyAbove_iff.mpr hstrict) hunder)⟩
        rw [← hskel.indent t hatT.mem, ← hskel.indent x hatX.mem] at hle heq
        have hlt : t.info.indent ≠ x.info.indent := fun h =>
          (mem_itemsAbove_iff.mp (heq h t htx)).2.2 rfl
        have hhidden := hskel.dressItem_hidden hatX.mem hnotX
          ⟨t, htx, (mem_itemsAbove_iff.mp hrootAbove).2.2.symm, hnot⟩
        have hrun := @ih pre (mid ++ [x]) t (by simp [hsplit]) hne
          (by rw [← List.cons_append, ← List.append_assoc]; exact List.mem_append_left _ hfile)
          habove hnot (fun m hm => (List.mem_append.mp hm).elim (hmid m) fun h =>
            List.mem_singleton.mp h ▸ hunder)
        rw [if_neg (Ne.symm hlt), if_pos hle]
        change (if t.info.indent > 0 ∧ x.info.indent = t.info.indent - 1 then _ else _) = _ ↔ _
        rw [if_neg (by omega), hhidden, List.cons_eq_cons, hrun]
        exact and_iff_right rfl
      · have hsub : ∀ above ∈ itemsAbove items x.info.fullPath,
            above ∈ itemsAbove items t.info.fullPath := by
          intro above hmem
          have hprefixed := (mem_itemsAbove_iff.mp hmem).2.1
          have hbefore := hatX.mem_before_of_above hmem
          rw [List.mem_append, List.mem_cons] at hbefore
          rcases hbefore with hbefore | rfl | hbefore
          · obtain ⟨first, last, rfl⟩ := List.append_of_mem hbefore
            have hatAbove := @Skeleton.at_split items first
              (last ++ t :: (mid ++ x :: post)) above hskel (by simp [hsplit])
            exact mem_itemsAbove_iff.mpr ⟨hatAbove.mem,
              @At.prefix_of_between _ _ _ _ hatAbove (last ++ t :: mid) post x (by simp)
                hprefixed t (by simp), hatAbove.ne_of_mem_rest (by simp)⟩
          · exact absurd hprefixed hunder
          · exact absurd ((hmid above hbefore).trans hprefixed) hunder
        obtain ⟨hle, heq⟩ := itemsAbove_length hsub
        rw [← hskel.indent t hatT.mem, ← hskel.indent x hatX.mem] at hle heq
        have hreveal := @Skeleton.reveal_dressItem items x root.info.fullPath file.info.fullPath
          hskel hatX.mem hnotX fun above hmem => habove above (hsub above hmem)
        have hrun := @ih (pre ++ t :: mid) [] x (by simp [hsplit]) (by simp)
          (List.mem_append_left _ hfile) (fun above hmem => habove above (hsub above hmem)) hnotX
          (by simp)
        change (if x.info.indent = t.info.indent then _ else
          if t.info.indent > 0 ∧ x.info.indent = t.info.indent - 1 then _ else _) = _ ↔ _
        by_cases hsame : x.info.indent = t.info.indent
        · rw [if_pos hsame, if_pos (by omega), hreveal, List.cons_eq_cons, ← hsame, hrun]
          exact and_iff_right rfl
        · by_cases hup : x.info.indent + 1 = t.info.indent
          · rw [if_neg hsame, if_pos ⟨by omega, by omega⟩, if_neg (by omega), if_pos hup,
              hreveal, List.cons_eq_cons]
            change _ ∧ FileTreeItems.showDownward x.info.indent _ = _ ↔ _
            rw [hrun]
            exact and_iff_right rfl
          · have hhead : dressItem items (rootView root.info.fullPath) x =
                dressItem items (revealView root.info.fullPath file.info.fullPath) x ↔
                x.info.indent ≤ 1 := by
              rw [← hreveal, ← shown_rootView_iff hskel hroot hatX]
              constructor
              · intro h
                have := congrArg (fun item : FileTreeItem => item.info.visible) h
                simpa [dressItem, FileTreeItem.reveal] using this
              · intro hshown
                refine (FileTreeItem.reveal_of_visible ?_).symm
                simp [dressItem, hshown]
            rw [if_neg hsame, if_neg (by omega), if_neg (by omega), if_neg hup,
              List.cons_eq_cons, hhead]
            refine and_congr_right fun hone => ?_
            have hpos : 0 < x.info.indent := by
              rw [hskel.indent x hatX.mem]
              exact List.length_pos_of_mem (root_mem_itemsAbove hskel hroot hatX (by simp))
            have hbehind := dressItem_behind hskel hroot hatX hfile hone
            rw [← List.map_congr_left hbehind, showDownward_eq_self_iff (by omega) ?_]
            · rw [List.forall_mem_map, List.forall_mem_map]
              exact Iff.rfl
            · rintro item hitem hlevel
              obtain ⟨y, hy, rfl⟩ := List.mem_map.mp hitem
              obtain ⟨between, after, rfl⟩ := List.append_of_mem hy
              change y.info.indent = _ ∨ y.info.indent + 1 = _ at hlevel
              have hdeep := mt (shown_rootView_iff hskel hroot (hatX.behind rfl)).mp
                (show ¬ y.info.indent ≤ 1 by omega)
              simpa [dressItem] using hdeep

end Downward

section ShowElement

variable {items more before rest : List FileTreeItem} {root file : FileTreeItem}

/-- Showing a file: all above it is opened, and what is behind it is scanned. -/
theorem showElement_eq (hskel : Skeleton items) (hroot : items = root :: more)
    (hat : At items before file rest) (files : ℕ) :
    FileTreeItems.showElement ⟨dress items (rootView root.info.fullPath), files⟩ before.length =
      .ok ⟨before.map (dressItem items (revealView root.info.fullPath file.info.fullPath)) ++
        dressItem items (revealView root.info.fullPath file.info.fullPath) file ::
          FileTreeItems.showDownward file.info.indent
            (rest.map (dressItem items (rootView root.info.fullPath))), files⟩ := by
  have hlength : (before.map (dressItem items (rootView root.info.fullPath))).length =
      before.length := List.length_map ..
  have hself : ¬ strictlyAbove file.info.fullPath file.info.fullPath = true := fun h =>
    (strictlyAbove_iff.mp h).2 rfl
  have hreveal := @Skeleton.reveal_dressItem items file root.info.fullPath file.info.fullPath
    hskel hat.mem hself fun above hmem => strictlyAbove_iff.mpr (mem_itemsAbove_iff.mp hmem).2
  have hupward := @showUpward_eq items more root file hskel hroot hat.mem before [] rest file
    (by simp [hat.split]) List.prefix_rfl (by simp)
  have htake : (dress items (rootView root.info.fullPath)).take (before.length + 1) =
      before.map (dressItem items (rootView root.info.fullPath)) ++
        [dressItem items (rootView root.info.fullPath) file] := by
    rw [dress_eq hat, ← hlength, List.take_append]
    simp
  have hdrop : (dress items (rootView root.info.fullPath)).drop (before.length + 1) =
      rest.map (dressItem items (rootView root.info.fullPath)) := by
    rw [dress_eq hat, ← hlength, List.drop_append]
    simp
  have hget : (dress items (rootView root.info.fullPath))[before.length]? =
      some (dressItem items (rootView root.info.fullPath) file) := by
    rw [dress_eq hat, ← hlength, List.getElem?_append_right le_rfl]
    simp
  have hindent : (dressItem items (rootView root.info.fullPath) file).info.indent =
      file.info.indent := rfl
  have hrun : FileTreeItems.showUpward file.info.indent
      (before.map (dressItem items (rootView root.info.fullPath)) ++
        [dressItem items (rootView root.info.fullPath) file]).reverse =
      .ok (dressItem items (revealView root.info.fullPath file.info.fullPath) file ::
        (before.map (dressItem items
          (revealView root.info.fullPath file.info.fullPath))).reverse) := by
    rw [List.reverse_append, List.reverse_singleton, List.singleton_append,
      FileTreeItems.showUpward, if_pos hindent, hupward, hreveal]
    rfl
  rw [FileTreeItems.showElement]
  simp only [hget, htake, hdrop, hindent, hrun]
  simp

/-- A view is what it is of the directories. -/
theorem Skeleton.dress_congr (hskel : Skeleton items) {closed closed' : View}
    (hsame : ∀ item ∈ items, item.kind.isPath = true →
      closed item.info.fullPath = closed' item.info.fullPath) :
    dress items closed = dress items closed' := by
  refine List.map_congr_left fun item hitem => ?_
  have hhidden : hiddenIn items closed item.info.fullPath =
      hiddenIn items closed' item.info.fullPath :=
    hiddenIn_congr fun above hmem hprefixed hne => hsame above hmem
      (hskel.onlyDirs above hmem item hitem (strictlyAbove_iff.mpr ⟨hprefixed, hne⟩))
  rw [dressItem, dressItem, hhidden]
  by_cases hpath : item.kind.isPath = true
  · rw [hsame item hitem hpath]
  · simp [hpath]

theorem kind_showDownward (folder : ℕ) (list : List FileTreeItem) :
    (FileTreeItems.showDownward folder list).map FileTreeItem.kind =
      list.map FileTreeItem.kind := by
  induction list generalizing folder with
  | nil => rfl
  | cons item list ih =>
      rw [FileTreeItems.showDownward]
      split_ifs <;> simp [ih, FileTreeItem.reveal]

/-- Only what the file is under can be above it. -/
theorem At.kind_behind (hat : At items before file rest) (root : FilePath) :
    rest.map (FileTreeItem.kind ∘ dressItem items (rootView root)) =
      rest.map (FileTreeItem.kind ∘ dressItem items (revealView root file.info.fullPath)) := by
  refine List.map_congr_left fun other hother => ?_
  have hnot : ¬ strictlyAbove other.info.fullPath file.info.fullPath = true := fun h =>
    hat.not_prefix_item hother (strictlyAbove_iff.mp h).1
  simp only [Function.comp_apply, kind_dressItem, revealView_of_not hnot]

/-- The tree shows what lies above the file open and all else but the root closed, exactly
when the scan behind the file leaves no level out. -/
theorem showDownward_file_iff (hskel : Skeleton items) (hroot : items = root :: more)
    (hat : At items before file rest) :
    FileTreeItems.showDownward file.info.indent
        (rest.map (dressItem items (rootView root.info.fullPath))) =
      rest.map (dressItem items (revealView root.info.fullPath file.info.fullPath)) ↔
      NoGap file.info.indent (rest.map fun item => item.info.indent) := by
  by_cases hne : before = []
  · -- the file is the root: nothing is above it, and all is deeper
    have hsplit := hat.split
    rw [hne, List.nil_append, hroot, List.cons_eq_cons] at hsplit
    obtain ⟨rfl, rfl⟩ := hsplit
    have habove : ∀ above ∈ items,
        ¬ strictlyAbove above.info.fullPath root.info.fullPath = true := by
      intro above hmem habove
      rw [hroot, List.mem_cons] at hmem
      rcases hmem with rfl | hmem
      · exact (strictlyAbove_iff.mp habove).2 rfl
      · exact hat.not_prefix_item hmem (strictlyAbove_iff.mp habove).1
    have hzero : root.info.indent = 0 := by
      rw [hskel.indent root hat.mem, itemsAbove, List.filter_eq_nil_iff.mpr habove]
      rfl
    have hdeep : ∀ other ∈ more, other.info.indent ≠ 0 := by
      intro other hother
      obtain ⟨first, last, rfl⟩ := List.append_of_mem hother
      rw [hskel.indent other (hat.mem_of_rest hother)]
      exact (List.length_pos_of_mem
        (root_mem_itemsAbove hskel hroot (hat.behind rfl) (by simp))).ne'
    have hsame : more.map (dressItem items (rootView root.info.fullPath)) =
        more.map (dressItem items (revealView root.info.fullPath root.info.fullPath)) :=
      List.map_congr_left fun other hother => dressItem_congr
        (revealView_of_not (habove other (hat.mem_of_rest hother)))
        fun above hmem _ _ => revealView_of_not (habove above hmem)
    rw [hzero, ← hsame]
    refine iff_of_true (showDownward_zero ?_) (noGap_zero _)
    rw [List.forall_mem_map]
    exact hdeep
  · refine @showDownward_iff items more root file hskel hroot before [] rest file
      (by simp [hat.split]) hne (by simp) ?_ ?_ (by simp)
    · exact fun above hmem => strictlyAbove_iff.mpr (mem_itemsAbove_iff.mp hmem).2
    · exact fun h => (strictlyAbove_iff.mp h).2 rfl

theorem showElement_dress_iff (hskel : Skeleton items) (hroot : items = root :: more)
    (hat : At items before file rest) (files : ℕ) :
    (∃ closed, FileTreeItems.showElement ⟨dress items (rootView root.info.fullPath), files⟩
        before.length = .ok ⟨dress items closed, files⟩) ↔
      NoGap file.info.indent (rest.map fun item => item.info.indent) := by
  rw [← showDownward_file_iff hskel hroot hat, showElement_eq hskel hroot hat]
  constructor
  · rintro ⟨closed, hclosed⟩
    have hitems := congrArg FileTreeItems.treeItems (Outcome.ok.inj hclosed)
    have hkinds := congrArg (List.map FileTreeItem.kind) hitems
    have hsame : dress items (revealView root.info.fullPath file.info.fullPath) =
        dress items closed := by
      refine hskel.dress_congr fun item hitem hpath => ?_
      have hkind : (dress items (revealView root.info.fullPath file.info.fullPath)).map
          FileTreeItem.kind = (dress items closed).map FileTreeItem.kind := by
        rw [← hkinds, dress_eq hat, List.map_append, List.map_append, List.map_cons,
          List.map_cons, kind_showDownward, List.map_map, List.map_map, List.map_map,
          hat.kind_behind root.info.fullPath]
      rw [dress, dress, List.map_map, List.map_map] at hkind
      have := List.map_inj_left.mp hkind item hitem
      simpa [kind_dressItem, hpath] using this
    rw [← hsame, dress_eq hat] at hitems
    exact (List.cons_eq_cons.mp (List.append_cancel_left hitems)).2
  · intro hscan
    exact ⟨_, by rw [hscan, dress_eq hat]⟩

end ShowElement

end Filetree

end Gnostr
