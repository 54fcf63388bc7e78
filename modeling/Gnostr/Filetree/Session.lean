/-
The file tree of a revision in use: what it is to show, what each key and a file looked for
do to that, and what goes wrong.
-/
import Gnostr.Filetree.Fold
import Gnostr.Filetree.Reveal
import Gnostr.Lib.Machine

namespace Gnostr

namespace Filetree

section New

variable {list : List FilePath} (hlist : FileList list)
include hlist

/-- The items of a new tree with nothing collapsed. -/
def newItems (list : List FilePath) : List FileTreeItem :=
  (shownPaths list).map (shownItem list [])

omit hlist in
theorem paths_newItems : paths (newItems list) = shownPaths list := by
  rw [paths, newItems, List.map_map]
  exact List.map_id _

theorem mem_shownPaths_iff {path : FilePath} :
    path ∈ shownPaths list ↔
      (path ≠ [] ∧ ∃ file ∈ list, path <+: file) ∧ ¬ Lone list path := by
  rw [shownPaths, List.mem_filter, mem_addedPaths_iff hlist.ne_nil]
  simp

theorem file_mem_shownPaths {file : FilePath} (hfile : file ∈ list) :
    file ∈ shownPaths list :=
  (mem_shownPaths_iff hlist).mpr ⟨⟨hlist.ne_nil file hfile, file, hfile, List.prefix_rfl⟩,
    fun h => h.1 hfile⟩

theorem isOutline_shownPaths : IsOutline (shownPaths list) :=
  (isOutline_addedPaths hlist).1.sublist List.filter_sublist

omit hlist in
theorem isPath_shownItem_iff {collapsed : List String} {path : FilePath} :
    (shownItem list collapsed path).kind.isPath = true ↔ path ∉ list := by
  rw [shownItem]
  by_cases hfile : path ∈ list <;> simp [hfile, FileTreeItemKind.isPath]

omit hlist in
/-- A directory in which two paths part is no lone one. -/
theorem not_lone_of_part {common : FilePath} {a b : String} (hab : a ≠ b)
    (ha : common ++ [a] ∈ addedPaths list) (hb : common ++ [b] ∈ addedPaths list) :
    ¬ Lone list common := by
  intro hlone
  have := eq_of_childCount_eq_one hlone.2.1 ha (by simp) hb (by simp)
  simp [hab] at this

theorem indent_newItems {path : FilePath} (hpath : path ∈ shownPaths list) :
    (shownItem list [] path).info.indent = (itemsAbove (newItems list) path).length := by
  have hpaths : (itemsAbove (newItems list) path).map (fun item => item.info.fullPath) =
      (shownPaths list).filter fun dir => strictlyAbove dir path := by
    rw [itemsAbove, newItems, List.filter_map, List.map_map]
    exact List.map_id _
  rw [← List.length_map (f := fun item : FileTreeItem => item.info.fullPath), hpaths]
  apply List.Perm.length_eq
  refine (List.perm_ext_iff_of_nodup ((nodup_ancestors path).filter _)
    ((isOutline_shownPaths hlist).nodup.filter _)).mpr fun dir => ?_
  rw [← shownAbove, mem_shownAbove_iff, List.mem_filter, mem_shownPaths_iff hlist,
    strictlyAbove_iff]
  constructor
  · rintro ⟨⟨hprefixed, hshort⟩, hne, hlone⟩
    obtain ⟨⟨-, file, hfile, hunder⟩, -⟩ := (mem_shownPaths_iff hlist).mp hpath
    exact ⟨⟨⟨hne, file, hfile, hprefixed.trans hunder⟩, hlone⟩, hprefixed,
      fun h => hshort.ne (by rw [h])⟩
  · rintro ⟨⟨⟨hne, -⟩, hlone⟩, hprefixed, hdir⟩
    exact ⟨⟨hprefixed, lt_of_le_of_ne hprefixed.length_le fun h =>
      hdir (hprefixed.eq_of_length h)⟩, hne, hlone⟩

/-- With all files under one name, all items are under the first. -/
theorem rooted_shownPaths {name : String} (hname : ∀ file ∈ list, [name] <+: file)
    {root : FilePath} {rest : List FilePath} (hroot : shownPaths list = root :: rest) :
    ∀ path ∈ rest, root <+: path := by
  intro path hpath
  have houtline := isOutline_shownPaths hlist
  rw [hroot] at houtline
  have hmem : ∀ other ∈ root :: rest, other ∈ shownPaths list := fun other hother =>
    hroot ▸ hother
  by_contra hnot
  obtain ⟨common, a, b, hab, ha, hb⟩ := exists_part hnot (houtline.1 path hpath)
  obtain ⟨⟨hrootNe, file, hfile, hrootFile⟩, -⟩ :=
    (mem_shownPaths_iff hlist).mp (hmem root List.mem_cons_self)
  obtain ⟨⟨hpathNe, file', hfile', hpathFile⟩, -⟩ :=
    (mem_shownPaths_iff hlist).mp (hmem path (List.mem_cons_of_mem _ hpath))
  have hcommon : common ≠ [] := by
    rintro rfl
    have hfirst := List.prefix_of_prefix_length_le (ha.trans hrootFile) (hname file hfile) le_rfl
    have hlast := List.prefix_of_prefix_length_le (hb.trans hpathFile) (hname file' hfile')
      le_rfl
    simp only [List.nil_append, List.cons_prefix_cons] at hfirst hlast
    exact hab (hfirst.1.trans hlast.1.symm)
  have hup : common <+: root := (List.prefix_append common [a]).trans ha
  have hadded : ∀ {c}, c ∈ addedPaths list ↔ c ≠ [] ∧ ∃ path ∈ list, c <+: path :=
    mem_addedPaths_iff hlist.ne_nil
  have hlone := not_lone_of_part hab
    (hadded.mpr ⟨by simp, file, hfile, ha.trans hrootFile⟩)
    (hadded.mpr ⟨by simp, file', hfile', hb.trans hpathFile⟩)
  have hshown : common ∈ root :: rest := hroot ▸ (mem_shownPaths_iff hlist).mpr
    ⟨⟨hcommon, file, hfile, hup.trans hrootFile⟩, hlone⟩
  rcases List.mem_cons.mp hshown with rfl | hshown
  · have hlength := ha.length_le
    rw [List.length_append, List.length_singleton] at hlength
    omega
  · exact houtline.1 common hshown hup

theorem skeleton_newItems {name : String} (hname : ∀ file ∈ list, [name] <+: file) :
    Skeleton (newItems list) where
  outline := paths_newItems ▸ isOutline_shownPaths hlist
  filled before item rest hsplit hpath := by
    have hat : At (newItems list) before item rest :=
      ⟨hsplit, paths_newItems ▸ isOutline_shownPaths hlist⟩
    obtain ⟨path, hshown, rfl⟩ := List.mem_map.mp hat.mem
    obtain ⟨⟨-, file, hfile, hprefixed⟩, -⟩ := (mem_shownPaths_iff hlist).mp hshown
    have hmem : shownItem list [] file ∈ newItems list :=
      List.mem_map_of_mem (file_mem_shownPaths hlist hfile)
    rw [hsplit, List.mem_append, List.mem_cons] at hmem
    have hrest : shownItem list [] file ∈ rest := by
      rcases hmem with hmem | hmem | hmem
      · exact absurd hprefixed (hat.not_prefix_before hmem)
      · have hsame : file = path := congrArg (fun item => item.info.fullPath) hmem
        exact absurd (hsame ▸ hfile) (isPath_shownItem_iff.mp hpath)
      · exact hmem
    obtain ⟨next, more, hnext, hunder⟩ := hat.outline'.of_append.exists_cons
      (List.mem_map_of_mem hrest) hprefixed
    cases rest with
    | nil => exact absurd hrest List.not_mem_nil
    | cons child rest =>
        rw [paths, List.map_cons, List.cons_eq_cons] at hnext
        exact ⟨child, rest, rfl, hnext.1 ▸ hunder⟩
  onlyDirs item hitem other hother habove := by
    obtain ⟨path, hpath, rfl⟩ := List.mem_map.mp hitem
    obtain ⟨last, hlast, rfl⟩ := List.mem_map.mp hother
    obtain ⟨⟨-, file, hfile, hprefixed⟩, -⟩ := (mem_shownPaths_iff hlist).mp hlast
    obtain ⟨hup, hne⟩ := strictlyAbove_iff.mp (strictlyAbove_trans habove hprefixed)
    exact isPath_shownItem_iff.mpr (hlist.dir_not_mem hfile hup
      (lt_of_le_of_ne hup.length_le fun h => hne (hup.eq_of_length h)))
  rooted root rest hsplit other hother := by
    have hpaths := congrArg paths hsplit
    rw [paths_newItems] at hpaths
    exact rooted_shownPaths hlist hname hpaths _ (List.mem_map_of_mem hother)
  indent item hitem := by
    obtain ⟨path, hpath, rfl⟩ := List.mem_map.mp hitem
    exact indent_newItems hlist hpath

omit hlist in
/-- In a new tree nothing is closed. -/
theorem dress_newItems : dress (newItems list) (fun _ => false) = newItems list := by
  rw [dress]
  refine (List.map_congr_left fun item hitem => ?_).trans (List.map_id _)
  obtain ⟨path, -, rfl⟩ := List.mem_map.mp hitem
  have hshown : hiddenIn (newItems list) (fun _ => false) path = false := by
    simp [hiddenIn]
  rw [dressItem]
  simp only [shownItem, hshown]
  split_ifs <;> simp_all [FileTreeItemKind.isPath]

end New

section Steps

/-- What the user does to the tree. -/
inductive TreeInput where
  | move (dir : MoveSelection)
  | collapseRecursive
  | expandRecursive
  | findFile (file : FilePath)
deriving DecidableEq, Repr

/-- `tree_nav` and `find_file`. -/
def FileTree.handle (tree : FileTree) : TreeInput → Outcome Empty FileTree
  | .move dir => do return (← tree.moveSelection dir).1
  | .collapseRecursive => tree.collapseRecursive
  | .expandRecursive => tree.expandRecursive
  | .findFile file => do return (← tree.findFile file).1

/-- An item at an index is shown. -/
def ShownAt (items : List FileTreeItem) (closed : View) (index : ℕ) : Prop :=
  ∃ before item rest, At items before item rest ∧ before.length = index ∧
    hiddenIn items closed item.info.fullPath = false

/-- The tree shows a view, with the selected item shown at the visual index. -/
structure Shows (items : List FileTreeItem) (files : ℕ) (closed : View) (tree : FileTree) :
    Prop where
  dressed : tree.items = ⟨dress items closed, files⟩
  unselected : tree.selection = none → tree.visualSelection = none
  selected : ∀ index ∈ tree.selection, ∃ before item rest count, At items before item rest ∧
    before.length = index ∧ hiddenIn items closed item.info.fullPath = false ∧
    tree.visualSelection =
      some ⟨count, (shownFrom 0 (before.map (dressItem items closed))).length⟩

variable {items more : List FileTreeItem} {root : FileTreeItem} {files : ℕ} {closed : View}
  {tree : FileTree}

theorem isVisibleIndex_iff (houtline : IsOutline (paths items))
    (hitems : tree.items = ⟨dress items closed, files⟩) {index : ℕ} :
    tree.isVisibleIndex index = true ↔ ShownAt items closed index := by
  rw [FileTree.isVisibleIndex, hitems, dress, List.getElem?_map, Option.any_map]
  constructor
  · intro hvisible
    obtain ⟨item, hitem, hshown⟩ := (Option.any_eq_true _ _).mp hvisible
    obtain ⟨hlt, rfl⟩ := List.getElem?_eq_some_iff.mp hitem
    have hsplit : items = items.take index ++ items[index] :: items.drop (index + 1) := by
      rw [← List.drop_eq_getElem_cons hlt, List.take_append_drop]
    refine ⟨_, _, _, ⟨hsplit, houtline⟩, by rw [List.length_take]; omega, ?_⟩
    simpa [dressItem] using hshown
  · rintro ⟨before, item, rest, hat, rfl, hshown⟩
    have hget : items[before.length]? = some item := by
      rw [hat.split, List.getElem?_append_right le_rfl]
      simp
    simp [hget, dressItem, hshown]

/-- The item that is selected is shown, and its place is found anew. -/
theorem Shows.select
    (hitems : tree.items = ⟨dress items closed, files⟩) {index : ℕ}
    (hshown : ShownAt items closed index) :
    Shows items files closed
      { tree with
        selection := some index
        visualSelection := { tree with selection := some index }.calcVisualSelection } where
  dressed := hitems
  unselected := by simp
  selected other hother := by
    obtain ⟨before, item, rest, hat, hlength, hhidden⟩ := hshown
    obtain rfl := Option.mem_some_iff.mp hother
    have hsplit : ({ tree with selection := some index } : FileTree).items.treeItems =
        before.map (dressItem items closed) ++
          dressItem items closed item :: rest.map (dressItem items closed) := by
      rw [← dress_eq hat, hitems]
    refine ⟨before, item, rest, (shownFrom 0 tree.items.treeItems).length, hat, hlength,
      hhidden, ?_⟩
    exact calcVisualSelection_eq hsplit (by simp [hlength]) (by simp [dressItem, hhidden])

theorem Shows.settle (hshows : Shows items files closed tree) {selection : ℕ}
    {newIndex : Option ℕ} (hnew : ∀ index ∈ newIndex, ShownAt items closed index) :
    Shows items files closed (tree.settle selection newIndex).1 := by
  cases newIndex with
  | none => exact hshows
  | some index =>
      have hselect := @Shows.select _ _ _ tree hshows.dressed index (hnew index rfl)
      rw [FileTree.settle]
      by_cases hchanged : index = selection
      · simpa [hchanged] using hshows
      · simpa [hchanged] using hselect

theorem Skeleton.shownAt_zero (hskel : Skeleton items) (hroot : items = root :: more) :
    ShownAt items closed 0 := by
  have hat := @Skeleton.at_split items [] more root hskel hroot
  refine ⟨[], root, more, hat, rfl, ?_⟩
  rw [Bool.eq_false_iff, Ne, hskel.hiddenIn_iff_above hat.mem]
  rintro ⟨above, habove, -⟩
  exact absurd (hat.mem_before_of_above habove) List.not_mem_nil

theorem getItem_dress {before rest : List FileTreeItem} {item : FileTreeItem}
    (hat : At items before item rest) :
    FileTreeItems.getItem ⟨dress items closed, files⟩ before.length =
      .ok (dressItem items closed item) := by
  have hget : (dress items closed)[before.length]? = some (dressItem items closed item) := by
    rw [dress_eq hat, List.getElem?_append_right (by simp)]
    simp
  rw [FileTreeItems.getItem]
  simp only [hget]

section Targets

/-- Up goes to an item that is shown, or to the first. -/
theorem stepUp_spec {index : ℕ} (hindex : index ≤ tree.items.treeItems.length) :
    tree.stepUp index = 0 ∨ tree.isVisibleIndex (tree.stepUp index) = true := by
  induction index with
  | zero => exact Or.inl rfl
  | succ index ih =>
      rw [FileTree.stepUp, if_neg (by omega)]
      split_ifs with hvisible
      · exact Or.inr hvisible
      · exact ih (by omega)

theorem lastVisible_spec (index : ℕ) :
    tree.lastVisible index = 0 ∨ tree.isVisibleIndex (tree.lastVisible index) = true := by
  induction index with
  | zero => exact Or.inl rfl
  | succ index ih =>
      rw [FileTree.lastVisible]
      split_ifs with hvisible
      · exact Or.inr hvisible
      · exact ih

/-- Down goes to the next item that is shown, and to the last one when there is none. -/
theorem stepDown_spec (index : ℕ) (list : List FileTreeItem) :
    (∃ before item rest, list = before ++ item :: rest ∧ item.info.visible = true ∧
      FileTree.stepDown index list = index + 1 + before.length) ∨
    (∀ item ∈ list, item.info.visible = false) ∧
      FileTree.stepDown index list = index + list.length := by
  induction list generalizing index with
  | nil => exact Or.inr ⟨by simp, rfl⟩
  | cons item list ih =>
      rw [FileTree.stepDown]
      by_cases hvisible : item.info.visible = true
      · exact Or.inl ⟨[], item, list, rfl, hvisible, by simp [hvisible]⟩
      · rw [if_neg hvisible]
        rcases ih (index + 1) with ⟨before, next, rest, rfl, hnext, hstep⟩ | ⟨hnone, hstep⟩
        · exact Or.inl ⟨item :: before, next, rest, rfl, hnext, by
            rw [hstep, List.length_cons]
            omega⟩
        · refine Or.inr ⟨?_, by rw [hstep, List.length_cons]; omega⟩
          exact List.forall_mem_cons.mpr ⟨by simpa using hvisible, hnone⟩

variable (hskel : Skeleton items) (hroot : items = root :: more)
  (hitems : tree.items = ⟨dress items closed, files⟩)
include hskel hroot hitems

theorem shownAt_of_visible {index : ℕ}
    (hindex : index = 0 ∨ tree.isVisibleIndex index = true) : ShownAt items closed index := by
  rcases hindex with rfl | hvisible
  · exact hskel.shownAt_zero hroot
  · exact (isVisibleIndex_iff hskel.outline hitems).mp hvisible

theorem shownAt_up {current index : ℕ} (hcurrent : current ≤ tree.items.treeItems.length)
    (hindex : index ∈ tree.selectionUpdown current true) : ShownAt items closed index := by
  rw [FileTree.selectionUpdown, if_pos rfl] at hindex
  split_ifs at hindex
  · exact absurd hindex (by simp)
  · rw [← Option.mem_some_iff.mp hindex]
    exact shownAt_of_visible hskel hroot hitems (stepUp_spec hcurrent)

theorem shownAt_end {current index : ℕ} (hindex : index ∈ tree.selectionEnd current) :
    ShownAt items closed index := by
  rw [FileTree.selectionEnd] at hindex
  split_ifs at hindex
  · exact absurd hindex (by simp)
  · rw [← Option.mem_some_iff.mp hindex]
    exact shownAt_of_visible hskel hroot hitems (lastVisible_spec _)

omit hitems in
theorem shownAt_start {current index : ℕ} (hindex : index ∈ FileTree.selectionStart current) :
    ShownAt items closed index := by
  rw [FileTree.selectionStart] at hindex
  split_ifs at hindex
  · exact absurd hindex (by simp)
  · rw [← Option.mem_some_iff.mp hindex]
    exact hskel.shownAt_zero hroot

omit hroot in
/-- Down goes to an item that is shown when there is one behind. -/
theorem shownAt_down {current index : ℕ}
    (hbehind : (∃ later, current < later ∧ tree.isVisibleIndex later = true) ∨
      tree.items.treeItems.length ≤ current + 1)
    (hindex : index ∈ tree.selectionUpdown current false) : ShownAt items closed index := by
  rw [FileTree.selectionUpdown] at hindex
  simp only [Bool.false_eq_true, if_false] at hindex
  split_ifs at hindex with hstay
  · exact absurd hindex (by simp)
  · rw [← Option.mem_some_iff.mp hindex]
    rcases stepDown_spec current (tree.items.treeItems.drop (current + 1)) with
      ⟨before, item, rest, hdrop, hvisible, hstep⟩ | ⟨hnone, hstep⟩
    · have hget : tree.items.treeItems[current + 1 + before.length]? = some item := by
        rw [← List.getElem?_drop, hdrop, List.getElem?_append_right le_rfl]
        simp
      rw [hstep]
      refine (isVisibleIndex_iff hskel.outline hitems).mp ?_
      simp [FileTree.isVisibleIndex, hget, hvisible]
    · exfalso
      rcases hbehind with ⟨later, hlater, hvisible⟩ | hlast
      · obtain ⟨item, hitem, hshown⟩ := (Option.any_eq_true _ _).mp hvisible
        obtain ⟨offset, rfl⟩ := Nat.exists_eq_add_of_lt hlater
        have hmem : item ∈ tree.items.treeItems.drop (current + 1) := by
          apply List.mem_of_getElem? (i := offset)
          rw [List.getElem?_drop, ← hitem]
          congr 1
          omega
        exact absurd hshown (by simp [hnone item hmem])
      · rw [List.drop_eq_nil_of_le hlast] at hstep hstay
        exact hstay hstep

/-- The parent is looked for among the items that are shown. -/
theorem parentFrom_spec (indent turns : ℕ) {index : ℕ}
    (hindex : index ≤ tree.items.treeItems.length) :
    ∃ parent, tree.parentFrom indent turns index = .ok parent ∧
      (parent = index ∨ ShownAt items closed parent) := by
  induction turns generalizing index with
  | zero => exact ⟨index, rfl, Or.inl rfl⟩
  | succ turns ih =>
      rw [FileTree.parentFrom]
      cases hup : tree.selectionUpdown index true with
      | none => exact ⟨index, rfl, Or.inl rfl⟩
      | some selection =>
          have hshown := shownAt_up hskel hroot hitems hindex hup
          obtain ⟨before, item, rest, hat, rfl, hhidden⟩ := hshown
          have hget : tree.items.getItem before.length = .ok (dressItem items closed item) := by
            rw [hitems, getItem_dress hat]
          have hlength : before.length ≤ tree.items.treeItems.length := by
            rw [hitems, dress, List.length_map, hat.split, List.length_append]
            omega
          simp only [hget, Outcome.ok_bind, Outcome.pure_eq]
          split_ifs
          · exact ⟨before.length, rfl, Or.inr ⟨before, item, rest, hat, rfl, hhidden⟩⟩
          · obtain ⟨parent, hparent, hplace⟩ := ih hlength
            refine ⟨parent, hparent, Or.inr ?_⟩
            rcases hplace with rfl | hplace
            · exact ⟨before, item, rest, hat, rfl, hhidden⟩
            · exact hplace

end Targets

section Keep

variable {before rest : List FileTreeItem} {item : FileTreeItem} {closed' : View}

/-- A view that changes at the selected item and under it leaves the item where it is. -/
theorem Shows.change (hshows : Shows items files closed tree) (hat : At items before item rest)
    (hselection : tree.selection = some before.length)
    (hview : ∀ dir, ¬ item.info.fullPath <+: dir → closed dir = closed' dir) :
    Shows items files closed' { tree with items := ⟨dress items closed', files⟩ } where
  dressed := rfl
  unselected := hshows.unselected
  selected index hindex := by
    obtain ⟨before', item', rest', count, hat', hlength, hhidden, hvisual⟩ :=
      hshows.selected index hindex
    obtain rfl : before.length = index := Option.some.inj (hselection.symm.trans hindex)
    obtain ⟨rfl, rfl, rfl⟩ := hat.eq_of_length hat' hlength
    have hbefore : before'.map (dressItem items closed) = before'.map (dressItem items closed') :=
      List.map_congr_left fun other hother =>
        dressItem_of_not_under hview (hat.not_prefix_before hother)
    refine ⟨before', item', rest', count, hat, rfl, hiddenIn_self hview ▸ hhidden, ?_⟩
    rw [← hbefore]
    exact hvisual

variable (hskel : Skeleton items) (hroot : items = root :: more)
  (hshows : Shows items files closed tree) (hat : At items before item rest)
  (hselection : tree.selection = some before.length)
  (hshown : hiddenIn items closed item.info.fullPath = false)
include hskel hroot hshows hat hselection hshown

/-- Left closes an open directory, and goes to the parent from anything else. -/
theorem moveTo_left :
    ∃ closed' tree' newIndex,
      tree.selectionLeft before.length = .ok (tree', newIndex) ∧
        Shows items files closed' tree' ∧ ∀ index ∈ newIndex, ShownAt items closed' index := by
  have hget : tree.items.getItem before.length = .ok (dressItem items closed item) := by
    rw [hshows.dressed, getItem_dress hat]
  have hlength : before.length ≤ tree.items.treeItems.length := by
    rw [hshows.dressed, dress, List.length_map, hat.split, List.length_append]
    omega
  rw [FileTree.selectionLeft, hget, Outcome.ok_bind, isPath_dressItem, isPathCollapsed_dressItem]
  by_cases hopen : item.kind.isPath = true ∧ closed item.info.fullPath = false
  · have hview : ∀ dir, ¬ item.info.fullPath <+: dir →
        closed dir = Function.update closed item.info.fullPath true dir :=
      fun _ => update_of_not_prefix true
    have hcollapse : tree.items.collapse before.length false =
        .ok ⟨dress items (Function.update closed item.info.fullPath true), files⟩ := by
      rw [hshows.dressed, collapse_dress hat hopen.1]
    refine ⟨_, _, some before.length, ?_, hshows.change hat hselection hview, ?_⟩
    · simp [hopen, hcollapse]
    · intro index hindex
      obtain rfl := Option.mem_some_iff.mp hindex
      exact ⟨before, item, rest, hat, rfl, hiddenIn_self hview ▸ hshown⟩
  · have hcond : (item.kind.isPath && !(item.kind.isPath && closed item.info.fullPath)) =
        false := by
      cases hpath : item.kind.isPath <;> cases hclosed : closed item.info.fullPath <;> simp_all
    obtain ⟨parent, hparent, hplace⟩ := parentFrom_spec hskel hroot hshows.dressed
      (dressItem items closed item).info.indent (before.length + 1) hlength
    refine ⟨closed, tree, if parent = before.length then none else some parent, ?_, hshows, ?_⟩
    · rw [hcond]
      simp [FileTree.selectParent, hget, hparent]
    · intro index hindex
      split_ifs at hindex with hsame
      · exact absurd hindex (by simp)
      · rw [← Option.mem_some_iff.mp hindex]
        exact hplace.resolve_left hsame

omit hroot in
/-- Right opens a closed directory, and goes into an open one. -/
theorem moveTo_right :
    ∃ closed' tree' newIndex,
      tree.selectionRight before.length = .ok (tree', newIndex) ∧
        Shows items files closed' tree' ∧ ∀ index ∈ newIndex, ShownAt items closed' index := by
  have hget : tree.items.getItem before.length = .ok (dressItem items closed item) := by
    rw [hshows.dressed, getItem_dress hat]
  rw [FileTree.selectionRight, hget, Outcome.ok_bind, isPath_dressItem,
    isPathCollapsed_dressItem]
  cases hpath : item.kind.isPath with
  | false => exact ⟨closed, tree, none, rfl, hshows, by simp⟩
  | true =>
      cases hclosed : closed item.info.fullPath with
      | true =>
          have hview : ∀ dir, ¬ item.info.fullPath <+: dir →
              closed dir = Function.update closed item.info.fullPath false dir :=
            fun _ => update_of_not_prefix false
          have hexpand : tree.items.expand before.length false =
              .ok ⟨dress items (Function.update closed item.info.fullPath false), files⟩ := by
            rw [hshows.dressed, expand_dress hat hpath hshown]
          refine ⟨_, _, some before.length, ?_, hshows.change hat hselection hview, ?_⟩
          · simp [hexpand]
          · intro index hindex
            obtain rfl := Option.mem_some_iff.mp hindex
            exact ⟨before, item, rest, hat, rfl, hiddenIn_self hview ▸ hshown⟩
      | false =>
          -- what an open directory holds is right behind it
          obtain ⟨child, after, rfl, hunder⟩ := hskel.filled before item rest hat.split hpath
          have hchild : hiddenIn items closed child.info.fullPath = false := by
            by_contra hhidden
            obtain ⟨dir, hdir, -⟩ := @exists_between_of_hiddenIn _ _ _ _ _ hat hshown hclosed []
              after child rfl hunder (by simpa using hhidden)
            exact List.not_mem_nil hdir
          have hvisible : tree.isVisibleIndex (before.length + 1) = true := by
            refine (isVisibleIndex_iff hskel.outline hshows.dressed).mpr ?_
            exact ⟨before ++ [item], child, after, ⟨by simp [hat.split], hskel.outline⟩, by simp,
              hchild⟩
          refine ⟨closed, tree, _, rfl, hshows, fun index hindex => ?_⟩
          exact shownAt_down hskel hshows.dressed
            (Or.inl ⟨before.length + 1, Nat.lt_succ_self _, hvisible⟩) hindex

/-- Every move but a move down to a hidden item leads to an item that is shown. -/
theorem moveTo_shows (dir : MoveSelection)
    (hdown : dir = .down → (∃ later, before.length < later ∧ tree.isVisibleIndex later = true) ∨
      tree.items.treeItems.length ≤ before.length + 1) :
    ∃ closed' tree' newIndex, tree.moveTo before.length dir = .ok (tree', newIndex) ∧
      Shows items files closed' tree' ∧ ∀ index ∈ newIndex, ShownAt items closed' index := by
  have hlength : before.length ≤ tree.items.treeItems.length := by
    rw [hshows.dressed, dress, List.length_map, hat.split, List.length_append]
    omega
  cases dir with
  | up =>
      exact ⟨closed, tree, _, rfl, hshows, fun index =>
        shownAt_up hskel hroot hshows.dressed hlength⟩
  | down =>
      exact ⟨closed, tree, _, rfl, hshows, fun index =>
        shownAt_down hskel hshows.dressed (hdown rfl)⟩
  | left => exact moveTo_left hskel hroot hshows hat hselection hshown
  | right => exact moveTo_right hskel hshows hat hselection hshown
  | top => exact ⟨closed, tree, _, rfl, hshows, fun index => shownAt_start hskel hroot⟩
  | toEnd =>
      exact ⟨closed, tree, _, rfl, hshows, fun index =>
        shownAt_end hskel hroot hshows.dressed⟩
  | pageDown => exact ⟨closed, tree, none, rfl, hshows, by simp⟩
  | pageUp => exact ⟨closed, tree, none, rfl, hshows, by simp⟩

end Keep

/-- What a step must meet for the tree to show what it is to show.  Down: an item behind the
selected one is shown, or there is none.  A recursive collapse: no open directory comes right
behind what lies under the selected one.  A file that is looked for: no level is left out
behind it; and when it is the selected one, its place stays what it is with the root alone
open. -/
def Meets (tree : FileTree) : TreeInput → Prop
  | .move .down => ∀ index ∈ tree.selection,
      (∃ later, index < later ∧ tree.isVisibleIndex later = true) ∨
        tree.items.treeItems.length ≤ index + 1
  | .move _ => True
  | .collapseRecursive => ∀ index ∈ tree.selection, ∀ item rest,
      tree.items.treeItems.drop index = item :: rest → item.kind.isPath = true →
      ∀ next ∈ (behindUnder item rest).head?,
        next.kind.isPath = true → next.kind.isPathCollapsed = true
  | .expandRecursive => True
  | .findFile file => ∀ index ∈ tree.items.treeItems.findIdx? fun item =>
        item.info.fullPath == file, ∀ item rest,
      tree.items.treeItems.drop index = item :: rest →
      if tree.selection = some index then
        item.info.indent ≤ 1 ∧ ∀ visual ∈ tree.visualSelection, visual.index =
          (tree.items.treeItems.take index).countP fun other => other.info.indent ≤ 1
      else NoGap item.info.indent (rest.map fun other => other.info.indent)

section FindFile

variable {before rest : List FileTreeItem} {item : FileTreeItem} {closed' : View}

theorem findIdx_dress (file : FilePath) :
    (dress items closed).findIdx? (fun item => item.info.fullPath == file) =
      items.findIdx? fun item => item.info.fullPath == file := by
  rw [dress, List.findIdx?_map]
  rfl

/-- The index that is found is that of the file. -/
theorem at_of_findIdx (houtline : IsOutline (paths items)) {file : FilePath} {index : ℕ}
    (hindex : items.findIdx? (fun item => item.info.fullPath == file) = some index) :
    ∃ before item rest, At items before item rest ∧ before.length = index := by
  obtain ⟨hlt, -⟩ := List.findIdx?_eq_some_iff_getElem.mp hindex
  have hsplit : items = items.take index ++ items[index] :: items.drop (index + 1) := by
    rw [← List.drop_eq_getElem_cons hlt, List.take_append_drop]
  exact ⟨_, _, _, ⟨hsplit, houtline⟩, by rw [List.length_take]; omega⟩

/-- A file is neither collapsed nor expanded. -/
theorem change_file (hat : At items before item rest) (hfile : item.kind.isPath = false)
    (recursive : Bool) :
    FileTreeItems.collapse ⟨dress items closed, files⟩ before.length recursive =
        .ok ⟨dress items closed, files⟩ ∧
      FileTreeItems.expand ⟨dress items closed, files⟩ before.length recursive =
        .ok ⟨dress items closed, files⟩ := by
  have hnot : ¬ (dressItem items closed item).kind.isPath = true := by simp [hfile]
  constructor
  · rw [FileTreeItems.collapse, changeAt_eq hat, if_neg hnot, dress_eq hat]
  · rw [FileTreeItems.expand, changeAt_eq hat, if_neg hnot, dress_eq hat]

/-- All but the root is closed. -/
theorem collapseButRoot_eq (hskel : Skeleton items) (hroot : items = root :: more)
    (hitems : tree.items = ⟨dress items closed, files⟩) (hfiles : files ≠ 0) :
    tree.collapseButRoot =
      .ok { tree with items := ⟨dress items (rootView root.info.fullPath), files⟩ } := by
  have hat := @Skeleton.at_split items [] more root hskel hroot
  have hempty : tree.isEmpty = false := by simp [FileTree.isEmpty, hitems, hfiles]
  rw [FileTree.collapseButRoot, hempty, hitems]
  cases hpath : root.kind.isPath with
  | false =>
      have hsame : dress items closed = dress items (rootView root.info.fullPath) := by
        refine hskel.dress_congr fun item hitem hdir => ?_
        rw [hroot, List.mem_cons] at hitem
        rcases hitem with rfl | hitem
        · exact absurd hdir (by simp [hpath])
        · have := hskel.onlyDirs root hat.mem item (hat.mem_of_rest hitem)
            (strictlyAbove_iff.mpr ⟨hskel.rooted root more hroot item hitem,
              hat.ne_of_mem_rest hitem⟩)
          exact absurd this (by simp [hpath])
      have hchange := @change_file items files closed [] more root hat hpath
      rw [List.length_nil] at hchange
      rw [if_neg (by simp), (hchange true).1, Outcome.ok_bind, (hchange false).2,
        Outcome.ok_bind, hsame]
      rfl
  | true =>
      have hbehind : behindUnder root more = [] :=
        List.dropWhile_eq_nil_iff.mpr fun other hother =>
          under_iff.mpr (hskel.rooted root more hroot other hother)
      have hcollapse := @collapse_true_dress items [] more root closed hat hpath
        (by rw [hbehind]; simp) files
      have hshown : hiddenIn items (closed.closeUnder root.info.fullPath) root.info.fullPath =
          false := by
        obtain ⟨before, item, rest, hat', hlength, hhidden⟩ :=
          @Skeleton.shownAt_zero items more root (closed.closeUnder root.info.fullPath) hskel hroot
        obtain rfl := List.length_eq_zero_iff.mp hlength
        obtain ⟨rfl, -⟩ := List.cons_eq_cons.mp (hat'.split.symm.trans hroot)
        exact hhidden
      have hexpand := @expand_dress items [] more root (closed.closeUnder root.info.fullPath)
        hat hpath hshown files
      have hsame : dress items (Function.update (closed.closeUnder root.info.fullPath)
          root.info.fullPath false) = dress items (rootView root.info.fullPath) := by
        refine hskel.dress_congr fun item hitem _ => ?_
        rw [hroot, List.mem_cons] at hitem
        rcases hitem with rfl | hitem
        · simp [rootView]
        · have hne := (hat.ne_of_mem_rest hitem).symm
          rw [Function.update_of_ne hne,
            View.closeUnder_of_under (hskel.rooted root more hroot item hitem)]
          simp [rootView, hne]
      rw [List.length_nil] at hcollapse hexpand
      simp [hcollapse, hexpand, hsame]

variable (hskel : Skeleton items) (hroot : items = root :: more)
  (hshows : Shows items files closed tree) (hfiles : files ≠ 0)
include hskel hroot hshows hfiles

/-- What is left to do once all but the root is closed. -/
theorem handle_findFile (file : FilePath) :
    tree.handle (.findFile file) = (do
      return (← ({ tree with items := ⟨dress items (rootView root.info.fullPath), files⟩ } :
        FileTree).selectFile file).1) := by
  rw [FileTree.handle, FileTree.findFile,
    collapseButRoot_eq hskel hroot hshows.dressed hfiles, Outcome.ok_bind]

/-- A tree in which the file that is looked for is not selected yet. -/
theorem findFile_other {file : FilePath}
    (hother : items.findIdx? (fun item => item.info.fullPath == file) ≠ tree.selection) :
    (∀ index ∈ items.findIdx? fun item => item.info.fullPath == file,
      ∀ before item rest, At items before item rest → before.length = index →
        NoGap item.info.indent (rest.map fun other => other.info.indent)) ↔
      ∃ closed' tree', tree.handle (.findFile file) = .ok tree' ∧
        Shows items files closed' tree' := by
  rw [handle_findFile hskel hroot hshows hfiles, FileTree.selectFile]
  simp only [findIdx_dress, hother, if_false]
  cases hindex : items.findIdx? fun item => item.info.fullPath == file with
  | none =>
      refine iff_of_true (by simp) ⟨rootView root.info.fullPath, _, rfl, rfl, ?_, by simp⟩
      intro _
      rfl
  | some index =>
      obtain ⟨before, item, rest, hat, rfl⟩ := at_of_findIdx hskel.outline hindex
      have hleft : (∀ index ∈ some before.length, ∀ before' item' rest',
          At items before' item' rest' → before'.length = index →
            NoGap item'.info.indent (rest'.map fun other => other.info.indent)) ↔
          NoGap item.info.indent (rest.map fun other => other.info.indent) := by
        simp only [Option.mem_some_iff, forall_eq']
        exact hat.forall_iff
      rw [hleft]
      constructor
      · intro hno
        have hshow := showElement_eq hskel hroot hat files
        rw [(showDownward_file_iff hskel hroot hat).mpr hno, ← dress_eq hat] at hshow
        have hshown : hiddenIn items (revealView root.info.fullPath item.info.fullPath)
            item.info.fullPath = false := by
          rw [Bool.eq_false_iff, Ne, hskel.hidden_revealView_iff hat.mem]
          rintro ⟨above, hmem, -, hnot⟩
          exact hnot (strictlyAbove_iff.mpr (mem_itemsAbove_iff.mp hmem).2)
        refine ⟨revealView root.info.fullPath item.info.fullPath, _, by simp only [hshow]; rfl,
          ?_⟩
        exact @Shows.select items files _ { tree with items := ⟨dress items _, files⟩ } rfl _
          ⟨before, item, rest, hat, rfl, hshown⟩
      · rintro ⟨closed', tree', hrun, hshows'⟩
        rw [← showElement_dress_iff hskel hroot hat files]
        have hshow := showElement_eq hskel hroot hat files
        simp only [hshow, Outcome.ok_bind, Outcome.pure_eq] at hrun
        obtain rfl := Outcome.ok.inj hrun
        exact ⟨closed', by rw [hshow]; exact congrArg Outcome.ok hshows'.dressed⟩

omit hshows hfiles in
/-- With only the root open, what is right under it is shown. -/
theorem length_shownFrom_rootView (hat : At items before item rest) :
    (shownFrom 0 (before.map (dressItem items (rootView root.info.fullPath)))).length =
      before.countP fun other => other.info.indent ≤ 1 := by
  rw [length_shownFrom, List.countP_map]
  refine List.countP_congr fun other hother => ?_
  obtain ⟨first, last, rfl⟩ := List.append_of_mem hother
  have hatOther := @Skeleton.at_split items first (last ++ item :: rest) other hskel
    (by simp [hat.split])
  have hiff := shown_rootView_iff hskel hroot hatOther
  simpa [dressItem] using hiff

/-- A tree in which the file that is looked for is selected already. -/
theorem findFile_same {file : FilePath}
    (hsame : items.findIdx? (fun item => item.info.fullPath == file) = tree.selection) :
    (∀ index ∈ items.findIdx? fun item => item.info.fullPath == file,
      ∀ before item rest, At items before item rest → before.length = index →
        item.info.indent ≤ 1 ∧ ∀ visual ∈ tree.visualSelection, visual.index =
          before.countP fun other => other.info.indent ≤ 1) ↔
      ∃ closed' tree', tree.handle (.findFile file) = .ok tree' ∧
        Shows items files closed' tree' := by
  have hrun : tree.handle (.findFile file) =
      .ok { tree with items := ⟨dress items (rootView root.info.fullPath), files⟩ } := by
    rw [handle_findFile hskel hroot hshows hfiles, FileTree.selectFile]
    simp only [findIdx_dress, hsame, if_true]
    rfl
  constructor
  · intro hplace
    refine ⟨rootView root.info.fullPath, _, hrun, rfl, hshows.unselected, ?_⟩
    intro index hindex
    obtain ⟨before, item, rest, count, hat, hlength, -, hvisual⟩ :=
      hshows.selected index hindex
    obtain ⟨hlevel, hcount⟩ := hplace index (hsame.symm ▸ hindex) before item rest hat hlength
    refine ⟨before, item, rest, count, hat, hlength,
      (shown_rootView_iff hskel hroot hat).mpr hlevel, ?_⟩
    rw [length_shownFrom_rootView hskel hroot hat, ← hcount _ hvisual]
    exact hvisual
  · rintro ⟨closed', tree', hrun', hshows'⟩ index hindex before item rest hat hlength
    obtain rfl := Outcome.ok.inj (hrun.symm.trans hrun')
    have hdress : dress items (rootView root.info.fullPath) = dress items closed' :=
      congrArg FileTreeItems.treeItems hshows'.dressed
    obtain ⟨before', item', rest', count, hat', hlength', hhidden, hvisual⟩ :=
      hshows'.selected index (hsame ▸ hindex)
    obtain ⟨rfl, rfl, rfl⟩ := hat.eq_of_length hat' (hlength'.trans hlength.symm)
    have hitems := List.map_inj_left.mp hdress
    constructor
    · have hvisible := congrArg (fun item : FileTreeItem => item.info.visible)
        (hitems item' hat.mem)
      rw [← shown_rootView_iff hskel hroot hat]
      simpa [dressItem, hhidden] using hvisible
    · intro visual hmem
      have hbefore : before'.map (dressItem items closed') =
          before'.map (dressItem items (rootView root.info.fullPath)) :=
        List.map_congr_left fun other hother =>
          (hitems other (by simp [hat.split, hother])).symm
      rw [hbefore, length_shownFrom_rootView hskel hroot hat] at hvisual
      obtain rfl := Option.some.inj (hvisual.symm.trans hmem)
      rfl

end FindFile

section Exact

variable {before rest : List FileTreeItem} {item : FileTreeItem}

theorem drop_dress (hat : At items before item rest) :
    (dress items closed).drop before.length =
      dressItem items closed item :: rest.map (dressItem items closed) := by
  rw [dress_eq hat]
  exact List.drop_left' (List.length_map ..)

theorem behindUnder_dress :
    behindUnder (dressItem items closed item) (rest.map (dressItem items closed)) =
      (behindUnder item rest).map (dressItem items closed) :=
  List.dropWhile_map ..

theorem settle_ne {selection index : ℕ} (hne : index ≠ selection) :
    (tree.settle selection (some index)).1.items = tree.items ∧
      (tree.settle selection (some index)).1.selection = some index := by
  simp [FileTree.settle, hne]

variable (hskel : Skeleton items)
include hskel

/-- Down, from the last item that is shown with hidden ones behind it, goes to a hidden one. -/
theorem down_meets {index : ℕ} (hselection : tree.selection = some index) {closed' : View}
    {tree' : FileTree}
    (hrun : tree.handle (.move .down) = .ok tree') (hshows' : Shows items files closed' tree') :
    (∃ later, index < later ∧ tree.isVisibleIndex later = true) ∨
      tree.items.treeItems.length ≤ index + 1 := by
  by_contra hnot
  obtain ⟨hnone, hlength⟩ := not_or.mp hnot
  have hdown : FileTree.stepDown index (tree.items.treeItems.drop (index + 1)) =
      index + (tree.items.treeItems.drop (index + 1)).length := by
    rcases stepDown_spec index (tree.items.treeItems.drop (index + 1)) with
      ⟨first, next, last, hdrop, hvisible, -⟩ | ⟨-, hstep⟩
    · refine absurd ⟨index + 1 + first.length, by omega, ?_⟩ hnone
      have hget : tree.items.treeItems[index + 1 + first.length]? = some next := by
        rw [← List.getElem?_drop, hdrop, List.getElem?_append_right le_rfl]
        simp
      simp [FileTree.isVisibleIndex, hget, hvisible]
    · exact hstep
  rw [List.length_drop] at hdown
  have hne : ¬ FileTree.stepDown index
      (tree.items.treeItems.drop (index + 1)) = index := by omega
  have hselect : tree.selectionUpdown index false =
      some (index + (tree.items.treeItems.length - (index + 1))) := by
    rw [FileTree.selectionUpdown]
    simp only [Bool.false_eq_true, if_false, hdown]
    exact if_neg (by omega)
  have hsettle : tree.handle (.move .down) = .ok (tree.settle index
      (some (index + (tree.items.treeItems.length - (index + 1))))).1 := by
    simp [FileTree.handle, FileTree.moveSelection, hselection, FileTree.moveTo, hselect]
  obtain rfl := Outcome.ok.inj (hsettle.symm.trans hrun)
  have hchanged : index + (tree.items.treeItems.length - (index + 1)) ≠
      index := by omega
  obtain ⟨hitems, hmoved⟩ := @settle_ne tree index _ hchanged
  obtain ⟨first, last, after, count, hatLast, hlast, hhidden, -⟩ :=
    hshows'.selected _ (Option.mem_def.mpr hmoved)
  have hsame : tree.items = ⟨dress items closed', files⟩ := hitems.symm.trans hshows'.dressed
  exact hnone ⟨_, by omega, (isVisibleIndex_iff hskel.outline hsame).mpr
    ⟨first, last, after, hatLast, hlast, hhidden⟩⟩

/-- A recursive collapse closes an open directory behind what it hides, and leaves what
that holds shown. -/
theorem collapse_meets (hat : At items before item rest) (hpath : item.kind.isPath = true)
    (hshown : hiddenIn items closed item.info.fullPath = false) {closed' : View}
    (hrun : FileTreeItems.collapse ⟨dress items closed, files⟩ before.length true =
      .ok ⟨dress items closed', files⟩) :
    ∀ next ∈ (behindUnder item rest).head?,
      next.kind.isPath = true → closed next.info.fullPath = true := by
  intro next hnext hdir
  by_contra hopen
  rw [collapse_true_eq hat hpath] at hrun
  have hitems := congrArg FileTreeItems.treeItems (Outcome.ok.inj hrun)
  obtain ⟨tail, htail⟩ : ∃ tail, behindUnder item rest = next :: tail := by
    rcases hbehind : behindUnder item rest with _ | ⟨other, tail⟩
    · rw [hbehind] at hnext
      exact absurd hnext (by simp)
    · rw [hbehind] at hnext
      obtain rfl := Option.mem_some_iff.mp hnext
      exact ⟨tail, rfl⟩
  obtain ⟨mid, hmid⟩ : ∃ mid, mid = rest.takeWhile fun other =>
    under item.info.fullPath other.info.fullPath := ⟨_, rfl⟩
  have hrest : rest = mid ++ next :: tail := by
    rw [← htail, hmid]
    exact (List.takeWhile_append_dropWhile ..).symm
  have hatNext := hat.behind hrest
  obtain ⟨child, after, rfl, hunder⟩ := hskel.filled _ next tail hatNext.split hdir
  have hnot : ¬ item.info.fullPath <+: next.info.fullPath := by
    have := hat.not_under_dropWhile next (by
      change next ∈ behindUnder item rest
      simp [htail])
    exact Bool.eq_false_iff.mp this ∘ under_iff.mpr
  have hnextShown : hiddenIn items closed next.info.fullPath = false := by
    by_contra hhidden
    obtain ⟨above, hmem, hclosed⟩ :=
      (hskel.hiddenIn_iff_above hatNext.mem).mp (by simpa using hhidden)
    obtain ⟨-, hprefixed, -⟩ := mem_itemsAbove_iff.mp hmem
    have hbefore := hatNext.mem_before_of_above hmem
    rw [List.mem_append, List.mem_cons] at hbefore
    rcases hbefore with hbefore | rfl | hbefore
    · obtain ⟨first, last, rfl⟩ := List.append_of_mem hbefore
      have hatAbove := @Skeleton.at_split items first (last ++ item :: rest) above hskel
        (by simp [hat.split])
      have hitem := @At.prefix_of_between _ _ _ _ hatAbove (last ++ item :: mid)
        (child :: after) next (by simp [hrest]) hprefixed item (by simp)
      have : hiddenIn items closed item.info.fullPath = true :=
        (hskel.hiddenIn_iff_above hat.mem).mpr ⟨above, mem_itemsAbove_iff.mpr
          ⟨hatAbove.mem, hitem, hatAbove.ne_of_mem_rest (by simp)⟩, hclosed⟩
      exact absurd this (by simp [hshown])
    · exact hnot hprefixed
    · rw [hmid] at hbefore
      have hmemUnder := List.mem_takeWhile_imp hbefore
      exact hnot ((under_iff.mp hmemUnder).trans hprefixed)
  have hchildShown : hiddenIn items closed child.info.fullPath = false := by
    by_contra hhidden
    obtain ⟨dir, hdirMem, -⟩ := @exists_between_of_hiddenIn _ _ _ _ _ hatNext hnextShown
      (by simpa using hopen) [] after child rfl hunder (by simpa using hhidden)
    exact List.not_mem_nil hdirMem
  rw [← hmid, htail, dress_eq hatNext closed'] at hitems
  simp only [List.map_cons, closeNext, isPath_dressItem, hdir, if_true, List.map_append,
    List.append_assoc, List.cons_append] at hitems
  obtain ⟨-, hitems⟩ := List.append_inj hitems (by simp)
  obtain ⟨-, hitems⟩ := List.cons_eq_cons.mp hitems
  obtain ⟨-, hitems⟩ := List.append_inj hitems (by simp)
  obtain ⟨hnextEq, hitems⟩ := List.cons_eq_cons.mp hitems
  obtain ⟨hchildEq, -⟩ := List.cons_eq_cons.mp hitems
  have hkind := congrArg FileTreeItem.kind hnextEq
  have hclosed : closed' next.info.fullPath = true := by
    simpa [FileTreeItem.collapsePath, kind_dressItem, hdir] using hkind.symm
  have hhidden : hiddenIn items closed' child.info.fullPath = true :=
    hiddenIn_iff.mpr ⟨next, hatNext.mem, hdir, hclosed, hunder,
      hatNext.ne_of_mem_rest List.mem_cons_self⟩
  have hvisible := congrArg (fun item : FileTreeItem => item.info.visible) hchildEq
  simp [dressItem, hchildShown, hhidden] at hvisible

variable (hroot : items = root :: more) (hfiles : files ≠ 0)
  (hshows : Shows items files closed tree)
include hroot hfiles hshows

theorem meets_findFile_iff (file : FilePath) :
    Meets tree (.findFile file) ↔
      ∃ closed' tree', tree.handle (.findFile file) = .ok tree' ∧
        Shows items files closed' tree' := by
  have hdrop : ∀ {before item rest}, At items before item rest →
      ∀ other more', tree.items.treeItems.drop before.length = other :: more' ↔
        dressItem items closed item = other ∧ rest.map (dressItem items closed) = more' := by
    intro before item rest hat other more'
    rw [hshows.dressed, drop_dress hat, List.cons_eq_cons]
  have hindent : ∀ list : List FileTreeItem,
      (list.map (dressItem items closed)).map (fun other => other.info.indent) =
        list.map fun other => other.info.indent := by
    intro list
    rw [List.map_map]
    rfl
  have htake : ∀ {before item rest}, At items before item rest →
      (tree.items.treeItems.take before.length).countP (fun other => other.info.indent ≤ 1) =
        before.countP fun other => other.info.indent ≤ 1 := by
    intro before item rest hat
    rw [hshows.dressed, dress_eq hat, List.take_left' (List.length_map ..), List.countP_map]
    rfl
  have hfind : tree.items.treeItems.findIdx? (fun item => item.info.fullPath == file) =
      items.findIdx? fun item => item.info.fullPath == file := by
    rw [hshows.dressed, findIdx_dress]
  have hat : ∀ {index}, index ∈ items.findIdx? (fun item => item.info.fullPath == file) →
      ∃ before item rest, At items before item rest ∧ before.length = index := fun hindex =>
    at_of_findIdx hskel.outline hindex
  by_cases hsame : items.findIdx? (fun item => item.info.fullPath == file) = tree.selection
  · rw [← findFile_same hskel hroot hshows hfiles hsame, Meets, hfind]
    refine forall_congr' fun index => forall_congr' fun hindex => ?_
    obtain ⟨before, item, rest, hat, rfl⟩ := hat hindex
    rw [hat.forall_iff]
    simp only [hdrop hat, if_pos (hsame.symm.trans hindex), htake hat]
    constructor
    · intro hall
      have := hall _ _ ⟨rfl, rfl⟩
      exact this
    · rintro hholds _ _ ⟨rfl, rfl⟩
      exact hholds
  · rw [← findFile_other hskel hroot hshows hfiles hsame, Meets, hfind]
    refine forall_congr' fun index => forall_congr' fun hindex => ?_
    obtain ⟨before, item, rest, hat, rfl⟩ := hat hindex
    have hne : tree.selection ≠ some before.length := fun h =>
      hsame ((Option.mem_def.mp hindex).trans h.symm)
    rw [hat.forall_iff]
    simp only [hdrop hat, if_neg hne]
    constructor
    · intro hall
      have := hall _ _ ⟨rfl, rfl⟩
      rwa [hindent] at this
    · rintro hholds _ _ ⟨rfl, rfl⟩
      rw [hindent]
      exact hholds

end Exact

/-- A step keeps the tree as it is to be exactly when it meets its condition. -/
theorem meets_iff (hskel : Skeleton items) (hroot : items = root :: more) (hfiles : files ≠ 0)
    (hshows : Shows items files closed tree) (input : TreeInput) :
    Meets tree input ↔
      ∃ closed' tree', tree.handle input = .ok tree' ∧ Shows items files closed' tree' := by
  have hselected : ∀ {index}, tree.selection = some index → ∃ before item rest,
      At items before item rest ∧ before.length = index ∧
        hiddenIn items closed item.info.fullPath = false := fun hindex => by
    obtain ⟨before, item, rest, -, hat, hlength, hshown, -⟩ := hshows.selected _ hindex
    exact ⟨before, item, rest, hat, hlength, hshown⟩
  cases input with
  | move dir =>
      cases hselection : tree.selection with
      | none =>
          have hrun : tree.handle (.move dir) = .ok tree := by
            simp [FileTree.handle, FileTree.moveSelection, hselection]
          refine iff_of_true ?_ ⟨closed, tree, hrun, hshows⟩
          cases dir <;> simp [Meets, hselection]
      | some index =>
          obtain ⟨before, item, rest, hat, rfl, hshown⟩ := hselected hselection
          constructor
          · intro hmeets
            have hdown : dir = .down →
                (∃ later, before.length < later ∧ tree.isVisibleIndex later = true) ∨
                  tree.items.treeItems.length ≤ before.length + 1 := by
              rintro rfl
              exact hmeets _ hselection
            obtain ⟨closed', tree', newIndex, hmove, hshows', hnew⟩ :=
              moveTo_shows hskel hroot hshows hat hselection hshown dir hdown
            refine ⟨closed', (tree'.settle before.length newIndex).1, ?_, hshows'.settle hnew⟩
            simp [FileTree.handle, FileTree.moveSelection, hselection, hmove]
          · rintro ⟨closed', tree', hrun, hshows'⟩
            cases dir <;> try trivial
            intro index hindex
            obtain rfl := Option.some.inj (hselection.symm.trans hindex)
            exact down_meets hskel hselection hrun hshows'
  | collapseRecursive =>
      cases hselection : tree.selection with
      | none =>
          have hrun : tree.handle .collapseRecursive = .ok tree := by
            simp [FileTree.handle, FileTree.collapseRecursive, hselection]
          exact iff_of_true (by simp [Meets, hselection]) ⟨closed, tree, hrun, hshows⟩
      | some index =>
          obtain ⟨before, item, rest, hat, rfl, hshown⟩ := hselected hselection
          have hhandle : tree.handle .collapseRecursive = (do
              return { tree with
                items := ← FileTreeItems.collapse ⟨dress items closed, files⟩
                  before.length true }) := by
            rw [← hshows.dressed, FileTree.handle, FileTree.collapseRecursive, hselection]
          have hmeets : Meets tree .collapseRecursive ↔ (item.kind.isPath = true →
              ∀ next ∈ (behindUnder item rest).head?,
                next.kind.isPath = true → closed next.info.fullPath = true) := by
            rw [Meets, hselection]
            simp only [Option.mem_some_iff, forall_eq', hshows.dressed, drop_dress hat,
              List.cons_eq_cons]
            constructor
            · intro hall hpath next hnext hdir
              have hmem : dressItem items closed next ∈ (behindUnder (dressItem items closed item)
                  (rest.map (dressItem items closed))).head? := by
                rw [behindUnder_dress, List.head?_map]
                exact Option.mem_map_of_mem _ hnext
              have hcollapsed := hall _ _ ⟨rfl, rfl⟩ (by simp [hpath]) _ hmem (by simp [hdir])
              rw [isPathCollapsed_dressItem, Bool.and_eq_true] at hcollapsed
              exact hcollapsed.2
            · rintro hall _ _ ⟨rfl, rfl⟩ hpath next hnext hdir
              rw [behindUnder_dress, List.head?_map] at hnext
              obtain ⟨other, hother, rfl⟩ := Option.map_eq_some_iff.mp hnext
              rw [isPath_dressItem] at hpath hdir
              simp [isPathCollapsed_dressItem, hdir, hall hpath other hother hdir]
          rw [hmeets, hhandle]
          cases hpath : item.kind.isPath with
          | false =>
              rw [(change_file hat hpath true).1]
              refine iff_of_true (by simp) ⟨closed, _, rfl, ?_⟩
              rw [← hshows.dressed]
              exact hshows
          | true =>
              rw [forall_prop_of_true rfl]
              constructor
              · intro hnext
                rw [collapse_true_dress hat hpath hnext]
                exact ⟨_, _, rfl, hshows.change hat hselection
                  fun _ => View.closeUnder_of_not⟩
              · rintro ⟨closed', tree', hrun, hshows'⟩
                obtain ⟨items', hcollapse, hreturn⟩ := Outcome.bind_eq_ok_iff.mp hrun
                obtain rfl := Outcome.ok.inj hreturn
                have hdressed : items' = ⟨dress items closed', files⟩ := hshows'.dressed
                rw [hdressed] at hcollapse
                exact collapse_meets hskel hat hpath hshown hcollapse
  | expandRecursive =>
      refine iff_of_true trivial ?_
      cases hselection : tree.selection with
      | none =>
          have hrun : tree.handle .expandRecursive = .ok tree := by
            simp [FileTree.handle, FileTree.expandRecursive, hselection]
          exact ⟨closed, tree, hrun, hshows⟩
      | some index =>
          obtain ⟨before, item, rest, hat, rfl, hshown⟩ := hselected hselection
          have hhandle : tree.handle .expandRecursive = (do
              return { tree with
                items := ← FileTreeItems.expand ⟨dress items closed, files⟩
                  before.length true }) := by
            rw [← hshows.dressed, FileTree.handle, FileTree.expandRecursive, hselection]
          rw [hhandle]
          cases hpath : item.kind.isPath with
          | false =>
              rw [(change_file hat hpath true).2]
              refine ⟨closed, _, rfl, ?_⟩
              rw [← hshows.dressed]
              exact hshows
          | true =>
              rw [expand_true_dress hat hpath hshown]
              exact ⟨_, _, rfl, hshows.change hat hselection fun _ => View.openUnder_of_not⟩
  | findFile file => exact meets_findFile_iff hskel hroot hfiles hshows file

end Steps

section Runs

/-- The tree over all that the user does to it. -/
def session : Machine (Outcome Empty FileTree) TreeInput Empty where
  step state input := (state >>= fun tree => tree.handle input, [])

/-- The tree shows some directories open and the others closed, the selected item among
what is shown, and knows its place there. -/
def Good (items : List FileTreeItem) (files : ℕ) (state : Outcome Empty FileTree) : Prop :=
  ∃ tree closed, state = .ok tree ∧ Shows items files closed tree

/-- What a step must meet, of a tree that is there. -/
def StepMeets (state : Outcome Empty FileTree) (input : TreeInput) : Prop :=
  ∀ tree, state = .ok tree → Meets tree input

variable {list : List FilePath}

theorem exists_root (hlist : FileList list) (hne : list ≠ []) :
    ∃ root more, newItems list = root :: more := by
  obtain ⟨file, hfile⟩ := List.exists_mem_of_ne_nil list hne
  have hmem : shownItem list [] file ∈ newItems list :=
    List.mem_map_of_mem (file_mem_shownPaths hlist hfile)
  exact List.exists_cons_of_ne_nil (List.ne_nil_of_mem hmem)

/-- A new tree with all but its root closed. -/
theorem good_new (hlist : FileList list) (hne : list ≠ [])
    (hlength : ∀ path ∈ list, path.length ≤ 256) (hslash : ∀ path ∈ list, Slashless path)
    {name : String} (hname : ∀ file ∈ list, [name] <+: file) :
    ∃ tree, FileTree.new list [] = .ok tree ∧
      Good (newItems list) list.length tree.collapseButRoot := by
  obtain ⟨root, more, hroot⟩ := exists_root hlist hne
  have hskel := skeleton_newItems hlist hname
  have hat := @Skeleton.at_split _ [] more root hskel hroot
  have hitems : FileTreeItems.new list [] = .ok ⟨newItems list, list.length⟩ :=
    (new_eq hlist hlength hslash []).1
  have hempty : list.isEmpty = false := by simpa using hne
  have hfiles : list.length ≠ 0 := by simpa using hne
  have hvisible : root.info.visible = true := by
    obtain ⟨path, -, rfl⟩ := List.mem_map.mp hat.mem
    rfl
  have hvisual := @calcVisualSelection_eq ⟨⟨newItems list, list.length⟩, some 0, none⟩ []
    more root hroot rfl hvisible
  refine ⟨⟨⟨newItems list, list.length⟩, some 0,
    FileTree.calcVisualSelection ⟨⟨newItems list, list.length⟩, some 0, none⟩⟩, ?_, ?_⟩
  · rw [FileTree.new, hitems, hempty]
    rfl
  · rw [@collapseButRoot_eq (newItems list) more root list.length (fun _ => false) _ hskel hroot
      (by rw [dress_newItems]) hfiles]
    refine ⟨_, rootView root.info.fullPath, rfl, rfl, by simp, ?_⟩
    rintro index hindex
    obtain rfl := Option.mem_some_iff.mp hindex
    obtain ⟨before, item, rest, hat', hlength', hshown⟩ :=
      @Skeleton.shownAt_zero _ more root (rootView root.info.fullPath) hskel hroot
    obtain ⟨rfl, rfl, rfl⟩ := hat.eq_of_length hat' hlength'
    exact ⟨[], item, rest, _, hat, rfl, hshown, hvisual⟩

/-- Over any session with the tree of a revision's files, the tree is as it is to be in
every state exactly when each step meets its condition. -/
theorem session_throughout_iff (hlist : FileList list) (hne : list ≠ [])
    (hlength : ∀ path ∈ list, path.length ≤ 256) (hslash : ∀ path ∈ list, Slashless path)
    {name : String} (hname : ∀ file ∈ list, [name] <+: file) (inputs : List TreeInput) :
    ∃ tree, FileTree.new list [] = .ok tree ∧
      (session.Throughout (Good (newItems list) list.length) tree.collapseButRoot inputs ↔
        session.EachStep StepMeets tree.collapseButRoot inputs) := by
  obtain ⟨tree, hnew, hgood⟩ := good_new hlist hne hlength hslash hname
  obtain ⟨root, more, hroot⟩ := exists_root hlist hne
  have hskel := skeleton_newItems hlist hname
  have hfiles : list.length ≠ 0 := by simpa using hne
  have hstep : ∀ state input, Good (newItems list) list.length state →
      (StepMeets state input ↔ Good (newItems list) list.length (session.next state input)) := by
    rintro state input ⟨tree, closed, rfl, hshows⟩
    have hmeets := meets_iff hskel hroot hfiles hshows input
    constructor
    · intro hstep
      obtain ⟨closed', tree', hrun, hshows'⟩ := hmeets.mp (hstep tree rfl)
      exact ⟨tree', closed', hrun, hshows'⟩
    · rintro ⟨tree', closed', hrun, hshows'⟩ other hother
      obtain rfl := Outcome.ok.inj hother
      exact hmeets.mpr ⟨closed', tree', hrun, hshows'⟩
  refine ⟨tree, hnew, Machine.throughout_iff_eachStep (fun _ => id) ?_ ?_ hgood inputs⟩
  · exact fun state input hstate => (hstep state input hstate).mp
  · exact fun state input hstate => mt (hstep state input hstate).mpr

/-- The file that is looked for is the last of its directory, and that the last of its own:
what comes behind in the directory above stays hidden, though that is open. -/
example :
    (do
      let tree ← (FileTree.new [[".", "a", "b", "h"], [".", "a", "b", "c", "f"],
        [".", "a", "z"], [".", "y"]] []).toOption
      let tree ← tree.collapseButRoot.toOption
      let (tree, _) ← (tree.findFile [".", "a", "b", "c", "f"]).toOption
      return tree.items.treeItems.map fun item =>
        (item.info.fullPath, item.kind, item.info.visible)) =
    some [(["."], .path false, true), ([".", "a"], .path false, true),
      ([".", "a", "b"], .path false, true), ([".", "a", "b", "h"], .file, true),
      ([".", "a", "b", "c"], .path false, true), ([".", "a", "b", "c", "f"], .file, true),
      ([".", "a", "z"], .file, false), ([".", "y"], .file, true)] := by
  decide

end Runs

end Filetree

end Gnostr
