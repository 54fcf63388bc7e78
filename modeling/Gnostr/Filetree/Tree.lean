/-
The file tree with its selection: what a key moves, collapses or expands, and what it takes
to show a file that is looked for.
-/
import Gnostr.Filetree.Items

namespace Gnostr

namespace Filetree

/-- `MoveSelection`, where `End` is `toEnd`. -/
inductive MoveSelection where
  | up
  | down
  | left
  | right
  | top
  | toEnd
  | pageDown
  | pageUp
deriving DecidableEq, Repr

structure VisualSelection where
  count : ℕ
  index : ℕ
deriving DecidableEq, Repr

structure FileTree where
  items : FileTreeItems
  selection : Option ℕ
  visualSelection : Option VisualSelection
deriving DecidableEq, Repr

structure TreeItemsIterator where
  items : List FileTreeItem
  index : ℕ
  increments : Option ℕ
  maxAmount : ℕ

namespace TreeItemsIterator

/-- The loop of `next`: the first item that is shown, from an index on. -/
def seek (index : ℕ) : List FileTreeItem → Option (ℕ × FileTreeItem)
  | [] => none
  | item :: rest => if item.info.visible then some (index, item) else seek (index + 1) rest

def next (iterator : TreeItemsIterator) : Option ((ℕ × FileTreeItem) × TreeItemsIterator) :=
  if iterator.increments.getD 0 < iterator.maxAmount then
    let start := if iterator.increments.isNone then iterator.index else iterator.index + 1
    let increments := match iterator.increments with
      | some i => i + 1
      | none => 0
    match seek start (iterator.items.drop start) with
    | some (index, item) =>
        some ((index, item), { iterator with index := index, increments := some increments })
    | none => none
  else none

/-- What an iterator yields until it has nothing more, or for some turns. -/
def collect : ℕ → TreeItemsIterator → List (ℕ × FileTreeItem)
  | 0, _ => []
  | turns + 1, iterator =>
      match iterator.next with
      | some (item, iterator) => item :: collect turns iterator
      | none => []

end TreeItemsIterator

namespace FileTreeItems

/-- `iterate`: no item is yielded twice. -/
def iterate (items : FileTreeItems) (start maxAmount : ℕ) : List (ℕ × FileTreeItem) :=
  TreeItemsIterator.collect items.treeItems.length ⟨items.treeItems, start, none, maxAmount⟩

/-- `self.tree_items[index]`. -/
def getItem (items : FileTreeItems) (index : ℕ) : Outcome Empty FileTreeItem :=
  match items.treeItems[index]? with
  | some item => .ok item
  | none => .panic

/-- The loop of `show_element_upward` over the items before and at the index, the last one
first: what it does not come to stays. -/
def showUpward (folder : ℕ) : List FileTreeItem → Outcome Empty (List FileTreeItem)
  | [] => .ok []
  | item :: before =>
      if item.info.indent = folder then do
        return item.reveal :: (← showUpward folder before)
      else if folder = 0 then .panic
      else if item.info.indent = folder - 1 then
        if item.info.visible then .ok (item.expandPath :: before)
        else do return item.expandPath.reveal :: (← showUpward item.info.indent before)
      else do return item :: (← showUpward folder before)

/-- The loop of `show_element_downward` over the items behind the index. -/
def showDownward (folder : ℕ) : List FileTreeItem → List FileTreeItem
  | [] => []
  | item :: rest =>
      if item.info.indent = folder then item.reveal :: showDownward folder rest
      else if folder > 0 ∧ item.info.indent = folder - 1 then
        item.reveal :: showDownward item.info.indent rest
      else item :: showDownward folder rest

/-- `show_element`, whose number of items no caller looks at. -/
def showElement (items : FileTreeItems) (index : ℕ) : Outcome Empty FileTreeItems :=
  match items.treeItems[index]? with
  | none => .ok items
  | some item => do
      let upward ← showUpward item.info.indent (items.treeItems.take (index + 1)).reverse
      return { items with
        treeItems := upward.reverse ++
          showDownward item.info.indent (items.treeItems.drop (index + 1)) }

end FileTreeItems

namespace FileTree

def calcVisualSelection (tree : FileTree) : Option VisualSelection :=
  tree.selection.map fun selectionAbsolute =>
    let shown := tree.items.iterate 0 tree.items.treeItems.length
    { count := shown.length
      index := ((shown.map Prod.fst).findIdx? (· == selectionAbsolute)).getD 0 }

def new (list : List FilePath) (collapsed : List String) : Except FiletreeError FileTree := do
  let items ← FileTreeItems.new list collapsed
  let tree : FileTree := ⟨items, if list.isEmpty then none else some 0, none⟩
  return { tree with visualSelection := tree.calcVisualSelection }

def isEmpty (tree : FileTree) : Bool := tree.items.files == 0

def collapseButRoot (tree : FileTree) : Outcome Empty FileTree :=
  if tree.isEmpty then .ok tree
  else do
    let items ← tree.items.collapse 0 true
    return { tree with items := ← items.expand 0 false }

def collapseRecursive (tree : FileTree) : Outcome Empty FileTree :=
  match tree.selection with
  | some selection => do return { tree with items := ← tree.items.collapse selection true }
  | none => .ok tree

def expandRecursive (tree : FileTree) : Outcome Empty FileTree :=
  match tree.selection with
  | some selection => do return { tree with items := ← tree.items.expand selection true }
  | none => .ok tree

def isVisibleIndex (tree : FileTree) (index : ℕ) : Bool :=
  tree.items.treeItems[index]?.any fun item => item.info.visible

section Selection

/-- The loop of `selection_updown`, up. -/
def stepUp (tree : FileTree) : ℕ → ℕ
  | 0 => 0
  | index + 1 =>
      if index ≥ tree.items.treeItems.length then index + 1
      else if tree.isVisibleIndex index then index
      else stepUp tree index

/-- The loop of `selection_updown`, down: over the items behind the index, and it stays at
the last one. -/
def stepDown (index : ℕ) : List FileTreeItem → ℕ
  | [] => index
  | item :: rest => if item.info.visible then index + 1 else stepDown (index + 1) rest

def selectionUpdown (tree : FileTree) (currentIndex : ℕ) (up : Bool) : Option ℕ :=
  let index :=
    if up then tree.stepUp currentIndex
    else stepDown currentIndex (tree.items.treeItems.drop (currentIndex + 1))
  if index = currentIndex then none else some index

def selectionStart (currentIndex : ℕ) : Option ℕ := if currentIndex = 0 then none else some 0

/-- The loop of `selection_end`. -/
def lastVisible (tree : FileTree) : ℕ → ℕ
  | 0 => 0
  | index + 1 => if tree.isVisibleIndex (index + 1) then index + 1 else lastVisible tree index

def selectionEnd (tree : FileTree) (currentIndex : ℕ) : Option ℕ :=
  let newIndex := tree.lastVisible (tree.items.treeItems.length - 1)
  if newIndex = currentIndex then none else some newIndex

/-- The loop of `select_parent`: each turn goes up. -/
def parentFrom (tree : FileTree) (indent : ℕ) : ℕ → ℕ → Outcome Empty ℕ
  | 0, index => .ok index
  | turns + 1, index =>
      match tree.selectionUpdown index true with
      | none => .ok index
      | some selection => do
          let item ← tree.items.getItem selection
          if item.info.indent < indent then return selection
          else parentFrom tree indent turns selection

def selectParent (tree : FileTree) (currentIndex : ℕ) : Outcome Empty (Option ℕ) := do
  let item ← tree.items.getItem currentIndex
  let index ← tree.parentFrom item.info.indent (currentIndex + 1) currentIndex
  return if index = currentIndex then none else some index

def selectionLeft (tree : FileTree) (currentIndex : ℕ) :
    Outcome Empty (FileTree × Option ℕ) := do
  let item ← tree.items.getItem currentIndex
  if item.kind.isPath && !item.kind.isPathCollapsed then
    return ({ tree with items := ← tree.items.collapse currentIndex false }, some currentIndex)
  else return (tree, ← tree.selectParent currentIndex)

def selectionRight (tree : FileTree) (currentSelection : ℕ) :
    Outcome Empty (FileTree × Option ℕ) := do
  let item ← tree.items.getItem currentSelection
  if item.kind.isPath then
    if item.kind.isPathCollapsed then
      return ({ tree with items := ← tree.items.expand currentSelection false },
        some currentSelection)
    else return (tree, tree.selectionUpdown currentSelection false)
  else return (tree, none)

/-- The match of `move_selection`. -/
def moveTo (tree : FileTree) (selection : ℕ) (dir : MoveSelection) :
    Outcome Empty (FileTree × Option ℕ) :=
  match dir with
  | .up => .ok (tree, tree.selectionUpdown selection true)
  | .down => .ok (tree, tree.selectionUpdown selection false)
  | .left => tree.selectionLeft selection
  | .right => tree.selectionRight selection
  | .top => .ok (tree, selectionStart selection)
  | .toEnd => .ok (tree, tree.selectionEnd selection)
  | .pageDown | .pageUp => .ok (tree, none)

/-- What `move_selection` does with the new index. -/
def settle (tree : FileTree) (selection : ℕ) (newIndex : Option ℕ) : FileTree × Bool :=
  let changedIndex := newIndex.any (· ≠ selection)
  let tree :=
    if changedIndex then
      let tree := { tree with selection := newIndex }
      { tree with visualSelection := tree.calcVisualSelection }
    else tree
  (tree, changedIndex || newIndex.isSome)

def moveSelection (tree : FileTree) (dir : MoveSelection) : Outcome Empty (FileTree × Bool) :=
  match tree.selection with
  | none => .ok (tree, false)
  | some selection => do
      let (tree, newIndex) ← tree.moveTo selection dir
      return tree.settle selection newIndex

/-- `select_file`, of a path that is looked for among the items. -/
def selectFile (tree : FileTree) (path : FilePath) : Outcome Empty (FileTree × Bool) :=
  let newSelection := tree.items.treeItems.findIdx? fun item => item.info.fullPath == path
  if newSelection = tree.selection then .ok (tree, false)
  else do
    let tree := { tree with selection := newSelection }
    let items ← match newSelection with
      | some selection => tree.items.showElement selection
      | none => pure tree.items
    let tree := { tree with items := items }
    return ({ tree with visualSelection := tree.calcVisualSelection }, true)

/-- `RevisionFilesComponent::find_file`, of the tree. -/
def findFile (tree : FileTree) (file : FilePath) : Outcome Empty (FileTree × Bool) := do
  (← tree.collapseButRoot).selectFile file

end Selection

end FileTree

section Iterate

/-- The items that are shown, with their indices. -/
def shownFrom (index : ℕ) : List FileTreeItem → List (ℕ × FileTreeItem)
  | [] => []
  | item :: rest =>
      if item.info.visible then (index, item) :: shownFrom (index + 1) rest
      else shownFrom (index + 1) rest

theorem shownFrom_append (index : ℕ) (first last : List FileTreeItem) :
    shownFrom index (first ++ last) =
      shownFrom index first ++ shownFrom (index + first.length) last := by
  induction first generalizing index with
  | nil => rfl
  | cons item first ih =>
      simp only [List.cons_append, shownFrom, ih, List.length_cons]
      rw [show index + 1 + first.length = index + (first.length + 1) by omega]
      split_ifs <;> rfl

theorem length_shownFrom (index : ℕ) (list : List FileTreeItem) :
    (shownFrom index list).length = list.countP fun item => item.info.visible := by
  induction list generalizing index with
  | nil => rfl
  | cons item list ih =>
      rw [shownFrom, List.countP_cons]
      split_ifs with hvisible
      · rw [List.length_cons, ih]
      · exact ih (index + 1)

theorem length_shownFrom_le (index : ℕ) (list : List FileTreeItem) :
    (shownFrom index list).length ≤ list.length := by
  rw [length_shownFrom]
  exact List.countP_le_length

theorem lt_of_mem_shownFrom {index : ℕ} {list : List FileTreeItem}
    {entry : ℕ × FileTreeItem} (hentry : entry ∈ shownFrom index list) :
    index ≤ entry.1 ∧ entry.1 < index + list.length := by
  induction list generalizing index with
  | nil => exact absurd hentry List.not_mem_nil
  | cons item list ih =>
      rw [shownFrom] at hentry
      split_ifs at hentry
      · rcases List.mem_cons.mp hentry with rfl | hentry
        · simp
        · have := ih hentry
          simp only [List.length_cons]
          omega
      · have := ih hentry
        simp only [List.length_cons]
        omega

/-- What is found is the first item shown, and what is shown behind it follows. -/
theorem shownFrom_of_seek {items : List FileTreeItem} {start : ℕ} :
    match TreeItemsIterator.seek start (items.drop start) with
    | some (index, item) => shownFrom start (items.drop start) =
        (index, item) :: shownFrom (index + 1) (items.drop (index + 1))
    | none => shownFrom start (items.drop start) = [] := by
  suffices hscan : ∀ list start, items.drop start = list →
      match TreeItemsIterator.seek start list with
      | some (index, item) => shownFrom start list =
          (index, item) :: shownFrom (index + 1) (items.drop (index + 1))
      | none => shownFrom start list = [] by
    exact hscan _ start rfl
  intro list
  induction list with
  | nil => exact fun _ _ => rfl
  | cons item list ih =>
      intro start hdrop
      have htail : items.drop (start + 1) = list := by
        rw [← List.drop_drop, hdrop, List.drop_one, List.tail_cons]
      rw [TreeItemsIterator.seek, shownFrom]
      split_ifs with hshown
      · simp [htail]
      · exact ih (start + 1) htail

theorem collect_eq (items : List FileTreeItem) (maxAmount turns index increments : ℕ) :
    TreeItemsIterator.collect turns ⟨items, index, some increments, maxAmount⟩ =
      (shownFrom (index + 1) (items.drop (index + 1))).take
        (min turns (maxAmount - increments)) := by
  induction turns generalizing index increments with
  | zero => simp [TreeItemsIterator.collect]
  | succ turns ih =>
      have hseek := @shownFrom_of_seek items (index + 1)
      rw [TreeItemsIterator.collect, TreeItemsIterator.next]
      by_cases hmore : increments < maxAmount
      · have hmin : min (turns + 1) (maxAmount - increments) =
            min turns (maxAmount - (increments + 1)) + 1 := by omega
        simp only [Option.getD_some, hmore, if_true, Option.isNone_some, Bool.false_eq_true,
          if_false]
        cases hfound : TreeItemsIterator.seek (index + 1) (items.drop (index + 1)) with
        | none =>
            rw [hfound] at hseek
            simp [hseek]
        | some entry =>
            rw [hfound] at hseek
            simp only [hseek, hmin, List.take_succ_cons, ih]
      · have hnone : maxAmount - increments = 0 := by omega
        simp [hmore, hnone]

/-- From an index on, the items that are shown are yielded, one more than asked for. -/
theorem iterate_eq (items : FileTreeItems) (start maxAmount : ℕ) (hmax : 0 < maxAmount) :
    items.iterate start maxAmount =
      (shownFrom start (items.treeItems.drop start)).take (maxAmount + 1) := by
  have hseek := @shownFrom_of_seek items.treeItems start
  have hlength := length_shownFrom_le start (items.treeItems.drop start)
  rw [FileTreeItems.iterate]
  cases hturns : items.treeItems.length with
  | zero =>
      have hnil : items.treeItems = [] := List.length_eq_zero_iff.mp hturns
      simp [TreeItemsIterator.collect, hnil, shownFrom]
  | succ turns =>
      rw [TreeItemsIterator.collect, TreeItemsIterator.next]
      simp only [Option.getD_none, hmax, if_true, Option.isNone_none]
      cases hfound : TreeItemsIterator.seek start (items.treeItems.drop start) with
      | none =>
          rw [hfound] at hseek
          simp [hseek]
      | some entry =>
          rw [hfound] at hseek
          simp only [hseek, collect_eq, List.take_succ_cons, Nat.sub_zero]
          rw [hseek, List.length_cons, List.length_drop, hturns] at hlength
          congr 1
          rw [← List.take_take, List.take_of_length_le]
          rw [List.length_take]
          omega

/-- The place of the selection among what is shown. -/
theorem calcVisualSelection_eq {tree : FileTree} {before rest : List FileTreeItem}
    {item : FileTreeItem} (hitems : tree.items.treeItems = before ++ item :: rest)
    (hselection : tree.selection = some before.length) (hshown : item.info.visible = true) :
    tree.calcVisualSelection =
      some ⟨(shownFrom 0 tree.items.treeItems).length, (shownFrom 0 before).length⟩ := by
  have hpos : 0 < tree.items.treeItems.length := by
    simp only [hitems, List.length_append, List.length_cons]
    omega
  have hall : tree.items.iterate 0 tree.items.treeItems.length =
      shownFrom 0 tree.items.treeItems := by
    rw [iterate_eq _ _ _ hpos, List.drop_zero, List.take_of_length_le]
    exact (length_shownFrom_le 0 _).trans (Nat.le_succ _)
  have hplace : ((shownFrom 0 tree.items.treeItems).map Prod.fst).findIdx?
      (· == before.length) = some (shownFrom 0 before).length := by
    rw [hitems, shownFrom_append, shownFrom, if_pos hshown, List.map_append, List.map_cons,
      Nat.zero_add]
    rw [List.findIdx?_append]
    have hnone : ((shownFrom 0 before).map Prod.fst).findIdx? (· == before.length) = none := by
      simp only [List.findIdx?_eq_none_iff, List.mem_map, beq_eq_false_iff_ne]
      rintro index ⟨entry, hentry, rfl⟩
      have := (lt_of_mem_shownFrom hentry).2
      omega
    simp [hnone, List.findIdx?_cons]
  rw [FileTree.calcVisualSelection, hselection, Option.map_some, hall]
  simp only [hplace, Option.getD_some]

end Iterate

end Filetree

end Gnostr
