/-
The items of the file tree of `filetreelist`: the directories and files of a list of paths
in the order they are shown, and what collapses, expands and shows them.
-/
import Gnostr.Lib.Outcome
import Gnostr.Lib.Outline
import Mathlib.Logic.Function.Basic

namespace Gnostr

namespace Filetree

/-- The components of a path, all of them normal or the leading dot. -/
abbrev FilePath := List String

scoped instance decidableMemPaths (path : FilePath) (paths : List FilePath) :
    Decidable (path ∈ paths) :=
  decidable_of_iff ((paths.find? (· = path)).isSome = true) (by simp [List.find?_isSome])

structure TreeItemInfo where
  indent : ℕ
  visible : Bool
  folded : Option FilePath
  fullPath : FilePath
deriving DecidableEq, Repr

inductive FileTreeItemKind where
  | path (collapsed : Bool)
  | file
deriving DecidableEq, Repr

structure FileTreeItem where
  info : TreeItemInfo
  kind : FileTreeItemKind
deriving DecidableEq, Repr

inductive FiletreeError where
  | numConversion
deriving DecidableEq, Repr

namespace FileTreeItemKind

def isPath : FileTreeItemKind → Bool
  | path _ => true
  | file => false

def isPathCollapsed : FileTreeItemKind → Bool
  | path collapsed => collapsed
  | file => false

end FileTreeItemKind

namespace TreeItemInfo

def new (indent : ℕ) (fullPath : FilePath) : TreeItemInfo := ⟨indent, true, none, fullPath⟩

/-- The last component, or the folded path. -/
def path (info : TreeItemInfo) : FilePath :=
  match info.folded with
  | some folded => folded
  | none => info.fullPath.getLast?.toList

def unindent (info : TreeItemInfo) : TreeItemInfo := { info with indent := info.indent - 1 }

end TreeItemInfo

namespace FileTreeItem

/-- `u8::try_from` of the number of ancestors less two: a path is its own ancestor, and so
is the empty one. -/
def indentOf (path : FilePath) : Except FiletreeError ℕ :=
  let indent := path.length + 1 - 2
  if indent < 256 then .ok indent else .error .numConversion

def newFile (path : FilePath) : Except FiletreeError FileTreeItem := do
  return ⟨.new (← indentOf path) path, .file⟩

def newPath (path : FilePath) (collapsed : Bool) : Except FiletreeError FileTreeItem := do
  return ⟨.new (← indentOf path) path, .path collapsed⟩

def fold (item next : FileTreeItem) : FileTreeItem :=
  { item with
    info := { item.info with
      folded := some (item.info.path ++ next.info.path)
      fullPath := next.info.fullPath } }

/-- `collapse_path`, of an item that is a path. -/
def collapsePath (item : FileTreeItem) : FileTreeItem := { item with kind := .path true }

def expandPath (item : FileTreeItem) : FileTreeItem := { item with kind := .path false }

def hide (item : FileTreeItem) : FileTreeItem := { item with info.visible := false }

def reveal (item : FileTreeItem) : FileTreeItem := { item with info.visible := true }

end FileTreeItem

structure FileTreeItems where
  treeItems : List FileTreeItem
  files : ℕ
deriving DecidableEq, Repr

/-- `full_path_str`. -/
def pathString (path : FilePath) : String := String.intercalate "/" path

/-- How many children each path has, of those that were added. -/
abbrev PathsAdded := FilePath → Option ℕ

/-- `*entry(path).or_insert(0) += 1`. -/
def PathsAdded.increment (pathsAdded : PathsAdded) (path : FilePath) : PathsAdded :=
  Function.update pathsAdded path (some ((pathsAdded path).getD 0 + 1))

namespace FileTreeItems

section Create

variable (collapsed : List String)

/-- The body of the loop over the ancestors. -/
def pushDir (state : List FileTreeItem × PathsAdded) (c : FilePath) :
    Except FiletreeError (List FileTreeItem × PathsAdded) :=
  if c ≠ [] ∧ state.2 c = none then do
    let pathsAdded := Function.update state.2 c (some 0)
    let pathsAdded :=
      if c.dropLast ≠ [] then PathsAdded.increment pathsAdded c.dropLast else pathsAdded
    let item ← FileTreeItem.newPath c (collapsed.contains (pathString c))
    return (state.1 ++ [item], pathsAdded)
  else .ok state

/-- The ancestors of a path, itself left out, the shortest first. -/
def ancestors (path : FilePath) : List FilePath := (List.range path.length).map path.take

def pushDirs (itemPath : FilePath) (state : List FileTreeItem × PathsAdded) :
    Except FiletreeError (List FileTreeItem × PathsAdded) := do
  let (nodes, pathsAdded) ← (ancestors itemPath).foldlM (pushDir collapsed) state
  return (nodes, if itemPath ≠ [] then pathsAdded.increment itemPath.dropLast else pathsAdded)

def createItems (list : List FilePath) :
    Except FiletreeError (List FileTreeItem × PathsAdded) :=
  list.foldlM (fun state path => do
    let (items, pathsAdded) ← pushDirs collapsed path state
    return (items ++ [← FileTreeItem.newFile path], pathsAdded)) ([], fun _ => none)

end Create

section Fold

/-- `unindent`: the comparison is one of texts. -/
def unindent (leader : String) : List FileTreeItem → List FileTreeItem :=
  mapWhile (fun item => leader.toList.isPrefixOf (pathString item.info.fullPath).toList)
    fun item => { item with info := item.info.unindent }

/-- The loop of `fold_paths`: a directory with one child takes it in while that is a
directory.  Each turn leaves fewer items. -/
def foldPaths (paths : PathsAdded) : ℕ → List FileTreeItem → List FileTreeItem
  | 0, items => items
  | _ + 1, [] => []
  | _ + 1, [item] => [item]
  | turns + 1, item :: next :: rest =>
      if item.kind.isPath && paths item.info.fullPath == some 1 && next.kind.isPath then
        foldPaths paths turns
          (item.fold next :: unindent (pathString next.info.fullPath) rest)
      else item :: foldPaths paths turns (next :: rest)

def new (list : List FilePath) (collapsed : List String) :
    Except FiletreeError FileTreeItems := do
  let (items, paths) ← createItems collapsed list
  return ⟨foldPaths paths items.length items, list.length⟩

end Fold

section Change

/-- The loop of `collapse`: an item is collapsed before it is looked at where it lies. -/
def hideUnder (recursive : Bool) (path : FilePath) : List FileTreeItem → List FileTreeItem
  | [] => []
  | item :: rest =>
      let item := if recursive && item.kind.isPath then item.collapsePath else item
      if under path item.info.fullPath then item.hide :: hideUnder recursive path rest
      else item :: rest

/-- The loop of a recursive `expand`. -/
def expandUnder (path : FilePath) : List FileTreeItem → List FileTreeItem :=
  mapWhile (fun item => under path item.info.fullPath) fun item =>
    if item.kind.isPath && item.kind.isPathCollapsed then item.expandPath else item

/-- The loop of `update_visibility`, with a path and without defaults. -/
def updateVisibility (path : FilePath) : Option FilePath → List FileTreeItem →
    List FileTreeItem
  | _, [] => []
  | innerCollapsed, item :: rest =>
      if innerCollapsed.any fun collapsedPath => under collapsedPath item.info.fullPath then
        item :: updateVisibility path innerCollapsed rest
      else
        let innerCollapsed :=
          if item.kind.isPathCollapsed then some item.info.fullPath else none
        if under path item.info.fullPath then
          item.reveal :: updateVisibility path innerCollapsed rest
        else item :: rest

/-- `self.tree_items[index]` and the items behind it, put back changed. -/
def changeAt (items : FileTreeItems) (index : ℕ)
    (change : FileTreeItem → List FileTreeItem → FileTreeItem × List FileTreeItem) :
    Outcome Empty FileTreeItems :=
  match items.treeItems.drop index with
  | [] => .panic
  | item :: rest =>
      let (item, rest) := change item rest
      .ok { items with treeItems := items.treeItems.take index ++ item :: rest }

def collapse (items : FileTreeItems) (index : ℕ) (recursive : Bool) :
    Outcome Empty FileTreeItems :=
  items.changeAt index fun item rest =>
    if item.kind.isPath then
      (item.collapsePath, hideUnder recursive item.info.fullPath rest)
    else (item, rest)

def expand (items : FileTreeItems) (index : ℕ) (recursive : Bool) :
    Outcome Empty FileTreeItems :=
  items.changeAt index fun item rest =>
    if item.kind.isPath then
      let fullPath := item.info.fullPath
      let rest := if recursive then expandUnder fullPath rest else rest
      (item.expandPath, updateVisibility fullPath none rest)
    else (item, rest)

end Change

end FileTreeItems

end Filetree

end Gnostr
