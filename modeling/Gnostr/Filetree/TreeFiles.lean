/-
The files of a commit: what `tree_files` lists of a git tree, sorted so that directories
come first, is a list of files for the file tree.
-/
import Gnostr.Filetree.Session
import Gnostr.Lib.Bytes
import Mathlib.Data.List.Sort
import Mathlib.Data.Prod.Lex
import Mathlib.Data.String.Basic

namespace Gnostr

namespace Filetree

/-- The entries of a git tree, the first one first. -/
inductive GitTree where
  | nil
  | blob (name : Bytes) (filemode : ℤ) (id : ℕ) (rest : GitTree)
  | tree (name : Bytes) (entries rest : GitTree)
  | other (name : Bytes) (rest : GitTree)
deriving DecidableEq

structure TreeFile where
  path : FilePath
  filemode : ℤ
  id : ℕ
deriving DecidableEq, Repr

/-- `tree_recurse`, where a name is one component of a path. -/
def treeRecurse (path : FilePath) : GitTree → List TreeFile
  | .nil => []
  | .blob name filemode id rest =>
      ⟨path ++ [fromUtf8Lossy name], filemode, id⟩ :: treeRecurse path rest
  | .tree name entries rest =>
      treeRecurse (path ++ [fromUtf8Lossy name]) entries ++ treeRecurse path rest
  | .other _ rest => treeRecurse path rest

/-- `path_cmp`, which goes on for ever when the paths are one. -/
def pathCmp : FilePath → FilePath → Option Ordering
  | [], [] => none
  | [], [_] => some .lt
  | [], _ :: _ :: _ => some .gt
  | [_], [] => some .gt
  | _ :: _ :: _, [] => some .lt
  | a :: restA, b :: restB =>
      if restA.isEmpty && !restB.isEmpty then some .gt
      else if !restA.isEmpty && restB.isEmpty then some .lt
      else if a < b then some .lt
      else if b < a then some .gt
      else pathCmp restA restB

/-- `sort_file_list`.  Sorting compares elements that come to lie side by side, so that it
does not end when two files have one path. -/
def sortFileList (files : List TreeFile) : Option (List TreeFile) :=
  if (files.map TreeFile.path).Nodup then
    some (files.mergeSort fun a b => pathCmp a.path b.path ≠ some .gt)
  else none

def treeFiles (tree : GitTree) : Option (List TreeFile) :=
  sortFileList (treeRecurse ["."] tree)

section Order

/-- What paths are compared by first: whether they go on, then the component. -/
def levelKey : FilePath → Bool ×ₗ WithBot String
  | [] => toLex (true, ⊥)
  | a :: rest => toLex (rest.isEmpty, a)

theorem pathCmp_eq (a b : FilePath) :
    pathCmp a b =
      if levelKey a < levelKey b then some .lt
      else if levelKey b < levelKey a then some .gt
      else if a = [] then none
      else pathCmp a.tail b.tail := by
  match a, b with
  | [], [] => simp [pathCmp]
  | [], [_] => simp [pathCmp, levelKey, Prod.Lex.toLex_lt_toLex]
  | [], _ :: _ :: _ => simp [pathCmp, levelKey, Prod.Lex.toLex_lt_toLex]
  | [_], [] => simp [pathCmp, levelKey, Prod.Lex.toLex_lt_toLex]
  | _ :: _ :: _, [] => simp [pathCmp, levelKey, Prod.Lex.toLex_lt_toLex]
  | a :: restA, b :: restB =>
      cases ha : restA.isEmpty <;> cases hb : restB.isEmpty <;>
        simp [pathCmp, levelKey, Prod.Lex.toLex_lt_toLex, ha, hb]

/-- Paths with one key have the same first component, and go on or stop alike. -/
theorem levelKey_inj {a b : FilePath} (hkey : levelKey a = levelKey b) :
    a.head? = b.head? ∧ (a.tail = [] ↔ b.tail = []) := by
  cases a with
  | nil => cases b with
    | nil => simp
    | cons b restB => simp [levelKey] at hkey
  | cons a restA => cases b with
    | nil => simp [levelKey] at hkey
    | cons b restB =>
        simp only [levelKey, EmbeddingLike.apply_eq_iff_eq, Prod.mk.injEq, WithBot.coe_inj]
          at hkey
        simp [hkey.2, ← List.isEmpty_iff, hkey.1]

/-- A path does not come behind another. -/
def notAfter (a b : FilePath) : Bool := pathCmp a b ≠ some .gt

theorem notAfter_iff {a b : FilePath} :
    notAfter a b = true ↔ levelKey a < levelKey b ∨
      levelKey a = levelKey b ∧ (a = [] ∨ notAfter a.tail b.tail = true) := by
  rw [notAfter, pathCmp_eq]
  rcases lt_trichotomy (levelKey a) (levelKey b) with hlt | heq | hgt
  · simp [hlt]
  · rw [if_neg heq.not_lt, if_neg heq.not_gt]
    by_cases hnil : a = []
    · simp only [hnil, true_or, and_true]
      exact iff_of_true (by simp) (Or.inr (hnil ▸ heq))
    · simp [heq, hnil, notAfter]
  · simp [hgt, hgt.ne', not_lt_of_gt hgt]

/-- The comparison does not end for one path only. -/
theorem pathCmp_eq_none_iff {a b : FilePath} : pathCmp a b = none ↔ a = b := by
  induction a generalizing b with
  | nil => match b with
    | [] => simp [pathCmp]
    | [_] => simp [pathCmp]
    | _ :: _ :: _ => simp [pathCmp]
  | cons x a ih =>
      rw [pathCmp_eq]
      rcases lt_trichotomy (levelKey (x :: a)) (levelKey b) with hlt | heq | hgt
      · rw [if_pos hlt]
        exact iff_of_false (by simp) fun h => absurd (h ▸ hlt) (lt_irrefl _)
      · rw [if_neg heq.not_lt, if_neg heq.not_gt, if_neg (List.cons_ne_nil x a),
          List.tail_cons, ih]
        have hhead := (levelKey_inj heq).1
        cases b with
        | nil => simp at hhead
        | cons y b =>
            obtain rfl : x = y := by simpa using hhead
            simp
      · rw [if_neg hgt.not_gt, if_pos hgt]
        exact iff_of_false (by simp) fun h => absurd (h ▸ hgt) (lt_irrefl _)

theorem pathCmp_eq_lt {a b : FilePath} (hle : notAfter a b = true) (hne : a ≠ b) :
    pathCmp a b = some .lt := by
  have hsome := mt pathCmp_eq_none_iff.mp hne
  rw [notAfter, decide_eq_true_iff] at hle
  induction a generalizing b with
  | nil => match b with
    | [] => exact absurd rfl hne
    | [_] => rfl
    | _ :: _ :: _ => exact absurd rfl hle
  | cons x a ih =>
      rw [pathCmp_eq, if_neg (List.cons_ne_nil x a)] at hle hsome ⊢
      split_ifs at hle hsome ⊢
      · rfl
      · exact absurd rfl hle
      · exact ih hle (fun h => hsome (pathCmp_eq_none_iff.mpr h)) hsome

theorem ne_nil_of_levelKey {a b : FilePath} (hkey : levelKey a = levelKey b) (ha : a ≠ []) :
    b ≠ [] := by
  rintro rfl
  have := (levelKey_inj hkey).1
  exact ha (List.head?_eq_none_iff.mp this)

theorem notAfter_total (a b : FilePath) : (notAfter a b || notAfter b a) = true := by
  rw [Bool.or_eq_true]
  induction a generalizing b with
  | nil =>
      rcases lt_trichotomy (levelKey []) (levelKey b) with hlt | heq | hgt
      · exact Or.inl (notAfter_iff.mpr (Or.inl hlt))
      · exact Or.inl (notAfter_iff.mpr (Or.inr ⟨heq, Or.inl rfl⟩))
      · exact Or.inr (notAfter_iff.mpr (Or.inl hgt))
  | cons x a ih =>
      rcases lt_trichotomy (levelKey (x :: a)) (levelKey b) with hlt | heq | hgt
      · exact Or.inl (notAfter_iff.mpr (Or.inl hlt))
      · rcases ih b.tail with hle | hge
        · exact Or.inl (notAfter_iff.mpr (Or.inr ⟨heq, Or.inr hle⟩))
        · exact Or.inr (notAfter_iff.mpr (Or.inr ⟨heq.symm, Or.inr hge⟩))
      · exact Or.inr (notAfter_iff.mpr (Or.inl hgt))

theorem notAfter_trans (a b c : FilePath) (hab : notAfter a b = true)
    (hbc : notAfter b c = true) : notAfter a c = true := by
  induction a generalizing b c with
  | nil =>
      rw [notAfter_iff] at hab hbc ⊢
      rcases hab with hab | ⟨hab, -⟩ <;> rcases hbc with hbc | ⟨hbc, -⟩
      · exact Or.inl (hab.trans hbc)
      · exact Or.inl (hbc ▸ hab)
      · exact Or.inl (hab ▸ hbc)
      · exact Or.inr ⟨hab.trans hbc, Or.inl rfl⟩
  | cons x a ih =>
      rw [notAfter_iff] at hab hbc ⊢
      rcases hab with hab | ⟨hab, hrestA⟩ <;> rcases hbc with hbc | ⟨hbc, hrestB⟩
      · exact Or.inl (hab.trans hbc)
      · exact Or.inl (hbc ▸ hab)
      · exact Or.inl (hab ▸ hbc)
      · have hb := ne_nil_of_levelKey hab (List.cons_ne_nil x a)
        exact Or.inr ⟨hab.trans hbc, Or.inr (ih b.tail c.tail
          (hrestA.resolve_left (List.cons_ne_nil x a)) (hrestB.resolve_left hb))⟩

/-- What comes between two files of a directory is in the directory. -/
theorem prefix_of_notAfter {dir a b c : FilePath} (hab : notAfter a b = true)
    (hbc : notAfter b c = true) (ha : dir <+: a) (hc : dir <+: c) (haNe : dir ≠ a)
    (hcNe : dir ≠ c) : dir <+: b := by
  induction dir generalizing a b c with
  | nil => exact List.nil_prefix
  | cons x dir ih =>
      obtain ⟨restA, rfl⟩ := ha
      obtain ⟨restC, rfl⟩ := hc
      have hgoes : ∀ rest, x :: dir ≠ x :: dir ++ rest →
          levelKey (x :: dir ++ rest) = toLex (false, (x : WithBot String)) := by
        intro rest hne
        have : (dir ++ rest).isEmpty = false := by
          cases dir with
          | nil => cases rest <;> simp_all
          | cons y dir => rfl
        rw [List.cons_append, levelKey, this]
      have hle := (notAfter_iff.mp hab).imp le_of_lt fun h => h.1.le
      have hge := (notAfter_iff.mp hbc).imp le_of_lt fun h => h.1.le
      rw [or_self, hgoes restA haNe] at hle
      rw [or_self, hgoes restC hcNe] at hge
      have hkey : levelKey b = toLex (false, (x : WithBot String)) := le_antisymm hge hle
      have hhead := (levelKey_inj (hkey.trans (hgoes restA haNe).symm)).1
      cases b with
      | nil => exact absurd hhead (by simp)
      | cons y b =>
          obtain rfl : y = x := by simpa using hhead
          rw [notAfter_iff, hkey, hgoes restA haNe] at hab
          rw [notAfter_iff, hkey, hgoes restC hcNe] at hbc
          refine List.cons_prefix_cons.mpr ⟨rfl, @ih (dir ++ restA) b (dir ++ restC) ?_ ?_
            (List.prefix_append _ _) (List.prefix_append _ _) (fun h => haNe ?_)
            fun h => hcNe ?_⟩
          · simpa using hab
          · simpa using hbc
          · exact congrArg (List.cons y) h
          · exact congrArg (List.cons y) h

end Order

section Sorted

variable {files : List TreeFile}

theorem pairwise_notAfter (files : List TreeFile) :
    ((files.mergeSort fun a b => notAfter a.path b.path).map TreeFile.path).Pairwise
      fun a b => notAfter a b = true := by
  apply List.pairwise_map.mpr
  apply List.pairwise_mergeSort
  · exact fun a b c => notAfter_trans a.path b.path c.path
  · exact fun a b => notAfter_total a.path b.path

/-- Files that are apart are sorted into a list of files. -/
theorem fileList_mergeSort (hne : ∀ file ∈ files, file.path ≠ [])
    (hapart : (files.map TreeFile.path).Pairwise fun path other =>
      ¬ path <+: other ∧ ¬ other <+: path) :
    FileList ((files.mergeSort fun a b => notAfter a.path b.path).map TreeFile.path) where
  ne_nil path hpath := by
    obtain ⟨file, hfile, rfl⟩ := List.mem_map.mp hpath
    exact hne file (List.mem_mergeSort.mp hfile)
  apart := by
    have hperm := (List.mergeSort_perm files fun a b => notAfter a.path b.path).map TreeFile.path
    exact (hperm.pairwise_iff fun {_ _} h => ⟨h.2, h.1⟩).mpr hapart
  together before first between last after dir hsplit hfirst hlast path hpath := by
    have hperm := (List.mergeSort_perm files fun a b => notAfter a.path b.path).map TreeFile.path
    have hpaths := (hperm.pairwise_iff fun {_ _} h => ⟨h.2, h.1⟩).mpr hapart
    have hmap := pairwise_notAfter files
    rw [hsplit, List.pairwise_append, List.pairwise_cons] at hpaths hmap
    obtain ⟨-, ⟨hpathsFirst, -⟩, -⟩ := hpaths
    obtain ⟨-, ⟨hmapFirst, hmapRest⟩, -⟩ := hmap
    have hlastIn : last ∈ between ++ last :: after := by simp
    have hapartLast := hpathsFirst last hlastIn
    have hbehind := (List.pairwise_append.mp hmapRest).2.2 path hpath last List.mem_cons_self
    refine prefix_of_notAfter (hmapFirst path (by simp [hpath])) hbehind hfirst hlast ?_ ?_
    · rintro rfl
      exact hapartLast.1 hlast
    · rintro rfl
      exact hapartLast.2 hfirst

end Sorted

section GitTree

/-- A name that is one component of a path. -/
structure Plain (name : String) : Prop where
  ne_empty : name ≠ ""
  slashless : '/' ∉ name.toList
  ne_dot : name ≠ "."
  ne_dots : name ≠ ".."

namespace GitTree

/-- The names of the files and directories of a tree. -/
def names : GitTree → List String
  | nil => []
  | blob name _ _ rest => fromUtf8Lossy name :: names rest
  | tree name _ rest => fromUtf8Lossy name :: names rest
  | other _ rest => names rest

/-- Names are plain, and no tree has one twice. -/
def WellNamed : GitTree → Prop
  | nil => True
  | blob name _ _ rest =>
      Plain (fromUtf8Lossy name) ∧ fromUtf8Lossy name ∉ rest.names ∧ WellNamed rest
  | tree name entries rest =>
      Plain (fromUtf8Lossy name) ∧ fromUtf8Lossy name ∉ rest.names ∧ WellNamed entries ∧
        WellNamed rest
  | other _ rest => WellNamed rest

end GitTree

variable {path : FilePath} {tree : GitTree}

/-- What is listed of a tree lies under one of its names. -/
theorem exists_name_of_mem {file : TreeFile} (hfile : file ∈ treeRecurse path tree) :
    ∃ name ∈ tree.names, path ++ [name] <+: file.path := by
  induction tree generalizing path with
  | nil => exact absurd hfile List.not_mem_nil
  | blob name filemode id rest ih =>
      rcases List.mem_cons.mp hfile with rfl | hfile
      · exact ⟨_, List.mem_cons_self, List.prefix_rfl⟩
      · obtain ⟨other, hother, hprefixed⟩ := ih hfile
        exact ⟨other, List.mem_cons_of_mem _ hother, hprefixed⟩
  | tree name entries rest ihEntries ih =>
      rcases List.mem_append.mp hfile with hfile | hfile
      · obtain ⟨other, -, hprefixed⟩ := ihEntries hfile
        exact ⟨_, List.mem_cons_self, (List.prefix_append _ _).trans hprefixed⟩
      · obtain ⟨other, hother, hprefixed⟩ := ih hfile
        exact ⟨other, List.mem_cons_of_mem _ hother, hprefixed⟩
  | other name rest ih => exact ih hfile

theorem slashless_of_mem (htree : tree.WellNamed) (hpath : Slashless path) {file : TreeFile}
    (hfile : file ∈ treeRecurse path tree) : Slashless file.path := by
  have hgrow : ∀ {path : FilePath} {name : String}, Slashless path → Plain name →
      Slashless (path ++ [name]) := by
    intro path name hpath hname other hother
    rcases List.mem_append.mp hother with hother | hother
    · exact hpath other hother
    · rw [List.mem_singleton.mp hother]
      exact hname.slashless
  induction tree generalizing path with
  | nil => exact absurd hfile List.not_mem_nil
  | blob name filemode id rest ih =>
      rcases List.mem_cons.mp hfile with rfl | hfile
      · exact hgrow hpath htree.1
      · exact ih htree.2.2 hpath hfile
  | tree name entries rest ihEntries ih =>
      rcases List.mem_append.mp hfile with hfile | hfile
      · exact ihEntries htree.2.2.1 (hgrow hpath htree.1) hfile
      · exact ih htree.2.2.2 hpath hfile
  | other name rest ih => exact ih htree hpath hfile

/-- Paths under different names are apart. -/
theorem apart_of_names {name other : String} (hne : name ≠ other) {a b : FilePath}
    (ha : path ++ [name] <+: a) (hb : path ++ [other] <+: b) : ¬ a <+: b ∧ ¬ b <+: a := by
  have hboth : ∀ c : FilePath, path ++ [name] <+: c → ¬ path ++ [other] <+: c := by
    intro c hname hother
    have hprefixed := List.prefix_of_prefix_length_le hname hother (by simp)
    have := hprefixed.eq_of_length (by simp)
    exact hne (by simpa using this)
  exact ⟨fun h => hboth b (ha.trans h) hb, fun h => hboth a ha (hb.trans h)⟩

/-- No file that is listed is under another. -/
theorem apart_treeRecurse (htree : tree.WellNamed) :
    ((treeRecurse path tree).map TreeFile.path).Pairwise fun path other =>
      ¬ path <+: other ∧ ¬ other <+: path := by
  induction tree generalizing path with
  | nil => exact List.Pairwise.nil
  | blob name filemode id rest ih =>
      refine List.pairwise_cons.mpr ⟨fun other hother => ?_, ih htree.2.2⟩
      obtain ⟨file, hfile, rfl⟩ := List.mem_map.mp hother
      obtain ⟨last, hlast, hprefixed⟩ := exists_name_of_mem hfile
      have hne : fromUtf8Lossy name ≠ last := by
        rintro rfl
        exact htree.2.1 hlast
      exact apart_of_names hne List.prefix_rfl hprefixed
  | tree name entries rest ihEntries ih =>
      rw [treeRecurse, List.map_append, List.pairwise_append]
      refine ⟨ihEntries htree.2.2.1, ih htree.2.2.2, fun first hfirst other hother => ?_⟩
      obtain ⟨file, hfile, rfl⟩ := List.mem_map.mp hfirst
      obtain ⟨last, hlast, rfl⟩ := List.mem_map.mp hother
      obtain ⟨within, -, hwithin⟩ := exists_name_of_mem hfile
      obtain ⟨behind, hbehind, hprefixed⟩ := exists_name_of_mem hlast
      have hne : fromUtf8Lossy name ≠ behind := by
        rintro rfl
        exact htree.2.1 hbehind
      exact apart_of_names hne ((List.prefix_append _ _).trans hwithin) hprefixed
  | other name rest ih => exact ih htree

/-- The files of a commit: those of its tree, the directories of each directory before its
files and both by name, which is a list of files for the file tree. -/
theorem exists_treeFiles (htree : tree.WellNamed) :
    ∃ files, treeFiles tree = some files ∧ files.Perm (treeRecurse ["."] tree) ∧
      (files.map TreeFile.path).Pairwise (fun a b => pathCmp a b = some .lt) ∧
      FileList (files.map TreeFile.path) ∧
      ∀ file ∈ files, ["."] <+: file.path ∧ Slashless file.path := by
  have hapart := @apart_treeRecurse ["."] tree htree
  have hnodup : ((treeRecurse ["."] tree).map TreeFile.path).Nodup :=
    hapart.imp fun {a b} h (heq : a = b) => h.1 (by rw [heq])
  have hunder : ∀ file ∈ treeRecurse ["."] tree, ["."] <+: file.path := fun file hfile => by
    obtain ⟨name, -, hprefixed⟩ := exists_name_of_mem hfile
    exact (List.prefix_append _ _).trans hprefixed
  refine ⟨_, if_pos hnodup, List.mergeSort_perm _ _, ?_, fileList_mergeSort ?_ hapart, ?_⟩
  · have hperm := (List.mergeSort_perm (treeRecurse ["."] tree) fun a b =>
      pathCmp a.path b.path ≠ some .gt).map TreeFile.path
    exact ((pairwise_notAfter (treeRecurse ["."] tree)).and (hperm.nodup_iff.mpr hnodup)).imp
      fun {a b} h => pathCmp_eq_lt h.1 h.2
  · intro file hfile hnil
    have := hunder file hfile
    rw [hnil] at this
    simp at this
  · intro file hfile
    have hmem := List.mem_mergeSort.mp hfile
    refine ⟨hunder file hmem, slashless_of_mem htree ?_ hmem⟩
    intro name hname
    rw [List.mem_singleton.mp hname]
    decide

/-- Over any session with the files of a commit, the tree that is shown is as it is to be in
every state exactly when each step meets its condition. -/
theorem revision_throughout_iff (htree : tree.WellNamed) (hne : treeRecurse ["."] tree ≠ [])
    (hdepth : ∀ file ∈ treeRecurse ["."] tree, file.path.length ≤ 256)
    (inputs : List TreeInput) :
    ∃ files fileTree, treeFiles tree = some files ∧
      FileTree.new (files.map TreeFile.path) [] = .ok fileTree ∧
      (session.Throughout (Good (newItems (files.map TreeFile.path)) files.length)
          fileTree.collapseButRoot inputs ↔
        session.EachStep StepMeets fileTree.collapseButRoot inputs) := by
  obtain ⟨files, hfiles, hperm, -, hlist, hpaths⟩ := exists_treeFiles htree
  have hmem : ∀ path ∈ files.map TreeFile.path, ∃ file ∈ files, file.path = path :=
    fun path hpath => List.mem_map.mp hpath
  have hnonempty : files.map TreeFile.path ≠ [] := fun h => hne <| by
    rw [List.map_eq_nil_iff] at h
    exact List.Perm.eq_nil (h ▸ hperm.symm)
  obtain ⟨fileTree, hnew, hsession⟩ := @session_throughout_iff (files.map TreeFile.path) hlist
    hnonempty
    (fun path hpath => by
      obtain ⟨file, hfile, rfl⟩ := hmem path hpath
      exact hdepth file (hperm.mem_iff.mp hfile))
    (fun path hpath => by
      obtain ⟨file, hfile, rfl⟩ := hmem path hpath
      exact (hpaths file hfile).2) "."
    (fun path hpath => by
      obtain ⟨file, hfile, rfl⟩ := hmem path hpath
      exact (hpaths file hfile).1) inputs
  rw [List.length_map] at hsession
  exact ⟨files, fileTree, hfiles, hnew, hsession⟩

theorem revision_throughout_iff_two :
    ∃ files fileTree,
      treeFiles (.blob (utf8 "a") 33188 1
        (.tree (utf8 "b") (.blob (utf8 "c") 33188 2 .nil) .nil)) = some files ∧
      FileTree.new (files.map TreeFile.path) [] = .ok fileTree ∧
      (session.Throughout (Good (newItems (files.map TreeFile.path)) files.length)
          fileTree.collapseButRoot [.findFile [".", "b", "c"], .collapseRecursive] ↔
        session.EachStep StepMeets fileTree.collapseButRoot
          [.findFile [".", "b", "c"], .collapseRecursive]) :=
  @revision_throughout_iff
    (.blob (utf8 "a") 33188 1 (.tree (utf8 "b") (.blob (utf8 "c") 33188 2 .nil) .nil))
    ⟨⟨by decide +kernel, by decide +kernel, by decide +kernel, by decide +kernel⟩,
      by decide +kernel,
      ⟨by decide +kernel, by decide +kernel, by decide +kernel, by decide +kernel⟩,
      by decide +kernel,
      ⟨⟨by decide +kernel, by decide +kernel, by decide +kernel, by decide +kernel⟩,
        by decide +kernel, trivial⟩,
      trivial⟩
    (by decide +kernel) (by decide +kernel) _

end GitTree

end Filetree

end Gnostr
