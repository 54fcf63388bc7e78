/-
The file tree of a list of files: its directories and files form an outline, every file is
in it, an item is indented by the number of directories it is shown under, and no directory
is shown with nothing but a directory below it.
-/
import Gnostr.Filetree.Items
import Mathlib.Data.List.Pairwise

namespace Gnostr

namespace Filetree

open FileTreeItems (ancestors createItems)

/-- Files, none of them under another, with the files of each directory together. -/
structure FileList (list : List FilePath) : Prop where
  ne_nil : ∀ path ∈ list, path ≠ []
  apart : list.Pairwise fun path other => ¬ path <+: other ∧ ¬ other <+: path
  together : ∀ before first between last after (dir : FilePath),
    list = before ++ first :: (between ++ last :: after) → dir <+: first → dir <+: last →
    ∀ path ∈ between, dir <+: path

theorem FileList.of_append {first last : List FilePath} (hlist : FileList (first ++ last)) :
    FileList first where
  ne_nil path hpath := hlist.ne_nil path (List.mem_append_left _ hpath)
  apart := (List.pairwise_append.mp hlist.apart).1
  together before one between other after dir hsplit :=
    hlist.together before one between other (after ++ last) dir (by simp [hsplit])

/-- The files of every directory of a file are together from it on. -/
def grouped : List FilePath → Bool
  | [] => true
  | first :: rest =>
      ((ancestors first).all fun dir =>
        (rest.dropWhile (under dir)).all fun other => !under dir other) && grouped rest

section Paths

/-- The directories of a path that are not there yet. -/
def freshDirs (known : List FilePath) (path : FilePath) : List FilePath :=
  (ancestors path).filter fun c => c ≠ [] ∧ c ∉ known

/-- The directories and files of a list in the order they are added. -/
def addedPaths (list : List FilePath) : List FilePath :=
  list.foldl (fun known path => known ++ (freshDirs known path ++ [path])) []

theorem addedPaths_concat (list : List FilePath) (path : FilePath) :
    addedPaths (list ++ [path]) =
      addedPaths list ++ (freshDirs (addedPaths list) path ++ [path]) := by
  simp [addedPaths]

theorem mem_ancestors_iff {path c : FilePath} :
    c ∈ ancestors path ↔ c <+: path ∧ c.length < path.length := by
  simp only [ancestors, List.mem_map, List.mem_range]
  constructor
  · rintro ⟨n, hn, rfl⟩
    exact ⟨List.take_prefix n path, by rw [List.length_take]; omega⟩
  · rintro ⟨hprefixed, hlength⟩
    exact ⟨c.length, hlength, (List.prefix_iff_eq_take.mp hprefixed).symm⟩

/-- A list is a list of files when that can be seen of it. -/
theorem FileList.of_grouped {list : List FilePath} (hne : ∀ path ∈ list, path ≠ [])
    (hapart : list.Pairwise fun path other => ¬ path <+: other ∧ ¬ other <+: path)
    (hgrouped : grouped list = true) : FileList list where
  ne_nil := hne
  apart := hapart
  together before first between last after dir hsplit hfirst hlast := by
    subst hsplit
    induction before with
    | nil =>
        rw [List.nil_append, grouped, Bool.and_eq_true, List.all_eq_true] at hgrouped
        have hsplit := (List.pairwise_cons.mp hapart).1 last (by simp)
        have hdir : dir ∈ ancestors first := by
          refine mem_ancestors_iff.mpr ⟨hfirst, lt_of_le_of_ne hfirst.length_le fun h => ?_⟩
          exact hsplit.1 (hfirst.eq_of_length h ▸ hlast)
        have hrest := List.all_eq_true.mp (hgrouped.1 dir hdir)
        intro path hpath
        by_contra hnot
        have hstops : ¬ (between.dropWhile (under dir)).isEmpty := by
          rw [List.isEmpty_iff, List.dropWhile_eq_nil_iff]
          exact fun hall => hnot (under_iff.mp (hall path hpath))
        have := hrest last (by
          rw [List.dropWhile_append, if_neg hstops]
          simp)
        simp [under_iff.mpr hlast] at this
    | cons one before ih =>
        rw [List.cons_append, grouped, Bool.and_eq_true] at hgrouped
        exact ih (fun path hpath => hne path (List.mem_cons_of_mem _ hpath))
          (List.pairwise_cons.mp hapart).2 hgrouped.2

theorem mem_freshDirs_iff {known : List FilePath} {path c : FilePath} :
    c ∈ freshDirs known path ↔
      (c <+: path ∧ c.length < path.length) ∧ c ≠ [] ∧ c ∉ known := by
  simp [freshDirs, mem_ancestors_iff]

theorem pairwise_freshDirs (known : List FilePath) (path : FilePath) :
    (freshDirs known path ++ [path]).Pairwise fun c d => c.length < d.length := by
  rw [List.pairwise_append]
  refine ⟨List.Pairwise.filter _ ?_, List.pairwise_singleton _ _, ?_⟩
  · rw [ancestors, List.pairwise_map]
    refine List.Pairwise.imp_of_mem ?_ List.pairwise_lt_range
    intro n m hn hm hlt
    rw [List.length_take, List.length_take]
    rw [List.mem_range] at hn hm
    omega
  · intro c hc d hd
    rw [List.mem_singleton.mp hd]
    exact (mem_freshDirs_iff.mp hc).1.2

/-- The paths that are added are the beginnings of the files. -/
theorem mem_addedPaths_iff {list : List FilePath} (hlist : ∀ path ∈ list, path ≠ [])
    {c : FilePath} : c ∈ addedPaths list ↔ c ≠ [] ∧ ∃ path ∈ list, c <+: path := by
  induction list using List.reverseRecOn with
  | nil => simp [addedPaths]
  | append_singleton list path ih =>
      have hne : path ≠ [] := hlist path (by simp)
      have ih := ih fun other hother => hlist other (List.mem_append_left _ hother)
      rw [addedPaths_concat, List.mem_append, List.mem_append, mem_freshDirs_iff, ih,
        List.mem_singleton]
      constructor
      · rintro (⟨hc, other, hother, hprefixed⟩ | ⟨⟨hprefixed, -⟩, hc, -⟩ | rfl)
        · exact ⟨hc, other, by simp [hother], hprefixed⟩
        · exact ⟨hc, path, by simp, hprefixed⟩
        · exact ⟨hne, c, by simp, List.prefix_rfl⟩
      · rintro ⟨hc, other, hother, hprefixed⟩
        by_cases hold : c ≠ [] ∧ ∃ other ∈ list, c <+: other
        · exact Or.inl hold
        · rcases List.mem_append.mp hother with hother | hother
          · exact absurd ⟨hc, other, hother, hprefixed⟩ hold
          · rw [List.mem_singleton.mp hother] at hprefixed
            by_cases heq : c = path
            · exact Or.inr (Or.inr heq)
            · refine Or.inr (Or.inl ⟨⟨hprefixed, ?_⟩, hc, hold⟩)
              exact lt_of_le_of_ne hprefixed.length_le fun h =>
                heq (hprefixed.eq_of_length h)

theorem prefix_of_mem_fresh {known : List FilePath} {path c : FilePath}
    (hc : c ∈ freshDirs known path ++ [path]) : c <+: path := by
  rcases List.mem_append.mp hc with hc | hc
  · exact (mem_freshDirs_iff.mp hc).1.1
  · rw [List.mem_singleton.mp hc]

/-- What is under a directory of the last file, behind it. -/
def LastOpen (list : List FilePath) : Prop :=
  ∀ last ∈ list.getLast?, ∀ before dir after, addedPaths list = before ++ dir :: after →
    dir <+: last → ∀ other ∈ after, dir <+: other

section Step

variable {list : List FilePath} {path : FilePath}

/-- What a file adds is not above what was there. -/
theorem fresh_not_prefix (hlist : FileList (list ++ [path])) {old new : FilePath}
    (hold : old ∈ addedPaths list)
    (hnew : new ∈ freshDirs (addedPaths list) path ++ [path]) : ¬ new <+: old := by
  have hmem := @mem_addedPaths_iff list hlist.of_append.ne_nil
  intro habove
  obtain ⟨-, other, hother, hprefixed⟩ := hmem.mp hold
  rcases List.mem_append.mp hnew with hnew | hnew
  · obtain ⟨-, hne, hfresh⟩ := mem_freshDirs_iff.mp hnew
    exact hfresh (hmem.mpr ⟨hne, other, hother, habove.trans hprefixed⟩)
  · rw [List.mem_singleton.mp hnew] at habove
    have hapart := (List.pairwise_append.mp hlist.apart).2.2 other hother path (by simp)
    exact hapart.2 (habove.trans hprefixed)

/-- A directory that is there and has the next file under it is one of the last file. -/
theorem prefix_last (hlist : FileList (list ++ [path])) {dir : FilePath}
    (hdir : dir ∈ addedPaths list) (hprefixed : dir <+: path) :
    ∃ last ∈ list.getLast?, dir <+: last := by
  obtain ⟨-, first, hfirst, hunder⟩ :=
    (mem_addedPaths_iff hlist.of_append.ne_nil).mp hdir
  obtain ⟨before, between, rfl⟩ := List.append_of_mem hfirst
  rcases List.eq_nil_or_concat between with rfl | ⟨between, last, rfl⟩
  · exact ⟨first, by simp, hunder⟩
  · refine ⟨last, by simp [List.getLast?_append, List.getLast?_cons], ?_⟩
    exact hlist.together before first (between ++ [last]) path [] dir (by simp) hunder hprefixed
      last (by simp)

/-- A directory with the next file under it has all that is behind it under it. -/
theorem open_of_prefix (hlist : FileList (list ++ [path])) (hopen : LastOpen list)
    {before after : List FilePath} {dir : FilePath}
    (hsplit : addedPaths list = before ++ dir :: after) (hprefixed : dir <+: path) :
    (∀ other ∈ after, dir <+: other) ∧
      ∀ other ∈ freshDirs (addedPaths list) path ++ [path], dir <+: other := by
  have hdir : dir ∈ addedPaths list := by simp [hsplit]
  constructor
  · obtain ⟨last, hlast, hunder⟩ := prefix_last hlist hdir hprefixed
    exact hopen last hlast before dir after hsplit hunder
  · intro other hother
    apply (List.prefix_or_prefix_of_prefix hprefixed (prefix_of_mem_fresh hother)).resolve_right
    exact fresh_not_prefix hlist hdir hother

end Step

/-- A directory of a file has what the file adds behind it under it. -/
theorem prefix_of_mem_own {known : List FilePath} {path dir : FilePath}
    {between after : List FilePath}
    (hsplit : freshDirs known path ++ [path] = between ++ dir :: after) :
    ∀ other ∈ after, dir <+: other := by
  intro other hother
  have hpairwise := pairwise_freshDirs known path
  rw [hsplit] at hpairwise
  have hlt := (List.pairwise_cons.mp (List.pairwise_append.mp hpairwise).2.1).1 other hother
  have hunder : ∀ c ∈ between ++ dir :: after, c <+: path := fun c hc =>
    @prefix_of_mem_fresh known path c (by rw [hsplit]; exact hc)
  exact List.prefix_of_prefix_length_le (hunder dir (by simp))
    (hunder other (by simp [hother])) hlt.le

theorem isOutline_addedPaths {list : List FilePath} (hlist : FileList list) :
    IsOutline (addedPaths list) ∧ LastOpen list := by
  induction list using List.reverseRecOn with
  | nil => exact ⟨trivial, nofun⟩
  | append_singleton list path ih =>
      obtain ⟨houtline, hopen⟩ := ih hlist.of_append
      rw [addedPaths_concat, LastOpen, addedPaths_concat]
      constructor
      · refine isOutline_append houtline ?_ ?_ ?_
        · exact isOutline_of_pairwise (fun _ => prefix_of_mem_fresh)
            (pairwise_freshDirs _ path)
        · exact fun old hold new hnew => fresh_not_prefix hlist hold hnew
        · intro before dir after hsplit ⟨other, hother, hunder⟩
          exact open_of_prefix hlist hopen hsplit
            (hunder.trans (prefix_of_mem_fresh hother))
      · intro last hlast before dir after hsplit hunder other hother
        have hlast : path = last := by simpa using hlast
        subst hlast
        rcases List.append_eq_append_iff.mp hsplit with
          ⟨between, hbefore, hnew⟩ | ⟨between, hbefore, hnew⟩
        · exact prefix_of_mem_own hnew other hother
        · cases between with
          | nil => exact @prefix_of_mem_own _ _ _ [] _ hnew.symm other hother
          | cons first between =>
              obtain ⟨rfl, rfl⟩ := List.cons_eq_cons.mp hnew
              obtain ⟨hafter, hnew⟩ := open_of_prefix hlist hopen hbefore hunder
              rcases List.mem_append.mp hother with hother | hother
              · exact hafter other hother
              · exact hnew other hother

end Paths

section Create

variable (collapsed : List String) (files : List FilePath)

/-- The item of a path before paths are folded. -/
def plainItem (path : FilePath) : FileTreeItem :=
  ⟨.new (path.length - 1) path,
    if path ∈ files then .file else .path (collapsed.contains (pathString path))⟩

/-- How many of some paths lie directly in a directory. -/
def childCount (known : List FilePath) (dir : FilePath) : ℕ :=
  known.countP fun path => path.dropLast = dir

/-- What is there once some paths have been added, files among them. -/
structure Added (known : List FilePath) (state : List FileTreeItem × PathsAdded) : Prop where
  items : state.1 = known.map (plainItem collapsed files)
  counts : ∀ dir ≠ [], state.2 dir =
    if dir ∈ known ∧ dir ∉ files then some (childCount known dir) else none

variable {collapsed files} {known : List FilePath} {state : List FileTreeItem × PathsAdded}

theorem increment_apply (pathsAdded : PathsAdded) (dir other : FilePath) :
    pathsAdded.increment dir other =
      if other = dir then some ((pathsAdded dir).getD 0 + 1) else pathsAdded other :=
  Function.update_apply pathsAdded dir _ other

theorem childCount_concat (path dir : FilePath) :
    childCount (known ++ [path]) dir =
      childCount known dir + if path.dropLast = dir then 1 else 0 := by
  simp [childCount, List.countP_append, List.countP_cons]

theorem indentOf_eq {path : FilePath} (hlength : path.length ≤ 256) :
    FileTreeItem.indentOf path = .ok (path.length - 1) :=
  if_pos (by omega)

theorem dropLast_ne_self {path : FilePath} (hne : path ≠ []) : path.dropLast ≠ path := by
  intro h
  have hlength := congrArg List.length h
  have hpos := List.length_pos_of_ne_nil hne
  rw [List.length_dropLast] at hlength
  omega

/-- A directory is added behind its parent, with no child of it there. -/
theorem Added.pushDir (hadded : Added collapsed files known state) {c : FilePath}
    (hne : c ≠ []) (hfresh : c ∉ known) (hdir : c ∉ files) (hlength : c.length ≤ 256)
    (hparent : c.dropLast = [] ∨ c.dropLast ∈ known ∧ c.dropLast ∉ files)
    (hchildren : ∀ other ∈ known, other.dropLast ≠ c) :
    ∃ state', FileTreeItems.pushDir collapsed state c = .ok state' ∧
      Added collapsed files (known ++ [c]) state' := by
  have hnone : state.2 c = none := by rw [hadded.counts c hne, if_neg (by simp [hfresh])]
  have hzero : childCount known c = 0 := by
    simpa [childCount, List.countP_eq_zero] using hchildren
  have hself : c.dropLast ≠ c := dropLast_ne_self hne
  rw [FileTreeItems.pushDir, if_pos ⟨hne, hnone⟩]
  simp only [FileTreeItem.newPath, indentOf_eq hlength]
  refine ⟨_, rfl, ?_, ?_⟩
  · simp [hadded.items, plainItem, hdir]
  · intro dir hdirne
    have hold := hadded.counts dir hdirne
    simp only [childCount_concat, List.mem_append, List.mem_singleton]
    by_cases hc : dir = c
    · subst hc
      have hvalue : (if dir.dropLast ≠ [] then
          PathsAdded.increment (Function.update state.2 dir (some 0)) dir.dropLast
          else Function.update state.2 dir (some 0)) dir = some 0 := by
        split_ifs <;> simp [increment_apply, hself.symm]
      simp only [hvalue, hdir, hzero, hself, if_false]
      simp
    · by_cases hup : dir = c.dropLast
      · subst hup
        obtain ⟨hknown, hnotFile⟩ := hparent.resolve_left hdirne
        rw [if_pos ⟨hknown, hnotFile⟩] at hold
        simp [hdirne, increment_apply, hc, hold, hknown, hnotFile]
      · have hvalue : (if c.dropLast ≠ [] then
            PathsAdded.increment (Function.update state.2 c (some 0)) c.dropLast
            else Function.update state.2 c (some 0)) dir = state.2 dir := by
          split_ifs <;> simp [increment_apply, hup, hc]
        simp only [hvalue, hold, hc, Ne.symm hup, or_false, if_false, Nat.add_zero]

theorem ancestors_concat (path : FilePath) (name : String) :
    ancestors (path ++ [name]) = ancestors path ++ [path] := by
  have htake : ∀ n ∈ List.range path.length,
      List.take n (path ++ [name]) = List.take n path := fun n hn =>
    List.take_append_of_le_length (List.mem_range.mp hn).le
  simp [ancestors, List.range_succ, List.map_congr_left htake]

theorem length_dropLast_lt {path : FilePath} (hne : path ≠ []) :
    path.dropLast.length < path.length := by
  have hpos := List.length_pos_of_ne_nil hne
  rw [List.length_dropLast]
  omega

/-- A path has its parent before it once its directories are added. -/
theorem dropLast_mem_fresh (known : List FilePath) {path : FilePath} (hne : path ≠ []) :
    path.dropLast = [] ∨ path.dropLast ∈ known ++ freshDirs known path := by
  by_cases hroot : path.dropLast = []
  · exact Or.inl hroot
  · by_cases hold : path.dropLast ∈ known
    · exact Or.inr (List.mem_append_left _ hold)
    · have hup := List.dropLast_prefix path
      exact Or.inr (List.mem_append_right _
        (mem_freshDirs_iff.mpr ⟨⟨hup, length_dropLast_lt hne⟩, hroot, hold⟩))

/-- A directory that is not there has nothing in it while its own directories are added. -/
theorem dropLast_ne_of_mem_fresh
    (hclosed : ∀ other ∈ known, other.dropLast = [] ∨ other.dropLast ∈ known)
    {path : FilePath} (hne : path ≠ []) (hnew : path ∉ known) :
    ∀ other ∈ known ++ freshDirs known path, other.dropLast ≠ path := by
  intro other hother hchild
  rcases List.mem_append.mp hother with hother | hother
  · rcases hclosed other hother with hroot | hin
    · exact hne (hchild ▸ hroot)
    · exact hnew (hchild ▸ hin)
  · have hshort := (mem_freshDirs_iff.mp hother).1.2
    have hlength := congrArg List.length hchild
    rw [List.length_dropLast] at hlength
    omega

/-- The directories of a path are added, the ones that are there left alone. -/
theorem Added.pushDirs (hadded : Added collapsed files known state) {path : FilePath}
    (hlength : path.length ≤ 257)
    (hdirs : ∀ dir, dir <+: path → dir.length < path.length → dir ∉ files)
    (hclosed : ∀ other ∈ known, other.dropLast = [] ∨ other.dropLast ∈ known) :
    ∃ state', (ancestors path).foldlM (FileTreeItems.pushDir collapsed) state = .ok state' ∧
      Added collapsed files (known ++ freshDirs known path) state' := by
  induction path using List.reverseRecOn with
  | nil => exact ⟨state, rfl, by simpa [freshDirs, ancestors] using hadded⟩
  | append_singleton path name ih =>
      have hlt : path.length < (path ++ [name]).length := by simp
      have hup : path <+: path ++ [name] := List.prefix_append path [name]
      obtain ⟨state', hrun, hstate⟩ := ih (by omega)
        fun dir hdir hshort => hdirs dir (hdir.trans hup) (hshort.trans hlt)
      have hpath : path ∉ files := hdirs path hup hlt
      rw [ancestors_concat, List.foldlM_append, hrun, freshDirs, ancestors_concat,
        List.filter_append]
      change ∃ state'', List.foldlM (FileTreeItems.pushDir collapsed) state' [path] =
        .ok state'' ∧ Added collapsed files (known ++ (freshDirs known path ++ _)) state''
      rw [List.foldlM_cons]
      by_cases hnew : path ≠ [] ∧ path ∉ known
      · have hfresh : path ∉ known ++ freshDirs known path := fun hmem =>
          (List.mem_append.mp hmem).elim hnew.2 fun hdir =>
            (mem_freshDirs_iff.mp hdir).1.2.ne rfl
        have hparent := (dropLast_mem_fresh known hnew.1).imp_right fun hin =>
          And.intro hin (hdirs _ ((List.dropLast_prefix path).trans hup)
            ((length_dropLast_lt hnew.1).trans hlt))
        obtain ⟨state'', hstep, hstate''⟩ := hstate.pushDir hnew.1 hfresh hpath (by omega)
          hparent (dropLast_ne_of_mem_fresh hclosed hnew.1 hnew.2)
        refine ⟨state'', by rw [hstep]; rfl, ?_⟩
        simpa [hnew] using hstate''
      · have hskip : FileTreeItems.pushDir collapsed state' path = .ok state' := by
          refine if_neg fun h => hnew ⟨h.1, fun hmem => ?_⟩
          rw [hstate.counts path h.1, if_pos ⟨List.mem_append_left _ hmem, hpath⟩] at h
          exact absurd h.2 (by simp)
        have hnone : [path].filter (fun c => c ≠ [] ∧ c ∉ known) = [] := by
          simpa using hnew
        refine ⟨state', by rw [hskip]; rfl, ?_⟩
        rw [hnone, List.append_nil]
        exact hstate

/-- A file is added behind the directory it lies in. -/
theorem Added.pushFile (hadded : Added collapsed files known state) {path : FilePath}
    (hne : path ≠ []) (hfile : path ∈ files) (hlength : path.length ≤ 256)
    (hparent : path.dropLast = [] ∨ path.dropLast ∈ known ∧ path.dropLast ∉ files) :
    ∃ item, FileTreeItem.newFile path = .ok item ∧
      Added collapsed files (known ++ [path])
        (state.1 ++ [item], state.2.increment path.dropLast) := by
  have hself : path.dropLast ≠ path := dropLast_ne_self hne
  simp only [FileTreeItem.newFile, indentOf_eq hlength]
  refine ⟨_, rfl, ?_, ?_⟩
  · simp [hadded.items, plainItem, hfile]
  · intro dir hdirne
    have hold := hadded.counts dir hdirne
    simp only [childCount_concat, List.mem_append, List.mem_singleton, increment_apply]
    by_cases hup : dir = path.dropLast
    · subst hup
      obtain ⟨hknown, hnotFile⟩ := hparent.resolve_left hdirne
      rw [if_pos ⟨hknown, hnotFile⟩] at hold
      simp [hold, hknown, hnotFile]
    · have hsame : (dir ∈ known ∨ dir = path) ∧ dir ∉ files ↔ dir ∈ known ∧ dir ∉ files := by
        constructor
        · rintro ⟨hmem | rfl, hnot⟩
          · exact ⟨hmem, hnot⟩
          · exact absurd hfile hnot
        · exact fun h => ⟨Or.inl h.1, h.2⟩
      simp only [hup, if_false, hold, hsame, Ne.symm hup, Nat.add_zero]

/-- The paths that are added have their parents among them. -/
theorem closed_addedPaths {list : List FilePath} (hlist : ∀ path ∈ list, path ≠ []) :
    ∀ path ∈ addedPaths list, path.dropLast = [] ∨ path.dropLast ∈ addedPaths list := by
  intro path hpath
  obtain ⟨hne, file, hfile, hunder⟩ := (mem_addedPaths_iff hlist).mp hpath
  by_cases hroot : path.dropLast = []
  · exact Or.inl hroot
  · exact Or.inr ((mem_addedPaths_iff hlist).mpr
      ⟨hroot, file, hfile, (List.dropLast_prefix path).trans hunder⟩)

/-- No file is under another. -/
theorem FileList.dir_not_mem {list : List FilePath} (hlist : FileList list) {file dir : FilePath}
    (hfile : file ∈ list) (hdir : dir <+: file) (hshort : dir.length < file.length) :
    dir ∉ list := by
  intro hmem
  have hsymm : Std.Symm fun path other : FilePath => ¬ path <+: other ∧ ¬ other <+: path :=
    ⟨fun _ _ h => ⟨h.2, h.1⟩⟩
  exact (hlist.apart.forall hmem hfile fun h => hshort.ne (by rw [h])).1 hdir

/-- The items of a list of files are those of the paths it adds. -/
theorem createItems_eq {list : List FilePath} (hlist : FileList list)
    (hlength : ∀ path ∈ list, path.length ≤ 256) :
    ∃ state, createItems collapsed list = .ok state ∧
      Added collapsed list (addedPaths list) state := by
  suffices hgrow : ∀ some rest, list = some ++ rest →
      ∃ state, createItems collapsed some = .ok state ∧
        Added collapsed list (addedPaths some) state by
    exact hgrow list [] (by simp)
  intro some
  induction some using List.reverseRecOn with
  | nil => exact fun _ _ => ⟨([], fun _ => none), rfl, rfl, fun dir _ => by simp [addedPaths]⟩
  | append_singleton some path ih =>
      intro rest hsplit
      obtain ⟨state, hrun, hstate⟩ := ih (path :: rest) (by simp [hsplit])
      have hpath : path ∈ list := by simp [hsplit]
      have hne := hlist.ne_nil path hpath
      have hsome : ∀ other ∈ some, other ≠ [] := fun other hother =>
        hlist.ne_nil other (by simp [hsplit, hother])
      obtain ⟨state', hdirs, hstate'⟩ := hstate.pushDirs
        ((hlength path hpath).trans (by omega))
        (fun dir => hlist.dir_not_mem hpath) (closed_addedPaths hsome)
      have hparent := (dropLast_mem_fresh (addedPaths some) hne).imp_right fun hin =>
        And.intro hin (hlist.dir_not_mem hpath (List.dropLast_prefix path)
          (length_dropLast_lt hne))
      obtain ⟨item, hitem, hfile⟩ := hstate'.pushFile hne hpath (hlength path hpath) hparent
      refine ⟨_, ?_, by rw [addedPaths_concat, ← List.append_assoc]; exact hfile⟩
      rw [createItems, List.foldlM_append]
      rw [createItems] at hrun
      rw [hrun]
      simp [FileTreeItems.pushDirs, hdirs, hitem, hne, bind, Except.bind, pure, Except.pure]

end Create

end Filetree

end Gnostr
