/-
The folding of the file tree: a directory with nothing in it but one directory is shown as
one item with that, under the joined name.
-/
import Gnostr.Filetree.Build
import Mathlib.Data.List.Nodup

namespace Gnostr

namespace Filetree

open FileTreeItems (ancestors foldPaths)

section PathString

/-- No component has a slash in it. -/
def Slashless (path : FilePath) : Prop := ∀ name ∈ path, '/' ∉ name.toList

theorem pathString_toList_cons (name next : String) (rest : FilePath) :
    (pathString (name :: next :: rest)).toList =
      name.toList ++ '/' :: (pathString (next :: rest)).toList := by
  simp [pathString, String.intercalate_cons_cons]

theorem append_slash_prefix {name other rest rest' : List Char} (hname : '/' ∉ name)
    (hother : '/' ∉ other) (hprefixed : name ++ '/' :: rest <+: other ++ '/' :: rest') :
    name = other ∧ rest <+: rest' := by
  induction name generalizing other with
  | nil =>
      cases other with
      | nil => simpa using hprefixed
      | cons c other =>
          rw [List.nil_append, List.cons_append, List.cons_prefix_cons] at hprefixed
          exact absurd (hprefixed.1 ▸ List.mem_cons_self) hother
  | cons c name ih =>
      cases other with
      | nil =>
          rw [List.cons_append, List.nil_append, List.cons_prefix_cons] at hprefixed
          exact absurd hprefixed.1 fun h => hname (by simp [h])
      | cons d other =>
          rw [List.cons_append, List.cons_append, List.cons_prefix_cons] at hprefixed
          obtain ⟨hcd, hrest⟩ := hprefixed
          have := ih (fun h => hname (List.mem_cons_of_mem _ h))
            (fun h => hother (List.mem_cons_of_mem _ h)) hrest
          exact ⟨by rw [hcd, this.1], this.2⟩

/-- A path whose text goes on from that of a child lies under the parent. -/
theorem prefix_of_pathString_prefix {dir path : FilePath} {name : String}
    (hdir : Slashless dir) (hpath : Slashless path)
    (hprefixed : (pathString (dir ++ [name])).toList <+: (pathString path).toList) :
    dir <+: path := by
  induction dir generalizing path with
  | nil => exact List.nil_prefix
  | cons first dir ih =>
      have hslash : ∃ rest, (pathString (first :: (dir ++ [name]))).toList =
          first.toList ++ '/' :: rest ∧ rest = (pathString (dir ++ [name])).toList := by
        cases dir with
        | nil => exact ⟨_, pathString_toList_cons first name [], rfl⟩
        | cons second dir => exact ⟨_, pathString_toList_cons first second _, rfl⟩
      obtain ⟨rest, htext, hrest⟩ := hslash
      rw [List.cons_append, htext] at hprefixed
      match path, hpath with
      | [], _ =>
          have hnil : (pathString []).toList = [] := rfl
          rw [hnil] at hprefixed
          simp at hprefixed
      | [only], hpath =>
          have honly : (pathString [only]).toList = only.toList := by
            simp [pathString, String.intercalate_singleton]
          rw [honly] at hprefixed
          exact absurd (hprefixed.subset (by simp)) (hpath only (by simp))
      | other :: second :: more, hpath =>
          rw [pathString_toList_cons] at hprefixed
          obtain ⟨hname, hmore⟩ := append_slash_prefix (hdir first (by simp))
            (hpath other (by simp)) hprefixed
          rw [hrest] at hmore
          have hunder := ih (fun n hn => hdir n (List.mem_cons_of_mem _ hn))
            (fun n hn => hpath n (List.mem_cons_of_mem _ hn)) hmore
          exact List.cons_prefix_cons.mpr ⟨String.toList_inj.mp hname, hunder⟩

theorem pathString_prefix {path other : FilePath} (hprefixed : path <+: other) :
    (pathString path).toList <+: (pathString other).toList := by
  induction path generalizing other with
  | nil => exact List.nil_prefix
  | cons name path ih =>
      obtain ⟨tail, rfl⟩ := hprefixed
      cases path with
      | nil =>
          have hname : (pathString [name]).toList = name.toList := by
            simp [pathString, String.intercalate_singleton]
          rw [hname]
          cases tail with
          | nil => rw [List.append_nil, hname]
          | cons next tail =>
              rw [List.cons_append, List.nil_append, pathString_toList_cons]
              exact List.prefix_append _ _
      | cons second path =>
          rw [List.cons_append, List.cons_append, pathString_toList_cons,
            pathString_toList_cons]
          apply (List.prefix_append_right_inj _).mpr
          apply List.cons_prefix_cons.mpr
          exact ⟨rfl, ih ⟨tail, rfl⟩⟩

end PathString

section Shown

variable (list : List FilePath)

/-- A directory with nothing in it but one directory. -/
def Lone (dir : FilePath) : Prop :=
  dir ∉ list ∧ childCount (addedPaths list) dir = 1 ∧
    ∃ child ∈ addedPaths list, child ∉ list ∧ child.dropLast = dir

instance (dir : FilePath) : Decidable (Lone list dir) :=
  inferInstanceAs (Decidable (_ ∧ _ ∧ _))

/-- The directories above a path that have an item of their own. -/
def shownAbove (path : FilePath) : List FilePath :=
  (ancestors path).filter fun dir => dir ≠ [] ∧ ¬ Lone list dir

/-- The last of them, or the empty path. -/
def base (path : FilePath) : FilePath := (shownAbove list path).getLast?.getD []

/-- The item of a path: it shows what the path has beyond the directory it is under, and is
collapsed with the first directory that it shows. -/
def shownItem (collapsed : List String) (path : FilePath) : FileTreeItem where
  info :=
    { indent := (shownAbove list path).length
      visible := true
      folded :=
        if (base list path).length + 1 = path.length then none
        else some (path.drop (base list path).length)
      fullPath := path }
  kind :=
    if path ∈ list then .file
    else .path (collapsed.contains (pathString (path.take ((base list path).length + 1))))

/-- The paths with an item. -/
def shownPaths : List FilePath := (addedPaths list).filter fun path => ¬ Lone list path

/-- An item that is not looked at yet, once some are. -/
def waitingItem (collapsed : List String) (done : List FilePath) (path : FilePath) :
    FileTreeItem :=
  let item := plainItem collapsed list path
  { item with
    info.indent := ((ancestors path).filter fun dir =>
      dir ≠ [] ∧ ¬ (dir ∈ done ∧ Lone list dir)).length }

variable {list} {collapsed : List String}

theorem mem_shownAbove_iff {path dir : FilePath} :
    dir ∈ shownAbove list path ↔
      (dir <+: path ∧ dir.length < path.length) ∧ dir ≠ [] ∧ ¬ Lone list dir := by
  simp [shownAbove, mem_ancestors_iff]

theorem base_prefix (path : FilePath) : base list path <+: path := by
  rw [base]
  cases hlast : (shownAbove list path).getLast? with
  | none => exact List.nil_prefix
  | some dir => exact (mem_shownAbove_iff.mp (List.mem_of_getLast? hlast)).1.1

theorem length_base_lt {path : FilePath} (hne : path ≠ []) :
    (base list path).length < path.length := by
  rw [base]
  cases hlast : (shownAbove list path).getLast? with
  | none => exact List.length_pos_of_ne_nil hne
  | some dir => exact (mem_shownAbove_iff.mp (List.mem_of_getLast? hlast)).1.2

/-- An item shows what its path has beyond the directory it is under. -/
theorem path_shownItem {path : FilePath} (hne : path ≠ []) :
    (shownItem list collapsed path).info.path = path.drop (base list path).length := by
  rw [TreeItemInfo.path, shownItem]
  by_cases hlength : (base list path).length + 1 = path.length
  · have hlast : path.drop (base list path).length = [path.getLast hne] := by
      rw [← List.drop_length_sub_one hne]
      congr 1
      omega
    simp [hlength, hlast, List.getLast?_eq_getLast_of_ne_nil hne]
  · simp [hlength]

theorem shownAbove_concat (dir : FilePath) (name : String) :
    shownAbove list (dir ++ [name]) =
      shownAbove list dir ++ if dir ≠ [] ∧ ¬ Lone list dir then [dir] else [] := by
  rw [shownAbove, ancestors_concat, List.filter_append, ← shownAbove]
  simp [List.filter_cons]

/-- A lone directory and the directory in it are one item. -/
theorem fold_shownItem {dir : FilePath} {name : String} (done : List FilePath)
    (hne : dir ≠ []) (hlone : Lone list dir) (hchild : dir ++ [name] ∉ list) :
    (shownItem list collapsed dir).fold (waitingItem list collapsed done (dir ++ [name])) =
      shownItem list collapsed (dir ++ [name]) := by
  have habove : shownAbove list (dir ++ [name]) = shownAbove list dir := by
    simp [shownAbove_concat, hlone]
  have hbase : base list (dir ++ [name]) = base list dir := by rw [base, habove, base]
  have hlt := @length_base_lt list dir hne
  have hname : (waitingItem list collapsed done (dir ++ [name])).info.path = [name] := by
    simp [waitingItem, plainItem, TreeItemInfo.path, TreeItemInfo.new]
  rw [FileTreeItem.fold, path_shownItem hne, hname]
  simp only [shownItem, habove, hbase, hlone.1, hchild, if_false]
  have hlength : (base list dir).length + 1 ≠ (dir ++ [name]).length := by
    rw [List.length_append]
    simp
    omega
  rw [if_neg hlength, List.drop_append_of_le_length hlt.le,
    List.take_append_of_le_length hlt]
  rfl

/-- An item that has no lone directory right above it is shown as it waits. -/
theorem waitingItem_eq_shownItem {done : List FilePath} {dir : FilePath} {name : String}
    (hdone : ∀ above ∈ ancestors (dir ++ [name]), above ≠ [] → Lone list above → above ∈ done)
    (hdir : dir = [] ∨ ¬ Lone list dir) :
    waitingItem list collapsed done (dir ++ [name]) =
      shownItem list collapsed (dir ++ [name]) := by
  have habove : (ancestors (dir ++ [name])).filter (fun above =>
      above ≠ [] ∧ ¬ (above ∈ done ∧ Lone list above)) = shownAbove list (dir ++ [name]) := by
    refine List.filter_congr fun above hmem => ?_
    by_cases hne : above = []
    · simp [hne]
    · by_cases hlone : Lone list above
      · simp [hlone, hdone above hmem hne hlone]
      · simp [hlone]
  have hbase : base list (dir ++ [name]) = dir := by
    rw [base, shownAbove_concat]
    rcases hdir with rfl | hdir
    · simp [shownAbove, ancestors]
    · by_cases hroot : dir = []
      · simp [hroot, shownAbove, ancestors]
      · simp [hdir, hroot]
  have htake : (dir ++ [name]).take (dir.length + 1) = dir ++ [name] := by
    rw [List.take_of_length_le (by simp)]
  simp only [waitingItem, plainItem, shownItem, TreeItemInfo.new, habove, hbase, htake]
  simp

theorem nodup_ancestors (path : FilePath) : (ancestors path).Nodup := by
  refine List.Nodup.map_on ?_ List.nodup_range
  intro n hn m hm htake
  have hlength := congrArg List.length htake
  rw [List.length_take, List.length_take] at hlength
  rw [List.mem_range] at hn hm
  omega

/-- One more path is looked at: what is under it moves up when it is a lone directory. -/
theorem waitingItem_concat {done : List FilePath} {dir path : FilePath} (hne : dir ≠ [])
    (hnew : dir ∉ done) :
    waitingItem list collapsed (done ++ [dir]) path =
      if Lone list dir ∧ dir ∈ ancestors path then
        { waitingItem list collapsed done path with
          info := (waitingItem list collapsed done path).info.unindent }
      else waitingItem list collapsed done path := by
  by_cases hlone : Lone list dir ∧ dir ∈ ancestors path
  · have hgone : (ancestors path).filter (fun above =>
        above ≠ [] ∧ ¬ (above ∈ done ++ [dir] ∧ Lone list above)) =
        ((ancestors path).filter fun above =>
          above ≠ [] ∧ ¬ (above ∈ done ∧ Lone list above)).erase dir := by
      rw [List.Nodup.erase_eq_filter ((nodup_ancestors path).filter _), List.filter_filter]
      refine List.filter_congr fun above _ => ?_
      by_cases habove : above = dir
      · simp [habove, hlone.1]
      · simp [habove]
    have hthere : dir ∈ (ancestors path).filter fun above =>
        above ≠ [] ∧ ¬ (above ∈ done ∧ Lone list above) := by
      simp [hlone.2, hne, hnew]
    rw [if_pos hlone, waitingItem, hgone, List.length_erase_of_mem hthere]
    rfl
  · have hsame : (ancestors path).filter (fun above =>
        above ≠ [] ∧ ¬ (above ∈ done ++ [dir] ∧ Lone list above)) =
        (ancestors path).filter fun above =>
          above ≠ [] ∧ ¬ (above ∈ done ∧ Lone list above) := by
      refine List.filter_congr fun above hmem => ?_
      by_cases habove : above = dir
      · subst habove
        simp [show ¬ Lone list above from fun h => hlone ⟨h, hmem⟩]
      · simp [habove]
    rw [if_neg hlone, waitingItem, hsame, waitingItem]

end Shown

section Lone

variable {list : List FilePath} (hlist : FileList list) {done rest : List FilePath}
  {dir : FilePath}
include hlist

theorem mem_of_prefix {path above : FilePath} (hpath : path ∈ addedPaths list)
    (hprefixed : above <+: path) (hne : above ≠ []) : above ∈ addedPaths list := by
  obtain ⟨-, file, hfile, hunder⟩ := (mem_addedPaths_iff hlist.ne_nil).mp hpath
  exact (mem_addedPaths_iff hlist.ne_nil).mpr ⟨hne, file, hfile, hprefixed.trans hunder⟩

omit hlist in
theorem exists_child_prefix {path : FilePath} (hprefixed : dir <+: path) (hne : dir ≠ path) :
    ∃ name, dir ++ [name] <+: path := by
  obtain ⟨tail, rfl⟩ := hprefixed
  cases tail with
  | nil => simp at hne
  | cons name tail => exact ⟨name, tail, by simp⟩

omit hlist in
/-- There is one path in a directory with one child. -/
theorem eq_of_childCount_eq_one (hcount : childCount (addedPaths list) dir = 1)
    {path other : FilePath} (hpath : path ∈ addedPaths list) (hdir : path.dropLast = dir)
    (hother : other ∈ addedPaths list) (hdir' : other.dropLast = dir) : path = other := by
  rw [childCount, List.countP_eq_length_filter] at hcount
  obtain ⟨only, honly⟩ := List.length_eq_one_iff.mp hcount
  have hmem : ∀ p ∈ addedPaths list, p.dropLast = dir → p = only := fun p hp hpdir => by
    have : p ∈ (addedPaths list).filter fun p => p.dropLast = dir := by simp [hp, hpdir]
    rw [honly] at this
    exact List.mem_singleton.mp this
  rw [hmem path hpath hdir, hmem other hother hdir']

/-- The one path in a directory is right behind it, and what is under the directory is
under that. -/
theorem exists_only_child (hcount : childCount (addedPaths list) dir = 1)
    (hsplit : addedPaths list = done ++ dir :: rest) :
    ∃ name rest', rest = (dir ++ [name]) :: rest' ∧
      ∀ path ∈ rest', dir <+: path → dir ++ [name] <+: path := by
  have houtline := (isOutline_addedPaths hlist).1
  rw [hsplit] at houtline
  obtain ⟨child, hchild, hdir⟩ : ∃ child ∈ addedPaths list, child.dropLast = dir := by
    have hpos : 0 < childCount (addedPaths list) dir := by omega
    simpa [childCount, List.countP_pos_iff] using hpos
  have hlater : IsOutline (dir :: rest) := houtline.of_append
  have hunder : dir <+: child := hdir ▸ List.dropLast_prefix child
  have honly : ∀ path ∈ rest, dir <+: path → child <+: path := by
    intro path hpath hprefixed
    obtain ⟨name, hname⟩ := exists_child_prefix hprefixed fun h =>
      hlater.1 path hpath (h ▸ List.prefix_rfl)
    have hmem := mem_of_prefix hlist (hsplit ▸ by simp [hpath]) hname (by simp)
    rwa [eq_of_childCount_eq_one hcount hchild hdir hmem (by simp)]
  have hne : child ≠ [] := ((mem_addedPaths_iff hlist.ne_nil).mp hchild).1
  have hin : child ∈ rest := by
    rw [hsplit, List.mem_append, List.mem_cons] at hchild
    rcases hchild with hmem | heq | hmem
    · exact absurd hunder (houtline.not_isPrefix child hmem)
    · exact absurd (hdir.trans heq.symm) (dropLast_ne_self hne)
    · exact hmem
  obtain ⟨y, rest', rfl⟩ := List.exists_cons_of_ne_nil (List.ne_nil_of_mem hin)
  have hy : dir <+: y := by
    by_contra hnot
    have hdrop : (y :: rest').dropWhile (under dir) = y :: rest' :=
      List.dropWhile_cons_of_neg (by simpa using hnot)
    exact hlater.2.1 child (by rw [hdrop]; exact hin) hunder
  have heq : child = y := by
    rcases List.mem_cons.mp hin with heq | hmem
    · exact heq
    · exact absurd (honly y (by simp) hy) (hlater.2.2.1 child hmem)
  subst heq
  have hchildEq : dir ++ [child.getLast hne] = child := by
    rw [← hdir, List.dropLast_append_getLast]
  refine ⟨child.getLast hne, rest', by rw [hchildEq], fun path hpath hprefixed => ?_⟩
  rw [hchildEq]
  exact honly path (List.mem_cons_of_mem _ hpath) hprefixed

/-- What the loop asks: one child, and a directory comes next. -/
theorem lone_iff {next : FilePath} (hsplit : addedPaths list = done ++ dir :: next :: rest) :
    Lone list dir ↔ dir ∉ list ∧ childCount (addedPaths list) dir = 1 ∧ next ∉ list := by
  refine and_congr_right fun _ => and_congr_right fun hcount => ?_
  obtain ⟨name, rest', hrest, -⟩ := exists_only_child hlist hcount hsplit
  obtain ⟨rfl, rfl⟩ := List.cons_eq_cons.mp hrest
  have hnext : dir ++ [name] ∈ addedPaths list := by simp [hsplit]
  constructor
  · rintro ⟨child, hchild, hnot, hdir⟩
    rwa [eq_of_childCount_eq_one hcount hnext (by simp) hchild hdir]
  · exact fun hnot => ⟨dir ++ [name], hnext, hnot, by simp⟩

variable {collapsed : List String}

omit hlist in
theorem under_of_mem_ancestors (houtline : IsOutline (dir :: rest)) {path : FilePath}
    (hpath : path ∈ rest) : dir ∈ ancestors path ↔ dir <+: path := by
  rw [mem_ancestors_iff]
  refine and_iff_left_of_imp fun hprefixed => lt_of_le_of_ne hprefixed.length_le fun hlength => ?_
  exact houtline.1 path hpath (hprefixed.eq_of_length hlength ▸ List.prefix_rfl)

/-- What lies under a lone directory moves up when it is folded. -/
theorem unindent_waitingItem (hslash : ∀ path ∈ list, Slashless path) {name : String}
    (hsplit : addedPaths list = done ++ dir :: (dir ++ [name]) :: rest)
    (hlone : Lone list dir) :
    FileTreeItems.unindent (pathString (dir ++ [name]))
        (rest.map (waitingItem list collapsed done)) =
      rest.map (waitingItem list collapsed (done ++ [dir])) := by
  have houtline := (isOutline_addedPaths hlist).1
  have hslashless : ∀ path ∈ addedPaths list, Slashless path := by
    intro path hpath name hname
    obtain ⟨-, file, hfile, hprefixed⟩ := (mem_addedPaths_iff hlist.ne_nil).mp hpath
    exact hslash file hfile name (hprefixed.subset hname)
  obtain ⟨name', rest', hrest, honly⟩ := exists_only_child hlist hlone.2.1 hsplit
  obtain ⟨hname, rfl⟩ := List.cons_eq_cons.mp hrest
  rw [hsplit] at houtline hslashless
  have hlater : IsOutline (dir :: (dir ++ [name]) :: rest) := houtline.of_append
  have hkind : ∀ path ∈ rest,
      (pathString (dir ++ [name])).toList.isPrefixOf (pathString path).toList =
        under dir path := by
    intro path hpath
    rw [Bool.eq_iff_iff, List.isPrefixOf_iff_prefix, under_iff]
    constructor
    · exact prefix_of_pathString_prefix (hslashless dir (by simp))
        (hslashless path (by simp [hpath]))
    · exact fun hprefixed => pathString_prefix (hname ▸ honly path hpath hprefixed)
  have hkeys : ∀ path ∈ rest.dropWhile (under dir), under dir path = false := by
    have hchild : under dir (dir ++ [name]) = true := under_iff.mpr (List.prefix_append _ _)
    intro path hpath
    have := hlater.2.1 path (by rw [List.dropWhile_cons_of_pos hchild]; exact hpath)
    simpa [← under_iff] using this
  refine (mapWhile_map _ (waitingItem list collapsed done) hkind hkeys).trans ?_
  refine List.map_congr_left fun path hpath => ?_
  have hdir : dir ∈ addedPaths list := by simp [hsplit]
  have hne := ((mem_addedPaths_iff hlist.ne_nil).mp hdir).1
  have hnew : dir ∉ done := fun hmem =>
    houtline.not_isPrefix dir hmem List.prefix_rfl
  simp only [waitingItem_concat hne hnew, under_iff, hlone, true_and,
    under_of_mem_ancestors hlater (List.mem_cons_of_mem _ hpath)]

/-- The next item is shown as it waits, with no lone directory right before it. -/
theorem waitingItem_head {path : FilePath} (hsplit : addedPaths list = done ++ path :: rest)
    (hlast : ∀ last ∈ done.getLast?, ¬ Lone list last) :
    waitingItem list collapsed done path = shownItem list collapsed path := by
  have houtline := (isOutline_addedPaths hlist).1
  have hnodup := houtline.nodup
  have hpath : path ∈ addedPaths list := by simp [hsplit]
  have hne := ((mem_addedPaths_iff hlist.ne_nil).mp hpath).1
  have habove : ∀ above ∈ ancestors path, above ≠ [] → above ∈ done := by
    intro above hmem hneAbove
    obtain ⟨hprefixed, hshort⟩ := mem_ancestors_iff.mp hmem
    have hin := mem_of_prefix hlist hpath hprefixed hneAbove
    rw [hsplit] at houtline hin
    rcases List.mem_append.mp hin with hin | hin
    · exact hin
    · rcases List.mem_cons.mp hin with rfl | hin
      · exact absurd rfl hshort.ne
      · exact absurd hprefixed (houtline.of_append.1 above hin)
  obtain ⟨dir, name, rfl⟩ : ∃ dir name, path = dir ++ [name] :=
    ⟨path.dropLast, path.getLast hne, (List.dropLast_append_getLast hne).symm⟩
  apply waitingItem_eq_shownItem
  · exact fun above hmem hneAbove _ => habove above hmem hneAbove
  · by_contra hnot
    obtain ⟨hroot, hlone⟩ : dir ≠ [] ∧ Lone list dir := by simpa using hnot
    have hdir := habove dir (mem_ancestors_iff.mpr ⟨List.prefix_append _ _, by simp⟩) hroot
    obtain ⟨before, between, rfl⟩ := List.append_of_mem hdir
    obtain ⟨name', rest', hrest, -⟩ := @exists_only_child list hlist before
      (between ++ (dir ++ [name]) :: rest) dir hlone.2.1 (by simp [hsplit])
    have hsame : dir ++ [name'] = dir ++ [name] := by
      refine @eq_of_childCount_eq_one list dir hlone.2.1 _ _ ?_ (by simp) hpath (by simp)
      have hmem : dir ++ [name'] ∈ between ++ (dir ++ [name]) :: rest := by simp [hrest]
      rw [hsplit]
      simp only [List.append_assoc, List.cons_append]
      exact List.mem_append_right _ (List.mem_cons_of_mem _ hmem)
    rcases between with _ | ⟨first, between⟩
    · exact hlast dir (by simp) hlone
    · rw [List.cons_append, List.cons_eq_cons, hsame] at hrest
      rw [hsplit, hrest.1] at hnodup
      simp [List.nodup_append] at hnodup

/-- The fold leaves the items of the paths that are no lone directories. -/
theorem foldPaths_waitingItem (hslash : ∀ path ∈ list, Slashless path) {paths : PathsAdded}
    (hcounts : ∀ dir ≠ [], paths dir =
      if dir ∈ addedPaths list ∧ dir ∉ list then some (childCount (addedPaths list) dir)
      else none)
    {turns : ℕ} (hsplit : addedPaths list = done ++ dir :: rest) (hturns : rest.length < turns) :
    foldPaths paths turns
        (shownItem list collapsed dir :: rest.map (waitingItem list collapsed done)) =
      ((dir :: rest).filter fun path => ¬ Lone list path).map (shownItem list collapsed) := by
  induction rest generalizing done dir turns with
  | nil =>
      obtain ⟨turns, rfl⟩ := Nat.exists_eq_add_one_of_ne_zero hturns.ne'
      have hlone : ¬ Lone list dir := fun hlone => by
        obtain ⟨name, rest', hrest, -⟩ := exists_only_child hlist hlone.2.1 hsplit
        exact absurd hrest (by simp)
      simp [foldPaths, hlone]
  | cons next rest ih =>
      obtain ⟨turns, rfl⟩ := Nat.exists_eq_add_one_of_ne_zero (Nat.ne_zero_of_lt hturns)
      have hfewer : rest.length < turns := by simpa using hturns
      have hdir : dir ∈ addedPaths list := by simp [hsplit]
      have hnext : next ∈ addedPaths list := by simp [hsplit]
      have hne := ((mem_addedPaths_iff hlist.ne_nil).mp hdir).1
      have hsplit' : addedPaths list = (done ++ [dir]) ++ next :: rest := by simp [hsplit]
      have hcond : ((shownItem list collapsed dir).kind.isPath &&
          paths (shownItem list collapsed dir).info.fullPath == some 1 &&
          (waitingItem list collapsed done next).kind.isPath) = decide (Lone list dir) := by
        have hitem : (shownItem list collapsed dir).kind.isPath = decide (dir ∉ list) := by
          simp only [shownItem]
          split_ifs with hfile <;> simp [FileTreeItemKind.isPath, hfile]
        have hwaiting : (waitingItem list collapsed done next).kind.isPath =
            decide (next ∉ list) := by
          simp only [waitingItem, plainItem]
          split_ifs with hfile <;> simp [FileTreeItemKind.isPath, hfile]
        rw [hitem, hwaiting, show (shownItem list collapsed dir).info.fullPath = dir from rfl,
          hcounts dir hne, Bool.eq_iff_iff]
        by_cases hfile : dir ∈ list
        · simp [hfile, lone_iff hlist hsplit]
        · simp [hfile, hdir, lone_iff hlist hsplit]
      rw [List.map_cons, foldPaths, hcond]
      by_cases hlone : Lone list dir
      · obtain ⟨name, rest', hrest, -⟩ := exists_only_child hlist hlone.2.1 hsplit
        obtain ⟨rfl, rfl⟩ := List.cons_eq_cons.mp hrest
        have hchild := ((lone_iff hlist hsplit).mp hlone).2.2
        rw [if_pos (by simpa using hlone), fold_shownItem done hne hlone hchild]
        have hpath : (waitingItem list collapsed done (dir ++ [name])).info.fullPath =
            dir ++ [name] := rfl
        rw [hpath, unindent_waitingItem hlist hslash hsplit hlone, ih hsplit' hfewer]
        simp [hlone]
      · have hsame : ∀ path, waitingItem list collapsed done path =
            waitingItem list collapsed (done ++ [dir]) path := fun path => by
          have hnew : dir ∉ done := fun hmem =>
            (hsplit ▸ (isOutline_addedPaths hlist).1).not_isPrefix dir hmem List.prefix_rfl
          rw [waitingItem_concat hne hnew, if_neg fun h => hlone h.1]
        have hhead : waitingItem list collapsed (done ++ [dir]) next =
            shownItem list collapsed next :=
          waitingItem_head hlist hsplit' (by simpa using hlone)
        rw [if_neg (by simpa using hlone), hsame next, hhead,
          List.map_congr_left fun path _ => hsame path, ih hsplit' hfewer]
        simp [hlone]

end Lone

section New

variable {list : List FilePath} (hlist : FileList list)
include hlist

/-- The files among the paths that are added are the list. -/
theorem filter_addedPaths : (addedPaths list).filter (· ∈ list) = list := by
  suffices hgrow : ∀ some rest, list = some ++ rest →
      (addedPaths some).filter (· ∈ list) = some by
    exact hgrow list [] (by simp)
  intro some
  induction some using List.reverseRecOn with
  | nil => exact fun _ _ => rfl
  | append_singleton some path ih =>
      intro rest hsplit
      have hpath : path ∈ list := by simp [hsplit]
      have hdirs : (freshDirs (addedPaths some) path).filter (· ∈ list) = [] := by
        refine List.filter_eq_nil_iff.mpr fun dir hdir => ?_
        obtain ⟨⟨hprefixed, hshort⟩, -⟩ := mem_freshDirs_iff.mp hdir
        simpa using hlist.dir_not_mem hpath hprefixed hshort
      rw [addedPaths_concat, List.filter_append, List.filter_append, hdirs,
        ih (path :: rest) (by simp [hsplit])]
      simp [hpath]

/-- The tree of a list of files has an item for every file and for every directory but the
lone ones, each right behind what it lies in, indented by the items that it lies under. -/
theorem new_eq (hlength : ∀ path ∈ list, path.length ≤ 256)
    (hslash : ∀ path ∈ list, Slashless path) (collapsed : List String) :
    FileTreeItems.new list collapsed =
        .ok ⟨(shownPaths list).map (shownItem list collapsed), list.length⟩ ∧
      IsOutline (shownPaths list) ∧ (shownPaths list).filter (· ∈ list) = list := by
  refine ⟨?_, (isOutline_addedPaths hlist).1.sublist List.filter_sublist, ?_⟩
  · obtain ⟨⟨items, paths⟩, hrun, hadded⟩ := @createItems_eq collapsed list hlist hlength
    have hitems : items = (addedPaths list).map (plainItem collapsed list) := hadded.items
    rw [FileTreeItems.new, hrun]
    change Except.ok _ = _
    congr 2
    have hwaiting : ∀ path ∈ addedPaths list,
        plainItem collapsed list path = waitingItem list collapsed [] path := by
      intro path hpath
      have hne := ((mem_addedPaths_iff hlist.ne_nil).mp hpath).1
      have habove : (ancestors path).filter (fun dir =>
          dir ≠ [] ∧ ¬ (dir ∈ ([] : List FilePath) ∧ Lone list dir)) =
          (ancestors path).erase [] := by
        rw [List.Nodup.erase_eq_filter (nodup_ancestors path)]
        exact List.filter_congr fun dir _ => by by_cases hdir : dir = [] <;> simp [hdir]
      have hroot : [] ∈ ancestors path :=
        mem_ancestors_iff.mpr ⟨List.nil_prefix, List.length_pos_of_ne_nil hne⟩
      rw [waitingItem, habove, List.length_erase_of_mem hroot, ancestors, List.length_map,
        List.length_range]
      rfl
    rw [hitems, List.map_congr_left hwaiting, List.length_map, shownPaths]
    rcases hpaths : addedPaths list with _ | ⟨first, rest⟩
    · rfl
    · rw [List.map_cons, waitingItem_head hlist hpaths (by simp)]
      exact foldPaths_waitingItem hlist hslash hadded.counts hpaths (by simp)
  · rw [shownPaths, List.filter_filter]
    refine (List.filter_congr fun path _ => ?_).trans (filter_addedPaths hlist)
    by_cases hfile : path ∈ list
    · simp [hfile, Lone]
    · simp [hfile]

omit hlist in
theorem new_eq_folded :
    FileList [["a", "b", "c"], ["a", "b", "d"], ["e"]] ∧
      FileTreeItems.new [["a", "b", "c"], ["a", "b", "d"], ["e"]] ["a"] =
        .ok ⟨[⟨⟨0, true, some ["a", "b"], ["a", "b"]⟩, .path true⟩,
          ⟨⟨1, true, none, ["a", "b", "c"]⟩, .file⟩,
          ⟨⟨1, true, none, ["a", "b", "d"]⟩, .file⟩, ⟨⟨0, true, none, ["e"]⟩, .file⟩], 3⟩ := by
  have hlist : FileList [["a", "b", "c"], ["a", "b", "d"], ["e"]] :=
    .of_grouped (by decide) (by decide) (by decide)
  refine ⟨hlist, ?_⟩
  rw [(new_eq hlist (by decide) (by simp [Slashless]) ["a"]).1]
  decide

end New

end Filetree

end Gnostr
