/-
What the file tree shows: a view closes some directories, and an item is shown when no
directory above it is closed.  Collapsing and expanding are changes of the view.
-/
import Gnostr.Filetree.Items

namespace Gnostr

namespace Filetree

/-- The directories that are closed. -/
abbrev View := FilePath → Bool

section Dress

variable (items : List FileTreeItem) (closed : View)

/-- A closed directory lies above a path. -/
def hiddenIn (path : FilePath) : Bool :=
  items.any fun above => above.kind.isPath && closed above.info.fullPath &&
    (under above.info.fullPath path && above.info.fullPath ≠ path)

def dressItem (item : FileTreeItem) : FileTreeItem where
  info := { item.info with visible := !hiddenIn items closed item.info.fullPath }
  kind := if item.kind.isPath then .path (closed item.info.fullPath) else .file

/-- The items as a view shows them. -/
def dress : List FileTreeItem := items.map (dressItem items closed)

variable {items closed}

theorem hiddenIn_iff {path : FilePath} :
    hiddenIn items closed path = true ↔
      ∃ above ∈ items, above.kind.isPath = true ∧ closed above.info.fullPath = true ∧
        above.info.fullPath <+: path ∧ above.info.fullPath ≠ path := by
  simp [hiddenIn, and_assoc]

@[simp] theorem fullPath_dressItem (item : FileTreeItem) :
    (dressItem items closed item).info.fullPath = item.info.fullPath := rfl

@[simp] theorem isPath_dressItem (item : FileTreeItem) :
    (dressItem items closed item).kind.isPath = item.kind.isPath := by
  rw [dressItem]
  rcases item with ⟨-, _ | _⟩ <;> rfl

theorem kind_dressItem (item : FileTreeItem) :
    (dressItem items closed item).kind =
      if item.kind.isPath then .path (closed item.info.fullPath) else .file := rfl

/-- Views that close the same directories above a path hide it alike. -/
theorem hiddenIn_congr {closed' : View} {path : FilePath}
    (hsame : ∀ above ∈ items, above.info.fullPath <+: path → above.info.fullPath ≠ path →
      closed above.info.fullPath = closed' above.info.fullPath) :
    hiddenIn items closed path = hiddenIn items closed' path := by
  rw [Bool.eq_iff_iff, hiddenIn_iff, hiddenIn_iff]
  refine exists_congr fun above => and_congr_right fun hmem => and_congr_right fun _ => ?_
  constructor
  · rintro ⟨hclosed, hprefixed, hne⟩
    exact ⟨hsame above hmem hprefixed hne ▸ hclosed, hprefixed, hne⟩
  · rintro ⟨hclosed, hprefixed, hne⟩
    exact ⟨(hsame above hmem hprefixed hne).trans hclosed, hprefixed, hne⟩

theorem dressItem_congr {closed' : View} {item : FileTreeItem}
    (hself : closed item.info.fullPath = closed' item.info.fullPath)
    (hsame : ∀ above ∈ items, above.info.fullPath <+: item.info.fullPath →
      above.info.fullPath ≠ item.info.fullPath →
      closed above.info.fullPath = closed' above.info.fullPath) :
    dressItem items closed item = dressItem items closed' item := by
  rw [dressItem, dressItem, hiddenIn_congr hsame, hself]

end Dress

/-- The paths of the items. -/
def paths (items : List FileTreeItem) : List FilePath :=
  items.map fun item => item.info.fullPath

/-- The items at an index and around it. -/
structure At (items before : List FileTreeItem) (item : FileTreeItem)
    (rest : List FileTreeItem) : Prop where
  split : items = before ++ item :: rest
  outline : IsOutline (paths items)

namespace At

variable {items before rest : List FileTreeItem} {item : FileTreeItem}

theorem mem (hat : At items before item rest) : item ∈ items := by simp [hat.split]

theorem mem_of_rest (hat : At items before item rest) {other : FileTreeItem}
    (hother : other ∈ rest) : other ∈ items := by simp [hat.split, hother]

theorem outline' (hat : At items before item rest) :
    IsOutline (paths before ++ item.info.fullPath :: paths rest) := by
  have := hat.outline
  rwa [hat.split, paths, List.map_append, List.map_cons] at this

theorem not_prefix_before (hat : At items before item rest) {other : FileTreeItem}
    (hother : other ∈ before) : ¬ item.info.fullPath <+: other.info.fullPath :=
  hat.outline'.not_isPrefix _ (List.mem_map_of_mem hother)

theorem not_prefix_item (hat : At items before item rest) {other : FileTreeItem}
    (hother : other ∈ rest) : ¬ other.info.fullPath <+: item.info.fullPath :=
  hat.outline'.of_append.1 _ (List.mem_map_of_mem hother)

theorem ne_of_mem_rest (hat : At items before item rest) {other : FileTreeItem}
    (hother : other ∈ rest) : item.info.fullPath ≠ other.info.fullPath :=
  fun h => hat.not_prefix_item hother (h ▸ List.prefix_rfl)

theorem ne_of_mem_before (hat : At items before item rest) {other : FileTreeItem}
    (hother : other ∈ before) : item.info.fullPath ≠ other.info.fullPath :=
  fun h => hat.not_prefix_before hother (h ▸ List.prefix_rfl)

/-- What is not under the item once something is not is not under it either. -/
theorem not_under_dropWhile (hat : At items before item rest) :
    ∀ other ∈ rest.dropWhile (fun other => under item.info.fullPath other.info.fullPath),
      under item.info.fullPath other.info.fullPath = false := by
  intro other hother
  have hmem : other.info.fullPath ∈ (paths rest).dropWhile (under item.info.fullPath) := by
    rw [paths, List.dropWhile_map]
    exact List.mem_map_of_mem hother
  have := hat.outline'.of_append.2.1 _ hmem
  simpa [← under_iff] using this

/-- What lies between the item and something under it is under it. -/
theorem prefix_of_between (hat : At items before item rest)
    {between after : List FileTreeItem} {last : FileTreeItem}
    (hrest : rest = between ++ last :: after)
    (hlast : item.info.fullPath <+: last.info.fullPath) :
    ∀ other ∈ between, item.info.fullPath <+: other.info.fullPath := by
  intro other hother
  have hlater : IsOutline (item.info.fullPath ::
      (paths between ++ last.info.fullPath :: paths after)) := by
    have := hat.outline'.of_append
    rwa [hrest, paths, List.map_append, List.map_cons] at this
  exact hlater.prefix_of_between hlast _ (List.mem_map_of_mem hother)

/-- There is one item at an index. -/
theorem eq_of_length (hat : At items before item rest) {before' rest' : List FileTreeItem}
    {item' : FileTreeItem} (hat' : At items before' item' rest')
    (hlength : before'.length = before.length) :
    before' = before ∧ item' = item ∧ rest' = rest := by
  obtain ⟨hbefore, hcons⟩ := List.append_inj (hat'.split.symm.trans hat.split) hlength
  exact ⟨hbefore, List.cons_eq_cons.mp hcons⟩

/-- What holds of the item at an index. -/
theorem forall_iff (hat : At items before item rest)
    {Holds : List FileTreeItem → FileTreeItem → List FileTreeItem → Prop} :
    (∀ before' item' rest', At items before' item' rest' → before'.length = before.length →
      Holds before' item' rest') ↔ Holds before item rest := by
  constructor
  · exact fun hall => hall before item rest hat rfl
  · rintro hholds before' item' rest' hat' hlength
    obtain ⟨rfl, rfl, rfl⟩ := hat.eq_of_length hat' hlength
    exact hholds

/-- An item behind another is at its own index. -/
theorem behind (hat : At items before item rest) {between after : List FileTreeItem}
    {other : FileTreeItem} (hrest : rest = between ++ other :: after) :
    At items (before ++ item :: between) other after where
  split := by rw [hat.split, hrest]; simp
  outline := hat.outline

end At

section Change

variable {items before rest : List FileTreeItem} {item : FileTreeItem} {closed closed' : View}

theorem dress_eq (hat : At items before item rest) (closed : View) :
    dress items closed = before.map (dressItem items closed) ++
      dressItem items closed item :: rest.map (dressItem items closed) := by
  rw [dress]
  nth_rewrite 2 [hat.split]
  rw [List.map_append, List.map_cons]

theorem changeAt_eq (hat : At items before item rest) (files : ℕ)
    (change : FileTreeItem → List FileTreeItem → FileTreeItem × List FileTreeItem) :
    FileTreeItems.changeAt ⟨dress items closed, files⟩ before.length change =
      .ok ⟨before.map (dressItem items closed) ++
        (change (dressItem items closed item) (rest.map (dressItem items closed))).1 ::
          (change (dressItem items closed item) (rest.map (dressItem items closed))).2,
        files⟩ := by
  have hlength : before.length = (before.map (dressItem items closed)).length := by simp
  rw [dress_eq hat closed, hlength, FileTreeItems.changeAt, List.drop_left, List.take_left]

theorem changeAt_dress (hat : At items before item rest) (files : ℕ)
    (change : FileTreeItem → List FileTreeItem → FileTreeItem × List FileTreeItem)
    (hbefore : ∀ other ∈ before, dressItem items closed other = dressItem items closed' other)
    (hchange : change (dressItem items closed item) (rest.map (dressItem items closed)) =
      (dressItem items closed' item, rest.map (dressItem items closed'))) :
    FileTreeItems.changeAt ⟨dress items closed, files⟩ before.length change =
      .ok ⟨dress items closed', files⟩ := by
  rw [changeAt_eq hat files change, hchange, dress_eq hat closed', List.map_congr_left hbefore]

/-- A view that changes only at a directory and under it shows the rest as it was. -/
theorem dressItem_of_not_under {path : FilePath} {other : FileTreeItem}
    (hview : ∀ dir, ¬ path <+: dir → closed dir = closed' dir)
    (hunder : ¬ path <+: other.info.fullPath) :
    dressItem items closed other = dressItem items closed' other := by
  apply dressItem_congr
  · exact hview _ hunder
  · exact fun above _ hprefixed _ => hview _ fun h => hunder (h.trans hprefixed)

/-- The directory itself is hidden as it was. -/
theorem hiddenIn_self {path : FilePath}
    (hview : ∀ dir, ¬ path <+: dir → closed dir = closed' dir) :
    hiddenIn items closed path = hiddenIn items closed' path :=
  hiddenIn_congr fun _ _ hprefixed hne => hview _ fun h =>
    hne (List.IsPrefix.eq_of_length hprefixed (le_antisymm hprefixed.length_le h.length_le))

theorem hideUnder_false (path : FilePath) (list : List FileTreeItem) :
    FileTreeItems.hideUnder false path list =
      mapWhile (fun item => under path item.info.fullPath) FileTreeItem.hide list := by
  induction list with
  | nil => rfl
  | cons item list ih =>
      rw [FileTreeItems.hideUnder, mapWhile]
      simp [ih]

theorem update_of_not_prefix {path dir : FilePath} (shut : Bool) (hunder : ¬ path <+: dir) :
    closed dir = Function.update closed path shut dir :=
  (Function.update_of_ne (fun h => hunder (by simp [h])) shut closed).symm

/-- A directory that is collapsed is closed. -/
theorem collapse_dress (hat : At items before item rest) (hpath : item.kind.isPath = true)
    (files : ℕ) :
    FileTreeItems.collapse ⟨dress items closed, files⟩ before.length false =
      .ok ⟨dress items (Function.update closed item.info.fullPath true), files⟩ := by
  have hview : ∀ dir, ¬ item.info.fullPath <+: dir →
      closed dir = Function.update closed item.info.fullPath true dir :=
    fun _ => update_of_not_prefix true
  refine changeAt_dress hat files _
    (fun other hother => dressItem_of_not_under hview (hat.not_prefix_before hother)) ?_
  rw [isPath_dressItem, if_pos hpath, fullPath_dressItem, hideUnder_false]
  congr 1
  · simp [FileTreeItem.collapsePath, dressItem, hiddenIn_self hview, hpath]
  · have hkind : ∀ other ∈ rest,
        under item.info.fullPath (dressItem items closed other).info.fullPath =
          under item.info.fullPath other.info.fullPath := fun _ _ => rfl
    refine (mapWhile_map _ (dressItem items closed) hkind hat.not_under_dropWhile).trans ?_
    refine List.map_congr_left fun other hother => ?_
    by_cases hunder : item.info.fullPath <+: other.info.fullPath
    · have hne := hat.ne_of_mem_rest hother
      have hhidden : hiddenIn items (Function.update closed item.info.fullPath true)
          other.info.fullPath = true :=
        hiddenIn_iff.mpr ⟨item, hat.mem, hpath, Function.update_self .., hunder, hne⟩
      rw [if_pos (under_iff.mpr hunder), dressItem, dressItem, hhidden,
        Function.update_of_ne hne.symm]
      rfl
    · rw [if_neg (by simpa using hunder)]
      exact dressItem_of_not_under hview hunder

theorem isPathCollapsed_dressItem (other : FileTreeItem) :
    (dressItem items closed other).kind.isPathCollapsed =
      (other.kind.isPath && closed other.info.fullPath) := by
  rw [dressItem]
  cases other.kind.isPath <;> rfl

/-- An item under an open directory is hidden by what lies between. -/
theorem exists_between_of_hiddenIn (hat : At items before item rest)
    (hself : hiddenIn items closed item.info.fullPath = false)
    (hopen : closed item.info.fullPath = false) {between after : List FileTreeItem}
    {other : FileTreeItem} (hrest : rest = between ++ other :: after)
    (hunder : item.info.fullPath <+: other.info.fullPath)
    (hhidden : hiddenIn items closed other.info.fullPath = true) :
    ∃ dir ∈ between, dir.kind.isPath = true ∧ closed dir.info.fullPath = true ∧
      dir.info.fullPath <+: other.info.fullPath := by
  obtain ⟨above, hmem, hpath, hclosed, hprefixed, hne⟩ := hiddenIn_iff.mp hhidden
  have hbehind := hat.behind hrest
  rw [hbehind.split, List.append_assoc, List.mem_append] at hmem
  rcases hmem with hmem | hmem
  · have habove := (List.prefix_or_prefix_of_prefix hprefixed hunder).resolve_right
      (hat.not_prefix_before hmem)
    have : hiddenIn items closed item.info.fullPath = true :=
      hiddenIn_iff.mpr ⟨above, by simp [hat.split, hmem], hpath, hclosed, habove,
        (hat.ne_of_mem_before hmem).symm⟩
    exact absurd this (by simp [hself])
  · rw [List.cons_append, List.mem_cons, List.mem_append, List.mem_cons] at hmem
    rcases hmem with rfl | hmem | rfl | hmem
    · exact absurd hclosed (by simp [hopen])
    · exact ⟨above, hmem, hpath, hclosed, hprefixed⟩
    · exact absurd rfl hne
    · exact absurd hprefixed (hbehind.not_prefix_item hmem)

/-- Items that are to be shown again: what the view hides under the directory stays as it
is, and what it shows there is shown. -/
structure Looks (items : List FileTreeItem) (closed : View) (path : FilePath)
    (rest : List FileTreeItem) (look : FileTreeItem → FileTreeItem) : Prop where
  fullPath : ∀ other ∈ rest, (look other).info.fullPath = other.info.fullPath
  kind : ∀ other ∈ rest, (look other).kind = (dressItem items closed other).kind
  shown : ∀ other ∈ rest, path <+: other.info.fullPath →
    hiddenIn items closed other.info.fullPath = false →
    (look other).reveal = dressItem items closed other
  skipped : ∀ other ∈ rest, hiddenIn items closed other.info.fullPath = true ∨
    ¬ path <+: other.info.fullPath → look other = dressItem items closed other

/-- The closed directory that the scan is in covers what lies ahead under a closed one. -/
structure Scanned (closed : View) (done left : List FileTreeItem)
    (innerCollapsed : Option FilePath) : Prop where
  inside : ∀ path ∈ innerCollapsed, ∃ dir ∈ done, dir.kind.isPath = true ∧
    closed dir.info.fullPath = true ∧ dir.info.fullPath = path
  covers : ∀ dir ∈ done, dir.kind.isPath = true → closed dir.info.fullPath = true →
    ∀ other ∈ left, dir.info.fullPath <+: other.info.fullPath →
      ∃ path ∈ innerCollapsed, path <+: other.info.fullPath

theorem Scanned.skip {done left : List FileTreeItem} {other : FileTreeItem} {path : FilePath}
    (hscan : Scanned closed done (other :: left) (some path))
    (hcovered : path <+: other.info.fullPath) :
    Scanned closed (done ++ [other]) left (some path) where
  inside path' hpath := by
    obtain ⟨dir, hdir, hclosed⟩ := hscan.inside path' hpath
    exact ⟨dir, List.mem_append_left _ hdir, hclosed⟩
  covers dir hdir hpath hclosed last hlast hprefixed := by
    rcases List.mem_append.mp hdir with hdir | hdir
    · exact hscan.covers dir hdir hpath hclosed last (List.mem_cons_of_mem _ hlast) hprefixed
    · rw [List.mem_singleton.mp hdir] at hprefixed
      exact ⟨path, rfl, hcovered.trans hprefixed⟩

theorem Scanned.turn (hat : At items before item rest) {done left : List FileTreeItem}
    {other : FileTreeItem} {innerCollapsed : Option FilePath}
    (hrest : rest = done ++ other :: left)
    (hscan : Scanned closed done (other :: left) innerCollapsed)
    (hcovered : ∀ path ∈ innerCollapsed, ¬ path <+: other.info.fullPath) :
    Scanned closed (done ++ [other]) left
      (if other.kind.isPath && closed other.info.fullPath then some other.info.fullPath
        else none) where
  inside path hpath := by
    split_ifs at hpath with hclosed
    · rw [Bool.and_eq_true] at hclosed
      exact ⟨other, by simp, hclosed.1, hclosed.2, Option.mem_some_iff.mp hpath⟩
    · exact absurd hpath (by simp)
  covers dir hdir hpath hclosed last hlast hprefixed := by
    rcases List.mem_append.mp hdir with hdir | hdir
    · -- the directory would have this item under it as well
      obtain ⟨first, between, rfl⟩ := List.append_of_mem hdir
      obtain ⟨middle, after, rfl⟩ := List.append_of_mem hlast
      have hdirAt := @At.behind _ _ _ _ hat first (between ++ other :: (middle ++ last :: after))
        dir (by simp [hrest])
      have hunder : dir.info.fullPath <+: other.info.fullPath :=
        @At.prefix_of_between _ _ _ _ hdirAt (between ++ other :: middle) after last (by simp)
          hprefixed other (by simp)
      obtain ⟨path, hpathIn, hpathUnder⟩ :=
        hscan.covers dir hdir hpath hclosed other List.mem_cons_self hunder
      exact absurd hpathUnder (hcovered path hpathIn)
    · rw [List.mem_singleton.mp hdir] at hpath hclosed hprefixed
      exact ⟨other.info.fullPath, by simp [hpath, hclosed], hprefixed⟩

theorem updateVisibility_eq (hat : At items before item rest)
    (hself : hiddenIn items closed item.info.fullPath = false)
    (hopen : closed item.info.fullPath = false) {look : FileTreeItem → FileTreeItem}
    (hlook : Looks items closed item.info.fullPath rest look)
    {done left : List FileTreeItem} {innerCollapsed : Option FilePath}
    (hrest : rest = done ++ left) (hscan : Scanned closed done left innerCollapsed) :
    FileTreeItems.updateVisibility item.info.fullPath innerCollapsed (left.map look) =
      left.map (dressItem items closed) := by
  induction left generalizing done innerCollapsed with
  | nil => rfl
  | cons other left ih =>
      have hother : other ∈ rest := by simp [hrest]
      have hrest' : rest = (done ++ [other]) ++ left := by simp [hrest]
      rw [List.map_cons, FileTreeItems.updateVisibility, hlook.fullPath other hother]
      by_cases hcovered : ∃ path ∈ innerCollapsed, path <+: other.info.fullPath
      · -- in a closed directory that was passed
        obtain ⟨path, hpath, hprefixed⟩ := hcovered
        obtain rfl := Option.mem_def.mp hpath
        obtain ⟨dir, hdir, hdirPath, hclosed, rfl⟩ := hscan.inside path rfl
        have hdirIn : dir ∈ items := hat.mem_of_rest (by simp [hrest, hdir])
        have hne : dir.info.fullPath ≠ other.info.fullPath :=
          (hat.behind hrest).ne_of_mem_before (by simp [hdir]) |>.symm
        have hhidden : hiddenIn items closed other.info.fullPath = true :=
          hiddenIn_iff.mpr ⟨dir, hdirIn, hdirPath, hclosed, hprefixed, hne⟩
        rw [if_pos (by simpa using hprefixed), hlook.skipped other hother (Or.inl hhidden),
          ih hrest' (hscan.skip hprefixed), List.map_cons]
      · have hnot : ∀ path ∈ innerCollapsed, ¬ path <+: other.info.fullPath :=
          fun path hpath hprefixed => hcovered ⟨path, hpath, hprefixed⟩
        rw [if_neg (by
          simp only [Option.any_eq_true, under_iff]
          exact hcovered)]
        by_cases hunder : item.info.fullPath <+: other.info.fullPath
        · have hshown : hiddenIn items closed other.info.fullPath = false := by
            by_contra hhidden
            obtain ⟨dir, hdir, hdirPath, hclosed, hprefixed⟩ :=
              exists_between_of_hiddenIn hat hself hopen hrest hunder (by simpa using hhidden)
            exact hcovered
              (hscan.covers dir hdir hdirPath hclosed other List.mem_cons_self hprefixed)
          have hturn := hscan.turn hat hrest hnot
          rw [← @isPathCollapsed_dressItem items, ← hlook.kind other hother] at hturn
          simp only [under_iff.mpr hunder, if_true]
          rw [hlook.shown other hother hunder hshown, ih hrest' hturn, List.map_cons]
        · have hrestEq : ∀ last ∈ other :: left, look last = dressItem items closed last := by
            intro last hlast
            refine hlook.skipped last (hrest ▸ List.mem_append_right _ hlast)
              (Or.inr fun hprefixed => ?_)
            rcases List.mem_cons.mp hlast with rfl | hlast
            · exact hunder hprefixed
            · obtain ⟨middle, after, rfl⟩ := List.append_of_mem hlast
              exact hunder (@At.prefix_of_between _ _ _ _ hat (done ++ other :: middle) after
                last (by simp [hrest]) hprefixed other (by simp))
          rw [if_neg (by simpa using hunder), ← List.map_cons]
          exact List.map_congr_left hrestEq

theorem scanned_nil (left : List FileTreeItem) : Scanned closed [] left none where
  inside := by simp
  covers := by simp

/-- A directory that is shown and expanded is open. -/
theorem expand_dress (hat : At items before item rest) (hpath : item.kind.isPath = true)
    (hshown : hiddenIn items closed item.info.fullPath = false) (files : ℕ) :
    FileTreeItems.expand ⟨dress items closed, files⟩ before.length false =
      .ok ⟨dress items (Function.update closed item.info.fullPath false), files⟩ := by
  have hview : ∀ dir, ¬ item.info.fullPath <+: dir →
      closed dir = Function.update closed item.info.fullPath false dir :=
    fun _ => update_of_not_prefix false
  have hself := @hiddenIn_self items _ _ _ hview
  rw [hshown] at hself
  refine changeAt_dress hat files _
    (fun other hother => dressItem_of_not_under hview (hat.not_prefix_before hother)) ?_
  rw [isPath_dressItem, if_pos hpath, fullPath_dressItem]
  refine Prod.ext ?_ ?_
  · simp [FileTreeItem.expandPath, dressItem, ← hself, hshown, hpath]
  · refine updateVisibility_eq hat hself.symm (Function.update_self ..) ?_
      (List.nil_append rest).symm (scanned_nil rest)
    have hkind : ∀ other ∈ rest,
        closed other.info.fullPath =
          Function.update closed item.info.fullPath false other.info.fullPath :=
      fun other hother => (Function.update_of_ne (hat.ne_of_mem_rest hother).symm ..).symm
    refine ⟨fun _ _ => rfl, fun other hother => ?_, fun other hother _ hhidden => ?_,
      fun other hother hhidden => ?_⟩
    · simp only [dressItem, hkind other hother]
    · simp only [dressItem, hhidden, FileTreeItem.reveal, hkind other hother]
      rfl
    · rcases hhidden with hhidden | hunder
      · obtain ⟨above, hmem, habove, hclosed, hprefixed, hne⟩ := hiddenIn_iff.mp hhidden
        have hneDir : above.info.fullPath ≠ item.info.fullPath := fun h => by
          rw [h, Function.update_self] at hclosed
          exact absurd hclosed (by simp)
        rw [Function.update_of_ne hneDir] at hclosed
        have hold : hiddenIn items closed other.info.fullPath = true :=
          hiddenIn_iff.mpr ⟨above, hmem, habove, hclosed, hprefixed, hne⟩
        simp only [dressItem, hhidden, hold, hkind other hother]
      · exact dressItem_of_not_under hview hunder

/-- A view with a directory and all that is under it open. -/
def View.openUnder (closed : View) (path : FilePath) : View :=
  fun dir => !under path dir && closed dir

/-- A view with a directory and all that is under it closed. -/
def View.closeUnder (closed : View) (path : FilePath) : View :=
  fun dir => under path dir || closed dir

theorem View.openUnder_of_not {path dir : FilePath} (hunder : ¬ path <+: dir) :
    closed dir = closed.openUnder path dir := by
  simp [View.openUnder, Bool.eq_false_iff.mpr (mt under_iff.mp hunder)]

theorem View.closeUnder_of_not {path dir : FilePath} (hunder : ¬ path <+: dir) :
    closed dir = closed.closeUnder path dir := by
  simp [View.closeUnder, Bool.eq_false_iff.mpr (mt under_iff.mp hunder)]

theorem View.openUnder_of_under {path dir : FilePath} (hunder : path <+: dir) :
    closed.openUnder path dir = false := by
  simp [View.openUnder, under_iff.mpr hunder]

theorem View.closeUnder_of_under {path dir : FilePath} (hunder : path <+: dir) :
    closed.closeUnder path dir = true := by
  simp [View.closeUnder, under_iff.mpr hunder]

theorem expand_dressItem (other : FileTreeItem) :
    (if (dressItem items closed other).kind.isPath &&
        (dressItem items closed other).kind.isPathCollapsed then
      (dressItem items closed other).expandPath else dressItem items closed other) =
      { dressItem items closed other with
        kind := if other.kind.isPath then .path false else .file } := by
  rw [isPath_dressItem, isPathCollapsed_dressItem, FileTreeItem.expandPath, dressItem]
  cases other.kind.isPath <;> cases closed other.info.fullPath <;> rfl

/-- A directory that is shown and expanded with all that is under it is open with that. -/
theorem expand_true_dress (hat : At items before item rest) (hpath : item.kind.isPath = true)
    (hshown : hiddenIn items closed item.info.fullPath = false) (files : ℕ) :
    FileTreeItems.expand ⟨dress items closed, files⟩ before.length true =
      .ok ⟨dress items (closed.openUnder item.info.fullPath), files⟩ := by
  have hview : ∀ dir, ¬ item.info.fullPath <+: dir →
      closed dir = closed.openUnder item.info.fullPath dir :=
    fun _ => View.openUnder_of_not
  have hself := @hiddenIn_self items _ _ _ hview
  rw [hshown] at hself
  have hopen : closed.openUnder item.info.fullPath item.info.fullPath = false :=
    View.openUnder_of_under List.prefix_rfl
  refine changeAt_dress hat files _
    (fun other hother => dressItem_of_not_under hview (hat.not_prefix_before hother)) ?_
  rw [isPath_dressItem, if_pos hpath, fullPath_dressItem]
  refine Prod.ext ?_ ?_
  · simp [FileTreeItem.expandPath, dressItem, ← hself, hshown, hpath, hopen]
  · have hkind : ∀ other ∈ rest,
        under item.info.fullPath (dressItem items closed other).info.fullPath =
          under item.info.fullPath other.info.fullPath := fun _ _ => rfl
    have hexpand : FileTreeItems.expandUnder item.info.fullPath
        (rest.map (dressItem items closed)) = rest.map _ :=
      mapWhile_map _ (dressItem items closed) hkind hat.not_under_dropWhile
    change FileTreeItems.updateVisibility item.info.fullPath none
      (FileTreeItems.expandUnder item.info.fullPath (rest.map (dressItem items closed))) = _
    rw [hexpand]
    refine updateVisibility_eq hat hself.symm hopen ?_ (List.nil_append rest).symm
      (scanned_nil rest)
    refine ⟨fun other _ => ?_, fun other _ => ?_, fun other _ hunder hhidden => ?_,
      fun other _ hhidden => ?_⟩
    · rw [expand_dressItem]
      split_ifs <;> rfl
    · rw [expand_dressItem]
      by_cases hunder : item.info.fullPath <+: other.info.fullPath
      · rw [if_pos (under_iff.mpr hunder), kind_dressItem, View.openUnder_of_under hunder]
      · rw [if_neg (mt under_iff.mp hunder), dressItem, dressItem, hview _ hunder]
    · rw [expand_dressItem, if_pos (under_iff.mpr hunder)]
      simp only [dressItem, FileTreeItem.reveal, hhidden, View.openUnder_of_under hunder]
      rfl
    · by_cases hunder : item.info.fullPath <+: other.info.fullPath
      · -- what is open with the directory is hidden by nothing
        obtain ⟨above, hmem, habove, hclosed, hprefixed, hne⟩ :=
          hiddenIn_iff.mp (hhidden.resolve_right (not_not_intro hunder))
        have hnot : ¬ item.info.fullPath <+: above.info.fullPath := fun h =>
          absurd hclosed (by simp [View.openUnder_of_under h])
        have hup := (List.prefix_or_prefix_of_prefix hprefixed hunder).resolve_right hnot
        have : hiddenIn items (closed.openUnder item.info.fullPath) item.info.fullPath = true :=
          hiddenIn_iff.mpr ⟨above, hmem, habove, hclosed, hup,
            fun h => hnot (h ▸ List.prefix_rfl)⟩
        exact absurd this (by simp [← hself])
      · rw [if_neg (mt under_iff.mp hunder)]
        exact dressItem_of_not_under hview hunder

/-- What a recursive collapse does behind what it hides. -/
def closeNext : List FileTreeItem → List FileTreeItem
  | [] => []
  | next :: more => (if next.kind.isPath then next.collapsePath else next) :: more

theorem hideUnder_true (path : FilePath) (list : List FileTreeItem) :
    FileTreeItems.hideUnder true path list =
      (list.takeWhile fun item => under path item.info.fullPath).map (fun item =>
        (if item.kind.isPath then item.collapsePath else item).hide) ++
      closeNext (list.dropWhile fun item => under path item.info.fullPath) := by
  induction list with
  | nil => rfl
  | cons item list ih =>
      have hsame : (if item.kind.isPath then item.collapsePath else item).info.fullPath =
          item.info.fullPath := by split_ifs <;> rfl
      simp only [FileTreeItems.hideUnder, Bool.true_and]
      rw [hsame]
      by_cases hunder : under path item.info.fullPath = true
      · rw [if_pos hunder, ih]
        simp [hunder]
      · rw [if_neg hunder]
        simp [hunder, closeNext]

/-- What lies right behind an item and what is under it. -/
def behindUnder (item : FileTreeItem) (rest : List FileTreeItem) : List FileTreeItem :=
  rest.dropWhile fun other => under item.info.fullPath other.info.fullPath

theorem collapse_true_eq (hat : At items before item rest) (hpath : item.kind.isPath = true)
    (files : ℕ) :
    FileTreeItems.collapse ⟨dress items closed, files⟩ before.length true =
      .ok ⟨before.map (dressItem items (closed.closeUnder item.info.fullPath)) ++
        dressItem items (closed.closeUnder item.info.fullPath) item ::
          ((rest.takeWhile fun other => under item.info.fullPath other.info.fullPath).map
            (dressItem items (closed.closeUnder item.info.fullPath)) ++
            closeNext ((behindUnder item rest).map (dressItem items closed))), files⟩ := by
  have hview : ∀ dir, ¬ item.info.fullPath <+: dir →
      closed dir = closed.closeUnder item.info.fullPath dir :=
    fun _ => View.closeUnder_of_not
  have hself := @hiddenIn_self items _ _ _ hview
  have hshut : closed.closeUnder item.info.fullPath item.info.fullPath = true :=
    View.closeUnder_of_under List.prefix_rfl
  have hbefore : before.map (dressItem items closed) =
      before.map (dressItem items (closed.closeUnder item.info.fullPath)) :=
    List.map_congr_left fun other hother =>
      dressItem_of_not_under hview (hat.not_prefix_before hother)
  have hitem : (dressItem items closed item).collapsePath =
      dressItem items (closed.closeUnder item.info.fullPath) item := by
    simp [FileTreeItem.collapsePath, dressItem, hself, hshut, hpath]
  have hhide : (rest.map (dressItem items closed)).takeWhile
        (fun other => under item.info.fullPath other.info.fullPath) =
      (rest.takeWhile fun other => under item.info.fullPath other.info.fullPath).map
        (dressItem items closed) := List.takeWhile_map ..
  have hbehind : (rest.map (dressItem items closed)).dropWhile
        (fun other => under item.info.fullPath other.info.fullPath) =
      (behindUnder item rest).map (dressItem items closed) := List.dropWhile_map ..
  rw [FileTreeItems.collapse, changeAt_eq hat, isPath_dressItem, if_pos hpath,
    fullPath_dressItem, hideUnder_true, hhide, hbehind, List.map_map]
  simp only [hbefore, hitem]
  congr 5
  refine List.map_congr_left fun other hother => ?_
  have hunder : item.info.fullPath <+: other.info.fullPath :=
    under_iff.mp (List.mem_takeWhile_imp (p := fun other : FileTreeItem =>
      under item.info.fullPath other.info.fullPath) hother)
  have hmem := (List.takeWhile_sublist _).subset hother
  have hhidden : hiddenIn items (closed.closeUnder item.info.fullPath)
      other.info.fullPath = true :=
    hiddenIn_iff.mpr ⟨item, hat.mem, hpath, hshut, hunder, hat.ne_of_mem_rest hmem⟩
  rw [Function.comp_apply, isPath_dressItem]
  simp only [dressItem, hhidden, View.closeUnder_of_under hunder, FileTreeItem.hide,
    FileTreeItem.collapsePath]
  split_ifs <;> rfl

/-- Collapsing with all that is under it closes the next item as well, which is all the same
where that is no open directory. -/
theorem collapse_true_dress (hat : At items before item rest) (hpath : item.kind.isPath = true)
    (hnext : ∀ next ∈ (behindUnder item rest).head?,
      next.kind.isPath = true → closed next.info.fullPath = true) (files : ℕ) :
    FileTreeItems.collapse ⟨dress items closed, files⟩ before.length true =
      .ok ⟨dress items (closed.closeUnder item.info.fullPath), files⟩ := by
  have hview : ∀ dir, ¬ item.info.fullPath <+: dir →
      closed dir = closed.closeUnder item.info.fullPath dir :=
    fun _ => View.closeUnder_of_not
  have hclose : closeNext ((behindUnder item rest).map (dressItem items closed)) =
      (behindUnder item rest).map (dressItem items closed) := by
    rcases hbehind : behindUnder item rest with _ | ⟨next, more⟩
    · rfl
    · rw [hbehind] at hnext
      have hsame := hnext next rfl
      rw [List.map_cons, closeNext, isPath_dressItem]
      split_ifs with hdir
      · simp [FileTreeItem.collapsePath, dressItem, hdir, hsame hdir]
      · rfl
  have hbehind : (behindUnder item rest).map (dressItem items closed) =
      (behindUnder item rest).map
        (dressItem items (closed.closeUnder item.info.fullPath)) := by
    refine List.map_congr_left fun other hother => dressItem_of_not_under hview ?_
    exact Bool.eq_false_iff.mp (hat.not_under_dropWhile other hother) ∘ under_iff.mpr
  rw [collapse_true_eq hat hpath, hclose, hbehind, ← List.map_append, behindUnder,
    List.takeWhile_append_dropWhile, dress_eq hat]

end Change

end Filetree

end Gnostr
