/-
Outlines: lists of paths in which whatever lies under a path follows it directly.  A scan
that goes on while it is under a path then meets exactly what lies under the path, and
lines can be taken out of an outline anywhere.
-/
import Mathlib.Data.List.Infix
import Mathlib.Data.List.TakeWhile

namespace Gnostr

universe u v

section Scan

variable {α : Type u}

/-- Elements are changed up to the first one that is not of a kind. -/
def mapWhile (p : α → Bool) (f : α → α) : List α → List α
  | [] => []
  | a :: rest => if p a then f a :: mapWhile p f rest else a :: rest

/-- Where none of a kind follows one of another, the scan changes all of the kind. -/
theorem mapWhile_eq_map {p : α → Bool} (f : α → α) {list : List α}
    (hlist : ∀ a ∈ list.dropWhile p, p a = false) :
    mapWhile p f list = list.map fun a => if p a then f a else a := by
  induction list with
  | nil => rfl
  | cons a rest ih =>
      cases hp : p a with
      | true =>
          rw [List.dropWhile_cons_of_pos hp] at hlist
          simp [mapWhile, hp, ih hlist]
      | false =>
          rw [List.dropWhile_cons_of_neg (by simp [hp])] at hlist
          have hrest : rest.map (fun a => if p a = true then f a else a) = rest := by
            refine (List.map_congr_left fun b hb => ?_).trans (List.map_id rest)
            simp [hlist b (List.mem_cons_of_mem _ hb)]
          simp [mapWhile, hp, hrest]

/-- The scan is over elements with keys, and the kind is one of keys. -/
theorem mapWhile_map {κ : Type v} {p : α → Bool} {q : κ → Bool} (f : α → α) (g : κ → α)
    {keys : List κ} (hkind : ∀ k ∈ keys, p (g k) = q k)
    (hkeys : ∀ k ∈ keys.dropWhile q, q k = false) :
    mapWhile p f (keys.map g) = keys.map fun k => if q k then f (g k) else g k := by
  induction keys with
  | nil => rfl
  | cons k rest ih =>
      have hrest := fun other hother => hkind other (List.mem_cons_of_mem k hother)
      cases hq : q k with
      | true =>
          rw [List.dropWhile_cons_of_pos hq] at hkeys
          simp [mapWhile, hkind k List.mem_cons_self, hq, ih hrest hkeys]
      | false =>
          rw [List.dropWhile_cons_of_neg (by simp [hq])] at hkeys
          have hsame : rest.map (fun k => if q k then f (g k) else g k) = rest.map g := by
            refine List.map_congr_left fun other hother => ?_
            simp [hkeys other (List.mem_cons_of_mem _ hother)]
          simp [mapWhile, hkind k List.mem_cons_self, hq, hsame]

theorem dropWhile_sublist_of_sublist {p : α → Bool} {few all : List α}
    (hsub : few.Sublist all) : (few.dropWhile p).Sublist (all.dropWhile p) := by
  induction hsub with
  | slnil => exact List.Sublist.refl _
  | @cons few all a hsub ih =>
      rw [List.dropWhile_cons]
      split_ifs
      · exact ih
      · exact ((List.dropWhile_sublist p).trans hsub).cons a
  | @cons_cons few all a hsub ih =>
      rw [List.dropWhile_cons, List.dropWhile_cons]
      split_ifs
      · exact ih
      · exact hsub.cons_cons a

end Scan

section Outline

variable {β : Type v} [DecidableEq β]

/-- A path is under another, or is the other. -/
def under (path : List β) (other : List β) : Bool := path.isPrefixOf other

@[simp] theorem under_iff {path other : List β} : under path other = true ↔ path <+: other :=
  List.isPrefixOf_iff_prefix

/-- No path comes before one it is under, and what is under a path follows it directly. -/
def IsOutline : List (List β) → Prop
  | [] => True
  | path :: rest =>
      (∀ other ∈ rest, ¬ other <+: path) ∧
      (∀ other ∈ rest.dropWhile (under path), ¬ path <+: other) ∧ IsOutline rest

theorem IsOutline.sublist {few all : List (List β)} (hall : IsOutline all)
    (hsub : few.Sublist all) : IsOutline few := by
  induction hsub with
  | slnil => exact hall
  | cons a hsub ih => exact ih hall.2.2
  | @cons_cons few all a hsub ih =>
      refine ⟨fun other hother => hall.1 other (hsub.subset hother), ?_, ih hall.2.2⟩
      exact fun other hother =>
        hall.2.1 other ((dropWhile_sublist_of_sublist hsub).subset hother)

theorem IsOutline.nodup {paths : List (List β)} (hpaths : IsOutline paths) :
    paths.Nodup := by
  induction paths with
  | nil => exact List.nodup_nil
  | cons path rest ih =>
      refine List.nodup_cons.mpr ⟨fun hmem => ?_, ih hpaths.2.2⟩
      exact hpaths.1 path hmem List.prefix_rfl

/-- What is under a path is behind it. -/
theorem IsOutline.not_isPrefix {before after : List (List β)} {path : List β}
    (hpaths : IsOutline (before ++ path :: after)) : ∀ other ∈ before, ¬ path <+: other := by
  induction before with
  | nil => exact nofun
  | cons first before ih =>
      intro other hother
      rcases List.mem_cons.mp hother with rfl | hother
      · exact hpaths.1 path (by simp)
      · exact ih hpaths.2.2 other hother

theorem IsOutline.of_append {before after : List (List β)}
    (hpaths : IsOutline (before ++ after)) : IsOutline after :=
  hpaths.sublist (List.sublist_append_right before after)

/-- What lies between a path and one under it is under it. -/
theorem IsOutline.prefix_of_between {path last : List β} {between after : List (List β)}
    (hpaths : IsOutline (path :: (between ++ last :: after))) (hlast : path <+: last) :
    ∀ other ∈ between, path <+: other := by
  intro other hother
  by_contra hnot
  have hdrop : ¬ (between.dropWhile (under path)).isEmpty := by
    rw [List.isEmpty_iff, List.dropWhile_eq_nil_iff]
    exact fun hall => hnot (under_iff.mp (hall other hother))
  refine hpaths.2.1 last ?_ hlast
  rw [List.dropWhile_append, if_neg hdrop]
  simp

/-- With something under it, a path has that right behind it. -/
theorem IsOutline.exists_cons {path last : List β} {rest : List (List β)}
    (hpaths : IsOutline (path :: rest)) (hmem : last ∈ rest) (hlast : path <+: last) :
    ∃ next more, rest = next :: more ∧ path <+: next := by
  obtain ⟨between, after, rfl⟩ := List.append_of_mem hmem
  cases between with
  | nil => exact ⟨last, after, rfl, hlast⟩
  | cons next between =>
      exact ⟨next, between ++ last :: after, rfl,
        hpaths.prefix_of_between hlast next List.mem_cons_self⟩

omit [DecidableEq β] in
/-- Where two paths part, neither is under the other. -/
theorem exists_part {path other : List β} (hpath : ¬ path <+: other)
    (hother : ¬ other <+: path) :
    ∃ common a b, a ≠ b ∧ common ++ [a] <+: path ∧ common ++ [b] <+: other := by
  induction path generalizing other with
  | nil => exact absurd List.nil_prefix hpath
  | cons a path ih =>
      cases other with
      | nil => exact absurd List.nil_prefix hother
      | cons b other =>
          by_cases hab : a = b
          · subst hab
            obtain ⟨common, c, d, hcd, hc, hd⟩ :=
              ih (fun h => hpath (List.cons_prefix_cons.mpr ⟨rfl, h⟩))
                fun h => hother (List.cons_prefix_cons.mpr ⟨rfl, h⟩)
            exact ⟨a :: common, c, d, hcd, List.cons_prefix_cons.mpr ⟨rfl, hc⟩,
              List.cons_prefix_cons.mpr ⟨rfl, hd⟩⟩
          · exact ⟨[], a, b, hab, ⟨path, rfl⟩, ⟨other, rfl⟩⟩

/-- Paths are put behind an outline when every path they go on from is still open: all that
is behind it, old and new, is under it. -/
theorem isOutline_append {first last : List (List β)} (hfirst : IsOutline first)
    (hlast : IsOutline last) (hcross : ∀ path ∈ first, ∀ other ∈ last, ¬ other <+: path)
    (hopen : ∀ before path after, first = before ++ path :: after →
      (∃ other ∈ last, path <+: other) →
      (∀ other ∈ after, path <+: other) ∧ ∀ other ∈ last, path <+: other) :
    IsOutline (first ++ last) := by
  induction first with
  | nil => exact hlast
  | cons path rest ih =>
      rw [List.cons_append]
      refine ⟨?_, ?_, ?_⟩
      · intro other hother
        rcases List.mem_append.mp hother with hother | hother
        · exact hfirst.1 other hother
        · exact hcross path List.mem_cons_self other hother
      · by_cases hunder : ∃ other ∈ last, path <+: other
        · obtain ⟨hrest, hlater⟩ := hopen [] path rest rfl hunder
          have hall : (rest ++ last).dropWhile (under path) = [] := by
            apply List.dropWhile_eq_nil_iff.mpr
            intro other hother
            rcases List.mem_append.mp hother with hother | hother
            · exact under_iff.mpr (hrest other hother)
            · exact under_iff.mpr (hlater other hother)
          rw [hall]
          exact nofun
        · intro other hother hprefixed
          rw [List.dropWhile_append] at hother
          split_ifs at hother
          · exact hunder ⟨other, List.dropWhile_subset _ hother, hprefixed⟩
          · rcases List.mem_append.mp hother with hother | hother
            · exact hfirst.2.1 other hother hprefixed
            · exact hunder ⟨other, hother, hprefixed⟩
      · apply ih hfirst.2.2
        · exact fun other hother => hcross other (List.mem_cons_of_mem _ hother)
        · intro before other after hsplit
          exact hopen (path :: before) other after (congrArg (List.cons path) hsplit)

/-- Longer and longer beginnings of one path. -/
theorem isOutline_of_pairwise {paths : List (List β)} {whole : List β}
    (hprefixed : ∀ path ∈ paths, path <+: whole)
    (hlength : paths.Pairwise fun path other => path.length < other.length) :
    IsOutline paths := by
  induction paths with
  | nil => trivial
  | cons path rest ih =>
      obtain ⟨hhead, htail⟩ := List.pairwise_cons.mp hlength
      have hunder : ∀ other ∈ rest, path <+: other := fun other hother =>
        List.prefix_of_prefix_length_le (hprefixed path List.mem_cons_self)
          (hprefixed other (List.mem_cons_of_mem _ hother)) (hhead other hother).le
      refine ⟨?_, ?_, ih (fun other hother => hprefixed other (List.mem_cons_of_mem _ hother))
        htail⟩
      · intro other hother hle
        exact Nat.not_le.mpr (hhead other hother) hle.length_le
      · have hall : rest.dropWhile (under path) = [] :=
          List.dropWhile_eq_nil_iff.mpr fun other hother => under_iff.mpr (hunder other hother)
        rw [hall]
        exact nofun

end Outline

end Gnostr
