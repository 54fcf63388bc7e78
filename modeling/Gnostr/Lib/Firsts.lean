/-
The first element of each key, as a loop with a set of seen keys keeps them; elements that
are added to a list that does not hold them yet; the first element that passes a test,
changed in place.
-/
import Mathlib.Data.Finset.Insert
import Mathlib.Data.List.Dedup
import Mathlib.Data.List.Nodup

namespace Gnostr

universe u v

variable {α : Type u} {κ : Type v} (key : α → κ)

/-- No element of the same key stands before this one. -/
def IsFirst (list : List α) (a : α) : Prop :=
  ∃ before after, list = before ++ a :: after ∧ ∀ b ∈ before, key b ≠ key a

/-- The keys that were seen, and the elements that were kept. -/
structure Firsts (α : Type u) (κ : Type v) where
  seen : Finset κ
  kept : List α

/-- `if seen.insert(key) { kept.push(a) }`. -/
def Firsts.push [DecidableEq κ] (firsts : Firsts α κ) (a : α) : Firsts α κ :=
  if key a ∈ firsts.seen then firsts
  else ⟨insert (key a) firsts.seen, firsts.kept ++ [a]⟩

section IsFirst

variable {key}

theorem IsFirst.mem {list : List α} {a : α} (hfirst : IsFirst key list a) : a ∈ list := by
  obtain ⟨before, after, rfl, -⟩ := hfirst
  exact List.mem_append_right before List.mem_cons_self

theorem not_isFirst_nil (a : α) : ¬ IsFirst key [] a :=
  fun hfirst => List.not_mem_nil hfirst.mem

/-- What comes last is first only if its key is new. -/
theorem isFirst_append_singleton_iff {list : List α} {last a : α} :
    IsFirst key (list ++ [last]) a ↔
      IsFirst key list a ∨ a = last ∧ ∀ b ∈ list, key b ≠ key last := by
  constructor
  · rintro ⟨before, after, hlist, hnew⟩
    rcases List.eq_nil_or_concat after with rfl | ⟨after, other, rfl⟩
    · obtain ⟨rfl, hlast⟩ := List.append_inj' hlist rfl
      obtain rfl := (List.cons.inj hlast).1
      exact .inr ⟨rfl, hnew⟩
    · refine .inl ⟨before, after, ?_, hnew⟩
      rw [List.concat_eq_append, ← List.cons_append, ← List.append_assoc] at hlist
      exact (List.append_inj' hlist rfl).1
  · rintro (⟨before, after, rfl, hnew⟩ | ⟨rfl, hnew⟩)
    · exact ⟨before, after ++ [last], by rw [List.append_assoc, List.cons_append], hnew⟩
    · exact ⟨list, [], rfl, hnew⟩

end IsFirst

section Kept

variable {key}

/-- The state of the loop after a list. -/
structure Firsts.Holds (key : α → κ) (firsts : Firsts α κ) (list : List α) : Prop where
  seen : ∀ k, k ∈ firsts.seen ↔ ∃ b ∈ list, key b = k
  kept : ∀ a, a ∈ firsts.kept ↔ IsFirst key list a

theorem Firsts.holds_nil : Firsts.Holds key ⟨∅, []⟩ [] where
  seen _ := iff_of_false (Finset.notMem_empty _) fun ⟨_, hb, _⟩ => List.not_mem_nil hb
  kept a := iff_of_false List.not_mem_nil (not_isFirst_nil a)

variable [DecidableEq κ]

theorem Firsts.Holds.push {firsts : Firsts α κ} {list : List α}
    (hholds : firsts.Holds key list) (last : α) :
    (firsts.push key last).Holds key (list ++ [last]) := by
  unfold Firsts.push
  split_ifs with hseen
  · obtain ⟨b, hb, hkey⟩ := (hholds.seen (key last)).mp hseen
    constructor
    · intro k
      rw [hholds.seen]
      constructor
      · rintro ⟨c, hc, hk⟩
        exact ⟨c, List.mem_append_left _ hc, hk⟩
      · rintro ⟨c, hc, hk⟩
        rcases List.mem_append.mp hc with hc | hc
        · exact ⟨c, hc, hk⟩
        · rw [List.mem_singleton.mp hc] at hk
          exact ⟨b, hb, hkey.trans hk⟩
    · intro a
      rw [hholds.kept, isFirst_append_singleton_iff]
      exact (or_iff_left fun hlast => hlast.2 b hb hkey).symm
  · constructor
    · intro k
      rw [Finset.mem_insert, hholds.seen]
      constructor
      · rintro (rfl | ⟨c, hc, hk⟩)
        · exact ⟨last, List.mem_append_right _ (List.mem_singleton_self _), rfl⟩
        · exact ⟨c, List.mem_append_left _ hc, hk⟩
      · rintro ⟨c, hc, hk⟩
        rcases List.mem_append.mp hc with hc | hc
        · exact .inr ⟨c, hc, hk⟩
        · rw [List.mem_singleton.mp hc] at hk
          exact .inl hk.symm
    · intro a
      have hnew : ∀ b ∈ list, key b ≠ key last :=
        fun b hb hkey => hseen ((hholds.seen _).mpr ⟨b, hb, hkey⟩)
      rw [List.mem_append, List.mem_singleton, hholds.kept, isFirst_append_singleton_iff]
      exact or_congr_right (and_iff_left hnew).symm

theorem Firsts.Holds.foldl {firsts : Firsts α κ} {list : List α}
    (hholds : firsts.Holds key list) (more : List α) :
    (more.foldl (Firsts.push key) firsts).Holds key (list ++ more) := by
  induction more generalizing firsts list with
  | nil =>
      rw [List.append_nil]
      exact hholds
  | cons next more ih =>
      have hrest := ih (hholds.push next)
      rw [List.append_assoc, List.singleton_append] at hrest
      exact hrest

/-- The keys of what is kept are seen and differ from each other. -/
theorem Firsts.nodup_push {firsts : Firsts α κ} (hnodup : (firsts.kept.map key).Nodup)
    (hseen : ∀ a ∈ firsts.kept, key a ∈ firsts.seen) (last : α) :
    ((firsts.push key last).kept.map key).Nodup ∧
      ∀ a ∈ (firsts.push key last).kept, key a ∈ (firsts.push key last).seen := by
  unfold Firsts.push
  split_ifs with hlast
  · exact ⟨hnodup, hseen⟩
  · constructor
    · rw [List.map_append, List.map_singleton, ← List.concat_eq_append]
      refine hnodup.concat fun hmem => hlast ?_
      obtain ⟨a, ha, hkey⟩ := List.mem_map.mp hmem
      exact hkey ▸ hseen a ha
    · intro a ha
      rcases List.mem_append.mp ha with ha | ha
      · exact Finset.mem_insert_of_mem (hseen a ha)
      · rw [List.mem_singleton.mp ha]
        exact Finset.mem_insert_self _ _

theorem Firsts.nodup_foldl_push {firsts : Firsts α κ}
    (hnodup : (firsts.kept.map key).Nodup)
    (hseen : ∀ a ∈ firsts.kept, key a ∈ firsts.seen) (more : List α) :
    ((more.foldl (Firsts.push key) firsts).kept.map key).Nodup := by
  induction more generalizing firsts with
  | nil => exact hnodup
  | cons next more ih =>
      obtain ⟨hnodup, hseen⟩ := Firsts.nodup_push hnodup hseen next
      exact ih hnodup hseen

end Kept

section UpdateFirst

/-- `if let Some(a) = list.iter_mut().find(p) { *a = f(a) }`, and nothing where no element
passes the test. -/
def updateFirst (p : α → Bool) (f : α → α) : List α → Option (List α)
  | [] => none
  | a :: rest => if p a then some (f a :: rest) else (updateFirst p f rest).map (a :: ·)

variable {p : α → Bool} {f : α → α}

theorem updateFirst_eq_none_iff {list : List α} :
    updateFirst p f list = none ↔ ∀ a ∈ list, p a = false := by
  induction list with
  | nil => simp [updateFirst]
  | cons a rest ih =>
      rw [updateFirst, List.forall_mem_cons]
      by_cases ha : p a = true
      · rw [if_pos ha]
        exact iff_of_false nofun fun hall => by simp [ha] at hall
      · rw [if_neg ha, Option.map_eq_none_iff, ih]
        exact (and_iff_right (Bool.eq_false_of_not_eq_true ha)).symm

theorem exists_of_updateFirst_eq_some {list updated : List α}
    (hupdated : updateFirst p f list = some updated) :
    ∃ before a after, list = before ++ a :: after ∧ p a = true ∧
      updated = before ++ f a :: after := by
  induction list generalizing updated with
  | nil => cases hupdated
  | cons a rest ih =>
      rw [updateFirst] at hupdated
      split_ifs at hupdated with ha
      · exact ⟨[], a, rest, rfl, ha, (Option.some.inj hupdated).symm⟩
      · obtain ⟨rest', hrest, rfl⟩ := Option.map_eq_some_iff.mp hupdated
        obtain ⟨before, b, after, rfl, hb, rfl⟩ := ih hrest
        exact ⟨a :: before, b, after, rfl, hb, rfl⟩

end UpdateFirst

section PushNew

variable [DecidableEq α]

/-- `if !list.contains(&a) { list.push(a) }`. -/
def pushNew (list : List α) (a : α) : List α := if a ∈ list then list else list ++ [a]

theorem nodup_pushNew {list : List α} (hlist : list.Nodup) (a : α) :
    (pushNew list a).Nodup := by
  unfold pushNew
  split_ifs with hmem
  · exact hlist
  · rw [← List.concat_eq_append]
    exact hlist.concat hmem

theorem nodup_foldl_pushNew {list : List α} (hlist : list.Nodup) (more : List α) :
    (more.foldl pushNew list).Nodup := by
  induction more generalizing list with
  | nil => exact hlist
  | cons a more ih => exact ih (nodup_pushNew hlist a)

@[simp] theorem mem_foldl_pushNew {list more : List α} {a : α} :
    a ∈ more.foldl pushNew list ↔ a ∈ list ∨ a ∈ more := by
  induction more generalizing list with
  | nil => simp
  | cons b more ih =>
      rw [List.foldl_cons, ih, pushNew]
      split_ifs with hmem
      · rw [List.mem_cons]
        constructor
        · exact Or.imp_right .inr
        · rintro (ha | rfl | ha)
          · exact .inl ha
          · exact .inl hmem
          · exact .inr ha
      · rw [List.mem_append, List.mem_singleton, List.mem_cons, or_assoc]

/-- What is added, of elements that differ from each other. -/
theorem foldl_pushNew {more : List α} (hmore : more.Nodup) (list : List α) :
    more.foldl pushNew list = list ++ more.filter (· ∉ list) := by
  induction more generalizing list with
  | nil => rw [List.foldl_nil, List.filter_nil, List.append_nil]
  | cons a more ih =>
      obtain ⟨ha, hmore⟩ := List.nodup_cons.mp hmore
      rw [List.foldl_cons, ih hmore]
      by_cases hmem : a ∈ list
      · rw [pushNew, if_pos hmem, List.filter_cons_of_neg (by simpa using hmem)]
      · have hother : more.filter (· ∉ list ++ [a]) = more.filter (· ∉ list) := by
          refine List.filter_congr fun b hb => ?_
          have hne : b ≠ a := fun heq => ha (heq ▸ hb)
          simp [hne]
        rw [pushNew, if_neg hmem, hother, List.filter_cons_of_pos (by simpa using hmem),
          List.append_assoc, List.singleton_append]

/-- `if !list.contains(&a) { list.insert(0, a) }`. -/
def pushFront (a : α) (list : List α) : List α := if a ∈ list then list else a :: list

/-- What comes to stand in front of a list: each new element at its last occurrence. -/
theorem foldr_pushFront (more list : List α) :
    more.foldr pushFront list = (more.filter (· ∉ list)).dedup ++ list := by
  induction more with
  | nil => simp
  | cons a more ih =>
      rw [List.foldr_cons, ih]
      by_cases hlist : a ∈ list
      · simp [pushFront, hlist]
      · by_cases hmore : a ∈ more
        · simp [pushFront, hlist, hmore]
        · simp [pushFront, hlist, hmore]

end PushNew

end Gnostr
