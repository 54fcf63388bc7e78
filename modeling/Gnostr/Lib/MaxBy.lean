/-
The maximum of a list under a comparison, by a scan that keeps the later of
two equal elements.  For an oriented and transitive comparison the result is
above every element, so up to ties it depends on the set of elements only and
grows with it.
-/
import Mathlib.Data.List.Basic

namespace Gnostr

universe u

variable {α : Type u} (cmp : α → α → Ordering)

/-- The greater of two elements, the later one when they compare equal. -/
def laterMax (first last : α) : α :=
  match cmp first last with
  | .gt => first
  | _ => last

def maxBy : List α → Option α
  | [] => none
  | head :: tail => some (tail.foldl (laterMax cmp) head)

theorem laterMax_eq (first last : α) :
    laterMax cmp first last = first ∨ laterMax cmp first last = last := by
  unfold laterMax
  cases cmp first last with
  | lt => exact Or.inr rfl
  | eq => exact Or.inr rfl
  | gt => exact Or.inl rfl

theorem foldl_laterMax_mem (head : α) (tail : List α) :
    tail.foldl (laterMax cmp) head ∈ head :: tail := by
  induction tail generalizing head with
  | nil => exact List.mem_cons_self
  | cons next tail ih =>
      have hmem := ih (laterMax cmp head next)
      rcases List.mem_cons.mp hmem with heq | htail
      · rw [List.foldl_cons, heq]
        rcases laterMax_eq cmp head next with hhead | hnext
        · rw [hhead]
          exact List.mem_cons_self
        · rw [hnext]
          exact List.mem_cons_of_mem head List.mem_cons_self
      · exact List.mem_cons_of_mem head (List.mem_cons_of_mem next htail)

/-- The maximum is one of the elements. -/
theorem mem_of_maxBy_eq_some {xs : List α} {best : α}
    (hbest : maxBy cmp xs = some best) : best ∈ xs := by
  cases xs with
  | nil => cases hbest
  | cons head tail =>
      rw [← Option.some.inj hbest]
      exact foldl_laterMax_mem cmp head tail

theorem exists_maxBy_of_mem {xs : List α} {x : α} (hx : x ∈ xs) :
    ∃ best, maxBy cmp xs = some best := by
  cases xs with
  | nil => cases hx
  | cons head tail => exact ⟨_, rfl⟩

section Trans

variable [Std.TransCmp cmp]

theorem isLE_laterMax_left (first last : α) :
    (cmp first (laterMax cmp first last)).isLE = true := by
  unfold laterMax
  cases hcmp : cmp first last with
  | lt => simp [hcmp]
  | eq => simp [hcmp]
  | gt => exact Std.ReflCmp.isLE_rfl

theorem isLE_laterMax_right (first last : α) :
    (cmp last (laterMax cmp first last)).isLE = true := by
  unfold laterMax
  cases hcmp : cmp first last with
  | lt => exact Std.ReflCmp.isLE_rfl
  | eq => exact Std.ReflCmp.isLE_rfl
  | gt => simp [Std.OrientedCmp.gt_iff_lt.mp hcmp]

theorem isLE_foldl_laterMax (head : α) (tail : List α) :
    ∀ x ∈ head :: tail, (cmp x (tail.foldl (laterMax cmp) head)).isLE = true := by
  induction tail generalizing head with
  | nil =>
      intro x hx
      rw [List.mem_singleton.mp hx]
      exact Std.ReflCmp.isLE_rfl
  | cons next tail ih =>
      intro x hx
      have htop := ih (laterMax cmp head next)
      rcases List.mem_cons.mp hx with rfl | hrest
      · exact Std.TransCmp.isLE_trans (isLE_laterMax_left cmp x next)
          (htop _ List.mem_cons_self)
      · rcases List.mem_cons.mp hrest with rfl | htail
        · exact Std.TransCmp.isLE_trans (isLE_laterMax_right cmp head x)
            (htop _ List.mem_cons_self)
        · exact htop x (List.mem_cons_of_mem _ htail)

/-- No element is above the maximum. -/
theorem isLE_of_maxBy_eq_some {xs : List α} {best x : α}
    (hbest : maxBy cmp xs = some best) (hx : x ∈ xs) :
    (cmp x best).isLE = true := by
  cases xs with
  | nil => cases hbest
  | cons head tail =>
      rw [← Option.some.inj hbest]
      exact isLE_foldl_laterMax cmp head tail x hx

/-- More elements have a maximum that is not below. -/
theorem exists_maxBy_of_subset {xs ys : List α} {best : α}
    (hsubset : xs ⊆ ys) (hbest : maxBy cmp xs = some best) :
    ∃ top, maxBy cmp ys = some top ∧ (cmp best top).isLE = true := by
  have hmem := hsubset (mem_of_maxBy_eq_some cmp hbest)
  obtain ⟨top, htop⟩ := exists_maxBy_of_mem cmp hmem
  exact ⟨top, htop, isLE_of_maxBy_eq_some cmp htop hmem⟩

/-- The same elements in another order have an equally great maximum. -/
theorem maxBy_eq_of_perm {xs ys : List α} {first second : α}
    (hperm : xs.Perm ys) (hfirst : maxBy cmp xs = some first)
    (hsecond : maxBy cmp ys = some second) : cmp first second = .eq := by
  have hup := isLE_of_maxBy_eq_some cmp hsecond
    (hperm.mem_iff.mp (mem_of_maxBy_eq_some cmp hfirst))
  have hdown := isLE_of_maxBy_eq_some cmp hfirst
    (hperm.mem_iff.mpr (mem_of_maxBy_eq_some cmp hsecond))
  exact Std.OrientedCmp.isLE_antisymm hup hdown

/-- A function that does not tell ties apart has one value at the maximum,
whatever the order of the elements. -/
theorem map_maxBy_eq_of_perm {β : Type*} {xs ys : List α} (f : α → β)
    (hperm : xs.Perm ys)
    (hties : ∀ x ∈ xs, ∀ y ∈ xs, cmp x y = .eq → f x = f y) :
    (maxBy cmp xs).map f = (maxBy cmp ys).map f := by
  cases hfirst : maxBy cmp xs with
  | none =>
      cases xs with
      | nil =>
          rw [← hperm.nil_eq]
          rfl
      | cons head tail => cases hfirst
  | some first =>
      have hmem := mem_of_maxBy_eq_some cmp hfirst
      obtain ⟨second, hsecond⟩ :=
        exists_maxBy_of_mem cmp (hperm.mem_iff.mp hmem)
      have hsecondMem :=
        hperm.mem_iff.mpr (mem_of_maxBy_eq_some cmp hsecond)
      rw [hsecond, Option.map_some, Option.map_some,
        hties first hmem second hsecondMem
          (maxBy_eq_of_perm cmp hperm hfirst hsecond)]

end Trans

end Gnostr
