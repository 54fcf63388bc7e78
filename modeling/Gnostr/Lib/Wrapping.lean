/-
Lists with elements of a class around them or in front of them, and the operations that
take these off.  What is left lies in a set that is closed under taking more off exactly
when the list lies in the set wrapped.
-/
import Mathlib.Data.List.DropRight

namespace Gnostr

variable {α : Type*}

/-- A list of the set, with elements of the class before and behind it. -/
inductive Wrapped (p : α → Bool) (Inner : List α → Prop) : List α → Prop
  | bare {list : List α} : Inner list → Wrapped p Inner list
  | left {a : α} {list : List α} : p a = true → Wrapped p Inner list →
      Wrapped p Inner (a :: list)
  | right {a : α} {list : List α} : p a = true → Wrapped p Inner list →
      Wrapped p Inner (list ++ [a])

/-- A list of the set, with elements of the class before it. -/
inductive Led (p : α → Bool) (Inner : List α → Prop) : List α → Prop
  | bare {list : List α} : Inner list → Led p Inner list
  | left {a : α} {list : List α} : p a = true → Led p Inner list → Led p Inner (a :: list)

/-- A list of the set, with repetitions of a pair before it. -/
inductive LedByPair (first second : α) (Inner : List α → Prop) : List α → Prop
  | bare {list : List α} : Inner list → LedByPair first second Inner list
  | pair {list : List α} : LedByPair first second Inner list →
      LedByPair first second Inner (first :: second :: list)

/-- `trim_matches` with the class. -/
def trimMatches (p : α → Bool) (list : List α) : List α := (list.dropWhile p).rdropWhile p

/-- `trim_start_matches` with the pair. -/
def trimStartPair [DecidableEq α] (first second : α) : List α → List α
  | a :: b :: list =>
      if a = first ∧ b = second then trimStartPair first second list else a :: b :: list
  | list => list

/-- The set is closed under taking off a first element of the class. -/
def ClosedLeft (p : α → Bool) (Inner : List α → Prop) : Prop :=
  ∀ ⦃a : α⦄ ⦃list : List α⦄, p a = true → Inner (a :: list) → Inner list

/-- The set is closed under taking off a last element of the class. -/
def ClosedRight (p : α → Bool) (Inner : List α → Prop) : Prop :=
  ∀ ⦃a : α⦄ ⦃list : List α⦄, p a = true → Inner (list ++ [a]) → Inner list

section Closed

variable {p q : α → Bool} {first second : α} {Inner : List α → Prop} {list : List α}

theorem ClosedLeft.mono (hclosed : ClosedLeft q Inner) (himp : ∀ a, p a = true → q a = true) :
    ClosedLeft p Inner :=
  fun a _ ha hlist => hclosed (himp a ha) hlist

theorem ClosedRight.mono (hclosed : ClosedRight q Inner)
    (himp : ∀ a, p a = true → q a = true) : ClosedRight p Inner :=
  fun a _ ha hlist => hclosed (himp a ha) hlist

theorem ClosedLeft.dropWhile (hclosed : ClosedLeft p Inner) (hlist : Inner list) :
    Inner (list.dropWhile p) := by
  induction list with
  | nil => exact hlist
  | cons a list ih =>
      by_cases ha : p a = true
      · rw [List.dropWhile_cons_of_pos ha]
        exact ih (hclosed ha hlist)
      · rw [List.dropWhile_cons_of_neg ha]
        exact hlist

theorem ClosedRight.rdropWhile (hclosed : ClosedRight p Inner) (hlist : Inner list) :
    Inner (list.rdropWhile p) := by
  induction list using List.reverseRecOn with
  | nil => exact hlist
  | append_singleton list a ih =>
      by_cases ha : p a = true
      · rw [List.rdropWhile_concat_pos p list a ha]
        exact ih (hclosed ha hlist)
      · rw [List.rdropWhile_concat_neg p list a ha]
        exact hlist

theorem Wrapped.closedLeft (hclosed : ClosedLeft p Inner) :
    ClosedLeft p (Wrapped q Inner) := by
  intro a list ha hlist
  generalize hwhole : a :: list = whole at hlist
  induction hlist generalizing list with
  | bare hinner =>
      rw [← hwhole] at hinner
      exact .bare (hclosed ha hinner)
  | left hb hrest ih =>
      obtain ⟨-, rfl⟩ := List.cons_eq_cons.mp hwhole
      exact hrest
  | @right b rest hb hrest ih =>
      cases rest with
      | nil =>
          obtain ⟨-, rfl⟩ := List.cons_eq_cons.mp hwhole
          exact hrest
      | cons c rest =>
          obtain ⟨rfl, rfl⟩ := List.cons_eq_cons.mp hwhole
          exact .right hb (ih rfl)

theorem Wrapped.closedRight (hclosed : ClosedRight p Inner) :
    ClosedRight p (Wrapped q Inner) := by
  intro a list ha hlist
  generalize hwhole : list ++ [a] = whole at hlist
  induction hlist generalizing list with
  | bare hinner =>
      rw [← hwhole] at hinner
      exact .bare (hclosed ha hinner)
  | @left b rest hb hrest ih =>
      cases list with
      | nil =>
          obtain ⟨-, rfl⟩ := List.cons_eq_cons.mp hwhole
          exact hrest
      | cons c list =>
          obtain ⟨rfl, rfl⟩ := List.cons_eq_cons.mp hwhole
          exact .left hb (ih rfl)
  | right hb hrest ih =>
      obtain ⟨rfl, -⟩ := List.append_inj' hwhole rfl
      exact hrest

theorem Led.closedLeft (hclosed : ClosedLeft p Inner) : ClosedLeft p (Led q Inner) := by
  intro a list ha hlist
  cases hlist with
  | bare hinner => exact .bare (hclosed ha hinner)
  | left hb hrest => exact hrest

theorem Led.closedRight (hclosed : ClosedRight p Inner) : ClosedRight p (Led q Inner) := by
  intro a list ha hlist
  generalize hwhole : list ++ [a] = whole at hlist
  induction hlist generalizing list with
  | bare hinner =>
      rw [← hwhole] at hinner
      exact .bare (hclosed ha hinner)
  | @left b rest hb hrest ih =>
      cases list with
      | nil =>
          obtain ⟨-, rfl⟩ := List.cons_eq_cons.mp hwhole
          exact hrest
      | cons c list =>
          obtain ⟨rfl, rfl⟩ := List.cons_eq_cons.mp hwhole
          exact .left hb (ih rfl)

theorem LedByPair.closedLeft (hfirst : p first = false) (hclosed : ClosedLeft p Inner) :
    ClosedLeft p (LedByPair first second Inner) := by
  intro a list ha hlist
  cases hlist with
  | bare hinner => exact .bare (hclosed ha hinner)
  | pair hrest =>
      rw [hfirst] at ha
      cases ha

/-- Of a pair that was broken the first element is left. -/
theorem LedByPair.closedRight (hbroken : Inner [first]) (hclosed : ClosedRight p Inner) :
    ClosedRight p (LedByPair first second Inner) := by
  intro a list ha hlist
  generalize hwhole : list ++ [a] = whole at hlist
  induction hlist generalizing list with
  | bare hinner =>
      rw [← hwhole] at hinner
      exact .bare (hclosed ha hinner)
  | @pair rest hrest ih =>
      rcases list with - | ⟨b, - | ⟨c, list⟩⟩
      · cases hwhole
      · cases hwhole
        exact .bare hbroken
      · obtain ⟨hb, hwhole⟩ := List.cons_eq_cons.mp hwhole
        obtain ⟨hc, hwhole⟩ := List.cons_eq_cons.mp hwhole
        rw [hb, hc]
        exact .pair (ih hwhole)

end Closed

section Trim

variable {p : α → Bool} {Inner : List α → Prop} {list : List α}

theorem trimMatches_cons {a : α} (ha : p a = true) (list : List α) :
    trimMatches p (a :: list) = trimMatches p list := by
  rw [trimMatches, List.dropWhile_cons_of_pos ha, trimMatches]

theorem trimMatches_concat {a : α} (ha : p a = true) (list : List α) :
    trimMatches p (list ++ [a]) = trimMatches p list := by
  unfold trimMatches
  rw [List.dropWhile_append]
  split_ifs with hempty
  · rw [List.isEmpty_iff.mp hempty, List.dropWhile_cons_of_pos ha, List.dropWhile_nil]
  · exact List.rdropWhile_concat_pos p _ a ha

theorem wrapped_of_trimMatches (htrim : Inner (trimMatches p list)) :
    Wrapped p Inner list := by
  have hright : ∀ rest : List α, Inner (rest.rdropWhile p) → Wrapped p Inner rest := by
    intro rest
    induction rest using List.reverseRecOn with
    | nil => exact .bare
    | append_singleton rest a ih =>
        by_cases ha : p a = true
        · rw [List.rdropWhile_concat_pos p rest a ha]
          exact fun hrest => .right ha (ih hrest)
        · rw [List.rdropWhile_concat_neg p rest a ha]
          exact .bare
  unfold trimMatches at htrim
  induction list with
  | nil => exact hright [] htrim
  | cons a list ih =>
      by_cases ha : p a = true
      · rw [List.dropWhile_cons_of_pos ha] at htrim
        exact .left ha (ih htrim)
      · rw [List.dropWhile_cons_of_neg ha] at htrim
        exact hright _ htrim

theorem wrapped_iff (hleft : ClosedLeft p Inner) (hright : ClosedRight p Inner) :
    Wrapped p Inner list ↔ Inner (trimMatches p list) := by
  refine ⟨fun hlist => ?_, wrapped_of_trimMatches⟩
  induction hlist with
  | bare hinner => exact hright.rdropWhile (hleft.dropWhile hinner)
  | left ha _ ih =>
      rw [trimMatches_cons ha]
      exact ih
  | right ha _ ih =>
      rw [trimMatches_concat ha]
      exact ih

theorem led_iff (hleft : ClosedLeft p Inner) : Led p Inner list ↔ Inner (list.dropWhile p) := by
  constructor
  · intro hlist
    induction hlist with
    | bare hinner => exact hleft.dropWhile hinner
    | left ha _ ih =>
        rw [List.dropWhile_cons_of_pos ha]
        exact ih
  · intro hdrop
    induction list with
    | nil => exact .bare hdrop
    | cons a list ih =>
        by_cases ha : p a = true
        · rw [List.dropWhile_cons_of_pos ha] at hdrop
          exact .left ha (ih hdrop)
        · rw [List.dropWhile_cons_of_neg ha] at hdrop
          exact .bare hdrop

variable [DecidableEq α] {first second : α}

theorem ClosedLeft.inner_trimStartPair (hleft : ClosedLeft p Inner) (hfirst : p first = true)
    (hsecond : p second = true) (hlist : Inner list) :
    Inner (trimStartPair first second list) := by
  induction list using trimStartPair.induct first second with
  | case1 a b list hpair ih =>
      obtain ⟨rfl, rfl⟩ := hpair
      rw [trimStartPair, if_pos ⟨rfl, rfl⟩]
      exact ih (hleft hsecond (hleft hfirst hlist))
  | case2 a b list hpair =>
      rw [trimStartPair, if_neg hpair]
      exact hlist
  | case3 list hshort =>
      rw [trimStartPair]
      · exact hlist
      · exact hshort

theorem ledByPair_iff (hleft : ClosedLeft p Inner) (hfirst : p first = true)
    (hsecond : p second = true) :
    LedByPair first second Inner list ↔ Inner (trimStartPair first second list) := by
  constructor
  · intro hlist
    induction hlist with
    | bare hinner => exact hleft.inner_trimStartPair hfirst hsecond hinner
    | pair _ ih =>
        rw [trimStartPair, if_pos ⟨rfl, rfl⟩]
        exact ih
  · intro htrim
    induction list using trimStartPair.induct first second with
    | case1 a b list hpair ih =>
        obtain ⟨rfl, rfl⟩ := hpair
        rw [trimStartPair, if_pos ⟨rfl, rfl⟩] at htrim
        exact .pair (ih htrim)
    | case2 a b list hpair =>
        rw [trimStartPair, if_neg hpair] at htrim
        exact .bare htrim
    | case3 list hshort =>
        rw [trimStartPair] at htrim
        · exact .bare htrim
        · exact hshort

end Trim

section Sublist

variable {p : α → Bool}

theorem trimMatches_sublist (list : List α) : (trimMatches p list).Sublist list :=
  (List.rdropWhile_prefix p _).sublist.trans (List.dropWhile_sublist p)

theorem trimStartPair_sublist [DecidableEq α] (first second : α) (list : List α) :
    (trimStartPair first second list).Sublist list := by
  induction list using trimStartPair.induct first second with
  | case1 a b list hpair ih =>
      rw [trimStartPair, if_pos hpair]
      exact (ih.cons b).cons a
  | case2 a b list hpair =>
      rw [trimStartPair, if_neg hpair]
  | case3 list hshort =>
      rw [trimStartPair]
      exact hshort

/-- Two operations that only take off leave a list together when each of them does. -/
theorem comp_eq_self_iff {f g : List α → List α} (hf : ∀ list, (f list).Sublist list)
    (hg : ∀ list, (g list).Sublist list) (list : List α) :
    g (f list) = list ↔ f list = list ∧ g list = list := by
  constructor
  · intro hboth
    have hsub := hg (f list)
    rw [hboth] at hsub
    have hfirst := (hf list).antisymm hsub
    rw [hfirst] at hboth
    exact ⟨hfirst, hboth⟩
  · rintro ⟨hfirst, hsecond⟩
    rw [hfirst, hsecond]

theorem trimStartPair_of_head?_ne [DecidableEq α] {first second : α} {list : List α}
    (hhead : list.head? ≠ some first) : trimStartPair first second list = list := by
  rcases list with - | ⟨a, - | ⟨b, list⟩⟩
  · rfl
  · rfl
  · refine if_neg fun hpair => hhead ?_
    rw [List.head?_cons, hpair.1]

theorem dropWhile_eq_self_iff_head? {list : List α} :
    list.dropWhile p = list ↔ ∀ a ∈ list.head?, p a = false := by
  cases list with
  | nil => exact iff_of_true rfl fun _ hnone => by cases hnone
  | cons a list =>
      have hhead : (∀ b ∈ (a :: list).head?, p b = false) ↔ p a = false := by simp
      rw [hhead]
      by_cases ha : p a = true
      · rw [List.dropWhile_cons_of_pos ha, ha]
        refine iff_of_false (fun hsame => ?_) (Ne.symm Bool.false_ne_true)
        have hle := (List.dropWhile_sublist p (l := list)).length_le
        rw [hsame, List.length_cons] at hle
        exact absurd hle (Nat.not_succ_le_self _)
      · rw [List.dropWhile_cons_of_neg ha]
        exact iff_of_true rfl (eq_false_of_ne_true ha)

theorem rdropWhile_eq_self_iff_getLast? {list : List α} :
    list.rdropWhile p = list ↔ ∀ a ∈ list.getLast?, p a = false := by
  rw [List.rdropWhile, List.reverse_eq_iff, dropWhile_eq_self_iff_head?, List.head?_reverse]

/-- Nothing is taken off a list that has no element of the class at its ends. -/
theorem trimMatches_eq_self_iff {list : List α} :
    trimMatches p list = list ↔
      (∀ a ∈ list.head?, p a = false) ∧ ∀ a ∈ list.getLast?, p a = false := by
  rw [← dropWhile_eq_self_iff_head?, ← rdropWhile_eq_self_iff_getLast?]
  constructor
  · intro htrim
    have hright := (List.rdropWhile_prefix p (list.dropWhile p)).sublist
    have hleft : list.dropWhile p = list := by
      have hwhole : list.Sublist (list.dropWhile p) := by
        rw [trimMatches] at htrim
        rwa [htrim] at hright
      exact (List.dropWhile_sublist p).antisymm hwhole
    refine ⟨hleft, ?_⟩
    rwa [trimMatches, hleft] at htrim
  · rintro ⟨hleft, hright⟩
    rw [trimMatches, hleft, hright]

end Sublist

end Gnostr
