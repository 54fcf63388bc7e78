/-
Object graphs and thin packs.  A pack holds some objects and needs others to be there
when it is installed; a pack that is thin over some objects leaves out what is reachable
from them.  A list of packs is complete for some objects when it can be installed in
order and then everything reachable from them is there.
-/
import Mathlib.Data.Set.Lattice
import Mathlib.Logic.Relation

namespace Gnostr

universe u

variable {α : Type u} (edge : α → α → Prop)

/-- What can be reached from some objects, themselves included. -/
def reachable (sources : Set α) : Set α :=
  { o | ∃ source ∈ sources, Relation.ReflTransGen edge source o }

theorem reachable_mono {sources others : Set α} (hsubset : sources ⊆ others) :
    reachable edge sources ⊆ reachable edge others := by
  rintro o ⟨source, hsource, hreach⟩
  exact ⟨source, hsubset hsource, hreach⟩

theorem reachable_union (sources others : Set α) :
    reachable edge (sources ∪ others) = reachable edge sources ∪ reachable edge others := by
  ext o
  constructor
  · rintro ⟨source, hsource | hother, hreach⟩
    · exact Or.inl ⟨source, hsource, hreach⟩
    · exact Or.inr ⟨source, hother, hreach⟩
  · rintro (hmem | hmem)
    · exact reachable_mono edge Set.subset_union_left hmem
    · exact reachable_mono edge Set.subset_union_right hmem

/-- What is reachable from something reachable is reachable. -/
theorem reachable_reachable_subset (sources : Set α) :
    reachable edge (reachable edge sources) ⊆ reachable edge sources := by
  rintro o ⟨middle, ⟨source, hsource, hfirst⟩, hsecond⟩
  exact ⟨source, hsource, hfirst.trans hsecond⟩

/-- The objects a pack needs to be there, and those it holds. -/
structure Pack (α : Type u) where
  needs : Set α
  holds : Set α

namespace Pack

/-- A pack of everything reachable from the sources but not from what is excluded; all
it needs is reachable from what is excluded. -/
structure Thin (pack : Pack α) (sources excluded : Set α) : Prop where
  holds_eq : pack.holds = reachable edge sources \ reachable edge excluded
  needs_subset : pack.needs ⊆ reachable edge excluded

/-- What some packs hold together. -/
def total (packs : List (Pack α)) : Set α :=
  { o | ∃ pack ∈ packs, o ∈ pack.holds }

/-- The packs can be installed one after the other: each finds what it needs, with all
that is reachable from it. -/
def Installs (present : Set α) : List (Pack α) → Prop
  | [] => True
  | pack :: rest =>
      reachable edge pack.needs ⊆ present ∧ Installs (present ∪ pack.holds) rest

theorem total_append (packs others : List (Pack α)) :
    total (packs ++ others) = total packs ∪ total others := by
  ext o
  constructor
  · rintro ⟨pack, hpack, hmem⟩
    rcases List.mem_append.mp hpack with hpack | hpack
    · exact Or.inl ⟨pack, hpack, hmem⟩
    · exact Or.inr ⟨pack, hpack, hmem⟩
  · rintro (⟨pack, hpack, hmem⟩ | ⟨pack, hpack, hmem⟩)
    · exact ⟨pack, List.mem_append_left _ hpack, hmem⟩
    · exact ⟨pack, List.mem_append_right _ hpack, hmem⟩

@[simp] theorem total_singleton (pack : Pack α) : total [pack] = pack.holds := by
  ext o
  simp [total]

theorem total_cons (pack : Pack α) (packs : List (Pack α)) :
    total (pack :: packs) = pack.holds ∪ total packs := by
  rw [← List.singleton_append, total_append, total_singleton]

/-- One more pack is installed when what it needs is there by then. -/
theorem installs_snoc {present : Set α} {packs : List (Pack α)} {pack : Pack α}
    (hpacks : Installs edge present packs)
    (hneeds : reachable edge pack.needs ⊆ present ∪ total packs) :
    Installs edge present (packs ++ [pack]) := by
  induction packs generalizing present with
  | nil =>
      refine ⟨fun o ho => (hneeds ho).elim id ?_, trivial⟩
      rintro ⟨_, hmem, _⟩
      cases hmem
  | cons first packs ih =>
      rw [total_cons, ← Set.union_assoc] at hneeds
      exact ⟨hpacks.1, ih hpacks.2 hneeds⟩

theorem Installs.mono {present more : Set α} {packs : List (Pack α)}
    (hpacks : Installs edge present packs) (hsubset : present ⊆ more) :
    Installs edge more packs := by
  induction packs generalizing present more with
  | nil => trivial
  | cons first packs ih =>
      exact ⟨hpacks.1.trans hsubset,
        ih hpacks.2 (Set.union_subset_union_left _ hsubset)⟩

/-- The packs can be installed where nothing is, and hold all that is reachable from
the given objects. -/
structure Complete (packs : List (Pack α)) (heads : Set α) : Prop where
  installs : Installs edge ∅ packs
  reachable_subset : reachable edge heads ⊆ total packs

theorem complete_nil : Complete edge [] ∅ where
  installs := trivial
  reachable_subset := by
    rintro o ⟨source, hsource, _⟩
    cases hsource

variable {edge}

/-- Heads that go away leave the packs complete. -/
theorem Complete.mono {packs : List (Pack α)} {heads fewer : Set α}
    (hcomplete : Complete edge packs heads) (hsubset : fewer ⊆ heads) :
    Complete edge packs fewer where
  installs := hcomplete.installs
  reachable_subset := (reachable_mono edge hsubset).trans hcomplete.reachable_subset

/-- A pack that is thin over the heads keeps the packs complete, for any heads among
the old ones and its sources. -/
theorem Complete.snoc {packs : List (Pack α)} {pack : Pack α}
    {heads sources next : Set α} (hcomplete : Complete edge packs heads)
    (hthin : pack.Thin edge sources heads) (hnext : next ⊆ heads ∪ sources) :
    Complete edge (packs ++ [pack]) next where
  installs := by
    apply installs_snoc edge hcomplete.installs
    have hneeds : reachable edge pack.needs ⊆ reachable edge heads :=
      (reachable_mono edge hthin.needs_subset).trans (reachable_reachable_subset edge heads)
    exact (hneeds.trans hcomplete.reachable_subset).trans Set.subset_union_right
  reachable_subset := by
    rw [total_append, total_singleton, hthin.holds_eq]
    intro o ho
    have hmem := reachable_mono edge hnext ho
    rw [reachable_union] at hmem
    by_cases hold : o ∈ reachable edge heads
    · exact Or.inl (hcomplete.reachable_subset hold)
    · exact Or.inr ⟨hmem.resolve_left hold, hold⟩

end Pack

end Gnostr
