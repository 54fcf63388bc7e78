/-
Hash maps as finite maps: iteration over the entries in an order left to the
implementation, and collecting entries into a map, the last one of a key winning.
-/
import Gnostr.Lib.IterOrder
import Mathlib.Data.Finmap

namespace Gnostr

universe u

variable {α β : Type u} [DecidableEq α]

/-- `map.iter()`. -/
def iterEntries (order : IterOrder α) (map : Finmap fun _ : α => β) : List (α × β) :=
  (order.list map.keys).filterMap fun key =>
    (map.lookup key).map fun value => (key, value)

/-- Insert entries one by one. -/
def insertEntries (map : Finmap fun _ : α => β) (entries : List (α × β)) :
    Finmap fun _ : α => β :=
  entries.foldl (fun map entry => map.insert entry.1 entry.2) map

@[simp] theorem mem_iterEntries {order : IterOrder α} {map : Finmap fun _ : α => β}
    {key : α} {value : β} :
    (key, value) ∈ iterEntries order map ↔ map.lookup key = some value := by
  simp only [iterEntries, List.mem_filterMap, order.mem_list, Finmap.mem_keys,
    Option.map_eq_some_iff, Prod.mk.injEq]
  constructor
  · rintro ⟨_, _, _, hlookup, rfl, rfl⟩
    exact hlookup
  · intro hlookup
    exact ⟨key, Finmap.mem_of_lookup_eq_some hlookup, value, hlookup, rfl, rfl⟩

/-- What a map holds after entries that agree on the values of their keys. -/
theorem lookup_insertEntries (lookup : α → Option β) {entries : List (α × β)}
    (hentries : ∀ entry ∈ entries, lookup entry.1 = some entry.2)
    (map : Finmap fun _ : α => β) (key : α) :
    (insertEntries map entries).lookup key =
      if key ∈ entries.map Prod.fst then lookup key else map.lookup key := by
  unfold insertEntries
  induction entries generalizing map with
  | nil => simp
  | cons first entries ih =>
      obtain ⟨hfirst, hrest⟩ := List.forall_mem_cons.mp hentries
      rw [List.foldl_cons, ih hrest, List.map_cons]
      by_cases hmem : key ∈ entries.map Prod.fst
      · rw [if_pos hmem, if_pos (List.mem_cons_of_mem _ hmem)]
      · rw [if_neg hmem]
        by_cases hkey : key = first.1
        · rw [hkey, Finmap.lookup_insert, if_pos List.mem_cons_self, hfirst]
        · rw [Finmap.lookup_insert_of_ne _ hkey, if_neg]
          simp [hkey, hmem]

theorem mem_insertEntries {map : Finmap fun _ : α => β} {entries : List (α × β)}
    {key : α} :
    key ∈ insertEntries map entries ↔
      key ∈ map ∨ ∃ value, (key, value) ∈ entries := by
  unfold insertEntries
  induction entries generalizing map with
  | nil => simp
  | cons first entries ih =>
      rw [List.foldl_cons, ih, Finmap.mem_insert]
      obtain ⟨name, value⟩ := first
      simp only [List.mem_cons, Prod.mk.injEq, exists_or, exists_and_left,
        exists_eq, and_true]
      tauto

/-- Collecting the entries of a map gives the map. -/
@[simp] theorem insertEntries_iterEntries (order : IterOrder α)
    (map : Finmap fun _ : α => β) : insertEntries ∅ (iterEntries order map) = map := by
  apply Finmap.ext_lookup
  intro key
  have hentries : ∀ entry ∈ iterEntries order map,
      map.lookup entry.1 = some entry.2 := fun entry hentry => mem_iterEntries.mp hentry
  have hmem : key ∈ (iterEntries order map).map Prod.fst ↔ key ∈ map := by
    rw [List.mem_map, Finmap.mem_iff]
    constructor
    · rintro ⟨entry, hentry, rfl⟩
      exact ⟨entry.2, mem_iterEntries.mp hentry⟩
    · rintro ⟨value, hvalue⟩
      exact ⟨(key, value), mem_iterEntries.mpr hvalue, rfl⟩
  rw [lookup_insertEntries (fun key => map.lookup key) hentries, Finmap.lookup_empty]
  split_ifs with hkey
  · rfl
  · rw [hmem] at hkey
    exact (Finmap.lookup_eq_none.mpr hkey).symm

end Gnostr
