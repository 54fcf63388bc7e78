/-
Best-first traversal of a directed graph.  A queue gives out one of its greatest elements,
whichever it likes; the successors of what it gives out enter the queue when they are seen
for the first time.  The source itself is not marked as seen, so no element may lead back
to it.
-/
import Mathlib.Data.List.MinMax
import Mathlib.Data.List.Perm.Subperm
import Mathlib.Logic.Relation
import Mathlib.Order.Defs.LinearOrder

namespace Gnostr

universe u v

/-- A queue that gives out a greatest element, of several any one. -/
structure MaxQueue (α : Type u) {τ : Type v} [LE τ] (key : α → τ) where
  pop : List α → Option (α × List α)
  perm : ∀ {queue rest : List α} {first : α}, pop queue = some (first, rest) →
    queue.Perm (first :: rest)
  le : ∀ {queue rest : List α} {first : α}, pop queue = some (first, rest) →
    ∀ other ∈ rest, key other ≤ key first
  eq_nil : ∀ {queue : List α}, pop queue = none → queue = []

namespace MaxQueue

variable {α : Type u} {τ : Type v} [LE τ] {key : α → τ} (heap : MaxQueue α key)

@[simp] theorem pop_nil : heap.pop [] = none := by
  cases hpop : heap.pop [] with
  | none => rfl
  | some found => exact absurd (heap.perm hpop) (List.not_perm_nil_cons _ _)

/-- The queue that gives out the first of its greatest elements. -/
def first [DecidableEq α] {τ : Type v} [LinearOrder τ] (key : α → τ) : MaxQueue α key where
  pop queue := (queue.argmax key).map fun c => (c, queue.erase c)
  perm := by
    intro queue rest first hpop
    obtain ⟨c, hc, heq⟩ := Option.map_eq_some_iff.mp hpop
    obtain ⟨rfl, rfl⟩ := Prod.mk.inj heq
    exact List.perm_cons_erase (List.argmax_mem hc)
  le := by
    intro queue rest first hpop other hother
    obtain ⟨c, hc, heq⟩ := Option.map_eq_some_iff.mp hpop
    obtain ⟨rfl, rfl⟩ := Prod.mk.inj heq
    exact List.le_of_mem_argmax (List.mem_of_mem_erase hother) hc
  eq_nil := by
    intro queue hpop
    simpa using hpop

end MaxQueue

/-- What waits, and what was seen. -/
structure Frontier (α : Type u) where
  queue : List α
  visited : List α
deriving Repr, DecidableEq

namespace Frontier

variable {α : Type u} [DecidableEq α]

def visit (s : Frontier α) (c : α) : Frontier α :=
  if c ∈ s.visited then s else ⟨s.queue ++ [c], c :: s.visited⟩

def visitAll (s : Frontier α) (list : List α) : Frontier α := list.foldl visit s

/-- What is seen for the first time enters the queue. -/
theorem visitAll_eq (s : Frontier α) (list : List α) :
    ∃ fresh, (s.visitAll list).queue = s.queue ++ fresh ∧ fresh.Nodup ∧
      (∀ c, c ∈ fresh ↔ c ∈ list ∧ c ∉ s.visited) ∧
      ∀ c, c ∈ (s.visitAll list).visited ↔ c ∈ list ∨ c ∈ s.visited := by
  induction list generalizing s with
  | nil => exact ⟨[], by simp [visitAll]⟩
  | cons head tail ih =>
      obtain ⟨fresh, hqueue, hnodup, hfresh, hvisited⟩ := ih (s.visit head)
      have hfold : s.visitAll (head :: tail) = (s.visit head).visitAll tail := rfl
      rw [hfold]
      by_cases hseen : head ∈ s.visited
      · have hvisit : s.visit head = s := by simp [visit, hseen]
        rw [hvisit] at hqueue hfresh hvisited ⊢
        refine ⟨fresh, hqueue, hnodup, fun c => ?_, fun c => ?_⟩
        · by_cases hc : c = head
          · simp [hfresh, hc, hseen]
          · simp [hfresh, hc]
        · by_cases hc : c = head
          · simp [hvisited, hc, hseen]
          · simp [hvisited, hc]
      · have hvisit : s.visit head = ⟨s.queue ++ [head], head :: s.visited⟩ := by
          simp [visit, hseen]
        rw [hvisit] at hqueue hfresh hvisited ⊢
        refine ⟨head :: fresh, by simp [hqueue], ?_, fun c => ?_, fun c => ?_⟩
        · exact List.nodup_cons.mpr ⟨by simp [hfresh], hnodup⟩
        · by_cases hc : c = head
          · simp [hc, hseen]
          · simp [hfresh, hc]
        · by_cases hc : c = head
          · simp [hvisited, hc]
          · simp [hvisited, hc]

variable {τ : Type v} [Preorder τ] {key : α → τ}

/-- One element is given out and its successors are looked at. -/
def next (heap : MaxQueue α key) (children : α → List α) (s : Frontier α) :
    Option (α × Frontier α) :=
  (heap.pop s.queue).map fun popped =>
    (popped.1, (⟨popped.2, s.visited⟩ : Frontier α).visitAll (children popped.1))

def start (source : α) : Frontier α := ⟨[source], []⟩

/-- Everything is given out that the traversal gives out in some order from some state. -/
inductive Emits (heap : MaxQueue α key) (children : α → List α) :
    Frontier α → List α → Frontier α → Prop where
  | nil (s : Frontier α) : Emits heap children s [] s
  | cons {s t final : Frontier α} {c : α} {rest : List α}
      (hnext : s.next heap children = some (c, t)) (hrest : Emits heap children t rest final) :
      Emits heap children s (c :: rest) final

section Invariant

variable (children : α → List α) (source : α)

/-- No element leads back to the source. -/
def NoReturn : Prop :=
  ∀ c, Relation.ReflTransGen (fun a b => b ∈ children a) source c → source ∉ children c

omit [DecidableEq α] in
variable {children source} in
/-- A rank that decreases at every step lets nothing lead back. -/
theorem noReturn_of_rank {rank : α → ℕ} (hrank : ∀ c, ∀ d ∈ children c, rank d < rank c)
    (source : α) : NoReturn children source := by
  have hle : ∀ c, Relation.ReflTransGen (fun a b => b ∈ children a) source c →
      rank c ≤ rank source := by
    intro c hreach
    induction hreach with
    | refl => exact Nat.le_refl _
    | tail _ hchild ih => exact (hrank _ _ hchild).le.trans ih
  exact fun c hreach hchild => Nat.not_le.mpr (hrank c source hchild) (hle c hreach)

/-- What is given out and what waits, at any time. -/
structure Explored (done : List α) (s : Frontier α) : Prop where
  nodup : (done ++ s.queue).Nodup
  source_mem : source ∈ done ++ s.queue
  visited_iff : ∀ c, c ∈ s.visited ↔ c ∈ done ++ s.queue ∧ c ≠ source
  reach : ∀ c ∈ done ++ s.queue, Relation.ReflTransGen (fun a b => b ∈ children a) source c
  closed : ∀ c ∈ done, ∀ d ∈ children c, d ∈ s.visited
  parent : ∀ c ∈ s.queue, c = source ∨ ∃ d ∈ done, c ∈ children d

variable {children source} {heap : MaxQueue α key}

omit [DecidableEq α] in
theorem explored_start : Explored children source [] (start source) where
  nodup := by simp [start]
  source_mem := by simp [start]
  visited_iff := by simp [start]
  reach := by simpa [start] using Relation.ReflTransGen.refl
  closed := nofun
  parent := by simp [start]

/-- One step: the element that is given out is done. -/
theorem Explored.next (hreturn : NoReturn children source) {done : List α} {s t : Frontier α}
    {c : α} (hs : Explored children source done s)
    (hnext : s.next heap children = some (c, t)) :
    Explored children source (done ++ [c]) t := by
  obtain ⟨⟨first, rest⟩, hpop, heq⟩ := Option.map_eq_some_iff.mp hnext
  obtain ⟨rfl, rfl⟩ := Prod.mk.inj heq
  obtain ⟨fresh, hqueue, hfreshNodup, hfresh, hvisited⟩ :=
    visitAll_eq (⟨rest, s.visited⟩ : Frontier α) (children first)
  have hperm : (done ++ s.queue).Perm (done ++ [first] ++ rest) := by
    simpa using (heap.perm hpop).append_left done
  have hmem : ∀ d, d ∈ done ++ s.queue ↔ d ∈ done ++ [first] ++ rest := fun d => hperm.mem_iff
  have hall : ∀ d, d ∈ done ++ [first] ++ (rest ++ fresh) ↔
      d ∈ done ++ [first] ++ rest ∨ d ∈ fresh := by
    intro d
    rw [← List.append_assoc, List.mem_append]
  have hfirst : Relation.ReflTransGen (fun a b => b ∈ children a) source first :=
    hs.reach first ((hmem first).mpr (by simp))
  have hseen : ∀ d, d ∈ fresh → d ∉ done ++ [first] ++ rest := by
    intro d hd hold
    obtain ⟨hchild, hnot⟩ := (hfresh d).mp hd
    refine hnot ((hs.visited_iff d).mpr ⟨(hmem d).mpr hold, ?_⟩)
    rintro rfl
    exact hreturn first hfirst hchild
  constructor
  · rw [hqueue, ← List.append_assoc]
    refine List.nodup_append.mpr ⟨hperm.nodup_iff.mp hs.nodup, hfreshNodup, ?_⟩
    rintro d hold e he rfl
    exact hseen d he hold
  · rw [hqueue, hall]
    exact Or.inl ((hmem source).mp hs.source_mem)
  · intro d
    rw [hqueue, hall, hvisited, hs.visited_iff, hmem]
    constructor
    · rintro (hchild | ⟨hold, hne⟩)
      · have hne : d ≠ source := fun h => hreturn first hfirst (h ▸ hchild)
        refine ⟨?_, hne⟩
        by_cases hvisit : d ∈ s.visited
        · exact Or.inl ((hmem d).mp ((hs.visited_iff d).mp hvisit).1)
        · exact Or.inr ((hfresh d).mpr ⟨hchild, hvisit⟩)
      · exact ⟨Or.inl hold, hne⟩
    · rintro ⟨hold | hd, hne⟩
      · exact Or.inr ⟨hold, hne⟩
      · exact Or.inl ((hfresh d).mp hd).1
  · intro d hd
    rw [hqueue, hall, ← hmem] at hd
    rcases hd with hold | hd
    · exact hs.reach d hold
    · exact hfirst.tail ((hfresh d).mp hd).1
  · intro d hd e he
    rw [hvisited]
    rcases List.mem_append.mp hd with hold | hnew
    · exact Or.inr (hs.closed d hold e he)
    · rw [List.mem_singleton.mp hnew] at he
      exact Or.inl he
  · intro d hd
    rw [hqueue] at hd
    rcases List.mem_append.mp hd with hold | hnew
    · refine (hs.parent d ((heap.perm hpop).mem_iff.mpr (List.mem_cons_of_mem _ hold))).imp id ?_
      rintro ⟨e, he, hchild⟩
      exact ⟨e, List.mem_append_left _ he, hchild⟩
    · exact Or.inr ⟨first, by simp, ((hfresh d).mp hnew).1⟩

/-- A traversal, from any point of it on. -/
theorem Explored.emits (hreturn : NoReturn children source) {done list : List α}
    {s t : Frontier α} (hs : Explored children source done s)
    (hemits : Emits heap children s list t) :
    Explored children source (done ++ list) t := by
  induction hemits generalizing done with
  | nil s => simpa using hs
  | cons hnext _ ih => simpa using ih (hs.next hreturn hnext)

omit [DecidableEq α] in
/-- With nothing left to wait for, everything that can be reached is done, once. -/
theorem Explored.complete {done : List α} {s : Frontier α}
    (hs : Explored children source done s) (hqueue : s.queue = []) :
    done.Nodup ∧ ∀ c, c ∈ done ↔
      Relation.ReflTransGen (fun a b => b ∈ children a) source c := by
  have hmem : ∀ c, c ∈ done ++ s.queue ↔ c ∈ done := by simp [hqueue]
  refine ⟨by simpa [hqueue] using hs.nodup, fun c => ⟨fun hc => ?_, fun hreach => ?_⟩⟩
  · exact hs.reach c ((hmem c).mpr hc)
  · induction hreach with
    | refl => exact (hmem source).mp hs.source_mem
    | tail _ hchild ih =>
        exact (hmem _).mp ((hs.visited_iff _).mp (hs.closed _ ih _ hchild)).1

/-- An element is given out behind one that leads to it. -/
theorem Explored.emits_parent (hreturn : NoReturn children source) {done list : List α}
    {s t : Frontier α} (hs : Explored children source done s)
    (hemits : Emits heap children s list t) {before after : List α} {c : α}
    (hlist : list = before ++ c :: after) :
    c = source ∨ ∃ d ∈ done ++ before, c ∈ children d := by
  induction hemits generalizing done before with
  | nil s => simp at hlist
  | @cons s next final first rest hnext hrest ih =>
      cases before with
      | nil =>
          obtain ⟨rfl, rfl⟩ := List.cons.inj hlist
          obtain ⟨⟨c, others⟩, hpop, heq⟩ := Option.map_eq_some_iff.mp hnext
          obtain ⟨rfl, -⟩ := Prod.mk.inj heq
          simpa using hs.parent c ((heap.perm hpop).mem_iff.mpr List.mem_cons_self)
      | cons other before =>
          obtain ⟨rfl, hrest⟩ := List.cons.inj hlist
          simpa using ih (hs.next hreturn hnext) hrest

end Invariant

section Order

variable {children : α → List α} {heap : MaxQueue α key}

/-- Where no successor has a greater key, the keys that are given out never increase. -/
theorem Emits.pairwise (hkeys : ∀ c, ∀ d ∈ children c, key d ≤ key c) {list : List α}
    {s t : Frontier α} (hemits : Emits heap children s list t) :
    list.Pairwise (fun early late => key late ≤ key early) ∧
      ∀ c ∈ list, ∃ d ∈ s.queue, key c ≤ key d := by
  induction hemits with
  | nil s => exact ⟨List.Pairwise.nil, nofun⟩
  | @cons s next final first list hnext hrest ih =>
      obtain ⟨⟨c, rest⟩, hpop, heq⟩ := Option.map_eq_some_iff.mp hnext
      obtain ⟨rfl, rfl⟩ := Prod.mk.inj heq
      obtain ⟨fresh, hqueue, -, hfresh, -⟩ :=
        visitAll_eq (⟨rest, s.visited⟩ : Frontier α) (children c)
      have hbound : ∀ d ∈ (visitAll ⟨rest, s.visited⟩ (children c)).queue, key d ≤ key c := by
        intro d hd
        rw [hqueue] at hd
        rcases List.mem_append.mp hd with hold | hnew
        · exact heap.le hpop d hold
        · exact hkeys c d ((hfresh d).mp hnew).1
      have hlater : ∀ d ∈ list, key d ≤ key c := by
        intro d hd
        obtain ⟨e, he, hle⟩ := ih.2 d hd
        exact le_trans hle (hbound e he)
      have hfirst : c ∈ s.queue := (heap.perm hpop).mem_iff.mpr List.mem_cons_self
      refine ⟨List.pairwise_cons.mpr ⟨hlater, ih.1⟩, List.forall_mem_cons.mpr ⟨?_, ?_⟩⟩
      · exact ⟨c, hfirst, le_rfl⟩
      · exact fun d hd => ⟨c, hfirst, hlater d hd⟩

end Order

section Whole

variable {children : α → List α} {heap : MaxQueue α key}

theorem Emits.append {first last : List α} {s t final : Frontier α}
    (hfirst : Emits heap children s first t) (hlast : Emits heap children t last final) :
    Emits heap children s (first ++ last) final := by
  induction hfirst with
  | nil s => exact hlast
  | cons hnext _ ih => exact .cons hnext (ih hlast)

theorem next_of_queue_eq_nil {s : Frontier α} (hs : s.queue = []) :
    s.next heap children = none := by
  simp [Frontier.next, hs]

/-- A traversal that comes to an end begins with any other from the same state. -/
theorem Emits.split {first whole : List α} {s t final : Frontier α}
    (hfirst : Emits heap children s first t) (hwhole : Emits heap children s whole final)
    (hfinal : final.queue = []) :
    ∃ rest, whole = first ++ rest ∧ Emits heap children t rest final := by
  induction hfirst generalizing whole with
  | nil s => exact ⟨whole, rfl, hwhole⟩
  | cons hnext _ ih =>
      cases hwhole with
      | nil => exact absurd hnext (by simp [next_of_queue_eq_nil hfinal])
      | cons hother hlater =>
          obtain ⟨rfl, rfl⟩ := Prod.mk.inj (Option.some.inj (hnext.symm.trans hother))
          obtain ⟨rest, rfl, hmore⟩ := ih hlater
          exact ⟨rest, rfl, hmore⟩

theorem Emits.eq_nil {list : List α} {s t : Frontier α} (hemits : Emits heap children s list t)
    (hs : s.queue = []) : list = [] ∧ s = t := by
  cases hemits with
  | nil => exact ⟨rfl, rfl⟩
  | cons hnext _ => exact absurd hnext (by simp [next_of_queue_eq_nil hs])

/-- Two traversals that come to an end are the same. -/
theorem Emits.unique {first second : List α} {s t u : Frontier α}
    (hfirst : Emits heap children s first t) (hsecond : Emits heap children s second u)
    (ht : t.queue = []) (hu : u.queue = []) : first = second ∧ t = u := by
  obtain ⟨rest, rfl, hrest⟩ := hfirst.split hsecond hu
  obtain ⟨rfl, rfl⟩ := hrest.eq_nil ht
  exact ⟨(List.append_nil first).symm, rfl⟩

variable {source : α} {all : List α}

omit [DecidableEq α] in
/-- What the traversal meets is in any closed list with the source. -/
theorem Explored.mem_all (hsource : source ∈ all)
    (hclosed : ∀ c ∈ all, ∀ d ∈ children c, d ∈ all) {done : List α} {s : Frontier α}
    (hs : Explored children source done s) : ∀ c ∈ done ++ s.queue, c ∈ all := by
  intro c hc
  have hreach := hs.reach c hc
  clear hc
  induction hreach with
  | refl => exact hsource
  | tail _ hchild hmem => exact hclosed _ hmem _ hchild

omit [DecidableEq α] in
/-- In a finite graph only so many elements are done. -/
theorem Explored.length_le (hsource : source ∈ all)
    (hclosed : ∀ c ∈ all, ∀ d ∈ children c, d ∈ all) {done : List α} {s : Frontier α}
    (hs : Explored children source done s) : (done ++ s.queue).length ≤ all.length :=
  (List.subperm_of_subset hs.nodup (hs.mem_all hsource hclosed)).length_le

/-- In a finite graph the traversal comes to an end. -/
theorem exists_emits (hreturn : NoReturn children source) (hsource : source ∈ all)
    (hclosed : ∀ c ∈ all, ∀ d ∈ children c, d ∈ all) {done : List α} {s : Frontier α}
    (hs : Explored children source done s) :
    ∃ list t, Emits heap children s list t ∧ t.queue = [] := by
  obtain ⟨left, hleft⟩ : ∃ left, all.length ≤ done.length + left :=
    ⟨all.length, Nat.le_add_left _ _⟩
  induction left generalizing done s with
  | zero =>
      have hlength := hs.length_le hsource hclosed
      rw [List.length_append] at hlength
      exact ⟨[], s, .nil s, List.length_eq_zero_iff.mp (by omega)⟩
  | succ left ih =>
      cases hpop : heap.pop s.queue with
      | none => exact ⟨[], s, .nil s, heap.eq_nil hpop⟩
      | some popped =>
          have hnext : s.next heap children = some (popped.1,
              (⟨popped.2, s.visited⟩ : Frontier α).visitAll (children popped.1)) := by
            simp [Frontier.next, hpop]
          obtain ⟨list, t, hlist, ht⟩ := ih (hs.next hreturn hnext) (by
            rw [List.length_append, List.length_singleton]
            omega)
          exact ⟨popped.1 :: list, t, .cons hnext hlist, ht⟩

end Whole

end Frontier

end Gnostr
