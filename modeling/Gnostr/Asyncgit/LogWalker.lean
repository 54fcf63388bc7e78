/-
`asyncgit/src/lib/sync/logwalker.rs` and the loop of `revlog.rs` over it: the commits of a
history are read in batches, the latest first.  The heap of the walker gives out one of
its latest commits, of several any one.
-/
import Gnostr.Lib.BestFirst

namespace Gnostr

namespace Asyncgit

universe u v w

variable {α : Type u} {τ : Type v} {ε : Type w}

/-- The commits that wait, those that were seen, and how many are read at a time. -/
structure LogWalker (α : Type u) where
  commits : List α
  visited : List α
  limit : ℕ
deriving DecidableEq, Repr

namespace LogWalker

section Source

variable [DecidableEq α] [Preorder τ] {time : α → τ}

def new (head : α) (limit : ℕ) : LogWalker α := ⟨[head], [], limit⟩

def visit (walker : LogWalker α) (c : α) : LogWalker α :=
  if c ∈ walker.visited then walker
  else { walker with commits := walker.commits ++ [c], visited := c :: walker.visited }

variable (heap : MaxQueue α time) (parents : α → List α) (filter : Option (α → Except ε Bool))

/-- `commit_should_be_included`. -/
def includes (c : α) : Except ε Bool :=
  match filter with
  | some filter => filter c
  | none => .ok true

/-- The loop of `read`; with a limit of zero only an empty heap ends it. -/
def readLoop : ℕ → ℕ → LogWalker α → List α → Option (Except ε ℕ × LogWalker α × List α)
  | 0, _, _, _ => none
  | fuel + 1, count, walker, out =>
      match heap.pop walker.commits with
      | none => some (.ok count, walker, out)
      | some (c, rest) =>
          let walker := (parents c).foldl visit { walker with commits := rest }
          match includes filter c with
          | .error error => some (.error error, walker, out)
          | .ok included =>
              let out := if included then out ++ [c] else out
              if count + 1 = walker.limit then some (.ok (count + 1), walker, out)
              else readLoop fuel (count + 1) walker out

def read (fuel : ℕ) (walker : LogWalker α) (out : List α) :
    Option (Except ε ℕ × LogWalker α × List α) :=
  readLoop heap parents filter fuel 0 walker out

/-- The loop of `fetch_helper`: batches are added to the log until one reads nothing. -/
def fetchLoop (fuel : ℕ) : ℕ → LogWalker α → List α → Option (Except ε Unit × List α)
  | 0, _, _ => none
  | turns + 1, walker, current =>
      match read heap parents filter fuel walker [] with
      | none => none
      | some (.error error, _, _) => some (.error error, current)
      | some (.ok count, walker, entries) =>
          if count = 0 then some (.ok (), current ++ entries)
          else fetchLoop fuel turns walker (current ++ entries)

end Source

section Kept

variable {filter : Option (α → Except ε Bool)}

/-- The commits that stay, of those that were read. -/
def kept (filter : Option (α → Except ε Bool)) (list : List α) : List α :=
  list.filter fun c => (includes filter c).toOption.getD false

/-- The filter answers for a commit. -/
def Answers (filter : Option (α → Except ε Bool)) (c : α) : Prop :=
  ∃ included, includes filter c = .ok included

theorem kept_append (first last : List α) :
    kept filter (first ++ last) = kept filter first ++ kept filter last := List.filter_append ..

theorem kept_singleton {c : α} {included : Bool} (hc : includes filter c = .ok included) :
    kept filter [c] = if included then [c] else [] := by
  cases included <;> simp [kept, hc, Except.toOption]

theorem kept_singleton_of_error {c : α} {error : ε} (hc : includes filter c = .error error) :
    kept filter [c] = [] := by
  simp [kept, hc, Except.toOption]

end Kept

section Reads

variable [DecidableEq α] [Preorder τ] {time : α → τ} {heap : MaxQueue α time}
  {parents : α → List α} {filter : Option (α → Except ε Bool)}

def frontier (walker : LogWalker α) : Frontier α := ⟨walker.commits, walker.visited⟩

theorem visit_eq (walker : LogWalker α) (c : α) :
    (walker.visit c).frontier = walker.frontier.visit c ∧
      (walker.visit c).limit = walker.limit := by
  by_cases hc : c ∈ walker.visited <;> simp [visit, Frontier.visit, frontier, hc]

theorem foldl_visit (walker : LogWalker α) (list : List α) :
    (list.foldl visit walker).frontier = walker.frontier.visitAll list ∧
      (list.foldl visit walker).limit = walker.limit := by
  induction list generalizing walker with
  | nil => exact ⟨rfl, rfl⟩
  | cons c list ih =>
      obtain ⟨hfrontier, hlimit⟩ := ih (walker.visit c)
      refine ⟨?_, hlimit.trans (visit_eq walker c).2⟩
      rw [List.foldl_cons, hfrontier, (visit_eq walker c).1]
      rfl

theorem next_of_pop {walker : LogWalker α} {c : α} {rest : List α}
    (hpop : heap.pop walker.commits = some (c, rest)) :
    walker.frontier.next heap parents = some (c,
      ((parents c).foldl visit { walker with commits := rest }).frontier) := by
  rw [(foldl_visit _ _).1]
  simp [Frontier.next, frontier, hpop]

/-- A read is a part of the traversal.  It ends with the heap, at the limit, or with the
first commit the filter has no answer for. -/
theorem readLoop_spec {fuel count : ℕ} {walker final : LogWalker α} {out result : List α}
    {answer : Except ε ℕ}
    (hread : readLoop heap parents filter fuel count walker out =
      some (answer, final, result)) :
    ∃ list, Frontier.Emits heap parents walker.frontier list final.frontier ∧
      final.limit = walker.limit ∧ result = out ++ kept filter list ∧
      match answer with
      | .ok total => total = count + list.length ∧ (∀ c ∈ list, Answers filter c) ∧
          (final.commits = [] ∨ list ≠ [] ∧ total = walker.limit)
      | .error error => ∃ front last, list = front ++ [last] ∧
          includes filter last = .error error ∧ ∀ c ∈ front, Answers filter c := by
  induction fuel generalizing count walker out with
  | zero => exact absurd hread nofun
  | succ fuel ih =>
      rw [readLoop] at hread
      cases hpop : heap.pop walker.commits with
      | none =>
          simp only [hpop, Option.some.injEq, Prod.mk.injEq] at hread
          obtain ⟨rfl, rfl, rfl⟩ := hread
          exact ⟨[], .nil _, rfl, by simp [kept], rfl, nofun, Or.inl (heap.eq_nil hpop)⟩
      | some popped =>
          obtain ⟨c, rest⟩ := popped
          have hnext := @next_of_pop _ _ _ _ _ heap parents walker c rest hpop
          have hlimit := (foldl_visit { walker with commits := rest } (parents c)).2
          simp only [hpop] at hread
          cases hinclude : includes filter c with
          | error error =>
              simp only [hinclude, Option.some.injEq, Prod.mk.injEq] at hread
              obtain ⟨rfl, rfl, rfl⟩ := hread
              exact ⟨[c], .cons hnext (.nil _), hlimit,
                by simp [kept_singleton_of_error hinclude], [], c, rfl, hinclude, nofun⟩
          | ok included =>
              simp only [hinclude] at hread
              have hout : (if included = true then out ++ [c] else out) =
                  out ++ kept filter [c] := by
                rw [kept_singleton hinclude]
                cases included <;> simp
              have hanswers : Answers filter c := ⟨included, hinclude⟩
              rw [hout, hlimit] at hread
              split_ifs at hread with hcount
              · simp only [Option.some.injEq, Prod.mk.injEq] at hread
                obtain ⟨rfl, rfl, rfl⟩ := hread
                exact ⟨[c], .cons hnext (.nil _), hlimit, rfl, rfl, by simpa using hanswers,
                  Or.inr ⟨nofun, hcount⟩⟩
              · obtain ⟨list, hemits, hfinal, rfl, hrest⟩ := ih hread
                refine ⟨c :: list, .cons hnext hemits, hfinal.trans hlimit, ?_, ?_⟩
                · rw [List.append_assoc, ← kept_append, List.singleton_append]
                · cases answer with
                  | ok total =>
                      obtain ⟨rfl, hall, hend⟩ := hrest
                      refine ⟨by rw [List.length_cons]; omega, ?_, ?_⟩
                      · exact List.forall_mem_cons.mpr ⟨hanswers, hall⟩
                      · exact hend.imp id fun hend => ⟨nofun, hend.2.trans hlimit⟩
                  | error error =>
                      obtain ⟨front, last, rfl, hlast, hall⟩ := hrest
                      exact ⟨c :: front, last, rfl, hlast,
                        List.forall_mem_cons.mpr ⟨hanswers, hall⟩⟩

/-- A read of a finite history comes to its end. -/
theorem exists_readLoop {all : List α} {head : α} (hreturn : Frontier.NoReturn parents head)
    (hhead : head ∈ all) (hclosed : ∀ c ∈ all, ∀ d ∈ parents c, d ∈ all) {done : List α}
    {walker : LogWalker α} (hwalker : Frontier.Explored parents head done walker.frontier)
    {fuel : ℕ} (hfuel : all.length < done.length + fuel) (count : ℕ) (out : List α) :
    ∃ outcome, readLoop heap parents filter fuel count walker out = some outcome := by
  induction fuel generalizing done walker count out with
  | zero =>
      have := hwalker.length_le hhead hclosed
      rw [List.length_append] at this
      omega
  | succ fuel ih =>
      rw [readLoop]
      cases hpop : heap.pop walker.commits with
      | none => exact ⟨_, rfl⟩
      | some popped =>
          obtain ⟨c, rest⟩ := popped
          have hnext := hwalker.next hreturn (@next_of_pop _ _ _ _ _ heap parents _ c rest hpop)
          cases hinclude : includes filter c with
          | error error => exact ⟨_, by simp [hinclude]; rfl⟩
          | ok included =>
              simp only [hinclude]
              generalize (if included = true then out ++ [c] else out) = more
              split_ifs
              · exact ⟨_, rfl⟩
              · exact ih hnext (by rw [List.length_append, List.length_singleton]; omega) _ _

/-- The log that is read batch by batch, from any point of the traversal on. -/
theorem fetchLoop_eq {all : List α} {head : α} (hreturn : Frontier.NoReturn parents head)
    (hhead : head ∈ all) (hclosed : ∀ c ∈ all, ∀ d ∈ parents c, d ∈ all)
    (hanswers : ∀ c ∈ all, Answers filter c) {done rest : List α} {walker : LogWalker α}
    {last : Frontier α} (hwalker : Frontier.Explored parents head done walker.frontier)
    (hrest : Frontier.Emits heap parents walker.frontier rest last) (hlast : last.queue = [])
    {fuel turns : ℕ} (hfuel : all.length < fuel) (hturns : rest.length < turns)
    (current : List α) :
    fetchLoop heap parents filter fuel turns walker current =
      some (.ok (), current ++ kept filter rest) := by
  induction turns generalizing done rest walker current with
  | zero => exact absurd hturns (Nat.not_lt_zero _)
  | succ turns ih =>
      obtain ⟨⟨answer, final, entries⟩, hread⟩ := @exists_readLoop _ _ _ _ _ _ heap parents
        filter all head hreturn hhead hclosed done walker hwalker fuel
        (Nat.lt_add_left _ hfuel) 0 []
      obtain ⟨list, hemits, hlimit, hentries, hanswer⟩ := readLoop_spec hread
      rw [List.nil_append] at hentries
      have hfinal := hwalker.emits hreturn hemits
      obtain ⟨later, rfl, hlater⟩ := hemits.split hrest hlast
      rw [fetchLoop, read, hread]
      cases answer with
      | error error =>
          obtain ⟨front, c, rfl, hc, -⟩ := hanswer
          obtain ⟨included, hincluded⟩ := hanswers c
            (hfinal.mem_all hhead hclosed c (by simp))
          rw [hincluded] at hc
          cases hc
      | ok count =>
          obtain ⟨hcount, -, hend⟩ := hanswer
          simp only
          split_ifs with hzero
          · have hnil : list = [] := List.length_eq_zero_iff.mp (by omega)
            subst hnil
            have hqueue : final.commits = [] := hend.resolve_right fun h => h.1 rfl
            obtain ⟨rfl, -⟩ := hlater.eq_nil hqueue
            simp [hentries]
          · rw [ih hfinal hlater (by rw [List.length_append] at hturns; omega), hentries,
              kept_append, List.append_assoc]

/-- The log of a finite history: every commit that can be reached from the head and stays
is in it once, behind a child of it, and no commit behind an older one where no parent is
younger; how many commits are read at a time makes no difference. -/
theorem exists_log (heap : MaxQueue α time) {all : List α} {head : α}
    (hreturn : Frontier.NoReturn parents head) (hhead : head ∈ all)
    (hclosed : ∀ c ∈ all, ∀ d ∈ parents c, d ∈ all)
    (hanswers : ∀ c ∈ all, Answers filter c) :
    ∃ order : List α, order.Nodup ∧
      (∀ c, c ∈ order ↔ Relation.ReflTransGen (fun a b => b ∈ parents a) head c) ∧
      (∀ before c after, order = before ++ c :: after →
        c = head ∨ ∃ child ∈ before, c ∈ parents child) ∧
      ((∀ c, ∀ d ∈ parents c, time d ≤ time c) →
        order.Pairwise fun early late => time late ≤ time early) ∧
      ∀ limit fuel turns, all.length < fuel → all.length < turns →
        fetchLoop heap parents filter fuel turns (new head limit) [] =
          some (.ok (), kept filter order) := by
  have hstart : Frontier.Explored parents head [] (Frontier.start head) :=
    Frontier.explored_start
  obtain ⟨order, last, horder, hlast⟩ := @Frontier.exists_emits α _ τ _ time parents heap head
    all hreturn hhead hclosed [] (Frontier.start head) hstart
  have hdone := hstart.emits hreturn horder
  obtain ⟨hnodup, hmem⟩ := hdone.complete hlast
  refine ⟨order, hnodup, hmem, ?_, fun htimes => (horder.pairwise htimes).1, ?_⟩
  · intro before c after hsplit
    simpa using hstart.emits_parent hreturn horder hsplit
  · intro limit fuel turns hfuel hturns
    have hlength := hdone.length_le hhead hclosed
    rw [hlast, List.append_nil, List.nil_append] at hlength
    exact fetchLoop_eq hreturn hhead hclosed hanswers hstart horder hlast hfuel
      (hlength.trans_lt hturns) []

end Reads

section Diamond

/-- Two branches from one commit, and the commit that joins them. -/
def diamond : ℕ → List ℕ
  | 3 => [1, 2]
  | 2 => [0]
  | 1 => [0]
  | _ => []

theorem noReturn_diamond (head : ℕ) : Frontier.NoReturn diamond head := by
  refine @Frontier.noReturn_of_rank ℕ diamond id (fun c => ?_) head
  unfold diamond
  split <;> simp

theorem exists_log_diamond :
    ∃ order : List ℕ, order.Nodup ∧
      (∀ c, c ∈ order ↔ Relation.ReflTransGen (fun a b => b ∈ diamond a) 3 c) ∧
      (∀ before c after, order = before ++ c :: after →
        c = 3 ∨ ∃ child ∈ before, c ∈ diamond child) ∧
      ((∀ c, ∀ d ∈ diamond c, id d ≤ id c) →
        order.Pairwise fun early late => id late ≤ id early) ∧
      ∀ limit fuel turns, 4 < fuel → 4 < turns →
        fetchLoop (MaxQueue.first id) diamond (none : Option (ℕ → Except Unit Bool)) fuel turns
          (new 3 limit) [] = some (.ok (), kept (none : Option (ℕ → Except Unit Bool)) order) :=
  @exists_log ℕ ℕ Unit _ _ id diamond none (MaxQueue.first id) [0, 1, 2, 3] 3
    (noReturn_diamond 3)
    (by decide) (by decide) fun c _ => ⟨true, rfl⟩

end Diamond

end LogWalker

end Asyncgit

end Gnostr
