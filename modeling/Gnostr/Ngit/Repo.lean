/-
The local git repository as the remote helper reads it: object ids, references and how
far one commit is ahead of another and behind it.
-/
import Gnostr.Lib.Ancestry
import Gnostr.Lib.HashMap
import Mathlib.Data.String.Basic

namespace Gnostr

namespace Ngit

/-- A call fails in git, or with the text the helper gives. -/
inductive Failure where
  | git
  | bail (text : String)
deriving DecidableEq, Repr

theorem bind_eq_ok_iff {α β : Type} {x : Except Failure α} {next : α → Except Failure β}
    {value : β} :
    (x >>= next) = .ok value ↔ ∃ first, x = .ok first ∧ next first = .ok value := by
  cases x with
  | error failure => exact iff_of_false nofun fun ⟨_, h, _⟩ => nomatch h
  | ok first => exact ⟨fun h => ⟨first, rfl, h⟩, fun ⟨_, hfirst, h⟩ => by cases hfirst; exact h⟩

theorem mem_of_mapM_eq_ok {α β : Type} {f : α → Except Failure β} {list : List α}
    {values : List β} (hrun : list.mapM f = .ok values) {value : β} :
    value ∈ values ↔ ∃ item ∈ list, f item = .ok value := by
  induction list generalizing values with
  | nil =>
      cases hrun
      simp
  | cons item list ih =>
      rw [List.mapM_cons, bind_eq_ok_iff] at hrun
      obtain ⟨first, hfirst, hrest⟩ := hrun
      obtain ⟨rest, hlist, hvalues⟩ := bind_eq_ok_iff.mp hrest
      cases hvalues
      rw [List.mem_cons, ih hlist]
      simp only [List.exists_mem_cons_iff, hfirst, Except.ok.injEq, eq_comm]

theorem exists_of_mapM_eq_ok {α β : Type} {f : α → Except Failure β} {list : List α}
    {values : List β} (hrun : list.mapM f = .ok values) {item : α} (hitem : item ∈ list) :
    ∃ value, f item = .ok value := by
  induction list generalizing values with
  | nil => exact absurd hitem List.not_mem_nil
  | cons head list ih =>
      rw [List.mapM_cons, bind_eq_ok_iff] at hrun
      obtain ⟨first, hfirst, hrest⟩ := hrun
      obtain ⟨rest, hlist, -⟩ := bind_eq_ok_iff.mp hrest
      rcases List.mem_cons.mp hitem with rfl | hitem
      · exact ⟨first, hfirst⟩
      · exact ih hlist hitem

def isHexDigit (c : Char) : Bool :=
  ('0' ≤ c && c ≤ '9') || ('a' ≤ c && c ≤ 'f')

/-- The forty digits of an object id. -/
structure Oid where
  digits : List Char
  length_digits : digits.length = 40
  isHexDigit_digits : digits.all isHexDigit = true
deriving DecidableEq

namespace Oid

def toString (oid : Oid) : String := String.ofList oid.digits

/-- `Oid::from_str`: fewer than forty digits are the first ones of an id. -/
def fromStr (text : String) : Option Oid :=
  let digits := text.toList.map Char.toLower
  if hdigits : digits ≠ [] ∧ digits.length ≤ 40 ∧ digits.all isHexDigit = true then
    some ⟨digits ++ List.replicate (40 - digits.length) '0', by simp [hdigits.2.1], by
      rw [List.all_append, hdigits.2.2, Bool.true_and]
      exact List.all_eq_true.mpr fun c hc => by rw [List.eq_of_mem_replicate hc]; rfl⟩
  else none

end Oid

/-- What a reference comes to: the commit it is peeled to, and the annotated tag. -/
structure Reference where
  commit : Option Oid
  tag : Option Oid

/-- The repository; `revwalk` lists what can be reached from a commit. -/
structure Repo where
  findReference : String → Option Reference
  isCommit : Oid → Bool
  isTag : Oid → Bool
  revwalk : Oid → List Oid

namespace Repo

variable (repo : Repo)

/-- `get_commit_or_tip_of_reference`. -/
def getCommitOrTipOfReference (text : String) : Option Oid :=
  match Oid.fromStr text with
  | some oid => if repo.isCommit oid then some oid else none
  | none => (repo.findReference text).bind Reference.commit

/-- `get_commits_ahead_behind`. -/
def getCommitsAheadBehind (base latest : Oid) : Except Failure (List Oid × List Oid) :=
  match firstShared (repo.revwalk base) (repo.revwalk latest) with
  | none => .error (.bail s!"{latest.toString} is not an ancestor of {base.toString}")
  | some shared =>
      .ok ((repo.revwalk latest).takeWhile (· ≠ shared),
        unshared (repo.revwalk base) (repo.revwalk latest))

end Repo

section Laws

theorem Oid.isHexDigit_toLower {c : Char} (hc : isHexDigit c = true) : c.toLower = c := by
  simp only [isHexDigit, Bool.or_eq_true, Bool.and_eq_true, decide_eq_true_eq] at hc
  unfold Char.toLower
  rw [dif_neg]
  rintro ⟨hupper, hle⟩
  rcases hc with ⟨-, hc⟩ | ⟨hc, -⟩
  · exact absurd (hupper.trans hc) (by decide)
  · exact absurd (hc.trans hle) (by decide)

@[simp] theorem Oid.fromStr_toString (oid : Oid) : Oid.fromStr oid.toString = some oid := by
  obtain ⟨digits, hlength, hdigits⟩ := oid
  have hlower : digits.map Char.toLower = digits := by
    rw [List.map_congr_left fun c hc => isHexDigit_toLower (List.all_eq_true.mp hdigits c hc),
      List.map_id']
  have hne : digits ≠ [] := by
    rintro rfl
    simp at hlength
  simp only [Oid.fromStr, Oid.toString, String.toList_ofList, hlower]
  rw [dif_pos ⟨hne, hlength.le, hdigits⟩]
  simp [hlength]

theorem Oid.toString_injective : Function.Injective Oid.toString := fun first last h =>
  Option.some_inj.mp (by rw [← Oid.fromStr_toString first, h, Oid.fromStr_toString])

variable {repo : Repo} {base latest : Oid}

/-- A commit that is there is found by its id. -/
theorem Repo.getCommitOrTipOfReference_toString (oid : Oid) :
    repo.getCommitOrTipOfReference oid.toString =
      if repo.isCommit oid then some oid else none := by
  rw [Repo.getCommitOrTipOfReference, Oid.fromStr_toString]

/-- Two commits can be compared when they have a commit in common, and nothing is behind
or ahead when the one belongs to the history of the other. -/
theorem Repo.getCommitsAheadBehind_spec (hwalk : IsHistory repo.revwalk)
    {ahead behind : List Oid}
    (hrun : repo.getCommitsAheadBehind base latest = .ok (ahead, behind)) :
    (behind = [] ↔ base ∈ repo.revwalk latest) ∧ (ahead = [] ↔ latest ∈ repo.revwalk base) := by
  rw [Repo.getCommitsAheadBehind] at hrun
  split at hrun
  · exact absurd hrun nofun
  · rename_i shared hshared
    simp only [Except.ok.injEq, Prod.mk.injEq] at hrun
    obtain ⟨rfl, rfl⟩ := hrun
    refine ⟨hwalk.unshared_eq_nil_iff, ?_⟩
    rw [hwalk.takeWhile_ne_eq_nil_iff, ← hwalk.firstShared_eq_latest_iff, hshared,
      Option.some_inj]

end Laws

end Ngit

end Gnostr
