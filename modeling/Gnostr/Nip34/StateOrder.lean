/-
Two choices in a repository state that an order decides: the branch that heads a
state without a `HEAD` is the first one that the hash map iterates over, and of the
latest events the last one of the list is read.
-/
import Gnostr.Lib.StableSort
import Gnostr.Nip34.StateTags
import Mathlib.Data.Finset.Max
import Mathlib.Data.List.Lex
import Mathlib.Data.Prod.Lex

namespace Gnostr

namespace Nip34

open Gnostr.Types

section Head

variable {order order' : IterOrder String} {state : RefMap}

/-- The names say by themselves which branch is the head: there is a `HEAD`, a
master or a main branch, or there are no two branches. -/
def HeadDetermined (names : String → Prop) : Prop :=
  names "HEAD" ∨ names "refs/heads/master" ∨ names "refs/heads/main" ∨
    ∀ first second, names first → names second →
      hasPrefix "refs/heads/" first = true →
        hasPrefix "refs/heads/" second = true → first = second

theorem mem_of_headBranch {key : String}
    (hkey : headBranch order state = some key) : key ∈ state := by
  unfold headBranch at hkey
  split_ifs at hkey with hmaster hmain
  · exact Option.some.inj hkey ▸ hmaster
  · exact Option.some.inj hkey ▸ hmain
  · exact Finmap.mem_keys.mp ((order.mem_list _ _).mp
      (List.mem_of_find?_eq_some hkey))

/-- Where the names say which branch is the head, every order finds that one. -/
theorem headBranch_eq (hdetermined : HeadDetermined (· ∈ state))
    (hhead : "HEAD" ∉ state) :
    headBranch order state = headBranch order' state := by
  rcases hdetermined with hin | hmaster | hmain | hunique
  · exact absurd hin hhead
  · rw [headBranch, headBranch, if_pos hmaster, if_pos hmaster]
  · rw [headBranch, headBranch, if_pos hmain, if_pos hmain]
  · cases hfirst : headBranch order state with
    | none =>
        rw [headBranch_eq_none_iff] at hfirst
        exact (headBranch_eq_none_iff.mpr hfirst).symm
    | some first =>
        cases hsecond : headBranch order' state with
        | none =>
            rw [headBranch_eq_none_iff] at hsecond
            exact absurd (hasPrefix_headBranch hfirst)
              (hsecond first (mem_of_headBranch hfirst))
        | some second =>
            exact congrArg some (hunique first second
              (mem_of_headBranch hfirst) (mem_of_headBranch hsecond)
              (hasPrefix_headBranch hfirst) (hasPrefix_headBranch hsecond))

/-- A branch that is visited first becomes the head where nothing else says. -/
theorem addHead_startingWith {key : String} (hkey : key ∈ state)
    (hbranch : hasPrefix "refs/heads/" key = true) (hhead : "HEAD" ∉ state)
    (hmaster : "refs/heads/master" ∉ state) (hmain : "refs/heads/main" ∉ state) :
    addHead (IterOrder.startingWith key) state =
      state.insert "HEAD" ("ref: " ++ key) := by
  have hfound : headBranch (IterOrder.startingWith key) state = some key := by
    rw [headBranch, if_neg hmaster, if_neg hmain]
    exact IterOrder.find?_list_startingWith (Finmap.mem_keys.mpr hkey) hbranch
  rw [addHead, if_neg hhead, hfound]

/-- The head does not depend on the order exactly when the names say it. -/
theorem addHead_eq_iff :
    (∀ order order', addHead order state = addHead order' state) ↔
      HeadDetermined (· ∈ state) := by
  constructor
  · intro hsame
    unfold HeadDetermined
    by_contra hnot
    push Not at hnot
    obtain ⟨hhead, hmaster, hmain, first, second, hfirst, hsecond, hfirstBranch,
      hsecondBranch, hne⟩ := hnot
    have hheads := hsame (IterOrder.startingWith first)
      (IterOrder.startingWith second)
    rw [addHead_startingWith hfirst hfirstBranch hhead hmaster hmain,
      addHead_startingWith hsecond hsecondBranch hhead hmaster hmain] at hheads
    have hvalues := congrArg (Finmap.lookup "HEAD") hheads
    rw [Finmap.lookup_insert, Finmap.lookup_insert, Option.some.injEq] at hvalues
    have hchars := congrArg String.toList hvalues
    rw [String.toList_append, String.toList_append, List.append_cancel_left_eq]
      at hchars
    exact hne (String.toList_injective hchars)
  · intro hdetermined order order'
    by_cases hhead : "HEAD" ∈ state
    · rw [addHead, addHead, if_pos hhead, if_pos hhead]
    · rw [addHead, addHead, headBranch_eq hdetermined hhead]

/-- Sorted, the names are in one order. -/
theorem sortedKeys_eq (order order' : IterOrder String) (state : RefMap) :
    sortedKeys order state = sortedKeys order' state := by
  have hperm : (order.list state.keys).Perm (order'.list state.keys) := by
    rw [List.perm_ext_iff_of_nodup (order.nodup_list _) (order'.nodup_list _)]
    intro key
    rw [order.mem_list, order'.mem_list]
  apply mergeSort_eq_of_perm _ _ _ hperm
  · intro a b c hab hbc
    exact decide_eq_true (le_trans (of_decide_eq_true hab) (of_decide_eq_true hbc))
  · intro a b
    rw [Bool.or_eq_true, decide_eq_true_eq, decide_eq_true_eq]
    exact le_total a b
  · intro a b hab hba
    exact le_antisymm (of_decide_eq_true hab) (of_decide_eq_true hba)

/-- The tags of a state. -/
def stateTags (order : IterOrder String) (identifier : String) (state : RefMap) :
    List TagV3 :=
  ⟨["d", identifier]⟩ :: (sortedKeys order state).map fun key =>
    ⟨[key, (state.lookup key).getD ""]⟩

/-- Two states with the same tags are one. -/
theorem eq_of_stateTags_eq {identifier : String} {first second : RefMap}
    (htags : stateTags order identifier first =
      stateTags order' identifier second) : first = second := by
  have hpairs := congrArg (List.filterMap nameAndValue) (List.cons.inj htags).2
  have hread : ∀ (order : IterOrder String) (state : RefMap),
      ((sortedKeys order state).map fun key =>
        (⟨[key, (state.lookup key).getD ""]⟩ : TagV3)).filterMap nameAndValue =
      (sortedKeys order state).map fun key =>
        (key, (state.lookup key).getD "") := by
    intro order state
    rw [List.filterMap_map]
    exact congrFun List.filterMap_eq_map _
  rw [hread, hread] at hpairs
  have hinsert := congrArg (insertEntries ∅) hpairs
  unfold insertEntries at hinsert
  rw [List.foldl_map, List.foldl_map] at hinsert
  exact ((foldl_insert_sortedKeys first).symm.trans hinsert).trans
    (foldl_insert_sortedKeys second)

variable (prims : Primitives) (bech32 : Bech32) (hex : Hex) {curve : Secp256k1}
  (schnorr : Schnorr curve)

/-- Two publishers of one state give the same tags, whatever their orders, exactly
when the names of its references say which branch is the head. -/
theorem build_tags_iff
    (hkdf : ∀ salt, PrivateKey.kdfAccepts prims "" 1 salt = true)
    (identifier : String) (state : RefMap) (privateKey privateKey' : PrivateKey curve)
    (now now' : Int64) (keyExport keyExport' : ExportRandom)
    (random random' : Vector UInt8 32) :
    (∀ order order' built built',
      RepoState.build order prims bech32 hex schnorr identifier state privateKey now
          keyExport random = .ok built →
        RepoState.build order' prims bech32 hex schnorr identifier state privateKey'
            now' keyExport' random' = .ok built' →
          built.event.tags = built'.event.tags) ↔
      HeadDetermined (· ∈ state) := by
  have htags : ∀ order order' built built',
      RepoState.build order prims bech32 hex schnorr identifier state privateKey now
          keyExport random = .ok built →
        RepoState.build order' prims bech32 hex schnorr identifier state privateKey'
            now' keyExport' random' = .ok built' →
          (built.event.tags = built'.event.tags ↔
            addHead order state = addHead order' state) := by
    intro order order' built built' hbuilt hbuilt'
    obtain ⟨known, hknown, hstate, _, hfields⟩ := RepoState.exists_build order prims
      bech32 hex schnorr identifier state privateKey now keyExport random (hkdf _)
    obtain ⟨known', hknown', hstate', _, hfields'⟩ := RepoState.exists_build order'
      prims bech32 hex schnorr identifier state privateKey' now' keyExport' random'
      (hkdf _)
    cases hbuilt.symm.trans hknown
    cases hbuilt'.symm.trans hknown'
    rw [hfields, hfields', hstate, hstate']
    constructor
    · exact eq_of_stateTags_eq
    · intro hsame
      rw [hsame, sortedKeys_eq order order']
  rw [← addHead_eq_iff]
  constructor
  · intro hsame order order'
    obtain ⟨built, hbuilt, _⟩ := RepoState.exists_build order prims bech32 hex schnorr
      identifier state privateKey now keyExport random (hkdf _)
    obtain ⟨built', hbuilt', _⟩ := RepoState.exists_build order' prims bech32 hex
      schnorr identifier state privateKey' now' keyExport' random' (hkdf _)
    exact (htags order order' built built' hbuilt hbuilt').mp
      (hsame order order' built built' hbuilt hbuilt')
  · intro hheads order order' built built' hbuilt hbuilt'
    exact (htags order order' built built' hbuilt hbuilt').mpr (hheads order order')

/-- Two readers of one event see the same state, whatever their orders, exactly
when the event is not one of a repository state, or the names of its references
say which branch is the head. -/
theorem tryFrom_one_iff (git : Git2) (event : EventV3) :
    (∀ order order', RepoState.tryFrom git order [event] =
        RepoState.tryFrom git order' [event]) ↔
      (event.kind = repoStateKind →
        (∃ identifier, (event.tags.filterMap nameAndValue).head? =
          some ("d", identifier)) →
        HeadDetermined fun name =>
          ∃ value, (name, value) ∈ refEntries git event.tags) := by
  have hnames : (fun name => ∃ value, (name, value) ∈ refEntries git event.tags) =
      fun name => name ∈ insertEntries ∅ (refEntries git event.tags) := by
    funext name
    rw [mem_insertEntries, eq_iff_iff, iff_or_self]
    exact fun hname => absurd hname Finmap.notMem_empty
  rw [hnames, ← addHead_eq_iff]
  by_cases hkind : event.kind = repoStateKind
  · by_cases hidentifier : ∃ identifier,
        (event.tags.filterMap nameAndValue).head? = some ("d", identifier)
    · obtain ⟨identifier, hhead⟩ := hidentifier
      constructor
      · intro hsame _ _ order order'
        have hresults := hsame order order'
        rw [RepoState.tryFrom_one_of_head hkind hhead,
          RepoState.tryFrom_one_of_head hkind hhead, Outcome.ok.injEq] at hresults
        exact congrArg RepoState.state hresults
      · intro hheads order order'
        rw [RepoState.tryFrom_one_of_head hkind hhead,
          RepoState.tryFrom_one_of_head hkind hhead,
          hheads hkind ⟨identifier, hhead⟩ order order']
    · refine iff_of_true ?_ fun _ hin => absurd hin hidentifier
      intro order order'
      rw [RepoState.tryFrom_one_eq_err hkind hidentifier,
        RepoState.tryFrom_one_eq_err hkind hidentifier]
  · refine iff_of_true ?_ fun hin => absurd hin hkind
    have hread : ∀ order, RepoState.tryFrom git order [event] =
        .err .wrongEventKind := by
      intro order
      unfold RepoState.tryFrom
      rw [List.mergeSort_singleton]
      exact if_pos hkind
    intro order order'
    rw [hread, hread]

/-- Neither two publishers of one state nor two readers of one event disagree on
the head, whatever their orders, exactly when the names of the references say which
branch it is; an event that is none of a repository state is refused by all. -/
theorem canonical_head_iff (git : Git2)
    (hkdf : ∀ salt, PrivateKey.kdfAccepts prims "" 1 salt = true)
    (identifier : String) (state : RefMap) (privateKey privateKey' : PrivateKey curve)
    (now now' : Int64) (keyExport keyExport' : ExportRandom)
    (random random' : Vector UInt8 32) (event : EventV3) :
    ((∀ order order' built built',
      RepoState.build order prims bech32 hex schnorr identifier state privateKey now
          keyExport random = .ok built →
        RepoState.build order' prims bech32 hex schnorr identifier state privateKey'
            now' keyExport' random' = .ok built' →
          built.event.tags = built'.event.tags) ↔
      HeadDetermined (· ∈ state)) ∧
    ((∀ order order', RepoState.tryFrom git order [event] =
        RepoState.tryFrom git order' [event]) ↔
      (event.kind = repoStateKind →
        (∃ identifier, (event.tags.filterMap nameAndValue).head? =
          some ("d", identifier)) →
        HeadDetermined fun name =>
          ∃ value, (name, value) ∈ refEntries git event.tags)) :=
  ⟨build_tags_iff prims bech32 hex schnorr hkdf identifier state privateKey
      privateKey' now now' keyExport keyExport' random random',
    tryFrom_one_iff git event⟩

/-- A state of two branches, neither of which is a master or a main branch. -/
def twoBranches : RefMap :=
  (Finmap.singleton "refs/heads/next" "0123456789abcdef0123456789abcdef01234567").insert
    "refs/heads/dev" "0123456789abcdef0123456789abcdef01234567"

theorem mem_twoBranches {name : String} :
    name ∈ twoBranches ↔ name = "refs/heads/dev" ∨ name = "refs/heads/next" := by
  rw [twoBranches, Finmap.mem_insert, Finmap.mem_singleton]

theorem not_headDetermined_twoBranches :
    ¬ HeadDetermined (· ∈ twoBranches) := by
  unfold HeadDetermined
  simp only [mem_twoBranches]
  rintro (hhead | hmaster | hmain | hunique)
  · revert hhead
    decide
  · revert hmaster
    decide
  · revert hmain
    decide
  · have hsame := hunique "refs/heads/dev" "refs/heads/next" (Or.inl rfl)
      (Or.inr rfl) (by decide) (by decide)
    revert hsame
    decide

/-- Two publishers of the two branches disagree. -/
theorem not_canonical_head :
    ¬ ∀ order order' built built',
      RepoState.build order Primitives.transparent Bech32.reference Hex.reference
          (Schnorr.permissive boundedCurve) "gnostr" twoBranches boundedKey 1 zeroExport
          (Vector.replicate 32 0) = .ok built →
        RepoState.build order' Primitives.transparent Bech32.reference Hex.reference
            (Schnorr.permissive boundedCurve) "gnostr" twoBranches boundedKey 1
            zeroExport (Vector.replicate 32 0) = .ok built' →
          built.event.tags = built'.event.tags := by
  intro hsame
  exact not_headDetermined_twoBranches
    ((build_tags_iff _ _ _ _ (fun _ => rfl) _ _ _ _ _ _ _ _ _ _).mp hsame)

theorem canonical_head_iff_oneBranch :
    (∀ order order' built built',
      RepoState.build order Primitives.transparent Bech32.reference Hex.reference
          (Schnorr.permissive boundedCurve) "gnostr" oneBranch boundedKey 1 zeroExport
          (Vector.replicate 32 0) = .ok built →
        RepoState.build order' Primitives.transparent Bech32.reference Hex.reference
            (Schnorr.permissive boundedCurve) "gnostr" oneBranch boundedKey 2
            zeroExport (Vector.replicate 32 0) = .ok built' →
          built.event.tags = built'.event.tags) ∧
      HeadDetermined (· ∈ oneBranch) := by
  have hmain : HeadDetermined (· ∈ oneBranch) :=
    Or.inr (Or.inr (Or.inl ((Finmap.mem_singleton _ _ _).mpr rfl)))
  refine ⟨?_, hmain⟩
  exact (canonical_head_iff Primitives.transparent Bech32.reference Hex.reference
    (Schnorr.permissive boundedCurve) Git2.reference (fun _ => rfl) "gnostr" oneBranch
    boundedKey boundedKey 1 2 zeroExport zeroExport (Vector.replicate 32 0)
    (Vector.replicate 32 0) (stateEvent 1 1 [identifierTag])).1.mpr hmain

end Head

section Latest

variable {git : Git2} {order : IterOrder String} {events : List EventV3}

/-- `Ord for EventV3`: the time, then the id. -/
def rank (event : EventV3) : ℤ ×ₗ List ℕ :=
  toLex (event.createdAt.toInt, event.id.bytes.toList.map UInt8.toNat)

/-- No event of the list is later. -/
def Latest (events : List EventV3) (event : EventV3) : Prop :=
  event ∈ events ∧ ∀ other ∈ events, other.createdAt ≤ event.createdAt

theorem Latest.perm {events' : List EventV3} {event : EventV3}
    (hlatest : Latest events' event) (hperm : events'.Perm events) :
    Latest events event :=
  ⟨hperm.mem_iff.mp hlatest.1,
    fun other hother => hlatest.2 other (hperm.mem_iff.mpr hother)⟩

end Latest

end Nip34

end Gnostr
