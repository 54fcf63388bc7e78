/-
Repository states of `types/src/nostr/nip34.rs`: the references of a repository are
written as one tag each, beside a `HEAD`, and read from the tags of an event.
-/
import Gnostr.Lib.HashMap
import Gnostr.Nip34.RepoRef
import Mathlib.Data.List.Infix
import Mathlib.Data.String.Basic

namespace Gnostr

namespace Nip34

open Gnostr.Types

def repoStateKind : EventKind := EventKind.ofU32 30618

/-- The references of a repository with their values. -/
abbrev RefMap := Finmap fun _ : String => String

/-- Repository state snapshot. -/
structure RepoState where
  identifier : String
  state : RefMap
  event : EventV3

/-- `name.starts_with(label)`. -/
def hasPrefix (label name : String) : Bool := label.toList.isPrefixOf name.toList

/-- The branch a state without a `HEAD` is headed by. -/
def headBranch (order : IterOrder String) (state : RefMap) : Option String :=
  if "refs/heads/master" ∈ state then some "refs/heads/master"
  else if "refs/heads/main" ∈ state then some "refs/heads/main"
  else (order.list state.keys).find? (hasPrefix "refs/heads/")

def addHead (order : IterOrder String) (state : RefMap) : RefMap :=
  if "HEAD" ∈ state then state
  else match headBranch order state with
    | some key => state.insert "HEAD" ("ref: " ++ key)
    | none => state

/-- The names of tags that hold references. -/
def isRefName (name : String) : Bool :=
  ["refs/heads/", "refs/tags", "HEAD"].any fun label => hasPrefix label name

section Write

variable (order : IterOrder String) (prims : Primitives) (bech32 : Bech32) (hex : Hex)
  {curve : Secp256k1} (schnorr : Schnorr curve)

/-- The tag of one reference, `state[&key]`. -/
def refTag (state : RefMap) (key : String) : Outcome Error TagV3 := do
  let value ← Outcome.unwrap (state.lookup key)
  return ⟨[key, value]⟩

def sortedKeys (state : RefMap) : List String :=
  (order.list state.keys).mergeSort fun a b => decide (a ≤ b)

/-- Build a signed repository state event. -/
def RepoState.build (identifier : String) (state : RefMap)
    (privateKey : PrivateKey curve) (now : Int64) (keyExport : ExportRandom)
    (random : Vector UInt8 32) : Outcome Error RepoState := do
  let state := addHead order state
  let refTags ← (sortedKeys order state).mapM (refTag state)
  let event ← EventV3.signWithPrivateKey prims bech32 hex schnorr
    { pubkey := privateKey.publicKey
      createdAt := now
      kind := repoStateKind
      tags := ⟨["d", identifier]⟩ :: refTags
      content := "" } privateKey keyExport random
  return { identifier := identifier, state := state, event := event }

end Write

section Read

variable (git : Git2) (order : IterOrder String)

/-- The values of references: an object id, or a symbolic reference. -/
def isRefValue (value : String) : Bool :=
  git.isOid value || decide ("ref: refs/".toList <:+: value.toList)

/-- What one tag of the event sets. -/
def readRefTag (state : RefMap) (tag : TagV3) : RefMap :=
  match tag.fields with
  | name :: value :: _ =>
      if isRefName name && isRefValue git value then state.insert name value
      else state
  | _ => state

/-- The first tag with a value, when it is a `d` tag. -/
def identifierOf (tags : List TagV3) : Outcome Error String :=
  let first := tags.findSome? fun tag => match tag.fields with
    | name :: value :: _ => some (name, value)
    | _ => none
  Outcome.okOr .tagMismatch
    ((first.filter fun entry => entry.1 == "d").map Prod.snd)

/-- `RepoState::try_from`: the latest of the events is read. -/
def RepoState.tryFrom (stateEvents : List EventV3) : Outcome Error RepoState :=
  match (stateEvents.mergeSort fun a b => decide (a.createdAt ≤ b.createdAt)).getLast?
  with
  | none => .err .invalidOperation
  | some event =>
      if event.kind ≠ repoStateKind then .err .wrongEventKind
      else do
        let state := addHead order (event.tags.foldl (readRefTag git) ∅)
        let identifier ← identifierOf event.tags
        return { identifier := identifier, state := state, event := event }

end Read

section RoundTrip

variable {git : Git2} {order : IterOrder String}

theorem hasPrefix_iff {label name : String} :
    hasPrefix label name = true ↔ label.toList <+: name.toList :=
  List.isPrefixOf_iff_prefix

/-- What a state may hold: branches, tags and `HEAD`, with values that are
references. -/
structure RefEntry (git : Git2) (key value : String) : Prop where
  key_form : hasPrefix "refs/heads/" key = true ∨ hasPrefix "refs/tags/" key = true ∨
    key = "HEAD"
  isRefValue_value : isRefValue git value = true

/-- Every branch, every tag and `HEAD` is the name of a reference. -/
theorem RefEntry.isRefName {key value : String} (hentry : RefEntry git key value) :
    isRefName key = true := by
  unfold Nip34.isRefName
  obtain hheads | htags | hhead := hentry.key_form
  · simp [hheads]
  · have hshort : hasPrefix "refs/tags" key = true := by
      rw [hasPrefix_iff] at htags ⊢
      exact List.IsPrefix.trans (by decide) htags
    simp [hshort]
  · have hself : hasPrefix "HEAD" key = true := by
      rw [hhead]
      decide
    simp [hself]

/-- A symbolic reference to a branch is the value of a reference. -/
theorem isRefValue_symbolic {key : String} (hkey : hasPrefix "refs/heads/" key = true) :
    isRefValue git ("ref: " ++ key) = true := by
  obtain ⟨rest, hrest⟩ := hasPrefix_iff.mp hkey
  have hinfix : "ref: refs/".toList <:+: ("ref: " ++ key).toList := by
    refine ⟨[], "heads/".toList ++ rest, ?_⟩
    rw [String.toList_append, ← hrest]
    rfl
  unfold isRefValue
  rw [decide_eq_true hinfix, Bool.or_true]

/-- The branch that heads a state is one. -/
theorem hasPrefix_headBranch {state : RefMap} {key : String}
    (hkey : headBranch order state = some key) : hasPrefix "refs/heads/" key = true := by
  unfold headBranch at hkey
  split_ifs at hkey with hmaster hmain
  · rw [← Option.some.inj hkey]
    decide
  · rw [← Option.some.inj hkey]
    decide
  · exact List.find?_some hkey

/-- A state without a branch is headed by none, in whichever order it is searched. -/
theorem headBranch_eq_none_iff {state : RefMap} :
    headBranch order state = none ↔
      ∀ key ∈ state, ¬ hasPrefix "refs/heads/" key = true := by
  unfold headBranch
  split_ifs with hmaster hmain
  · exact iff_of_false not_false fun hno => hno _ hmaster (by decide)
  · exact iff_of_false not_false fun hno => hno _ hmain (by decide)
  · rw [List.find?_eq_none]
    simp only [order.mem_list, Finmap.mem_keys]

/-- Only the `HEAD` is added. -/
theorem lookup_addHead_of_ne (state : RefMap) {key : String} (hkey : key ≠ "HEAD") :
    (addHead order state).lookup key = state.lookup key := by
  unfold addHead
  split_ifs with hhead
  · rfl
  · split
    · exact Finmap.lookup_insert_of_ne _ hkey
    · rfl

/-- The `HEAD` that is added is a reference again. -/
theorem refEntry_addHead {state : RefMap}
    (hstate : ∀ key value, state.lookup key = some value → RefEntry git key value)
    {key value : String} (hlookup : (addHead order state).lookup key = some value) :
    RefEntry git key value := by
  by_cases hkey : key = "HEAD"
  · subst hkey
    unfold addHead at hlookup
    split_ifs at hlookup with hhead
    · exact hstate _ _ hlookup
    · split at hlookup
      case _ branch hbranch =>
        rw [Finmap.lookup_insert] at hlookup
        refine ⟨Or.inr (Or.inr rfl), ?_⟩
        rw [← Option.some.inj hlookup]
        exact isRefValue_symbolic (hasPrefix_headBranch hbranch)
      · exact hstate _ _ hlookup
  · rw [lookup_addHead_of_ne state hkey] at hlookup
    exact hstate _ _ hlookup

theorem addHead_eq_self {state : RefMap} (hnone : headBranch order state = none) :
    addHead order state = state := by
  unfold addHead
  rw [hnone, ite_self]

theorem head_mem_addHead {state : RefMap} {key : String}
    (hbranch : headBranch order state = some key) : "HEAD" ∈ addHead order state := by
  unfold addHead
  rw [hbranch]
  split_ifs with hhead
  · exact hhead
  · exact Finmap.mem_insert.mpr (Or.inl rfl)

/-- With its `HEAD` a state stays as it is, in whichever order it is searched. -/
theorem addHead_addHead (order order' : IterOrder String) (state : RefMap) :
    addHead order' (addHead order state) = addHead order state := by
  cases hbranch : headBranch order state with
  | none =>
      rw [addHead_eq_self hbranch]
      rw [headBranch_eq_none_iff] at hbranch
      exact addHead_eq_self (headBranch_eq_none_iff.mpr hbranch)
  | some key => exact if_pos (head_mem_addHead hbranch)

theorem mem_sortedKeys {state : RefMap} {key : String} :
    key ∈ sortedKeys order state ↔ key ∈ state := by
  unfold sortedKeys
  rw [List.mem_mergeSort, order.mem_list, Finmap.mem_keys]

/-- Entering every entry of a state into the empty one gives the state. -/
theorem foldl_insert_sortedKeys (state : RefMap) :
    (sortedKeys order state).foldl
      (fun read key => read.insert key ((state.lookup key).getD "")) ∅ = state := by
  have hentries : ∀ entry ∈ (sortedKeys order state).map
      fun key => (key, (state.lookup key).getD ""),
      state.lookup entry.1 = some entry.2 := by
    rw [List.forall_mem_map]
    intro key hkey
    obtain ⟨value, hvalue⟩ := Finmap.mem_iff.mp (mem_sortedKeys.mp hkey)
    rw [hvalue, Option.getD_some]
  apply Finmap.ext_lookup
  intro key
  have hread := lookup_insertEntries (fun key => state.lookup key) hentries ∅ key
  rw [insertEntries, List.foldl_map, List.map_map] at hread
  have hkeys : ∀ keys : List String, keys.map (Prod.fst ∘ fun key =>
      (key, (state.lookup key).getD "")) = keys := fun keys => List.map_id keys
  rw [hread, hkeys, Finmap.lookup_empty]
  split_ifs with hmem
  · rfl
  · rw [mem_sortedKeys] at hmem
    exact (Finmap.lookup_eq_none.mpr hmem).symm

/-- Every key of a state has its tag. -/
theorem mapM_refTag (state : RefMap) :
    (sortedKeys order state).mapM (refTag state) =
      .ok ((sortedKeys order state).map fun key =>
        ⟨[key, (state.lookup key).getD ""]⟩) := by
  rw [Outcome.mapM_eq_ok_iff, List.forall₂_map_right_iff, List.forall₂_same]
  intro key hkey
  obtain ⟨value, hvalue⟩ := Finmap.mem_iff.mp (mem_sortedKeys.mp hkey)
  simp [refTag, hvalue]

/-- The tag of a reference enters it. -/
theorem readRefTag_refTag {state read : RefMap} {key : String}
    (hstate : ∀ value, state.lookup key = some value → RefEntry git key value)
    (hmem : key ∈ state) :
    readRefTag git read ⟨[key, (state.lookup key).getD ""]⟩ =
      read.insert key ((state.lookup key).getD "") := by
  obtain ⟨value, hvalue⟩ := Finmap.mem_iff.mp hmem
  have hentry := hstate value hvalue
  simp [readRefTag, hvalue, hentry.isRefName, hentry.isRefValue_value]

/-- The tags of a state are read back to it. -/
theorem foldl_readRefTag {state : RefMap} (identifier : String)
    (hstate : ∀ key value, state.lookup key = some value → RefEntry git key value) :
    (⟨["d", identifier]⟩ :: (sortedKeys order state).map fun key =>
        (⟨[key, (state.lookup key).getD ""]⟩ : TagV3)).foldl (readRefTag git) ∅ =
      state := by
  have hidentifier : readRefTag git ∅ ⟨["d", identifier]⟩ = ∅ := by
    have hname : isRefName "d" = false := by decide
    simp [readRefTag, hname]
  have hread : ∀ read, ∀ key ∈ sortedKeys order state,
      readRefTag git read ⟨[key, (state.lookup key).getD ""]⟩ =
        read.insert key ((state.lookup key).getD "") := fun read key hkey =>
    readRefTag_refTag (hstate key) (mem_sortedKeys.mp hkey)
  rw [List.foldl_cons, hidentifier, List.foldl_map]
  exact (List.foldl_ext _ _ _ hread).trans (foldl_insert_sortedKeys state)

/-- A state is signed where the key derivation accepts the empty password. -/
theorem RepoState.exists_build (order : IterOrder String) (prims : Primitives)
    (bech32 : Bech32) (hex : Hex) {curve : Secp256k1} (schnorr : Schnorr curve)
    (identifier : String) (state : RefMap) (privateKey : PrivateKey curve) (now : Int64)
    (keyExport : ExportRandom) (random : Vector UInt8 32)
    (hkdf : PrivateKey.kdfAccepts prims "" 1 keyExport.salt = true) :
    ∃ built, RepoState.build order prims bech32 hex schnorr identifier state privateKey
        now keyExport random = .ok built ∧
      built.state = addHead order state ∧ built.event.kind = repoStateKind ∧
      built.event.tags = ⟨["d", identifier]⟩ ::
        (sortedKeys order built.state).map fun key =>
          ⟨[key, (built.state.lookup key).getD ""]⟩ := by
  obtain ⟨event, hevent, hfields⟩ := EventV3.exists_signWithPrivateKey
    { pubkey := privateKey.publicKey
      createdAt := now
      kind := repoStateKind
      tags := ⟨["d", identifier]⟩ :: (sortedKeys order (addHead order state)).map
        fun key => ⟨[key, ((addHead order state).lookup key).getD ""]⟩
      content := "" } privateKey random hkdf
  refine ⟨⟨identifier, addHead order state, event⟩, ?_, rfl,
    congrArg PreEventV3.kind hfields, congrArg PreEventV3.tags hfields⟩
  unfold RepoState.build
  dsimp only
  rw [mapM_refTag, Outcome.ok_bind, hevent, Outcome.ok_bind, Outcome.pure_eq]

/-- What is read of one event of a repository state. -/
theorem RepoState.tryFrom_singleton {event : EventV3} {identifier : String}
    {tags : List TagV3} (hkind : event.kind = repoStateKind)
    (htags : event.tags = ⟨["d", identifier]⟩ :: tags) :
    RepoState.tryFrom git order [event] =
      .ok ⟨identifier, addHead order (event.tags.foldl (readRefTag git) ∅), event⟩ := by
  have hidentifier : identifierOf event.tags = .ok identifier := by
    rw [htags]
    rfl
  unfold RepoState.tryFrom
  rw [List.mergeSort_singleton]
  simp [hkind, hidentifier]

/-- The event that is built for a state of accepted references is read back to the
identifier and the state with its `HEAD`, whatever the orders of iteration. -/
theorem RepoState.tryFrom_build (git : Git2) (order order' : IterOrder String)
    (prims : Primitives) (bech32 : Bech32) (hex : Hex) {curve : Secp256k1}
    (schnorr : Schnorr curve) (identifier : String) (state : RefMap)
    (hstate : ∀ key value, state.lookup key = some value → RefEntry git key value)
    (privateKey : PrivateKey curve) (now : Int64) (keyExport : ExportRandom)
    (random : Vector UInt8 32)
    (hkdf : PrivateKey.kdfAccepts prims "" 1 keyExport.salt = true) :
    ∃ built, RepoState.build order prims bech32 hex schnorr identifier state privateKey
        now keyExport random = .ok built ∧
      RepoState.tryFrom git order' [built.event] =
        .ok ⟨identifier, addHead order state, built.event⟩ := by
  obtain ⟨built, hbuilt, hbuiltState, hkind, htags⟩ := exists_build order prims bech32 hex
    schnorr identifier state privateKey now keyExport random hkdf
  refine ⟨built, hbuilt, ?_⟩
  have hentries : ∀ key value, built.state.lookup key = some value →
      RefEntry git key value := by
    rw [hbuiltState]
    exact fun key value => refEntry_addHead hstate
  rw [tryFrom_singleton hkind htags, htags, foldl_readRefTag identifier hentries,
    hbuiltState, addHead_addHead]

/-- A state of one branch. -/
def oneBranch : RefMap :=
  Finmap.singleton "refs/heads/main" "0123456789abcdef0123456789abcdef01234567"

theorem refEntry_oneBranch (key value : String)
    (hlookup : oneBranch.lookup key = some value) :
    RefEntry Git2.reference key value := by
  have hkey : key = "refs/heads/main" := by
    have hmem : key ∈ oneBranch := Finmap.mem_of_lookup_eq_some hlookup
    exact (Finmap.mem_singleton key _ _).mp hmem
  subst hkey
  rw [oneBranch, Finmap.lookup_singleton_eq] at hlookup
  rw [← Option.some.inj hlookup]
  exact ⟨Or.inl (by decide), by decide +kernel⟩

/-- A state of one branch comes back headed by it. -/
theorem RepoState.tryFrom_build_oneBranch :
    ∃ built, RepoState.build (IterOrder.some String) Primitives.transparent
        Bech32.reference Hex.reference (Schnorr.permissive boundedCurve) "gnostr"
        oneBranch boundedKey 1700000000 zeroExport (Vector.replicate 32 0) = .ok built ∧
      RepoState.tryFrom Git2.reference (IterOrder.some String) [built.event] =
        .ok ⟨"gnostr", oneBranch.insert "HEAD" "ref: refs/heads/main", built.event⟩ := by
  obtain ⟨built, hbuilt, hread⟩ := RepoState.tryFrom_build Git2.reference
    (IterOrder.some String) (IterOrder.some String) Primitives.transparent
    Bech32.reference Hex.reference (Schnorr.permissive boundedCurve) "gnostr" oneBranch
    refEntry_oneBranch boundedKey 1700000000 zeroExport (Vector.replicate 32 0) rfl
  have hhead : addHead (IterOrder.some String) oneBranch =
      oneBranch.insert "HEAD" "ref: refs/heads/main" := rfl
  exact ⟨built, hbuilt, hhead ▸ hread⟩

end RoundTrip

end Nip34

end Gnostr
