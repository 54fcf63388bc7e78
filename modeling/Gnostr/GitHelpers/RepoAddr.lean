/-
The repository an event refers to: `extract_repo_addr` of `git-helpers/src/nostr_relay.rs`.
The two forms of an address are told apart by the number of its colons, of which the name
of a repository may have some of its own.
-/
import Gnostr.GitHelpers.RemoteUrl
import Gnostr.Lib.Json

namespace Gnostr

namespace GitHelpers

section Source

def asArray : Json → Option (List Json)
  | .arr items => some items
  | _ => none

def asStr : Json → Option String
  | .str text => some text
  | _ => none

/-- `value[name]`, which is null where there is no such member. -/
def valueAt (name : String) : Json → Json
  | .obj members => (Json.member members name).getD .null
  | _ => .null

/-- What the value of an `a` tag is taken for: three parts between colons, or a key and a
name with a slash between them. -/
def parseRepoAddr (bech32 : Bech32) (hex : Hex) (val : String) : Option (String × String) :=
  match splitn ':' 3 val.toList with
  | [_, pubkeyHex, repoId] => some (String.ofList pubkeyHex, String.ofList repoId)
  | _ =>
      match splitOnce '/' val.toList with
      | none => none
      | some (npub, repo) =>
          match npubToHex bech32 hex (String.ofList npub) with
          | .ok keyHex => some (keyHex, String.ofList repo)
          | .error _ => none

/-- Each tag in order; one that is no array ends the loop, and so does an `a` tag without
a text. -/
def extractFromTags (bech32 : Bech32) (hex : Hex) : List Json → Option (String × String)
  | [] => none
  | tag :: tags =>
      match asArray tag with
      | none => none
      | some arr =>
          if arr.head?.bind asStr ≠ some "a" then extractFromTags bech32 hex tags
          else
            match arr[1]?.bind asStr with
            | none => none
            | some val =>
                (parseRepoAddr bech32 hex val).or (extractFromTags bech32 hex tags)

/-- The public key and the repository that the `a` tag of an event names. -/
def extractRepoAddr (bech32 : Bech32) (hex : Hex) (event : Json) :
    Option (String × String) :=
  (asArray (valueAt "tags" event)).bind (extractFromTags bech32 hex)

end Source

section Specification

def IsAddrTag (tag : Json) : Prop :=
  (asArray tag).bind (fun arr => arr.head?.bind asStr) = some "a"

/-- The value of the first `a` tag of an event, and the tags before it. -/
def FirstAddr (event : Json) (before : List Json) (val : String) : Prop :=
  ∃ more after, asArray (valueAt "tags" event) =
      some (before ++ .arr (.str "a" :: .str val :: more) :: after) ∧
    ∀ tag ∈ before, ¬ IsAddrTag tag

/-- The public key in bech32. -/
def npubOf (bech32 : Bech32) (key : Vector UInt8 32) : String :=
  (bech32.encode "npub" key.toList).getD ""

/-- The two ways to write an address. -/
inductive AddrForm where
  | standard
  | npubSlash
deriving Repr, DecidableEq

def AddrForm.value (bech32 : Bech32) (hex : Hex) (key : Vector UInt8 32) (repoId : String) :
    AddrForm → String
  | standard => "30617:" ++ hex.encode key.toList ++ ":" ++ repoId
  | npubSlash => npubOf bech32 key ++ "/" ++ repoId

end Specification

section Value

variable {bech32 : AlnumBech32} {hex : LowerHex} {key : Vector UInt8 32} {repoId : String}

theorem encode_npubOf (bech32 : Bech32) (key : Vector UInt8 32) :
    bech32.encode "npub" key.toList = some (npubOf bech32 key) := by
  have hshort : bech32Length "npub" key.toList.length ≤ bech32CodeLength := by
    rw [Vector.length_toList]
    decide
  obtain ⟨text, htext⟩ := (bech32.exists_encode_iff (by decide)).mpr hshort
  rw [npubOf, htext]
  rfl

theorem isKey_npubOf : IsKey bech32 hex.toHex (npubOf bech32.toBech32 key)
    (hex.encode key.toList) :=
  .npub Vector.length_toList (encode_npubOf _ _)

theorem colon_notMem_npubOf : ':' ∉ (npubOf bech32.toBech32 key).toList := fun hmem =>
  absurd (bech32.isAlphanum_of_encode (by decide) (encode_npubOf _ key) ':' hmem)
    (by decide)

/-- The standard form is read whatever the repository is called. -/
theorem parseRepoAddr_standard :
    parseRepoAddr bech32.toBech32 hex.toHex
        (AddrForm.standard.value bech32.toBech32 hex.toHex key repoId) =
      some (hex.encode key.toList, repoId) := by
  have hvalue : (AddrForm.standard.value bech32.toBech32 hex.toHex key repoId).toList =
      "30617".toList ++ ':' ::
        ((hex.encode key.toList).toList ++ ':' :: repoId.toList) := by
    simp [AddrForm.value, String.toList_append]
  have hkey : ':' ∉ (hex.encode key.toList).toList := hex.not_mem_encode (by decide) _
  unfold parseRepoAddr
  rw [hvalue, splitn_append (by decide), splitn_append hkey]
  simp [splitn]

theorem toList_npubSlash :
    (AddrForm.npubSlash.value bech32.toBech32 hex.toHex key repoId).toList =
      (npubOf bech32.toBech32 key).toList ++ '/' :: repoId.toList := by
  simp [AddrForm.value, String.toList_append]

/-- With fewer than two colons the form with a slash is told from the standard one. -/
theorem parseRepoAddr_npubSlash (hcount : repoId.toList.count ':' < 2) :
    parseRepoAddr bech32.toBech32 hex.toHex
        (AddrForm.npubSlash.value bech32.toBech32 hex.toHex key repoId) =
      some (hex.encode key.toList, repoId) := by
  have hkey : IsKey bech32 hex.toHex (npubOf bech32.toBech32 key) (hex.encode key.toList) :=
    isKey_npubOf
  have hsame : ((npubOf bech32.toBech32 key).toList ++ '/' :: repoId.toList).count ':' =
      repoId.toList.count ':' := by
    rw [List.count_append, List.count_eq_zero.mpr colon_notMem_npubOf, Nat.zero_add,
      List.count_cons_of_ne (by decide)]
  have hparts := length_splitn_lt_three (hsame.trans_lt hcount)
  unfold parseRepoAddr
  rw [toList_npubSlash]
  split
  · rename_i _ pubkeyHex repo hthree
    rw [hthree] at hparts
    exact absurd hparts (Nat.lt_irrefl 3)
  · rw [splitOnce_append hkey.slash_notMem]
    dsimp only
    rw [String.ofList_toList, hkey.npubToHex_eq]
    dsimp only
    rw [String.ofList_toList]

/-- With more of them it is cut at the first two. -/
theorem parseRepoAddr_npubSlash_colons {first second third : List Char}
    (hrepo : repoId.toList = first ++ ':' :: (second ++ ':' :: third))
    (hfirst : ':' ∉ first) (hsecond : ':' ∉ second) :
    parseRepoAddr bech32.toBech32 hex.toHex
        (AddrForm.npubSlash.value bech32.toBech32 hex.toHex key repoId) =
      some (String.ofList second, String.ofList third) := by
  have hsplit : (npubOf bech32.toBech32 key).toList ++ '/' :: repoId.toList =
      ((npubOf bech32.toBech32 key).toList ++ '/' :: first) ++
        ':' :: (second ++ ':' :: third) := by
    rw [hrepo, List.append_assoc, List.cons_append]
  have hbefore : ':' ∉ (npubOf bech32.toBech32 key).toList ++ '/' :: first := by
    rw [List.mem_append, List.mem_cons, not_or, not_or]
    exact ⟨colon_notMem_npubOf, by decide, hfirst⟩
  unfold parseRepoAddr
  rw [toList_npubSlash, hsplit, splitn_append hbefore, splitn_append hsecond]
  rfl

/-- The value of an address gives its key and its repository exactly when it is in the
standard form or the name of the repository has at most one colon. -/
theorem parseRepoAddr_value (form : AddrForm) :
    ∃ addr, parseRepoAddr bech32.toBech32 hex.toHex
        (form.value bech32.toBech32 hex.toHex key repoId) = some addr ∧
      (addr = (hex.encode key.toList, repoId) ↔
        form = .standard ∨ repoId.toList.count ':' < 2) := by
  cases form with
  | standard => exact ⟨_, parseRepoAddr_standard, iff_of_true rfl (.inl rfl)⟩
  | npubSlash =>
      rcases Nat.lt_or_ge (repoId.toList.count ':') 2 with hcount | hcount
      · exact ⟨_, parseRepoAddr_npubSlash hcount, iff_of_true rfl (.inr hcount)⟩
      · obtain ⟨first, second, third, hrepo, hfirst, hsecond⟩ :=
          exists_eq_of_two_le_count hcount
        refine ⟨_, parseRepoAddr_npubSlash_colons hrepo hfirst hsecond,
          iff_of_false (fun hsame => ?_) ?_⟩
        · have hthird : third = repoId.toList :=
            String.toList_ofList.symm.trans (congrArg (fun addr => addr.2.toList) hsame)
          have hlength := congrArg List.length hrepo
          rw [← hthird] at hlength
          simp at hlength
          omega
        · rintro (hform | hfew)
          · cases hform
          · exact Nat.not_lt.mpr hcount hfew

end Value

section Tags

variable {bech32 : Bech32} {hex : Hex}

theorem extractFromTags_skip {tag : Json} (harray : (asArray tag).isSome = true)
    (htag : ¬ IsAddrTag tag) (tags : List Json) :
    extractFromTags bech32 hex (tag :: tags) = extractFromTags bech32 hex tags := by
  obtain ⟨arr, harr⟩ := Option.isSome_iff_exists.mp harray
  rw [IsAddrTag, harr] at htag
  rw [extractFromTags, harr]
  exact if_pos htag

theorem extractFromTags_of_not_array {tag : Json} (harray : asArray tag = none)
    (tags : List Json) : extractFromTags bech32 hex (tag :: tags) = none := by
  rw [extractFromTags, harray]

/-- What stands before the first `a` tag matters only where it is no array. -/
theorem extractFromTags_append {before : List Json}
    (hbefore : ∀ tag ∈ before, ¬ IsAddrTag tag) (rest : List Json) :
    extractFromTags bech32 hex (before ++ rest) =
      if ∀ tag ∈ before, (asArray tag).isSome = true then extractFromTags bech32 hex rest
      else none := by
  induction before with
  | nil => rw [List.nil_append, if_pos nofun]
  | cons tag before ih =>
      obtain ⟨htag, hbefore⟩ := List.forall_mem_cons.mp hbefore
      rw [List.cons_append]
      cases harray : asArray tag with
      | none =>
          rw [extractFromTags_of_not_array harray, if_neg]
          intro hall
          cases harray.symm ▸ hall tag List.mem_cons_self
      | some arr =>
          have hsome : (asArray tag).isSome = true := by rw [harray, Option.isSome_some]
          rw [extractFromTags_skip hsome htag, ih hbefore]
          simp only [List.forall_mem_cons, hsome, true_and]

end Tags

section Events

variable {event : Json} {before : List Json}

/-- The first `a` tag decides, unless the loop ends before it. -/
theorem extractRepoAddr_of_firstAddr {bech32 : Bech32} {hex : Hex} {val : String}
    {addr : String × String} (hfirst : FirstAddr event before val)
    (hparse : parseRepoAddr bech32 hex val = some addr) :
    extractRepoAddr bech32 hex event =
      if ∀ tag ∈ before, (asArray tag).isSome = true then some addr else none := by
  obtain ⟨more, after, htags, hbefore⟩ := hfirst
  have hat : extractFromTags bech32 hex
      (.arr (.str "a" :: .str val :: more) :: after) = some addr := by
    rw [extractFromTags]
    change (if some "a" ≠ some "a" then _ else (parseRepoAddr bech32 hex val).or _) = _
    rw [if_neg (not_not_intro rfl), hparse, Option.some_or]
  rw [extractRepoAddr, htags, Option.bind_some, extractFromTags_append hbefore, hat]

variable {bech32 : AlnumBech32} {hex : LowerHex}

/-- The first `a` tag of an event names a key and a repository, in one of the two forms:
they are extracted exactly when every tag before it is an array and, in the form with the
slash, the name of the repository has at most one colon. -/
theorem extractRepoAddr_iff {form : AddrForm} {key : Vector UInt8 32} {repoId : String}
    (hfirst : FirstAddr event before
      (form.value bech32.toBech32 hex.toHex key repoId)) :
    extractRepoAddr bech32.toBech32 hex.toHex event = some (hex.encode key.toList, repoId) ↔
      (∀ tag ∈ before, (asArray tag).isSome = true) ∧
        (form = .standard ∨ repoId.toList.count ':' < 2) := by
  obtain ⟨addr, hparse, haddr⟩ := @parseRepoAddr_value bech32 hex key repoId form
  rw [extractRepoAddr_of_firstAddr hfirst hparse]
  split_ifs with harrays
  · rw [Option.some.injEq, haddr]
    exact (and_iff_right harrays).symm
  · exact iff_of_false nofun fun hboth => harrays hboth.1

/-- An event with a list of tags. -/
def eventWithTags (tags : List Json) : Json := .obj [("tags", .arr tags)]

theorem firstAddr_eventWithTags (val : String) :
    FirstAddr (eventWithTags [.arr [.str "a", .str val]]) [] val :=
  ⟨[], [], rfl, nofun⟩

theorem extractRepoAddr_iff_oneColon :
    extractRepoAddr Bech32.reference Hex.reference
        (eventWithTags [.arr [.str "a", .str (AddrForm.npubSlash.value Bech32.reference
          Hex.reference (Vector.replicate 32 0) "tools:gnostr")]]) =
      some (Hex.reference.encode (Vector.replicate 32 0).toList, "tools:gnostr") :=
  (@extractRepoAddr_iff _ _ Bech32.referenceAlnum Hex.referenceLower _ _ _
    (firstAddr_eventWithTags _)).mpr ⟨nofun, .inr (by decide)⟩

/-- A name with two colons is taken for two parts of an address in the standard form. -/
theorem not_extractRepoAddr_twoColons :
    ¬ ∀ (event : Json) (before : List Json) (form : AddrForm) (key : Vector UInt8 32)
        (repoId : String),
      FirstAddr event before (form.value Bech32.reference Hex.reference key repoId) →
        extractRepoAddr Bech32.reference Hex.reference event =
          some (Hex.reference.encode key.toList, repoId) := by
  intro hall
  have hexpected := hall _ _ .npubSlash (Vector.replicate 32 0) "a:b:c"
    (firstAddr_eventWithTags _)
  have hparse := @parseRepoAddr_npubSlash_colons Bech32.referenceAlnum Hex.referenceLower
    (Vector.replicate 32 0) "a:b:c" ['a'] ['b'] ['c'] rfl (by decide) (by decide)
  have hfound := extractRepoAddr_of_firstAddr (firstAddr_eventWithTags _) hparse
  rw [if_pos nofun] at hfound
  have hsame := congrArg Prod.snd (Option.some.inj (hfound.symm.trans hexpected))
  exact absurd hsame (by decide)

end Events

end GitHelpers

end Gnostr
