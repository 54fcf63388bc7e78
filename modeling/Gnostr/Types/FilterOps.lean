/-
Building a filter of `types/src/nostr/filter.rs` value by value.  Deleting takes away one
occurrence of a value, and adding a tag value, alone of all additions, does not look whether
the value is there.
-/
import Gnostr.Lib.Machine
import Gnostr.Lib.SwapRemove
import Gnostr.Types.FilterJson

namespace Gnostr

namespace Types

namespace TagMap

/-- `BTreeMap::get`. -/
def get (tags : TagMap) (letter : Char) : Option (List String) := tags.entries.lookup letter

/-- `BTreeMap::remove`. -/
def remove (tags : TagMap) (letter : Char) : TagMap :=
  ⟨tags.entries.filter fun entry => entry.1 != letter, tags.sorted.filter _⟩

variable {tags : TagMap} {letter other : Char} {values : List String}

theorem get_insert_self : (tags.insert letter values).get letter = some values := by
  unfold get insert
  dsimp only
  induction tags.entries with
  | nil => exact List.lookup_cons_self
  | cons first rest ih =>
      unfold insertEntry
      split_ifs with hlt heq
      · exact List.lookup_cons_self
      · exact List.lookup_cons_self
      · rw [List.lookup_cons, beq_false_of_ne heq]
        exact ih

theorem get_insert_of_ne (hne : other ≠ letter) :
    (tags.insert letter values).get other = tags.get other := by
  unfold get insert
  dsimp only
  induction tags.entries with
  | nil => rw [insertEntry, List.lookup_cons, beq_false_of_ne hne]
  | cons first rest ih =>
      unfold insertEntry
      split_ifs with hlt heq
      · rw [List.lookup_cons, beq_false_of_ne hne]
      · rw [List.lookup_cons, List.lookup_cons, beq_false_of_ne hne, ← heq,
          beq_false_of_ne hne]
      · rw [List.lookup_cons, List.lookup_cons, ih]

theorem get_insert :
    (tags.insert letter values).get other =
      if other = letter then some values else tags.get other := by
  split_ifs with heq
  · rw [heq, get_insert_self]
  · exact get_insert_of_ne heq

/-- The entries are what is found under the letters. -/
theorem mem_entries_iff : (letter, values) ∈ tags.entries ↔ tags.get letter = some values := by
  obtain ⟨entries, hsorted⟩ := tags
  unfold get
  dsimp only
  induction entries with
  | nil => simp
  | cons first rest ih =>
      obtain ⟨hfirst, hrest⟩ := List.pairwise_cons.mp hsorted
      rw [List.mem_cons, ih hrest, List.lookup_cons]
      by_cases heq : letter = first.1
      · have hnone : rest.lookup letter = none := by
          rw [List.lookup_eq_none_iff]
          intro entry hentry
          simpa [heq] using (hfirst entry hentry).ne
        rw [hnone, beq_iff_eq.mpr heq, Prod.ext_iff]
        simpa [heq] using eq_comm
      · rw [beq_false_of_ne heq, Prod.ext_iff]
        simp [heq]

/-- A map is what is found under its letters. -/
theorem ext_get {first second : TagMap}
    (hsame : ∀ letter, first.get letter = second.get letter) : first = second := by
  apply ext_entries
  have hnodup : ∀ tags : TagMap, tags.entries.Nodup := fun tags =>
    List.Pairwise.imp (fun hlt heq => hlt.ne (congrArg Prod.fst heq)) tags.sorted
  have hperm : first.entries.Perm second.entries := by
    rw [List.perm_ext_iff_of_nodup (hnodup first) (hnodup second)]
    rintro ⟨letter, values⟩
    rw [mem_entries_iff, mem_entries_iff, hsame]
  exact hperm.eq_of_pairwise (fun a b _ _ hlt hgt => absurd hlt (lt_asymm hgt)) first.sorted
    second.sorted

theorem insert_comm (hne : other ≠ letter) (values otherValues : List String) :
    (tags.insert letter values).insert other otherValues =
      (tags.insert other otherValues).insert letter values := by
  apply ext_get
  intro asked
  simp only [get_insert]
  split_ifs with hother hletter
  · exact absurd (hother.symm.trans hletter) hne
  · rfl
  · rfl
  · rfl

/-- Entries of different letters may be inserted in any order. -/
theorem foldl_insert_perm {entries order : List (Char × List String)}
    (hletters : (entries.map Prod.fst).Nodup) (hperm : order.Perm entries) (tags : TagMap) :
    order.foldl (fun tags entry => tags.insert entry.1 entry.2) tags =
      entries.foldl (fun tags entry => tags.insert entry.1 entry.2) tags := by
  apply hperm.foldl_eq'
  intro first hfirst second hsecond tags
  by_cases hsame : second.1 = first.1
  · have heq : second = first := List.inj_on_of_nodup_map hletters
      (hperm.subset hsecond) (hperm.subset hfirst) hsame
    rw [heq]
  · exact insert_comm hsame first.2 second.2

theorem get_remove_self : (tags.remove letter).get letter = none := by
  unfold get remove
  rw [List.lookup_eq_none_iff]
  intro entry hentry
  have hne := (List.mem_filter.mp hentry).2
  rw [bne_iff_ne] at hne ⊢
  exact hne.symm

theorem get_remove_of_ne (hne : other ≠ letter) :
    (tags.remove letter).get other = tags.get other := by
  unfold get remove
  dsimp only
  induction tags.entries with
  | nil => rfl
  | cons first rest ih =>
      by_cases hfirst : first.1 = letter
      · rw [List.filter_cons_of_neg (by simp [hfirst]), ih, List.lookup_cons, hfirst,
          beq_false_of_ne hne]
      · rw [List.filter_cons_of_pos (by simp [hfirst]), List.lookup_cons, List.lookup_cons, ih]

end TagMap

namespace LimitedFilter

/-- `Filter::new`. -/
def new : LimitedFilter := ⟨⟨[], [], [], .empty, none, none⟩, none⟩

variable (filter : LimitedFilter)

def addId (id : String) : LimitedFilter := { filter with ids := addUnique id filter.ids }

def delId (id : String) : LimitedFilter := { filter with ids := deleteFirst id filter.ids }

def addAuthor (pubkey : String) : LimitedFilter :=
  { filter with authors := addUnique pubkey filter.authors }

def delAuthor (pubkey : String) : LimitedFilter :=
  { filter with authors := deleteFirst pubkey filter.authors }

def addEventKind (kind : EventKind) : LimitedFilter :=
  { filter with kinds := addUnique kind filter.kinds }

def delEventKind (kind : EventKind) : LimitedFilter :=
  { filter with kinds := deleteFirst kind filter.kinds }

/-- The value is pushed, whether or not it is there. -/
def addTagValue (letter : Char) (value : String) : LimitedFilter :=
  match filter.tags.get letter with
  | some values => { filter with tags := filter.tags.insert letter (values ++ [value]) }
  | none => { filter with tags := filter.tags.insert letter [value] }

def delTagValue (letter : Char) (value : String) : LimitedFilter :=
  match filter.tags.get letter with
  | some values =>
      let values := deleteFirst value values
      let tags := filter.tags.insert letter values
      { filter with tags := if values.isEmpty then tags.remove letter else tags }
  | none => filter

def setTagValues (letter : Char) (values : List String) : LimitedFilter :=
  { filter with tags := filter.tags.insert letter values }

def clearTagValues (letter : Char) : LimitedFilter :=
  { filter with tags := filter.tags.remove letter }

/-- The values of a tag, none when the letter is not there. -/
def tagValues (letter : Char) : List String := (filter.tags.get letter).getD []

section TagValues

variable {filter : LimitedFilter} {letter other : Char} {value : String}

theorem tagValues_addTagValue :
    (filter.addTagValue letter value).tagValues letter =
      filter.tagValues letter ++ [value] := by
  unfold addTagValue tagValues
  cases hget : filter.tags.get letter with
  | none => exact congrArg (Option.getD · []) TagMap.get_insert_self
  | some values => exact congrArg (Option.getD · []) TagMap.get_insert_self

theorem tagValues_delTagValue :
    (filter.delTagValue letter value).tagValues letter =
      deleteFirst value (filter.tagValues letter) := by
  unfold delTagValue tagValues
  cases hget : filter.tags.get letter with
  | none =>
      dsimp only
      rw [hget]
      rfl
  | some values =>
      dsimp only
      split_ifs with hempty
      · rw [TagMap.get_remove_self, Option.getD_some, List.isEmpty_iff.mp hempty]
        rfl
      · rw [TagMap.get_insert_self]
        rfl

theorem get_delTagValue_of_ne (hne : other ≠ letter) :
    (filter.delTagValue letter value).tags.get other = filter.tags.get other := by
  unfold delTagValue
  cases hget : filter.tags.get letter with
  | none => rfl
  | some values =>
      dsimp only
      split_ifs
      · rw [TagMap.get_remove_of_ne hne, TagMap.get_insert_of_ne hne]
      · exact TagMap.get_insert_of_ne hne

theorem delTagValue_with_tags :
    { filter.delTagValue letter value with tags := filter.tags } = filter := by
  unfold delTagValue
  cases filter.tags.get letter <;> rfl

theorem addTagValue_ne : filter.addTagValue letter value ≠ filter := by
  intro hsame
  have hvalues := @tagValues_addTagValue filter letter value
  rw [hsame] at hvalues
  have hlength := congrArg List.length hvalues
  rw [List.length_append, List.length_singleton] at hlength
  exact Nat.ne_add_one _ hlength

end TagValues

end LimitedFilter

/-- An operation that builds a filter. -/
inductive FilterOp where
  | addId (id : String)
  | delId (id : String)
  | addAuthor (pubkey : String)
  | delAuthor (pubkey : String)
  | addEventKind (kind : EventKind)
  | delEventKind (kind : EventKind)
  | addTagValue (letter : Char) (value : String)
  | delTagValue (letter : Char) (value : String)
  | setTagValues (letter : Char) (values : List String)
  | clearTagValues (letter : Char)

def FilterOp.apply (filter : LimitedFilter) : FilterOp → LimitedFilter
  | .addId id => filter.addId id
  | .delId id => filter.delId id
  | .addAuthor pubkey => filter.addAuthor pubkey
  | .delAuthor pubkey => filter.delAuthor pubkey
  | .addEventKind kind => filter.addEventKind kind
  | .delEventKind kind => filter.delEventKind kind
  | .addTagValue letter value => filter.addTagValue letter value
  | .delTagValue letter value => filter.delTagValue letter value
  | .setTagValues letter values => filter.setTagValues letter values
  | .clearTagValues letter => filter.clearTagValues letter

/-- A filter under a sequence of operations; it emits nothing. -/
def filterMachine : Machine LimitedFilter FilterOp Empty where
  step filter op := (op.apply filter, [])

/-- A deletion takes its value, and nothing else, away, and adding a value that is there
changes nothing. -/
def ActsOnSets (filter : LimitedFilter) (op : FilterOp) : Prop :=
  let after := op.apply filter
  match op with
  | .addId id => id ∈ filter.ids → after = filter
  | .addAuthor pubkey => pubkey ∈ filter.authors → after = filter
  | .addEventKind kind => kind ∈ filter.kinds → after = filter
  | .addTagValue letter value => value ∈ filter.tagValues letter → after = filter
  | .delId id => Deletes id filter.ids after.ids ∧ { after with ids := filter.ids } = filter
  | .delAuthor pubkey =>
      Deletes pubkey filter.authors after.authors ∧
        { after with authors := filter.authors } = filter
  | .delEventKind kind =>
      Deletes kind filter.kinds after.kinds ∧ { after with kinds := filter.kinds } = filter
  | .delTagValue letter value =>
      Deletes value (filter.tagValues letter) (after.tagValues letter) ∧
        (∀ other, other ≠ letter → after.tags.get other = filter.tags.get other) ∧
        { after with tags := filter.tags } = filter
  | .setTagValues _ _ => True
  | .clearTagValues _ => True

/-- A tag value that is added is not there, and one that is deleted stands there once at
most. -/
def KeepsUnique (filter : LimitedFilter) : FilterOp → Prop
  | .addTagValue letter value => value ∉ filter.tagValues letter
  | .delTagValue letter value => (filter.tagValues letter).count value ≤ 1
  | _ => True

/-- No value stands twice in the lists other than those of the tags. -/
structure Unique (filter : LimitedFilter) : Prop where
  ids : filter.ids.Nodup
  authors : filter.authors.Nodup
  kinds : filter.kinds.Nodup

theorem unique_new : Unique .new := ⟨List.nodup_nil, List.nodup_nil, List.nodup_nil⟩

theorem unique_apply {filter : LimitedFilter} (hunique : Unique filter) (op : FilterOp) :
    Unique (op.apply filter) := by
  obtain ⟨hids, hauthors, hkinds⟩ := hunique
  cases op with
  | addId id => exact ⟨nodup_addUnique hids, hauthors, hkinds⟩
  | delId id => exact ⟨nodup_deleteFirst hids, hauthors, hkinds⟩
  | addAuthor pubkey => exact ⟨hids, nodup_addUnique hauthors, hkinds⟩
  | delAuthor pubkey => exact ⟨hids, nodup_deleteFirst hauthors, hkinds⟩
  | addEventKind kind => exact ⟨hids, hauthors, nodup_addUnique hkinds⟩
  | delEventKind kind => exact ⟨hids, hauthors, nodup_deleteFirst hkinds⟩
  | addTagValue letter value =>
      change Unique (filter.addTagValue letter value)
      unfold LimitedFilter.addTagValue
      split <;> exact ⟨hids, hauthors, hkinds⟩
  | delTagValue letter value =>
      change Unique (filter.delTagValue letter value)
      unfold LimitedFilter.delTagValue
      split <;> exact ⟨hids, hauthors, hkinds⟩
  | setTagValues letter values => exact ⟨hids, hauthors, hkinds⟩
  | clearTagValues letter => exact ⟨hids, hauthors, hkinds⟩

/-- An operation acts as on sets exactly when it keeps the values of the tags unique where
it touches them. -/
theorem actsOnSets_iff {filter : LimitedFilter} (hunique : Unique filter) (op : FilterOp) :
    ActsOnSets filter op ↔ KeepsUnique filter op := by
  cases op with
  | addId id =>
      refine iff_of_true (fun hmem => ?_) trivial
      change { filter with ids := addUnique id filter.ids } = filter
      rw [addUnique_of_mem hmem]
  | delId id => exact iff_of_true ⟨deletes_deleteFirst_of_nodup hunique.ids, rfl⟩ trivial
  | addAuthor pubkey =>
      refine iff_of_true (fun hmem => ?_) trivial
      change { filter with authors := addUnique pubkey filter.authors } = filter
      rw [addUnique_of_mem hmem]
  | delAuthor pubkey =>
      exact iff_of_true ⟨deletes_deleteFirst_of_nodup hunique.authors, rfl⟩ trivial
  | addEventKind kind =>
      refine iff_of_true (fun hmem => ?_) trivial
      change { filter with kinds := addUnique kind filter.kinds } = filter
      rw [addUnique_of_mem hmem]
  | delEventKind kind =>
      exact iff_of_true ⟨deletes_deleteFirst_of_nodup hunique.kinds, rfl⟩ trivial
  | addTagValue letter value =>
      exact ⟨fun hacts hmem => LimitedFilter.addTagValue_ne (hacts hmem),
        fun hnot hmem => absurd hmem hnot⟩
  | delTagValue letter value =>
      have hdeletes := @deletes_deleteFirst_iff _ _ value (filter.tagValues letter)
      rw [← LimitedFilter.tagValues_delTagValue] at hdeletes
      refine Iff.trans ⟨And.left, fun hdeleted => ⟨hdeleted, ?_⟩⟩ hdeletes
      exact ⟨fun other => LimitedFilter.get_delTagValue_of_ne,
        LimitedFilter.delTagValue_with_tags⟩
  | setTagValues letter values => exact Iff.rfl
  | clearTagValues letter => exact Iff.rfl

/-- Every operation on a filter acts as on sets exactly when no tag value is added that is
there and none is deleted that stands there twice. -/
theorem run_actsOnSets_iff (ops : List FilterOp) :
    filterMachine.EachStep ActsOnSets .new ops ↔
      filterMachine.EachStep KeepsUnique .new ops :=
  @Machine.eachStep_congr _ _ _ filterMachine Unique _ _
    (fun _ op hunique => unique_apply hunique op)
    (fun _ op hunique => actsOnSets_iff hunique op) _ unique_new ops

/-- A value that was added twice is there after it was deleted. -/
theorem mem_tagValues_addTwice :
    "a" ∈ (filterMachine.run .new
      [.addTagValue 'e' "a", .addTagValue 'e' "a", .delTagValue 'e' "a"]).tagValues 'e' := by
  decide +kernel

theorem not_run_actsOnSets_addTwice :
    ¬ ∀ ops, filterMachine.EachStep ActsOnSets .new ops := by
  intro hall
  have hdeletes : Deletes "a" _ _ :=
    (hall _ [.addTagValue 'e' "a", .addTagValue 'e' "a"] (.delTagValue 'e' "a") [] rfl).1
  exact hdeletes.absent mem_tagValues_addTwice

end Types

end Gnostr
