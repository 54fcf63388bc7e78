/-
Byte positions in a text of Unicode characters: those between two characters,
where it can be cut, and the parts it is cut into.
-/
import Gnostr.Lib.Outcome
import Mathlib.Data.String.Basic

namespace Gnostr

open String (utf8Len)

/-- `split_at_checked`: the parts of a text before and after a byte position
that is not within a character. -/
def splitAtByte : List Char → ℕ → Option (List Char × List Char)
  | text, 0 => some ([], text)
  | [], _ + 1 => none
  | c :: text, pos + 1 =>
      if c.utf8Size ≤ pos + 1 then
        (splitAtByte text (pos + 1 - c.utf8Size)).map fun parts =>
          (c :: parts.1, parts.2)
      else none

theorem splitAtByte_append (before after : List Char) :
    splitAtByte (before ++ after) (utf8Len before) = some (before, after) := by
  induction before with
  | nil => cases after <;> rfl
  | cons c before ih =>
      obtain ⟨pos, hpos⟩ : ∃ pos, utf8Len before + c.utf8Size = pos + 1 :=
        Nat.exists_eq_add_one.mpr (Nat.lt_add_left _ c.utf8Size_pos)
      have hrest : pos + 1 - c.utf8Size = utf8Len before := by omega
      rw [String.utf8Len_cons, hpos, List.cons_append, splitAtByte,
        if_pos (by omega), hrest, ih]
      rfl

theorem splitAtByte_eq_some_iff {text before after : List Char} {pos : ℕ} :
    splitAtByte text pos = some (before, after) ↔
      text = before ++ after ∧ pos = utf8Len before := by
  constructor
  · intro hsplit
    induction text, pos using splitAtByte.induct generalizing before with
    | case1 text =>
        cases text <;> cases hsplit <;> exact ⟨rfl, rfl⟩
    | case2 pos => cases hsplit
    | case3 c text pos hle ih =>
        rw [splitAtByte, if_pos hle, Option.map_eq_some_iff] at hsplit
        obtain ⟨⟨first, second⟩, hparts, heq⟩ := hsplit
        cases heq
        obtain ⟨rfl, hpos⟩ := ih hparts
        refine ⟨rfl, ?_⟩
        rw [String.utf8Len_cons, ← hpos, Nat.sub_add_cancel hle]
    | case4 c text pos hlt =>
        rw [splitAtByte, if_neg hlt] at hsplit
        cases hsplit
  · rintro ⟨rfl, rfl⟩
    exact splitAtByte_append before after

/-- Behind a part of the text, positions are counted from the end of that part. -/
theorem splitAtByte_append_add (before after : List Char) (pos : ℕ) :
    splitAtByte (before ++ after) (utf8Len before + pos) =
      (splitAtByte after pos).map fun parts => (before ++ parts.1, parts.2) := by
  induction before with
  | nil =>
      rw [String.utf8Len_nil, Nat.zero_add, List.nil_append]
      exact Option.map_id'.symm
  | cons c before ih =>
      obtain ⟨last, hlast⟩ : ∃ last, utf8Len before + c.utf8Size + pos = last + 1 := by
        have hpos := c.utf8Size_pos
        exact Nat.exists_eq_add_one.mpr (by omega)
      have hrest : last + 1 - c.utf8Size = utf8Len before + pos := by omega
      rw [String.utf8Len_cons, hlast, List.cons_append, splitAtByte,
        if_pos (by omega), hrest, ih, Option.map_map]
      rfl

/-- `text.get(start..)`. -/
def getFrom (text : List Char) (start : ℕ) : Option (List Char) :=
  (splitAtByte text start).map Prod.snd

/-- `text.get(start..stop)`. -/
def getRange (text : List Char) (start stop : ℕ) : Option (List Char) :=
  if start ≤ stop then do
    let rest ← getFrom text start
    let parts ← splitAtByte rest (stop - start)
    return parts.1
  else none

theorem getFrom_eq_some_iff {text after : List Char} {start : ℕ} :
    getFrom text start = some after ↔
      ∃ before, text = before ++ after ∧ start = utf8Len before := by
  rw [getFrom, Option.map_eq_some_iff]
  constructor
  · rintro ⟨⟨before, after⟩, hsplit, rfl⟩
    exact ⟨before, splitAtByte_eq_some_iff.mp hsplit⟩
  · rintro ⟨before, hsplit⟩
    exact ⟨(before, after), splitAtByte_eq_some_iff.mpr hsplit, rfl⟩

theorem getFrom_append (before after : List Char) :
    getFrom (before ++ after) (utf8Len before) = some after :=
  getFrom_eq_some_iff.mpr ⟨before, rfl, rfl⟩

theorem length_lt_of_getFrom {text after : List Char} {start : ℕ}
    (hafter : getFrom text start = some after) (hpos : 0 < start) :
    after.length < text.length := by
  obtain ⟨before, rfl, rfl⟩ := getFrom_eq_some_iff.mp hafter
  have hbefore : before ≠ [] := mt String.utf8Len_eq_zero.mpr hpos.ne'
  have hlength := List.length_pos_iff.mpr hbefore
  rw [List.length_append]
  omega

/-- What is selected stands in the text at that place. -/
theorem getRange_eq_some_iff {text word : List Char} {start stop : ℕ} :
    getRange text start stop = some word ↔
      ∃ before after, text = before ++ word ++ after ∧
        start = utf8Len before ∧ stop = utf8Len before + utf8Len word := by
  unfold getRange
  constructor
  · intro hword
    split at hword
    · rename_i hle
      obtain ⟨rest, hrest, hword⟩ := Option.bind_eq_some_iff.mp hword
      obtain ⟨⟨first, after⟩, hparts, heq⟩ := Option.bind_eq_some_iff.mp hword
      cases heq
      obtain ⟨before, rfl, rfl⟩ := getFrom_eq_some_iff.mp hrest
      obtain ⟨rfl, hstop⟩ := splitAtByte_eq_some_iff.mp hparts
      exact ⟨before, after, (List.append_assoc _ _ _).symm, rfl,
        (Nat.eq_add_of_sub_eq hle hstop).trans (Nat.add_comm _ _)⟩
    · cases hword
  · rintro ⟨before, after, rfl, rfl, rfl⟩
    rw [if_pos (Nat.le_add_right _ _), List.append_assoc, getFrom_append,
      Nat.add_sub_cancel_left]
    exact Option.bind_eq_some_iff.mpr ⟨word ++ after, rfl,
      Option.bind_eq_some_iff.mpr ⟨(word, after), splitAtByte_append word after,
        rfl⟩⟩

theorem getRange_append (before word after : List Char) :
    getRange (before ++ word ++ after) (utf8Len before)
      (utf8Len before + utf8Len word) = some word :=
  getRange_eq_some_iff.mpr ⟨before, after, rfl, rfl, rfl⟩

/-- There is something to select exactly between two places of the text. -/
theorem getRange_isSome_iff {text : List Char} {start stop : ℕ} :
    (getRange text start stop).isSome = true ↔
      start ≤ stop ∧ (splitAtByte text start).isSome = true ∧
        (splitAtByte text stop).isSome = true := by
  rw [getRange]
  split
  · rename_i hle
    rw [and_iff_right hle, getFrom]
    cases hstart : splitAtByte text start with
    | none => simp
    | some parts =>
        obtain ⟨before, rest⟩ := parts
        obtain ⟨rfl, rfl⟩ := splitAtByte_eq_some_iff.mp hstart
        have hstop : stop = utf8Len before + (stop - utf8Len before) := by omega
        have hmap := splitAtByte_append_add before rest (stop - utf8Len before)
        rw [← hstop] at hmap
        rw [hmap, Option.isSome_map]
        cases hrest : splitAtByte rest (stop - utf8Len before) with
        | none => simp [hrest]
        | some parts => simp [hrest]
  · rename_i hlt
    exact iff_of_false Bool.false_ne_true fun hall => hlt hall.1

theorem splitAtByte_zero (text : List Char) : splitAtByte text 0 = some ([], text) := by
  cases text <;> rfl

theorem splitAtByte_length (text : List Char) :
    splitAtByte text (utf8Len text) = some (text, []) := by
  have hsplit := splitAtByte_append text []
  rwa [List.append_nil] at hsplit

/-- Byte positions tell the places of a text apart. -/
theorem append_inj_of_utf8Len {before before' after after' : List Char}
    (htext : before ++ after = before' ++ after')
    (hlength : utf8Len before = utf8Len before') :
    before = before' ∧ after = after' := by
  have hsplit := splitAtByte_append before after
  rw [htext, hlength, splitAtByte_append] at hsplit
  cases hsplit
  exact ⟨rfl, rfl⟩

example : getRange "añb".toList 1 3 = some ['ñ'] := by decide

example : getRange "añb".toList 1 2 = none := by decide

end Gnostr
