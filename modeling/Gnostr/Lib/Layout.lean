/-
Binary layouts: numbers written with the lowest byte first, sequences behind their
length in four bytes, and the field between two others of a layout that may have
been cut short.
-/
import Gnostr.Lib.Bytes
import Gnostr.Lib.Outcome

namespace Gnostr

universe u v

variable {α : Type u} {ε : Type v}

/-- The `width` lowest base-256 digits of a number, the lowest first. -/
def leBytes (width number : ℕ) : Bytes := (beBytes width number).reverse

def ofLeBytes (bytes : Bytes) : ℕ := ofBeBytes bytes.reverse

@[simp] theorem length_leBytes (width number : ℕ) :
    (leBytes width number).length = width := by
  rw [leBytes, List.length_reverse, length_beBytes]

theorem ofLeBytes_leBytes {width number : ℕ} (hlt : number < 256 ^ width) :
    ofLeBytes (leBytes width number) = number := by
  rw [ofLeBytes, leBytes, List.reverse_reverse, ofBeBytes_beBytes hlt]

/-- A length is written in four bytes, a longer sequence is not written. -/
def writeLength (length : ℕ) : Option Bytes :=
  if length < 2 ^ 32 then some (leBytes 4 length) else none

theorem writeLength_eq_some_iff {length : ℕ} {bytes : Bytes} :
    writeLength length = some bytes ↔
      length < 2 ^ 32 ∧ bytes = leBytes 4 length := by
  unfold writeLength
  split_ifs with hlt
  · rw [Option.some.injEq, and_iff_right hlt, eq_comm]
  · exact iff_of_false nofun fun hboth => hlt hboth.1

/-- A text, behind its length. -/
def writeString (text : String) : Option Bytes :=
  (writeLength (utf8 text).length).map fun head => head ++ utf8 text

theorem writeString_eq_some_iff {text : String} {bytes : Bytes} :
    writeString text = some bytes ↔
      (utf8 text).length < 2 ^ 32 ∧
        bytes = leBytes 4 (utf8 text).length ++ utf8 text := by
  rw [writeString, Option.map_eq_some_iff]
  constructor
  · rintro ⟨head, hhead, rfl⟩
    obtain ⟨hlt, rfl⟩ := writeLength_eq_some_iff.mp hhead
    exact ⟨hlt, rfl⟩
  · rintro ⟨hlt, rfl⟩
    exact ⟨_, writeLength_eq_some_iff.mpr ⟨hlt, rfl⟩, rfl⟩

/-- Items one behind the other, behind their number. -/
def writeVec (write : α → Option Bytes) (items : List α) : Option Bytes := do
  let head ← writeLength items.length
  let parts ← items.mapM write
  return head ++ parts.flatten

/-- What stands behind a part of a layout of which the first `kept` bytes are
there: it is cut out as long as it is there whole. -/
theorem slice_take_of_prefix {bytes before field : List α} {start stop : ℕ}
    (hlayout : before ++ field <+: bytes) (hstart : before.length = start)
    (hstop : start + field.length = stop) (kept : ℕ) :
    (Outcome.slice (bytes.take kept) start stop : Outcome ε (List α)) =
      if stop ≤ kept then .ok field else .panic := by
  obtain ⟨after, rfl⟩ := hlayout
  subst hstart hstop
  have hlength : (before ++ field ++ after).length =
      before.length + field.length + after.length := by
    simp only [List.length_append]
  split_ifs with hkept
  · have hstop : before.length + field.length ≤
        ((before ++ field ++ after).take kept).length := by
      rw [List.length_take, hlength]
      exact le_min hkept (Nat.le_add_right _ _)
    rw [Outcome.slice_of_le (Nat.le_add_right _ _) hstop, List.take_take,
      Nat.min_eq_left hkept, ← List.length_append, List.take_left,
      List.drop_left]
  · unfold Outcome.slice
    refine if_neg fun hbounds => hkept ?_
    exact hbounds.2.trans (List.length_take_le _ _)

end Gnostr
