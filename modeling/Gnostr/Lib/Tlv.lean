/-
Lists of typed values with one length byte each, and the two loops that read
them: one stops at the end of the data, the other two bytes before it.
-/
import Gnostr.Lib.Bytes
import Gnostr.Lib.Outcome

namespace Gnostr

universe u

/-- A type and a value. -/
abbrev TlvEntry := UInt8 × Bytes

/-- The type, the length as a byte, which wraps around, and the value. -/
def encodeTlv (entry : TlvEntry) : Bytes :=
  entry.1 :: UInt8.ofNat entry.2.length :: entry.2

/-- As much of a value as its length byte says. -/
def cutToLengthByte (value : Bytes) : Bytes := value.take (value.length % 256)

theorem length_encodeTlv (entry : TlvEntry) :
    (encodeTlv entry).length = entry.2.length + 2 := rfl

theorem length_cutToLengthByte (value : Bytes) :
    (cutToLengthByte value).length = value.length % 256 := by
  rw [cutToLengthByte, List.length_take, Nat.min_eq_left (Nat.mod_le _ _)]

theorem length_cutToLengthByte_le (value : Bytes) :
    (cutToLengthByte value).length ≤ 255 := by
  rw [length_cutToLengthByte]
  omega

theorem cutToLengthByte_of_le {value : Bytes} (hle : value.length ≤ 255) :
    cutToLengthByte value = value := by
  rw [cutToLengthByte, Nat.mod_eq_of_lt (by omega), List.take_length]

theorem cutToLengthByte_ne_of_lt {value : Bytes} (hlt : 255 < value.length) :
    cutToLengthByte value ≠ value := by
  intro heq
  have hlength := length_cutToLengthByte_le value
  rw [heq] at hlength
  omega

section Read

variable {ε : Type u}

/-- Read the entry at a place, of which at least two bytes must be there. -/
def readTlvAt (short : ε) (data : Bytes) (cursor : ℕ) :
    Outcome ε (TlvEntry × ℕ) := do
  let ty ← Outcome.index data cursor
  let len ← Outcome.index data (cursor + 1)
  if cursor + 2 + len.toNat > data.length then .err short
  else do
    let raw ← Outcome.slice data (cursor + 2) (cursor + 2 + len.toNat)
    return ((ty, raw), cursor + 2 + len.toNat)

def readTlv (short : ε) (data : Bytes) (cursor : ℕ) :
    Outcome ε (TlvEntry × ℕ) :=
  if cursor + 2 > data.length then .err short
  else readTlvAt short data cursor

/-- What reading does when the type and the length are there. -/
theorem readTlvAt_eq (short : ε) {data : Bytes} {cursor : ℕ}
    (hle : cursor + 2 ≤ data.length) :
    readTlvAt short data cursor =
      if cursor + 2 + data[cursor + 1].toNat > data.length then .err short
      else
        .ok ((data[cursor],
          (data.take (cursor + 2 + data[cursor + 1].toNat)).drop (cursor + 2)),
          cursor + 2 + data[cursor + 1].toNat) := by
  unfold readTlvAt
  rw [Outcome.index_of_lt (by omega), Outcome.ok_bind,
    Outcome.index_of_lt (by omega), Outcome.ok_bind]
  split
  · rfl
  · rw [Outcome.slice_of_le (by omega) (by omega)]
    rfl

theorem returns_readTlvAt (short : ε) {data : Bytes} {cursor : ℕ}
    (hle : cursor + 2 ≤ data.length) :
    (readTlvAt short data cursor).Returns := by
  rw [readTlvAt_eq short hle]
  split
  · exact Outcome.returns_err _
  · exact Outcome.returns_ok _

theorem returns_readTlv (short : ε) (data : Bytes) (cursor : ℕ) :
    (readTlv short data cursor).Returns := by
  unfold readTlv
  split
  · exact Outcome.returns_err _
  · exact returns_readTlvAt short (by omega)

/-- The cursor moves on within the data, and a length byte bounds the value. -/
theorem spec_of_readTlvAt {short : ε} {data : Bytes} {cursor next : ℕ}
    {entry : TlvEntry} (hread : readTlvAt short data cursor = .ok (entry, next)) :
    cursor < next ∧ next ≤ data.length ∧ entry.2.length ≤ 255 := by
  by_cases hle : cursor + 2 ≤ data.length
  · rw [readTlvAt_eq short hle] at hread
    split at hread
    · cases hread
    · cases hread
      have hbyte := data[cursor + 1].toNat_lt
      refine ⟨by omega, by omega, ?_⟩
      rw [List.length_drop, List.length_take_of_le (by omega)]
      omega
  · unfold readTlvAt at hread
    by_cases hlt : cursor < data.length
    · rw [Outcome.index_of_lt hlt, Outcome.ok_bind,
        Outcome.index_of_le (by omega)] at hread
      cases hread
    · rw [Outcome.index_of_le (by omega)] at hread
      cases hread

theorem spec_of_readTlv {short : ε} {data : Bytes} {cursor next : ℕ}
    {entry : TlvEntry} (hread : readTlv short data cursor = .ok (entry, next)) :
    cursor < next ∧ next ≤ data.length ∧ entry.2.length ≤ 255 := by
  unfold readTlv at hread
  split at hread
  · cases hread
  · exact spec_of_readTlvAt hread

/-- An entry whose value comes with a longer text behind it is read up to its
length byte. -/
theorem readTlvAt_encodeTlv (short : ε) (before after : Bytes)
    (entry : TlvEntry) :
    readTlvAt short (before ++ (encodeTlv entry ++ after)) before.length =
      .ok ((entry.1, cutToLengthByte entry.2),
        before.length + 2 + (cutToLengthByte entry.2).length) := by
  rcases entry with ⟨ty, value⟩
  have hcut := length_cutToLengthByte value
  have hmod := Nat.mod_le value.length 256
  have hdata : before ++ (encodeTlv (ty, value) ++ after) =
      before ++ ([ty, UInt8.ofNat value.length] ++ (value ++ after)) := rfl
  have htotal : (before ++ (encodeTlv (ty, value) ++ after)).length =
      before.length + 2 + value.length + after.length := by
    rw [List.length_append, List.length_append, length_encodeTlv]
    dsimp only
    omega
  have hty : (Outcome.index (before ++ (encodeTlv (ty, value) ++ after))
      before.length : Outcome ε UInt8) = .ok ty := by
    rw [hdata, Outcome.index,
      List.getElem?_append_right (Nat.le_refl _), Nat.sub_self]
    rfl
  have hlen : (Outcome.index (before ++ (encodeTlv (ty, value) ++ after))
      (before.length + 1) : Outcome ε UInt8) =
        .ok (UInt8.ofNat value.length) := by
    rw [hdata, Outcome.index,
      List.getElem?_append_right (Nat.le_add_right _ _), Nat.add_sub_cancel_left]
    rfl
  have hbyte : (UInt8.ofNat value.length).toNat = value.length % 256 := by simp
  have hraw : (Outcome.slice (before ++ (encodeTlv (ty, value) ++ after))
      (before.length + 2) (before.length + 2 + value.length % 256) :
      Outcome ε Bytes) = .ok (cutToLengthByte value) := by
    have happend := Outcome.slice_append (ε := ε)
      (before ++ [ty, UInt8.ofNat value.length]) (cutToLengthByte value)
      (value.drop (value.length % 256) ++ after)
    rw [hcut, List.length_append, List.append_assoc, List.append_assoc,
      ← List.append_assoc (cutToLengthByte value), cutToLengthByte,
      List.take_append_drop] at happend
    exact happend
  unfold readTlvAt
  rw [hty, Outcome.ok_bind, hlen, Outcome.ok_bind, hbyte,
    if_neg (by omega), hraw, Outcome.ok_bind, hcut]
  rfl

theorem readTlv_encodeTlv (short : ε) (before after : Bytes)
    (entry : TlvEntry) :
    readTlv short (before ++ (encodeTlv entry ++ after)) before.length =
      .ok ((entry.1, cutToLengthByte entry.2),
        before.length + 2 + (cutToLengthByte entry.2).length) := by
  rw [readTlv, if_neg, readTlvAt_encodeTlv]
  simp only [List.length_append, length_encodeTlv]
  omega

end Read

section Loops

variable {ε : Type u} {σ : Type}

/-- `while cursor < data.len()`: read an entry and take it in. -/
def scanWhile (short : ε) (step : σ → TlvEntry → Outcome ε σ) (data : Bytes)
    (cursor : ℕ) (state : σ) : Outcome ε σ :=
  if cursor < data.length then
    match _hread : readTlv short data cursor with
    | .ok (entry, next) => do
        let state ← step state entry
        scanWhile short step data next state
    | .err error => .err error
    | .panic => .panic
  else .ok state
termination_by data.length - cursor
decreasing_by
  have hspec := spec_of_readTlv _hread
  omega

/-- `loop`: stop when `cursor > data.len() - 2`, else read an entry and take it
in. -/
def scanLoop (short : ε) (step : σ → TlvEntry → Outcome ε σ) (data : Bytes)
    (cursor : ℕ) (state : σ) : Outcome ε σ :=
  match (Outcome.checkedSub data.length 2 : Outcome ε ℕ) with
  | .ok last =>
      if last < cursor then .ok state
      else
        match _hread : readTlvAt short data cursor with
        | .ok (entry, next) => do
            let state ← step state entry
            scanLoop short step data next state
        | .err error => .err error
        | .panic => .panic
  | .err error => .err error
  | .panic => .panic
termination_by data.length - cursor
decreasing_by
  have hspec := spec_of_readTlvAt _hread
  omega

variable {short : ε} {step : σ → TlvEntry → Outcome ε σ} {data : Bytes}

theorem scanWhile_eq (cursor : ℕ) (state : σ) :
    scanWhile short step data cursor state =
      if cursor < data.length then
        readTlv short data cursor >>= fun read =>
          step state read.1 >>= scanWhile short step data read.2
      else .ok state := by
  rw [scanWhile]
  split
  · split
    · rename_i hread
      rw [hread]
      rfl
    · rename_i hread
      rw [hread]
      rfl
    · rename_i hread
      rw [hread]
      rfl
  · rfl

theorem scanLoop_eq {cursor : ℕ} (hlength : 2 ≤ data.length) (state : σ) :
    scanLoop short step data cursor state =
      if data.length - 2 < cursor then .ok state
      else
        readTlvAt short data cursor >>= fun read =>
          step state read.1 >>= scanLoop short step data read.2 := by
  rw [scanLoop, Outcome.checkedSub_of_le hlength]
  dsimp only
  split
  · rfl
  · split
    · rename_i hread
      rw [hread]
      rfl
    · rename_i hread
      rw [hread]
      rfl
    · rename_i hread
      rw [hread]
      rfl

/-- The bound of the second loop cannot be computed for less than two bytes. -/
theorem scanLoop_of_length_lt (hlength : data.length < 2) (cursor : ℕ)
    (state : σ) : scanLoop short step data cursor state = .panic := by
  rw [scanLoop, Outcome.checkedSub_of_lt hlength]

/-- Entries that fit their length bytes are taken in one after the other, and
reading goes on behind them. -/
theorem scanWhile_flatMap (before after : Bytes) {entries : List TlvEntry}
    (hshort : ∀ entry ∈ entries, entry.2.length ≤ 255) (state : σ) :
    scanWhile short step (before ++ (entries.flatMap encodeTlv ++ after))
        before.length state =
      entries.foldlM step state >>=
        scanWhile short step (before ++ (entries.flatMap encodeTlv ++ after))
          (before.length + (entries.flatMap encodeTlv).length) := by
  induction entries generalizing before state with
  | nil => rfl
  | cons entry entries ih =>
      have hread := readTlv_encodeTlv short before
        (entries.flatMap encodeTlv ++ after) entry
      have hentry := hshort entry List.mem_cons_self
      have hnext : before.length + 2 + entry.2.length =
          (before ++ encodeTlv entry).length := by
        rw [List.length_append, length_encodeTlv]
        omega
      have hdata : before ++ ((entry :: entries).flatMap encodeTlv ++ after) =
          before ++ (encodeTlv entry ++ (entries.flatMap encodeTlv ++ after)) := by
        rw [List.flatMap_cons, List.append_assoc]
      have hend : before.length + ((entry :: entries).flatMap encodeTlv).length =
          (before ++ encodeTlv entry).length +
            (entries.flatMap encodeTlv).length := by
        rw [List.flatMap_cons, List.length_append, List.length_append,
          Nat.add_assoc]
      rw [cutToLengthByte_of_le hentry] at hread
      rw [hdata, scanWhile_eq, if_pos, hread, Outcome.ok_bind,
        List.foldlM_cons, bind_assoc]
      · congr 1
        funext next
        dsimp only
        rw [hnext, hend, ← List.append_assoc before,
          ih _ (fun other hother => hshort other (List.mem_cons_of_mem _ hother))]
      · simp only [List.length_append, length_encodeTlv]
        omega

theorem scanWhile_entries {entries : List TlvEntry}
    (hshort : ∀ entry ∈ entries, entry.2.length ≤ 255) (state : σ) :
    scanWhile short step (entries.flatMap encodeTlv) 0 state =
      entries.foldlM step state := by
  have hscan : scanWhile short step ([] ++ (entries.flatMap encodeTlv ++ []))
      ([] : Bytes).length state = _ := scanWhile_flatMap [] [] hshort state
  rw [List.append_nil, List.nil_append, List.length_nil, Nat.zero_add] at hscan
  rw [hscan]
  conv_rhs => rw [← bind_pure (entries.foldlM step state)]
  congr 1
  funext next
  rw [scanWhile_eq, if_neg (Nat.lt_irrefl _)]
  rfl

theorem scanLoop_flatMap (before : Bytes) {entries : List TlvEntry}
    (hshort : ∀ entry ∈ entries, entry.2.length ≤ 255)
    (hlength : 2 ≤ (before ++ entries.flatMap encodeTlv).length) (state : σ) :
    scanLoop short step (before ++ entries.flatMap encodeTlv) before.length
      state = entries.foldlM step state := by
  induction entries generalizing before state with
  | nil =>
      rw [List.flatMap_nil, List.append_nil] at hlength ⊢
      rw [scanLoop_eq hlength, if_pos (by omega)]
      rfl
  | cons entry entries ih =>
      have hread := readTlvAt_encodeTlv short before
        (entries.flatMap encodeTlv) entry
      have hentry := hshort entry List.mem_cons_self
      have hnext : before.length + 2 + entry.2.length =
          (before ++ encodeTlv entry).length := by
        rw [List.length_append, length_encodeTlv]
        omega
      rw [cutToLengthByte_of_le hentry] at hread
      rw [List.flatMap_cons] at hlength ⊢
      rw [scanLoop_eq hlength, if_neg, hread, Outcome.ok_bind,
        List.foldlM_cons]
      · congr 1
        funext next
        dsimp only
        rw [← List.append_assoc] at hlength ⊢
        rw [hnext, ih _ (fun other hother =>
          hshort other (List.mem_cons_of_mem _ hother)) hlength]
      · simp only [List.length_append, length_encodeTlv]
        omega

theorem scanLoop_entries {entries : List TlvEntry}
    (hshort : ∀ entry ∈ entries, entry.2.length ≤ 255)
    (hentries : entries ≠ []) (state : σ) :
    scanLoop short step (entries.flatMap encodeTlv) 0 state =
      entries.foldlM step state := by
  obtain ⟨entry, rest, rfl⟩ := List.exists_cons_of_ne_nil hentries
  have hlength : 2 ≤ ((entry :: rest).flatMap encodeTlv).length := by
    rw [List.flatMap_cons, List.length_append, length_encodeTlv]
    omega
  exact scanLoop_flatMap [] hshort hlength state

/-- Nothing that is read is out of range. -/
theorem returns_scanWhile
    (hstep : ∀ state entry, (step state entry).Returns) (cursor : ℕ)
    (state : σ) : (scanWhile short step data cursor state).Returns := by
  induction hleft : data.length - cursor using Nat.strong_induction_on
    generalizing cursor state with
  | _ left ih =>
      rw [scanWhile_eq]
      split
      · refine Outcome.returns_bind_iff.mpr ⟨returns_readTlv _ _ _, ?_⟩
        intro read hread
        refine Outcome.returns_bind_iff.mpr ⟨hstep _ _, ?_⟩
        intro next _
        have hspec := spec_of_readTlv hread
        exact ih (data.length - read.2) (by omega) _ _ rfl
      · exact Outcome.returns_ok _

/-- Once its bound can be computed nothing that the second loop reads is out of
range. -/
theorem returns_scanLoop_iff
    (hstep : ∀ state entry, (step state entry).Returns) (cursor : ℕ)
    (state : σ) :
    (scanLoop short step data cursor state).Returns ↔ 2 ≤ data.length := by
  by_cases hlength : 2 ≤ data.length
  · refine iff_of_true ?_ hlength
    induction hleft : data.length - cursor using Nat.strong_induction_on
      generalizing cursor state with
    | _ left ih =>
        rw [scanLoop_eq hlength]
        split
        · exact Outcome.returns_ok _
        · refine Outcome.returns_bind_iff.mpr
            ⟨returns_readTlvAt _ (by omega), ?_⟩
          intro read hread
          refine Outcome.returns_bind_iff.mpr ⟨hstep _ _, ?_⟩
          intro next _
          have hspec := spec_of_readTlvAt hread
          exact ih (data.length - read.2) (by omega) _ _ rfl
  · rw [scanLoop_of_length_lt (Nat.not_le.mp hlength)]
    exact iff_of_false Outcome.not_returns_panic hlength

end Loops

section Items

variable {ε : Type u} {φ β : Type} {parse : Bytes → Outcome ε β} {ty : UInt8}
  {step : φ × List β → TlvEntry → Outcome ε (φ × List β)}

/-- Entries of the one type whose values are collected. -/
theorem foldlM_items
    (hitem : ∀ fields items raw, step (fields, items) (ty, raw) =
      parse raw >>= fun item => .ok (fields, items ++ [item]))
    (raws : List Bytes) (fields : φ) (items : List β) :
    (raws.map fun raw => (ty, raw)).foldlM step (fields, items) =
      raws.mapM parse >>= fun parsed => .ok (fields, items ++ parsed) := by
  induction raws generalizing items with
  | nil => simp
  | cons raw raws ih =>
      rw [List.map_cons, List.foldlM_cons, hitem, List.mapM_cons, bind_assoc,
        bind_assoc]
      congr 1
      funext item
      rw [Outcome.ok_bind, ih, bind_assoc]
      congr 1
      funext parsed
      simp

variable {short : ε} {bytes : β → Bytes}

end Items

end Gnostr
