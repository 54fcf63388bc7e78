/-
The counter of an entry counts the slots that are filled, and what the call for a chunk
needs in order to return.
-/
import Gnostr.Chat.Reassembly
import Mathlib.Data.Set.List

namespace Gnostr

namespace Chat

variable {E : Type}

/-- There is a slot for each chunk, and the counter counts those that are filled. -/
structure Entry.Counted (entry : Entry E) : Prop where
  length_eq : entry.chunks.length = entry.totalChunks
  count_eq : entry.receivedCount = entry.chunks.countP Option.isSome

def Buffer.Counted (buffer : Buffer E) : Prop :=
  ∀ id entry, buffer.lookup id = some entry → entry.Counted

/-- With the chunk, the entry has these chunks and no empty slot. -/
def Entry.Completes (entry : Entry E) (chunk : Msg E) (sequenceNum totalChunks : ℕ)
    (parts : List (Msg E)) : Prop :=
  entry.totalChunks = totalChunks ∧
    ∃ slot, entry.chunks[sequenceNum]? = some slot ∧
      (entry.fill sequenceNum chunk slot).chunks = parts.map some

section Entry

variable {entry : Entry E} {chunk : Msg E} {sequenceNum totalChunks : ℕ}

theorem Entry.counted_new (totalChunks : ℕ) : (Entry.new totalChunks : Entry E).Counted where
  length_eq := List.length_replicate
  count_eq := by
    rw [Entry.new, List.countP_replicate]
    rfl

theorem Entry.Counted.fill (hentry : entry.Counted) {slot : Option (Msg E)}
    (hslot : entry.chunks[sequenceNum]? = some slot) :
    (entry.fill sequenceNum chunk slot).Counted := by
  cases slot with
  | some held => exact hentry
  | none =>
      obtain ⟨hlt, hget⟩ := List.getElem?_eq_some_iff.mp hslot
      constructor
      · rw [Entry.fill, List.length_set]
        exact hentry.length_eq
      · rw [Entry.fill, List.countP_set hlt, hget, hentry.count_eq]
        rfl

theorem Entry.mem_chunks_fill {slot : Option (Msg E)} {part : Msg E}
    (hpart : some part ∈ (entry.fill sequenceNum chunk slot).chunks) :
    some part ∈ entry.chunks ∨ part = chunk := by
  cases slot with
  | some held => exact Or.inl hpart
  | none =>
      rcases List.mem_or_eq_of_mem_set hpart with hold | hnew
      · exact Or.inl hold
      · exact Or.inr (Option.some.inj hnew)

/-- The counter stands at the number of slots when every slot is filled. -/
theorem Entry.Counted.receivedCount_eq_iff (hentry : entry.Counted) :
    entry.receivedCount = entry.totalChunks ↔
      ∃ parts : List (Msg E), entry.chunks = parts.map some := by
  rw [hentry.count_eq, ← hentry.length_eq, List.countP_eq_length]
  constructor
  · intro hall
    have hrange : entry.chunks ∈ Set.range (List.map some) := by
      rw [Set.range_list_map]
      intro slot hslot
      obtain ⟨part, rfl⟩ := Option.isSome_iff_exists.mp (hall slot hslot)
      exact ⟨part, rfl⟩
    obtain ⟨parts, hparts⟩ := hrange
    exact ⟨parts, hparts.symm⟩
  · rintro ⟨parts, hparts⟩ slot hslot
    rw [hparts] at hslot
    obtain ⟨part, _, rfl⟩ := List.mem_map.mp hslot
    rfl

theorem joinChunks_eq_panic {parts : List (Msg E)}
    (hempty : ∃ part ∈ parts, part.content = []) (i : ℕ) (fullContent : String)
    (reassembledMsg : Msg E) :
    joinChunks i (parts.map some) fullContent reassembledMsg = .panic := by
  induction parts generalizing i fullContent reassembledMsg with
  | nil =>
      obtain ⟨part, hpart, _⟩ := hempty
      exact absurd hpart List.not_mem_nil
  | cons first rest ih =>
      rw [List.map_cons, joinChunks]
      by_cases hfirst : first.content = []
      · rw [Msg.line, hfirst]
        rfl
      · rw [line_zero_eq hfirst, Outcome.ok_bind]
        refine ih ?_ _ _ _
        obtain ⟨part, hpart, hcontent⟩ := hempty
        rcases List.mem_cons.mp hpart with rfl | hrest
        · exact absurd hcontent hfirst
        · exact ⟨part, hrest, hcontent⟩

/-- What a chunk does to an entry: it completes it, and the message is returned or has a
chunk without a line; or nothing is returned, and the entry is dropped, left as it is or
filled. -/
theorem Entry.Counted.add_cases (hentry : entry.Counted) (p : Process) (chunk : Msg E)
    (sequenceNum totalChunks : ℕ) :
    (∃ first rest, entry.Completes chunk sequenceNum totalChunks (first :: rest) ∧
      ((∀ part ∈ first :: rest, part.content ≠ []) ∧
          entry.add p chunk sequenceNum totalChunks =
            (.ok (some (joined first rest)), none) ∨
        (∃ part ∈ first :: rest, part.content = []) ∧ ∃ slot,
          entry.chunks[sequenceNum]? = some slot ∧
          entry.add p chunk sequenceNum totalChunks =
            (.panic, some (entry.fill sequenceNum chunk slot)))) ∨
    (∀ parts, ¬ entry.Completes chunk sequenceNum totalChunks parts) ∧
      ∃ left, entry.add p chunk sequenceNum totalChunks = (.ok none, left) ∧
        (left = none ∨ left = some entry ∨ ∃ slot, entry.chunks[sequenceNum]? = some slot ∧
          left = some (entry.fill sequenceNum chunk slot)) := by
  by_cases htotal : entry.totalChunks = totalChunks
  · rcases Option.eq_none_or_eq_some entry.chunks[sequenceNum]? with hslot | ⟨slot, hslot⟩
    · have hge : ¬ sequenceNum < totalChunks := by
        rw [← htotal, ← hentry.length_eq]
        exact Nat.not_lt.mpr (List.getElem?_eq_none_iff.mp hslot)
      refine Or.inr ⟨?_, some entry, ?_, Or.inr (Or.inl rfl)⟩
      · rintro parts ⟨_, slot, hsome, _⟩
        rw [hslot] at hsome
        cases hsome
      · rw [Entry.add, if_neg (not_not_intro htotal), if_neg hge]
    · have hlt : sequenceNum < totalChunks := by
        rw [← htotal, ← hentry.length_eq]
        exact (List.getElem?_eq_some_iff.mp hslot).1
      have hfill : (entry.fill sequenceNum chunk slot).Counted := hentry.fill hslot
      have hfillTotal : (entry.fill sequenceNum chunk slot).totalChunks = totalChunks := by
        cases slot <;> exact htotal
      have hadd : entry.add p chunk sequenceNum totalChunks =
          if (entry.fill sequenceNum chunk slot).receivedCount = totalChunks then
            (entry.fill sequenceNum chunk slot).finish p
          else (.ok none, some (entry.fill sequenceNum chunk slot)) := by
        rw [Entry.add, if_neg (not_not_intro htotal), if_pos hlt, hslot]
      have hcount := hfill.receivedCount_eq_iff
      rw [hfillTotal] at hcount
      by_cases hfull : ∃ parts : List (Msg E),
          (entry.fill sequenceNum chunk slot).chunks = parts.map some
      · obtain ⟨parts, hparts⟩ := hfull
        rw [if_pos (hcount.mpr ⟨parts, hparts⟩), Entry.finish, hparts] at hadd
        cases parts with
        | nil =>
            have hzero := hfill.length_eq
            rw [hparts, hfillTotal] at hzero
            exact absurd hlt (hzero ▸ Nat.not_lt_zero _)
        | cons first rest =>
            refine Or.inl ⟨first, rest, ⟨htotal, slot, hslot, hparts⟩, ?_⟩
            by_cases hcontent : ∀ part ∈ first :: rest, part.content ≠ []
            · rw [joinChunks_zero hcontent] at hadd
              exact Or.inl ⟨hcontent, hadd⟩
            · simp only [not_forall, not_not] at hcontent
              obtain ⟨part, hpart, hempty⟩ := hcontent
              rw [joinChunks_eq_panic ⟨part, hpart, hempty⟩] at hadd
              exact Or.inr ⟨⟨part, hpart, hempty⟩, slot, hslot, hadd⟩
      · rw [if_neg fun heq => hfull (hcount.mp heq)] at hadd
        refine Or.inr ⟨?_, _, hadd, Or.inr (Or.inr ⟨slot, hslot, rfl⟩)⟩
        rintro parts ⟨_, other, hother, hparts⟩
        rw [hslot, Option.some.injEq] at hother
        rw [← hother] at hparts
        exact hfull ⟨parts, hparts⟩
  · refine Or.inr ⟨fun parts hcompletes => htotal hcompletes.1, none, ?_, Or.inl rfl⟩
    rw [Entry.add, if_pos htotal]

theorem Entry.counted_of_mem_add (hentry : entry.Counted) (p : Process) :
    ∀ left ∈ (entry.add p chunk sequenceNum totalChunks).2, left.Counted := by
  rcases hentry.add_cases p chunk sequenceNum totalChunks with
    ⟨first, rest, _, ⟨_, hadd⟩ | ⟨_, slot, hslot, hadd⟩⟩ | ⟨_, left, hadd, hleft⟩
  · rw [hadd]
    exact nofun
  · rw [hadd]
    rintro left ⟨⟩
    exact hentry.fill hslot
  · rw [hadd]
    rcases hleft with rfl | rfl | ⟨slot, hslot, rfl⟩
    · exact nofun
    · rintro left ⟨⟩
      exact hentry
    · rintro left ⟨⟩
      exact hentry.fill hslot

end Entry

section Buffer

variable {p : Process} {buffer : Buffer E} {chunk : Msg E} {messageId : String}
  {sequenceNum totalChunks : ℕ}

/-- The entry that a chunk goes to. -/
def Buffer.entryFor (buffer : Buffer E) (messageId : String) (totalChunks : ℕ) : Entry E :=
  (buffer.lookup messageId).getD (.new totalChunks)

/-- What the call for a chunk needs: nothing that its log line trips over, memory for the
slots if they are new, and a line in each chunk of a message it completes. -/
structure Accepts (p : Process) (buffer : Buffer E) (chunk : Msg E) (messageId : String)
    (sequenceNum totalChunks : ℕ) : Prop where
  logs : ¬ p.LogPanics chunk sequenceNum
  allocates : buffer.lookup messageId = none → p.allocates totalChunks = true
  lines : ∀ parts, (buffer.entryFor messageId totalChunks).Completes chunk sequenceNum
    totalChunks parts → ∀ part ∈ parts, part.content ≠ []

theorem Buffer.counted_empty : (∅ : Buffer E).Counted := by
  intro id entry hlookup
  rw [Finmap.lookup_empty] at hlookup
  cases hlookup

theorem Buffer.Counted.entryFor (hbuffer : buffer.Counted) (messageId : String)
    (totalChunks : ℕ) : (buffer.entryFor messageId totalChunks).Counted := by
  unfold Buffer.entryFor
  cases hlookup : buffer.lookup messageId with
  | none => exact Entry.counted_new totalChunks
  | some entry => exact hbuffer messageId entry hlookup

theorem Buffer.Counted.set (hbuffer : buffer.Counted) {left : Option (Entry E)}
    (hleft : ∀ entry ∈ left, entry.Counted) : (buffer.set messageId left).Counted := by
  intro id entry hlookup
  by_cases hid : id = messageId
  · rw [hid, Buffer.lookup_set] at hlookup
    exact hleft entry hlookup
  · rw [Buffer.lookup_set_of_ne hid] at hlookup
    exact hbuffer id entry hlookup

/-- The call is about the entry of its chunk, unless it panics before. -/
theorem addChunkAndReassemble_eq (hid : chunk.messageId = some messageId)
    (hnumber : chunk.sequenceNum = some sequenceNum)
    (htotal : chunk.totalChunks = some totalChunks) :
    addChunkAndReassemble p chunk buffer =
      if p.LogPanics chunk sequenceNum ∨
          buffer.lookup messageId = none ∧ p.allocates totalChunks = false then
        (.panic, buffer)
      else buffer.add p messageId (buffer.entryFor messageId totalChunks) chunk sequenceNum
        totalChunks := by
  rw [addChunkAndReassemble, hid, hnumber, htotal]
  dsimp only
  by_cases hlog : p.LogPanics chunk sequenceNum
  · rw [if_pos hlog, if_pos (Or.inl hlog)]
  · rw [if_neg hlog]
    cases hlookup : buffer.lookup messageId with
    | some entry =>
        have hcalm : ¬ (p.LogPanics chunk sequenceNum ∨
            some entry = none ∧ p.allocates totalChunks = false) :=
          not_or.mpr ⟨hlog, fun hpanic => Option.some_ne_none entry hpanic.1⟩
        rw [if_neg hcalm, Buffer.entryFor, hlookup, Option.getD_some]
    | none =>
        dsimp only
        by_cases hallocates : p.allocates totalChunks = true
        · have hcalm : ¬ (p.LogPanics chunk sequenceNum ∨
              none = (none : Option (Entry E)) ∧ p.allocates totalChunks = false) :=
            not_or.mpr ⟨hlog, fun hpanic => Bool.eq_false_iff.mp hpanic.2 hallocates⟩
          rw [if_pos hallocates, if_neg hcalm, Buffer.entryFor, hlookup, Option.getD_none]
        · rw [if_neg hallocates, if_pos (Or.inr ⟨rfl, Bool.eq_false_iff.mpr hallocates⟩)]

/-- Every call keeps the counters right. -/
theorem Buffer.Counted.addChunkAndReassemble (hbuffer : buffer.Counted) (p : Process)
    (chunk : Msg E) : (Chat.addChunkAndReassemble p chunk buffer).2.Counted := by
  cases hid : chunk.messageId with
  | none => rwa [Chat.addChunkAndReassemble, hid]
  | some messageId =>
      cases hnumber : chunk.sequenceNum with
      | none => rwa [Chat.addChunkAndReassemble, hid, hnumber]
      | some sequenceNum =>
          cases htotal : chunk.totalChunks with
          | none => rwa [Chat.addChunkAndReassemble, hid, hnumber, htotal]
          | some totalChunks =>
              rw [addChunkAndReassemble_eq hid hnumber htotal]
              split
              · exact hbuffer
              · exact hbuffer.set
                  (Entry.counted_of_mem_add (hbuffer.entryFor messageId totalChunks) p)

theorem Entry.Completes.unique {entry : Entry E} {parts parts' : List (Msg E)}
    (hparts : entry.Completes chunk sequenceNum totalChunks parts)
    (hparts' : entry.Completes chunk sequenceNum totalChunks parts') : parts = parts' := by
  obtain ⟨_, slot, hslot, hfill⟩ := hparts
  obtain ⟨_, slot', hslot', hfill'⟩ := hparts'
  rw [hslot, Option.some.injEq] at hslot'
  rw [hslot', hfill'] at hfill
  exact ((Option.some_injective _).list_map hfill).symm

theorem returns_addChunkAndReassemble_iff (hbuffer : buffer.Counted)
    (hid : chunk.messageId = some messageId)
    (hnumber : chunk.sequenceNum = some sequenceNum)
    (htotal : chunk.totalChunks = some totalChunks) :
    (addChunkAndReassemble p chunk buffer).1.Returns ↔
      Accepts p buffer chunk messageId sequenceNum totalChunks := by
  rw [addChunkAndReassemble_eq hid hnumber htotal]
  split
  · rename_i hpanic
    refine iff_of_false Outcome.not_returns_panic fun haccepts => ?_
    rcases hpanic with hlog | ⟨hnone, hallocates⟩
    · exact haccepts.logs hlog
    · rw [haccepts.allocates hnone] at hallocates
      cases hallocates
  · rename_i hcalm
    rw [not_or] at hcalm
    have hallocates : buffer.lookup messageId = none → p.allocates totalChunks = true := by
      intro hnone
      rw [← Bool.not_eq_false]
      exact fun hfalse => hcalm.2 ⟨hnone, hfalse⟩
    have hentry := hbuffer.entryFor messageId totalChunks
    rw [Buffer.add]
    rcases hentry.add_cases p chunk sequenceNum totalChunks with
      ⟨first, rest, hcompletes, ⟨hcontent, hadd⟩ | ⟨hempty, slot, hslot, hadd⟩⟩ |
        ⟨hnot, left, hadd, hleft⟩
    · rw [hadd]
      refine iff_of_true (Outcome.returns_ok _) ⟨hcalm.1, hallocates, fun parts hparts => ?_⟩
      rwa [hparts.unique hcompletes]
    · rw [hadd]
      refine iff_of_false Outcome.not_returns_panic fun haccepts => ?_
      obtain ⟨part, hpart, hcontent⟩ := hempty
      exact haccepts.lines _ hcompletes part hpart hcontent
    · rw [hadd]
      exact iff_of_true (Outcome.returns_ok _)
        ⟨hcalm.1, hallocates, fun parts hcompletes => absurd hcompletes (hnot parts)⟩

/-- A chunk the call can take is put to its entry. -/
theorem Accepts.addChunkAndReassemble_eq
    (hid : chunk.messageId = some messageId)
    (hnumber : chunk.sequenceNum = some sequenceNum)
    (htotal : chunk.totalChunks = some totalChunks)
    (haccepts : Accepts p buffer chunk messageId sequenceNum totalChunks) :
    addChunkAndReassemble p chunk buffer = buffer.add p messageId
      (buffer.entryFor messageId totalChunks) chunk sequenceNum totalChunks := by
  rw [Chat.addChunkAndReassemble_eq hid hnumber htotal, if_neg]
  rintro (hlog | ⟨hnone, hfalse⟩)
  · exact haccepts.logs hlog
  · rw [haccepts.allocates hnone] at hfalse
    cases hfalse

/-- A call that returns gives the message that the chunk completes, or nothing. -/
theorem Accepts.addChunkAndReassemble_cases (hbuffer : buffer.Counted)
    (hid : chunk.messageId = some messageId)
    (hnumber : chunk.sequenceNum = some sequenceNum)
    (htotal : chunk.totalChunks = some totalChunks)
    (haccepts : Accepts p buffer chunk messageId sequenceNum totalChunks) :
    (∃ first rest after, (buffer.entryFor messageId totalChunks).Completes chunk sequenceNum
        totalChunks (first :: rest) ∧
      addChunkAndReassemble p chunk buffer = (.ok (some (joined first rest)), after)) ∨
    (∀ parts, ¬ (buffer.entryFor messageId totalChunks).Completes chunk sequenceNum
        totalChunks parts) ∧
      ∃ after, addChunkAndReassemble p chunk buffer = (.ok none, after) := by
  rw [haccepts.addChunkAndReassemble_eq hid hnumber htotal, Buffer.add]
  have hentry := hbuffer.entryFor messageId totalChunks
  rcases hentry.add_cases p chunk sequenceNum totalChunks with
    ⟨first, rest, hcompletes, ⟨_, hadd⟩ | ⟨hempty, _⟩⟩ | ⟨hnot, left, hadd, _⟩
  · rw [hadd]
    exact Or.inl ⟨first, rest, _, hcompletes, rfl⟩
  · obtain ⟨part, hpart, hcontent⟩ := hempty
    exact absurd hcontent (haccepts.lines _ hcompletes part hpart)
  · rw [hadd]
    exact Or.inr ⟨hnot, _, rfl⟩

end Buffer

end Chat

end Gnostr
