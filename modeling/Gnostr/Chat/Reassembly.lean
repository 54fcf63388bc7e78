/-
Chunked messages and their reassembly, `MessageReassembler` of `chat/src/p2p.rs`.
-/
import Gnostr.Chat.Msg
import Gnostr.Lib.Session
import Mathlib.Data.Finmap
import Mathlib.Data.Finset.Range

namespace Gnostr

namespace Chat

variable {E : Type}

/-- What the process runs with: its user, how it was built, what it logs, and the
vectors of slots there is memory for. -/
structure Process where
  userName : String
  overflowChecks : Bool
  debugEnabled : Bool
  allocates : ℕ → Bool

/-- `(total_chunks, received_chunks, chunks)`. -/
structure Entry (E : Type) where
  totalChunks : ℕ
  receivedCount : ℕ
  chunks : List (Option (Msg E))

def Entry.new (totalChunks : ℕ) : Entry E :=
  ⟨totalChunks, 0, List.replicate totalChunks none⟩

/-- Chunked messages by message ID. -/
abbrev Buffer (E : Type) := Finmap fun _ : String => Entry E

/-- The entry of a message, or none, takes the place of the one there was. -/
def Buffer.set (buffer : Buffer E) (messageId : String) : Option (Entry E) → Buffer E
  | some entry => buffer.insert messageId entry
  | none => buffer.erase messageId

/-- The loop over the slots, at slot `i`: what it has of the content, and the message it
puts it in. -/
def joinChunks : ℕ → List (Option (Msg E)) → String → Msg E →
    Outcome Empty (Option (Msg E))
  | _, [], fullContent, reassembledMsg =>
      .ok (some { reassembledMsg with content := [fullContent] })
  | _, none :: _, _, _ => .ok none
  | i, some chunk :: rest, fullContent, reassembledMsg => do
      let reassembledMsg :=
        if i = 0 then
          { reassembledMsg with
            sender := chunk.sender, kind := chunk.kind, commitId := chunk.commitId,
            nostrEvent := chunk.nostrEvent, messageId := none, sequenceNum := none,
            totalChunks := none }
        else reassembledMsg
      let line ← chunk.line 0
      joinChunks (i + 1) rest (fullContent ++ line) reassembledMsg

/-- A chunk is put into its slot, if that is free. -/
def Entry.fill (entry : Entry E) (sequenceNum : ℕ) (chunk : Msg E) :
    Option (Msg E) → Entry E
  | none =>
      { entry with
        receivedCount := entry.receivedCount + 1,
        chunks := entry.chunks.set sequenceNum (some chunk) }
  | some _ => entry

/-- All chunks are there: the message, unless a chunk has no line. -/
def Entry.finish (p : Process) (entry : Entry E) :
    Outcome Empty (Option (Msg E)) × Option (Entry E) :=
  match joinChunks 0 entry.chunks "" (.default p.userName) with
  | .ok reassembled => (.ok reassembled, none)
  | result => (result, some entry)

/-- What a chunk does to its entry: what is returned, and what is left of the entry. -/
def Entry.add (p : Process) (entry : Entry E) (chunk : Msg E)
    (sequenceNum totalChunks : ℕ) :
    Outcome Empty (Option (Msg E)) × Option (Entry E) :=
  if entry.totalChunks ≠ totalChunks then (.ok none, none)
  else if sequenceNum < totalChunks then
    match entry.chunks[sequenceNum]? with
    | none => (.panic, some entry)
    | some slot =>
        let entry := entry.fill sequenceNum chunk slot
        if entry.receivedCount = totalChunks then entry.finish p else (.ok none, some entry)
  else (.ok none, some entry)

/-- The arguments of the first log line: the first line of the content, and the place
of the chunk counted from one. -/
def Process.LogPanics (p : Process) (chunk : Msg E) (sequenceNum : ℕ) : Prop :=
  p.debugEnabled = true ∧
    (chunk.content = [] ∨ p.overflowChecks = true ∧ sequenceNum + 1 = 2 ^ 64)

instance (p : Process) (chunk : Msg E) (sequenceNum : ℕ) :
    Decidable (p.LogPanics chunk sequenceNum) :=
  inferInstanceAs (Decidable (_ ∧ (_ ∨ _ ∧ _)))

/-- The same in the buffer, where the entry stands or is to stand. -/
def Buffer.add (p : Process) (buffer : Buffer E) (messageId : String) (entry : Entry E)
    (chunk : Msg E) (sequenceNum totalChunks : ℕ) :
    Outcome Empty (Option (Msg E)) × Buffer E :=
  let added := entry.add p chunk sequenceNum totalChunks
  (added.1, buffer.set messageId added.2)

/-- Add a chunk to the buffer and return a full message when complete. -/
def addChunkAndReassemble (p : Process) (msgChunk : Msg E) :
    Session (Buffer E) Empty (Option (Msg E)) := fun buffer =>
  match msgChunk.messageId, msgChunk.sequenceNum, msgChunk.totalChunks with
  | some messageId, some sequenceNum, some totalChunks =>
      if p.LogPanics msgChunk sequenceNum then (.panic, buffer)
      else
        match buffer.lookup messageId with
        | some entry => buffer.add p messageId entry msgChunk sequenceNum totalChunks
        | none =>
            if p.allocates totalChunks = true then
              buffer.add p messageId (.new totalChunks) msgChunk sequenceNum totalChunks
            else (.panic, buffer)
  | _, _, _ => (.ok none, buffer)

/-- Successive calls, and what they return. -/
def addAll (p : Process) : List (Msg E) → Session (Buffer E) Empty (List (Option (Msg E)))
  | [] => pure []
  | chunk :: chunks => do
      let result ← addChunkAndReassemble p chunk
      let results ← addAll p chunks
      return result :: results

section Buffer

variable {buffer : Buffer E} {messageId : String}

@[simp] theorem Buffer.lookup_set (left : Option (Entry E)) :
    (buffer.set messageId left).lookup messageId = left := by
  cases left with
  | none => exact Finmap.lookup_erase _ _
  | some entry => exact Finmap.lookup_insert _

theorem Buffer.lookup_set_of_ne {other : String} (hne : other ≠ messageId)
    (left : Option (Entry E)) : (buffer.set messageId left).lookup other =
      buffer.lookup other := by
  cases left with
  | none => exact Finmap.lookup_erase_ne hne
  | some entry => exact Finmap.lookup_insert_of_ne _ hne

end Buffer

section Join

/-- The first line of a chunk, which has one. -/
def firstLine (chunk : Msg E) : String := chunk.content.headD ""

theorem line_zero_eq {chunk : Msg E} (hcontent : chunk.content ≠ []) :
    chunk.line 0 = .ok (firstLine chunk) := by
  rw [Msg.line, firstLine]
  cases hlines : chunk.content with
  | nil => exact absurd hlines hcontent
  | cons first rest => rfl

theorem joinChunks_succ {chunks : List (Msg E)}
    (hcontent : ∀ chunk ∈ chunks, chunk.content ≠ []) (i : ℕ) (fullContent : String)
    (reassembledMsg : Msg E) :
    joinChunks (i + 1) (chunks.map some) fullContent reassembledMsg =
      .ok (some { reassembledMsg with
        content := [fullContent ++ String.join (chunks.map firstLine)] }) := by
  induction chunks generalizing i fullContent with
  | nil =>
      rw [List.map_nil, List.map_nil, joinChunks, String.join_nil, String.append_empty]
  | cons chunk chunks ih =>
      obtain ⟨hchunk, hrest⟩ := List.forall_mem_cons.mp hcontent
      rw [List.map_cons, joinChunks, if_neg (Nat.succ_ne_zero i), line_zero_eq hchunk,
        Outcome.ok_bind, ih hrest, List.map_cons, String.join_cons, String.append_assoc]

/-- The message that chunks make up: the first supplies the metadata. -/
def joined (first : Msg E) (rest : List (Msg E)) : Msg E :=
  { first with
    content := [String.join ((first :: rest).map firstLine)], messageId := none,
    sequenceNum := none, totalChunks := none }

theorem joinChunks_zero {first : Msg E} {rest : List (Msg E)}
    (hcontent : ∀ chunk ∈ first :: rest, chunk.content ≠ []) (reassembledMsg : Msg E) :
    joinChunks 0 ((first :: rest).map some) "" reassembledMsg =
      .ok (some (joined first rest)) := by
  obtain ⟨hfirst, hrest⟩ := List.forall_mem_cons.mp hcontent
  rw [List.map_cons, joinChunks, if_pos rfl, line_zero_eq hfirst, Outcome.ok_bind,
    joinChunks_succ hrest, joined, List.map_cons, String.join_cons, String.empty_append]

end Join

/-- A message that was split into chunks. -/
structure SplitMessage (E : Type) where
  id : String
  first : Msg E
  rest : List (Msg E)
  length_lt : (first :: rest).length < 2 ^ 64
  isChunk : ∀ (i : ℕ) (chunk : Msg E), (first :: rest)[i]? = some chunk →
    chunk.messageId = some id ∧ chunk.sequenceNum = some i ∧
      chunk.totalChunks = some (first :: rest).length ∧ chunk.content ≠ []

namespace SplitMessage

variable (m : SplitMessage E)

def chunks : List (Msg E) := m.first :: m.rest

/-- The number of chunks. -/
def total : ℕ := m.chunks.length

def full : Msg E := joined m.first m.rest

/-- The entry of the message when the chunks with the given numbers are in it. -/
def entry (arrived : Finset ℕ) : Entry E :=
  ⟨m.total, arrived.card,
    (List.range m.total).map fun i => if i ∈ arrived then m.chunks[i]? else none⟩

variable {m}

theorem entry_empty : m.entry ∅ = Entry.new m.total := by
  have hslots : ((List.range m.total).map fun i =>
      if i ∈ (∅ : Finset ℕ) then m.chunks[i]? else none) =
        List.replicate m.total none := by
    rw [List.eq_replicate_iff, List.length_map, List.length_range]
    refine ⟨rfl, fun slot hslot => ?_⟩
    obtain ⟨i, _, rfl⟩ := List.mem_map.mp hslot
    exact if_neg (Finset.notMem_empty i)
  rw [entry, hslots, Finset.card_empty, Entry.new]

theorem chunks_entry_range :
    (m.entry (Finset.range m.total)).chunks = m.chunks.map some := by
  refine List.ext_getElem? fun i => ?_
  rw [entry, List.getElem?_map, List.getElem?_map]
  by_cases hi : i < m.total
  · have hget : m.chunks[i]? = some m.chunks[i] := List.getElem?_eq_getElem hi
    rw [List.getElem?_range hi, Option.map_some, if_pos (Finset.mem_range.mpr hi), hget,
      Option.map_some]
  · rw [List.getElem?_eq_none (by rwa [List.length_range, ← Nat.not_lt]),
      List.getElem?_eq_none (Nat.not_lt.mp hi), Option.map_none, Option.map_none]

theorem getElem?_chunks_entry {arrived : Finset ℕ} {i : ℕ} (hi : i < m.total) :
    (m.entry arrived).chunks[i]? =
      some (if i ∈ arrived then m.chunks[i]? else none) := by
  rw [entry, List.getElem?_map, List.getElem?_range hi, Option.map_some]

/-- A chunk joins those that have arrived; a repeated one changes nothing. -/
theorem fill_entry {arrived : Finset ℕ} {i : ℕ} {chunk : Msg E}
    (hchunk : m.chunks[i]? = some chunk) :
    (m.entry arrived).fill i chunk (if i ∈ arrived then m.chunks[i]? else none) =
      m.entry (insert i arrived) := by
  by_cases hi : i ∈ arrived
  · rw [if_pos hi, hchunk, Finset.insert_eq_of_mem hi, Entry.fill]
  · have hslots : (m.entry arrived).chunks.set i (some chunk) =
        (m.entry (insert i arrived)).chunks := by
      have hlength : i < (m.entry arrived).chunks.length := by
        rw [entry, List.length_map, List.length_range]
        exact (List.getElem?_eq_some_iff.mp hchunk).1
      refine List.ext_getElem? fun j => ?_
      by_cases hj : j = i
      · rw [hj, List.getElem?_set_self hlength,
          getElem?_chunks_entry (List.getElem?_eq_some_iff.mp hchunk).1,
          if_pos (Finset.mem_insert_self i arrived), hchunk]
      · have hmem : j ∈ insert i arrived ↔ j ∈ arrived := by
          rw [Finset.mem_insert, or_iff_right hj]
        rw [List.getElem?_set_ne (Ne.symm hj), entry, entry, List.getElem?_map,
          List.getElem?_map]
        by_cases hrange : j < m.total
        · rw [List.getElem?_range hrange, Option.map_some, Option.map_some,
            if_congr hmem rfl rfl]
        · rw [List.getElem?_eq_none (by rwa [List.length_range, ← Nat.not_lt]),
            Option.map_none, Option.map_none]
    rw [if_neg hi, Entry.fill, hslots, entry, entry, Finset.card_insert_of_notMem hi]

theorem card_eq_total_iff {arrived : Finset ℕ}
    (harrived : arrived ⊆ Finset.range m.total) :
    arrived.card = m.total ↔ arrived = Finset.range m.total := by
  constructor
  · intro hcard
    exact Finset.eq_of_subset_of_card_le harrived
      (by rw [Finset.card_range, hcard])
  · intro hall
    rw [hall, Finset.card_range]

/-- What one of the message's own chunks does to its entry. -/
theorem add_entry (p : Process) {arrived : Finset ℕ}
    (harrived : arrived ⊆ Finset.range m.total) {i : ℕ} {chunk : Msg E}
    (hchunk : m.chunks[i]? = some chunk) :
    (m.entry arrived).add p chunk i m.total =
      if insert i arrived = Finset.range m.total then (.ok (some m.full), none)
      else (.ok none, some (m.entry (insert i arrived))) := by
  have hi : i < m.total := (List.getElem?_eq_some_iff.mp hchunk).1
  have hinsert : insert i arrived ⊆ Finset.range m.total :=
    Finset.insert_subset (Finset.mem_range.mpr hi) harrived
  have htotal : (m.entry arrived).totalChunks = m.total := rfl
  have hcount : (m.entry (insert i arrived)).receivedCount = m.total ↔
      insert i arrived = Finset.range m.total := card_eq_total_iff hinsert
  rw [Entry.add, if_neg (not_not_intro htotal), if_pos hi, getElem?_chunks_entry hi]
  dsimp only
  rw [fill_entry hchunk]
  by_cases hall : insert i arrived = Finset.range m.total
  · have hcontent : ∀ chunk ∈ m.first :: m.rest, chunk.content ≠ [] := by
      intro chunk hmem
      obtain ⟨j, hj⟩ := List.mem_iff_getElem?.mp hmem
      exact (m.isChunk j chunk hj).2.2.2
    rw [if_pos (hcount.mpr hall), if_pos hall, hall, Entry.finish, chunks_entry_range, chunks,
      joinChunks_zero hcontent, full]
  · rw [if_neg (fun hfull => hall (hcount.mp hfull)), if_neg hall]

/-- What one of the message's own chunks does to the buffer. -/
theorem addChunkAndReassemble_chunk {p : Process} (hallocates : p.allocates m.total = true)
    {buffer : Buffer E} {arrived : Finset ℕ} (harrived : arrived ⊆ Finset.range m.total)
    (hbuffer : buffer.lookup m.id = some (m.entry arrived) ∨
      arrived = ∅ ∧ buffer.lookup m.id = none)
    {i : ℕ} {chunk : Msg E} (hchunk : m.chunks[i]? = some chunk) :
    addChunkAndReassemble p chunk buffer =
      if insert i arrived = Finset.range m.total then
        (.ok (some m.full), buffer.set m.id none)
      else (.ok none, buffer.set m.id (some (m.entry (insert i arrived)))) := by
  obtain ⟨hid, hnumber, htotal, hcontent⟩ := m.isChunk i chunk hchunk
  have hlog : ¬ p.LogPanics chunk i := by
    rintro ⟨_, hempty | ⟨_, hlast⟩⟩
    · exact hcontent hempty
    · have hi : i < m.total := (List.getElem?_eq_some_iff.mp hchunk).1
      exact absurd m.length_lt (Nat.not_lt.mpr (hlast ▸ hi))
  have hlength : (m.first :: m.rest).length = m.total := rfl
  have hadd : buffer.add p m.id (m.entry arrived) chunk i m.total =
      if insert i arrived = Finset.range m.total then
        (.ok (some m.full), buffer.set m.id none)
      else (.ok none, buffer.set m.id (some (m.entry (insert i arrived)))) := by
    rw [Buffer.add, add_entry p harrived hchunk]
    split <;> rfl
  rw [addChunkAndReassemble, hid, hnumber, htotal, hlength]
  dsimp only
  rw [if_neg hlog]
  rcases hbuffer with hheld | ⟨rfl, hnone⟩
  · rw [hheld]
    exact hadd
  · rw [hnone]
    dsimp only
    rw [if_pos hallocates, ← entry_empty]
    exact hadd

end SplitMessage

/-- The arrival of a chunk. -/
structure Arrival (E : Type) where
  message : SplitMessage E
  index : ℕ
  chunk : Msg E
  getElem?_eq : message.chunks[index]? = some chunk

section Arrivals

/-- All chunks of a message are among the arrivals. -/
def Complete (m : SplitMessage E) (arrivals : List (Arrival E)) : Prop :=
  ∀ i < m.total, ∃ a ∈ arrivals, a.message = m ∧ a.index = i

/-- The numbers of the chunks that have arrived under an id. -/
def arrivedChunks (id : String) (arrivals : List (Arrival E)) : Finset ℕ :=
  (arrivals.filterMap fun a => if a.message.id = id then some a.index else none).toFinset

variable {messages : Set (SplitMessage E)} {arrivals : List (Arrival E)}
  {m : SplitMessage E}

theorem mem_arrivedChunks {id : String} {i : ℕ} :
    i ∈ arrivedChunks id arrivals ↔
      ∃ a ∈ arrivals, a.message.id = id ∧ a.index = i := by
  rw [arrivedChunks, List.mem_toFinset, List.mem_filterMap]
  refine exists_congr fun a => and_congr_right fun _ => ?_
  by_cases hid : a.message.id = id <;> simp [hid]

theorem arrivedChunks_append_singleton (id : String) (a : Arrival E) :
    arrivedChunks id (arrivals ++ [a]) =
      if a.message.id = id then insert a.index (arrivedChunks id arrivals)
      else arrivedChunks id arrivals := by
  ext i
  split
  · rename_i hid
    simp only [mem_arrivedChunks, List.mem_append, List.mem_singleton, Finset.mem_insert]
    constructor
    · rintro ⟨b, hb | rfl, hbid, rfl⟩
      · exact Or.inr ⟨b, hb, hbid, rfl⟩
      · exact Or.inl rfl
    · rintro (rfl | ⟨b, hb, hbid, rfl⟩)
      · exact ⟨a, Or.inr rfl, hid, rfl⟩
      · exact ⟨b, Or.inl hb, hbid, rfl⟩
  · rename_i hid
    simp only [mem_arrivedChunks, List.mem_append, List.mem_singleton]
    constructor
    · rintro ⟨b, hb | rfl, hbid, rfl⟩
      · exact ⟨b, hb, hbid, rfl⟩
      · exact absurd hbid hid
    · rintro ⟨b, hb, hbid, rfl⟩
      exact ⟨b, Or.inl hb, hbid, rfl⟩

/-- Under ids of their own the messages' chunks are kept apart. -/
theorem arrivedChunks_eq_range_iff (hids : Set.InjOn SplitMessage.id messages)
    (hfrom : ∀ a ∈ arrivals, a.message ∈ messages) (hm : m ∈ messages) :
    arrivedChunks m.id arrivals ⊆ Finset.range m.total ∧
      (arrivedChunks m.id arrivals = Finset.range m.total ↔ Complete m arrivals) := by
  have hsubset : arrivedChunks m.id arrivals ⊆ Finset.range m.total := by
    intro i hi
    obtain ⟨a, ha, hid, rfl⟩ := mem_arrivedChunks.mp hi
    rw [← hids (hfrom a ha) hm hid, Finset.mem_range]
    exact (List.getElem?_eq_some_iff.mp a.getElem?_eq).1
  refine ⟨hsubset, fun hall i hi => ?_, fun hcomplete => ?_⟩
  · rw [← Finset.mem_range, ← hall] at hi
    obtain ⟨a, ha, hid, rfl⟩ := mem_arrivedChunks.mp hi
    exact ⟨a, ha, hids (hfrom a ha) hm hid, rfl⟩
  · refine hsubset.antisymm fun i hi => ?_
    obtain ⟨a, ha, rfl, rfl⟩ := hcomplete i (Finset.mem_range.mp hi)
    exact mem_arrivedChunks.mpr ⟨a, ha, rfl, rfl⟩

end Arrivals

section Run

variable {p : Process} {messages : Set (SplitMessage E)}

/-- The entry of a message of which the given chunks have arrived: none before the first
and after the last. -/
def SplitMessage.held (m : SplitMessage E) (arrived : Finset ℕ) : Option (Entry E) :=
  if arrived = ∅ ∨ arrived = Finset.range m.total then none else some (m.entry arrived)

/-- The buffer holds what has arrived of the messages that are not complete. -/
def Holds (messages : Set (SplitMessage E)) (arrivals : List (Arrival E))
    (buffer : Buffer E) : Prop :=
  ∀ m ∈ messages, buffer.lookup m.id = m.held (arrivedChunks m.id arrivals)

/-- What the call for an arrival returns after the arrivals before it. -/
def Returned (before : List (Arrival E)) (a : Arrival E) (result : Option (Msg E)) : Prop :=
  (Complete a.message (before ++ [a]) → result = some a.message.full) ∧
    (¬ Complete a.message (before ++ [a]) → result = none)

theorem SplitMessage.range_ne_empty (m : SplitMessage E) : Finset.range m.total ≠ ∅ := by
  rw [Finset.range_eq_empty_iff.ne]
  exact Nat.succ_ne_zero _

theorem holds_empty : Holds messages [] (∅ : Buffer E) := by
  intro m _
  have hnothing : arrivedChunks m.id ([] : List (Arrival E)) = ∅ := rfl
  rw [hnothing, SplitMessage.held, if_pos (Or.inl rfl)]
  exact Finmap.lookup_empty _

/-- One call keeps the buffer in step with what has arrived. -/
theorem Holds.addChunkAndReassemble {before : List (Arrival E)} {a : Arrival E}
    {buffer : Buffer E} (hholds : Holds messages before buffer)
    (hids : Set.InjOn SplitMessage.id messages)
    (hallocates : ∀ m ∈ messages, p.allocates m.total = true)
    (hfrom : ∀ b ∈ before ++ [a], b.message ∈ messages)
    (hrepeats : ¬ Complete a.message before) :
    ∃ result after, Chat.addChunkAndReassemble p a.chunk buffer = (.ok result, after) ∧
      Returned before a result ∧ Holds messages (before ++ [a]) after := by
  have ha := hfrom a (List.mem_append_right _ (List.mem_singleton.mpr rfl))
  have hbefore : ∀ b ∈ before, b.message ∈ messages := fun b hb =>
    hfrom b (List.mem_append_left _ hb)
  obtain ⟨hsubset, hincomplete⟩ := arrivedChunks_eq_range_iff hids hbefore ha
  obtain ⟨_, hcomplete⟩ := arrivedChunks_eq_range_iff hids hfrom ha
  have hinsert : arrivedChunks a.message.id (before ++ [a]) =
      insert a.index (arrivedChunks a.message.id before) := by
    rw [arrivedChunks_append_singleton, if_pos rfl]
  have hlookup : buffer.lookup a.message.id =
        some (a.message.entry (arrivedChunks a.message.id before)) ∨
      arrivedChunks a.message.id before = ∅ ∧ buffer.lookup a.message.id = none := by
    rw [hholds a.message ha, SplitMessage.held]
    by_cases hempty : arrivedChunks a.message.id before = ∅
    · exact Or.inr ⟨hempty, if_pos (Or.inl hempty)⟩
    · exact Or.inl (if_neg (not_or.mpr ⟨hempty, fun hall => hrepeats (hincomplete.mp hall)⟩))
  have hcall := SplitMessage.addChunkAndReassemble_chunk (hallocates _ ha) hsubset hlookup
    a.getElem?_eq
  rw [← hinsert] at hcall
  have hset : ∀ left, left = a.message.held (arrivedChunks a.message.id (before ++ [a])) →
      Holds messages (before ++ [a]) (buffer.set a.message.id left) := by
    rintro left rfl m hm
    by_cases hid : m.id = a.message.id
    · rw [hids hm ha hid, Buffer.lookup_set]
    · rw [Buffer.lookup_set_of_ne hid, hholds m hm, arrivedChunks_append_singleton,
        if_neg (Ne.symm hid)]
  by_cases hall : arrivedChunks a.message.id (before ++ [a]) = Finset.range a.message.total
  · rw [if_pos hall] at hcall
    refine ⟨_, _, hcall, ⟨fun _ => rfl, fun hnot => absurd (hcomplete.mp hall) hnot⟩,
      hset _ ?_⟩
    rw [SplitMessage.held, if_pos (Or.inr hall)]
  · rw [if_neg hall] at hcall
    refine ⟨_, _, hcall, ⟨fun hdone => absurd (hcomplete.mpr hdone) hall, fun _ => rfl⟩,
      hset _ ?_⟩
    rw [SplitMessage.held, if_neg (not_or.mpr ⟨?_, hall⟩)]
    rw [hinsert]
    exact Finset.insert_ne_empty _ _

/-- Successive calls keep the buffer in step, and return each message with the chunk
that completes it. -/
theorem Holds.addAll {before arrivals : List (Arrival E)} {buffer : Buffer E}
    (hholds : Holds messages before buffer) (hids : Set.InjOn SplitMessage.id messages)
    (hallocates : ∀ m ∈ messages, p.allocates m.total = true)
    (hfrom : ∀ b ∈ before ++ arrivals, b.message ∈ messages)
    (hrepeats : ∀ first (a : Arrival E) last, arrivals = first ++ a :: last →
      ¬ Complete a.message (before ++ first)) :
    ∃ results after, Chat.addAll p (arrivals.map Arrival.chunk) buffer =
        (.ok results, after) ∧ Holds messages (before ++ arrivals) after ∧
      results.length = arrivals.length ∧
      ∀ first a last, arrivals = first ++ a :: last →
        ∃ result, results[first.length]? = some result ∧
          Returned (before ++ first) a result := by
  induction arrivals generalizing before buffer with
  | nil =>
      refine ⟨[], buffer, rfl, ?_, rfl, fun first a last hsplit => ?_⟩
      · rwa [List.append_nil]
      · cases List.append_ne_nil_of_right_ne_nil first (List.cons_ne_nil a last) hsplit.symm
  | cons a arrivals ih =>
      have hassoc : before ++ a :: arrivals = before ++ [a] ++ arrivals := by
        rw [List.append_assoc, List.singleton_append]
      have hfirst : ¬ Complete a.message before := by
        have hnot := hrepeats [] a arrivals rfl
        rwa [List.append_nil] at hnot
      rw [hassoc] at hfrom
      obtain ⟨result, middle, hcall, hreturned, hmiddle⟩ := hholds.addChunkAndReassemble hids
        hallocates (fun b hb => hfrom b (List.mem_append_left _ hb)) hfirst
      have hlater : ∀ first b last, arrivals = first ++ b :: last →
          ¬ Complete b.message (before ++ [a] ++ first) := by
        intro first b last hsplit
        have hnot := hrepeats (a :: first) b last (by rw [hsplit, List.cons_append])
        rwa [← List.singleton_append, ← List.append_assoc] at hnot
      obtain ⟨results, after, hcalls, hafter, hlength, hresults⟩ := ih hmiddle hfrom hlater
      refine ⟨result :: results, after, ?_, ?_, ?_, ?_⟩
      · rw [List.map_cons, Chat.addAll, Session.bind_of_ok hcall, Session.bind_of_ok hcalls]
        rfl
      · rwa [hassoc]
      · rw [List.length_cons, List.length_cons, hlength]
      · intro first b last hsplit
        cases first with
        | nil =>
            obtain ⟨rfl, _⟩ := List.cons.inj hsplit
            refine ⟨result, rfl, ?_⟩
            rwa [List.append_nil]
        | cons c first =>
            obtain ⟨rfl, hrest⟩ := List.cons.inj hsplit
            obtain ⟨later, hget, hlater⟩ := hresults first b last hrest
            refine ⟨later, hget, ?_⟩
            rwa [← List.singleton_append, ← List.append_assoc]

theorem Complete.mono {m : SplitMessage E} {first second : List (Arrival E)}
    (hcomplete : Complete m first) (hsub : first ⊆ second) : Complete m second := by
  intro i hi
  obtain ⟨a, ha, hm, hindex⟩ := hcomplete i hi
  exact ⟨a, hsub ha, hm, hindex⟩

/-- The arrival that completes a message is of one of its chunks. -/
theorem Complete.message_eq {m : SplitMessage E} {before : List (Arrival E)} {a : Arrival E}
    (hcomplete : Complete m (before ++ [a])) (hnot : ¬ Complete m before) :
    a.message = m := by
  by_contra hne
  refine hnot fun i hi => ?_
  obtain ⟨b, hb, hm, hindex⟩ := hcomplete i hi
  rcases List.mem_append.mp hb with hbefore | hlast
  · exact ⟨b, hbefore, hm, hindex⟩
  · rw [List.mem_singleton.mp hlast] at hm
    exact absurd hm hne

theorem exists_completing {m : SplitMessage E} {arrivals : List (Arrival E)}
    (hcomplete : Complete m arrivals) :
    ∃ first a last, arrivals = first ++ a :: last ∧ a.message = m ∧
      Complete m (first ++ [a]) := by
  induction arrivals using List.reverseRecOn with
  | nil =>
      obtain ⟨a, ha, _⟩ := hcomplete 0 (Nat.succ_pos _)
      exact absurd ha List.not_mem_nil
  | append_singleton before a ih =>
      by_cases hbefore : Complete m before
      · obtain ⟨first, b, last, hsplit, hm, hdone⟩ := ih hbefore
        refine ⟨first, b, last ++ [a], ?_, hm, hdone⟩
        rw [hsplit, List.append_assoc, List.cons_append]
      · exact ⟨before, a, [], rfl, hcomplete.message_eq hbefore, hcomplete⟩

theorem exists_split_of_getElem? {α : Type} {list : List α} {k : ℕ} {a : α}
    (hget : list[k]? = some a) :
    ∃ first last, list = first ++ a :: last ∧ first.length = k := by
  obtain ⟨hk, rfl⟩ := List.getElem?_eq_some_iff.mp hget
  refine ⟨list.take k, list.drop (k + 1), ?_, List.length_take_of_le (Nat.le_of_lt hk)⟩
  rw [← List.drop_eq_getElem_cons hk, List.take_append_drop]

/-- One of two places in a list comes first. -/
theorem append_singleton_subset_of_length_lt {α : Type}
    {list first last first' last' : List α} {a a' : α}
    (hsplit : list = first ++ a :: last) (hsplit' : list = first' ++ a' :: last')
    (hlt : first.length < first'.length) : first ++ [a] ⊆ first' := by
  have hfirst : first ++ [a] <+: list :=
    ⟨last, by rw [hsplit, List.append_assoc, List.singleton_append]⟩
  have hlength : (first ++ [a]).length ≤ first'.length := by
    rwa [List.length_append, List.length_singleton, Nat.succ_le_iff]
  have hsecond : first' <+: list := ⟨a' :: last', hsplit'.symm⟩
  exact (List.prefix_of_prefix_length_le hfirst hsecond hlength).subset

/-- Every message is returned exactly once, with the arrival of its last missing chunk,
and leaves nothing in the buffer. -/
theorem reassembles_each_once (hids : Set.InjOn SplitMessage.id messages)
    (hallocates : ∀ m ∈ messages, p.allocates m.total = true)
    {arrivals : List (Arrival E)} (hfrom : ∀ a ∈ arrivals, a.message ∈ messages)
    (hrepeats : ∀ first (a : Arrival E) last, arrivals = first ++ a :: last →
      ¬ Complete a.message first)
    (hall : ∀ m ∈ messages, Complete m arrivals) :
    ∃ results after, addAll p (arrivals.map Arrival.chunk) ∅ = (.ok results, after) ∧
      results.length = arrivals.length ∧
      (∀ first a last, arrivals = first ++ a :: last →
        ∃ result, results[first.length]? = some result ∧ Returned first a result) ∧
      (∀ m ∈ messages, ∃! k : ℕ, ∃ a : Arrival E, arrivals[k]? = some a ∧ a.message = m ∧
        results[k]? = some (some m.full)) ∧
      ∀ m ∈ messages, after.lookup m.id = none := by
  have hnothing : Holds messages [] (∅ : Buffer E) := holds_empty
  obtain ⟨results, after, hcalls, hafter, hlength, hresults⟩ :=
    hnothing.addAll hids hallocates hfrom hrepeats
  simp only [List.nil_append] at hafter hresults
  refine ⟨results, after, hcalls, hlength, hresults, fun m hm => ?_, fun m hm => ?_⟩
  · obtain ⟨first, a, last, hsplit, rfl, hdone⟩ := exists_completing (hall m hm)
    have hget : arrivals[first.length]? = some a := by
      rw [hsplit, List.getElem?_append_right le_rfl, Nat.sub_self, List.getElem?_cons_zero]
    obtain ⟨result, hresult, hreturned⟩ := hresults first a last hsplit
    refine ⟨first.length, ⟨a, hget, rfl, ?_⟩, ?_⟩
    · rw [hresult, hreturned.1 hdone]
    · rintro k ⟨b, hb, hmessage, hfull⟩
      obtain ⟨first', last', hsplit', rfl⟩ := exists_split_of_getElem? hb
      obtain ⟨result', hresult', hreturned'⟩ := hresults first' b last' hsplit'
      have hdone' : Complete b.message (first' ++ [b]) := by
        by_contra hnot
        rw [hresult', hreturned'.2 hnot] at hfull
        cases hfull
      rcases Nat.lt_trichotomy first'.length first.length with hlt | heq | hgt
      · have hbefore := hdone'.mono
          (append_singleton_subset_of_length_lt hsplit' hsplit hlt)
        rw [hmessage] at hbefore
        exact absurd hbefore (hrepeats first a last hsplit)
      · exact heq
      · have hbefore := hdone.mono
          (append_singleton_subset_of_length_lt hsplit hsplit' hgt)
        rw [← hmessage] at hbefore
        exact absurd hbefore (hrepeats first' b last' hsplit')
  · rw [hafter m hm, SplitMessage.held,
      if_pos (Or.inr ((arrivedChunks_eq_range_iff hids hfrom hm).2.mpr (hall m hm)))]

end Run

section Sample

/-- A process with plenty of memory that logs everything. -/
def demoProcess : Process := ⟨"ana", true, true, fun _ => true⟩

def demoChunk (id sender : String) (i n : ℕ) (text : String) : Msg Empty :=
  ⟨sender, [text], .chat, .zeroSha1, none, some id, some i, some n⟩

def hello : SplitMessage Empty where
  id := "m1"
  first := demoChunk "m1" "ben" 0 2 "hel"
  rest := [demoChunk "m1" "ben" 1 2 "lo"]
  length_lt := by decide
  isChunk := by
    rintro (_ | _ | i) chunk ⟨⟩
    · exact ⟨rfl, rfl, rfl, List.cons_ne_nil _ _⟩
    · exact ⟨rfl, rfl, rfl, List.cons_ne_nil _ _⟩

def bye : SplitMessage Empty where
  id := "m2"
  first := demoChunk "m2" "cat" 0 1 "bye"
  rest := []
  length_lt := by decide
  isChunk := by
    rintro (_ | i) chunk ⟨⟩
    exact ⟨rfl, rfl, rfl, List.cons_ne_nil _ _⟩

/-- The last chunk comes first, and twice, with the other message in between. -/
def demoArrivals : List (Arrival Empty) :=
  [⟨hello, 1, _, rfl⟩, ⟨bye, 0, _, rfl⟩, ⟨hello, 1, _, rfl⟩, ⟨hello, 0, _, rfl⟩]

theorem not_complete_of_not_subset {m : SplitMessage E} {arrivals : List (Arrival E)}
    (hnot : ¬ Finset.range m.total ⊆ arrivedChunks m.id arrivals) :
    ¬ Complete m arrivals := by
  intro hcomplete
  refine hnot fun i hi => ?_
  obtain ⟨a, ha, rfl, rfl⟩ := hcomplete i (Finset.mem_range.mp hi)
  exact mem_arrivedChunks.mpr ⟨a, ha, rfl, rfl⟩

theorem injOn_id_demo : Set.InjOn SplitMessage.id {hello, bye} := by
  rintro _ (rfl | rfl) _ (rfl | rfl) hid
  · rfl
  · exact absurd hid (by decide)
  · exact absurd hid (by decide)
  · rfl

theorem mem_of_mem_demoArrivals {a : Arrival Empty} (ha : a ∈ demoArrivals) :
    a.message ∈ ({hello, bye} : Set (SplitMessage Empty)) := by
  simp only [demoArrivals, List.mem_cons, List.not_mem_nil, or_false] at ha
  rcases ha with rfl | rfl | rfl | rfl
  · exact Or.inl rfl
  · exact Or.inr rfl
  · exact Or.inl rfl
  · exact Or.inl rfl

theorem not_complete_demo (first : List (Arrival Empty)) (a : Arrival Empty)
    (last : List (Arrival Empty)) (hsplit : demoArrivals = first ++ a :: last) :
    ¬ Complete a.message first := by
  rcases first with _ | ⟨b, _ | ⟨c, _ | ⟨d, _ | ⟨e, first⟩⟩⟩⟩
  · cases hsplit
    exact not_complete_of_not_subset (by decide)
  · cases hsplit
    exact not_complete_of_not_subset (by decide)
  · cases hsplit
    exact not_complete_of_not_subset (by decide)
  · cases hsplit
    exact not_complete_of_not_subset (by decide)
  · have hlength := congrArg List.length hsplit
    simp only [demoArrivals, List.length_cons, List.length_append,
      List.length_nil] at hlength
    omega

theorem complete_demo {m : SplitMessage Empty}
    (hm : m ∈ ({hello, bye} : Set (SplitMessage Empty))) : Complete m demoArrivals := by
  have hfrom : ∀ a ∈ demoArrivals, a.message ∈ ({hello, bye} : Set (SplitMessage Empty)) :=
    fun _ => mem_of_mem_demoArrivals
  refine (arrivedChunks_eq_range_iff injOn_id_demo hfrom hm).2.mp ?_
  rcases hm with rfl | rfl
  · decide
  · decide

theorem reassembles_each_once_demo :
    ∃ results after,
      addAll demoProcess (demoArrivals.map Arrival.chunk) ∅ = (.ok results, after) ∧
        results.length = 4 ∧ after.lookup "m1" = none := by
  have hallocates : ∀ m ∈ ({hello, bye} : Set (SplitMessage Empty)),
      demoProcess.allocates m.total = true := fun _ _ => rfl
  obtain ⟨results, after, hcalls, hlength, _, _, hlookup⟩ :=
    reassembles_each_once injOn_id_demo hallocates (fun _ => mem_of_mem_demoArrivals)
      not_complete_demo fun _ => complete_demo
  exact ⟨results, after, hcalls, hlength, hlookup hello (Or.inl rfl)⟩

end Sample

end Chat

end Gnostr
