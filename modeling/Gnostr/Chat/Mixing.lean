/-
A chunked message among chunks that other senders label with its id, and among repeats
of its own.
-/
import Gnostr.Chat.Counting

namespace Gnostr

namespace Chat

variable {E : Type} {m : SplitMessage E}

/-- What arrives under the id of a message: its own chunks, and those of others. -/
inductive Traffic (m : SplitMessage E)
  | own (i : ℕ) (chunk : Msg E) (getElem?_eq : m.chunks[i]? = some chunk)
  | foreign (chunk : Msg E) (sequenceNum totalChunks : ℕ)
      (sender_ne : chunk.sender ≠ m.first.sender)
      (messageId_eq : chunk.messageId = some m.id)
      (sequenceNum_eq : chunk.sequenceNum = some sequenceNum)
      (totalChunks_eq : chunk.totalChunks = some totalChunks)

def Traffic.chunk : Traffic m → Msg E
  | own _ chunk _ => chunk
  | foreign chunk _ _ _ _ _ _ => chunk

def Traffic.index? : Traffic m → Option ℕ
  | own i _ _ => some i
  | foreign _ _ _ _ _ _ _ => none

/-- The numbers of the message's own chunks that have arrived. -/
def ownArrived (traffic : List (Traffic m)) : Finset ℕ :=
  (traffic.filterMap Traffic.index?).toFinset

def bufferAfter (p : Process) (traffic : List (Traffic m)) : Buffer E :=
  (addAll p (traffic.map Traffic.chunk) ∅).2

/-- The messages of the sender among those that were returned. -/
def ofSender (m : SplitMessage E) (results : List (Option (Msg E))) : List (Msg E) :=
  (results.filterMap id).filter (·.sender = m.first.sender)

/-- The calls return the message exactly once, nothing else in its sender's name, and no
entry is left when the last of its chunks has arrived. -/
structure Undisturbed (p : Process) (traffic : List (Traffic m)) : Prop where
  returned : ∃ results after, addAll p (traffic.map Traffic.chunk) ∅ = (.ok results, after) ∧
    ofSender m results = [m.full]
  cleared : ∀ first i chunk (hchunk : m.chunks[i]? = some chunk) last,
    traffic = first ++ .own i chunk hchunk :: last → (∀ x ∈ last, x.index? = none) →
      (bufferAfter p (first ++ [.own i chunk hchunk])).lookup m.id = none

/-- The message and the others' chunks keep apart: its own chunks come before it is
complete and find no entry of others; a chunk of others is one the call can take, and
finds none of the message's own chunks, or is turned away. -/
def Apart (p : Process) (before : List (Traffic m)) (buffer : Buffer E) : Traffic m → Prop
  | .own _ _ _ =>
      ownArrived before ≠ Finset.range m.total ∧
        ∀ entry, buffer.lookup m.id = some entry → entry.totalChunks = m.total ∧
          ∀ part, some part ∈ entry.chunks → part.sender = m.first.sender
  | .foreign chunk sequenceNum totalChunks _ _ _ _ =>
      Accepts p buffer chunk m.id sequenceNum totalChunks ∧
        ∀ entry, buffer.lookup m.id = some entry →
          (∃ part, some part ∈ entry.chunks ∧ part.sender = m.first.sender) →
            totalChunks = entry.totalChunks ∧ (totalChunks ≤ sequenceNum ∨
              ∃ part, entry.chunks[sequenceNum]? = some (some part))

section Invariant

variable {p : Process} {before : List (Traffic m)} {buffer : Buffer E}

theorem ownArrived_append_of_foreign {last : List (Traffic m)}
    (hlast : ∀ x ∈ last, x.index? = none) :
    ownArrived (before ++ last) = ownArrived before := by
  rw [ownArrived, List.filterMap_append, List.filterMap_eq_nil_iff.mpr hlast, List.append_nil,
    ownArrived]

theorem ownArrived_append_singleton (x : Traffic m) :
    ownArrived (before ++ [x]) =
      match x.index? with
      | some i => insert i (ownArrived before)
      | none => ownArrived before := by
  cases hindex : x.index? with
  | none => exact ownArrived_append_of_foreign (by simpa using hindex)
  | some i =>
      ext j
      rw [ownArrived, List.filterMap_append, List.filterMap_cons_some hindex,
        List.filterMap_nil, List.mem_toFinset, List.mem_append, List.mem_singleton,
        Finset.mem_insert, ownArrived, List.mem_toFinset, or_comm]

theorem ownArrived_subset (before : List (Traffic m)) :
    ownArrived before ⊆ Finset.range m.total := by
  intro i hi
  rw [ownArrived, List.mem_toFinset, List.mem_filterMap] at hi
  obtain ⟨x, _, hindex⟩ := hi
  cases x with
  | own j chunk hchunk =>
      cases hindex
      exact Finset.mem_range.mpr (List.getElem?_eq_some_iff.mp hchunk).1
  | foreign => cases hindex

/-- No chunk of the message's sender is in the entry. -/
def ForeignOnly (m : SplitMessage E) (entry : Entry E) : Prop :=
  ∀ part, some part ∈ entry.chunks → part.sender ≠ m.first.sender

/-- The message's chunks have the entry to themselves while it is incomplete; before and
after there are only others' chunks. -/
structure Separate (before : List (Traffic m)) (buffer : Buffer E)
    (results : List (Option (Msg E))) : Prop where
  counted : buffer.Counted
  idle : ownArrived before = ∅ ∨ ownArrived before = Finset.range m.total →
    ∀ entry, buffer.lookup m.id = some entry → ForeignOnly m entry
  busy : ownArrived before ≠ ∅ → ownArrived before ≠ Finset.range m.total →
    buffer.lookup m.id = some (m.entry (ownArrived before))
  pending : ownArrived before ≠ Finset.range m.total → ofSender m results = []
  done : ownArrived before = Finset.range m.total → ofSender m results = [m.full]

/-- An entry without chunks is as good as new. -/
theorem eq_entry_empty {entry : Entry E} (hentry : entry.Counted)
    (htotal : entry.totalChunks = m.total) (hnone : ∀ part, some part ∉ entry.chunks) :
    entry = m.entry ∅ := by
  have hslots : entry.chunks = List.replicate m.total none := by
    rw [List.eq_replicate_iff, hentry.length_eq]
    refine ⟨htotal, fun slot hslot => ?_⟩
    cases slot with
    | none => rfl
    | some part => exact absurd hslot (hnone part)
  have hcount : entry.receivedCount = 0 := by
    rw [hentry.count_eq, hslots, List.countP_replicate]
    rfl
  rw [SplitMessage.entry_empty]
  cases entry
  dsimp only at htotal hslots hcount
  rw [htotal, hslots, hcount, Entry.new]

theorem addAll_append_singleton {chunks : List (Msg E)} {s t u : Buffer E}
    {results : List (Option (Msg E))} {chunk : Msg E} {result : Option (Msg E)}
    (hbefore : addAll p chunks s = (.ok results, t))
    (hlast : addChunkAndReassemble p chunk t = (.ok result, u)) :
    addAll p (chunks ++ [chunk]) s = (.ok (results ++ [result]), u) := by
  induction chunks generalizing s results with
  | nil =>
      cases hbefore
      rw [List.nil_append, addAll, Session.bind_of_ok hlast]
      rfl
  | cons first rest ih =>
      rw [addAll, Session.bind_eq_ok_iff] at hbefore
      obtain ⟨earlier, middle, hfirst, hrest⟩ := hbefore
      obtain ⟨others, after, hothers, hpure⟩ := Session.bind_eq_ok_iff.mp hrest
      cases hpure
      rw [List.cons_append, addAll, Session.bind_of_ok hfirst,
        Session.bind_of_ok (ih hothers)]
      rfl

@[simp] theorem ofSender_append_none (results : List (Option (Msg E))) :
    ofSender m (results ++ [none]) = ofSender m results := by
  rw [ofSender, List.filterMap_append, List.filterMap_cons_none rfl, List.filterMap_nil,
    List.append_nil, ofSender]

theorem ofSender_append_some (results : List (Option (Msg E))) (msg : Msg E) :
    ofSender m (results ++ [some msg]) =
      if msg.sender = m.first.sender then ofSender m results ++ [msg]
      else ofSender m results := by
  have hlast : [some msg].filterMap id = [msg] := rfl
  rw [ofSender, List.filterMap_append, hlast, List.filter_append, ← ofSender]
  split
  · rename_i hsender
    simp [hsender]
  · rename_i hsender
    simp [hsender]

/-- A chunk of the message joins the others, or completes them. -/
theorem Separate.own {results : List (Option (Msg E))}
    (hseparate : Separate before buffer results) (hallocates : p.allocates m.total = true)
    {i : ℕ} {chunk : Msg E} (hchunk : m.chunks[i]? = some chunk)
    (hapart : Apart p before buffer (.own i chunk hchunk)) :
    ∃ result after, addChunkAndReassemble p chunk buffer = (.ok result, after) ∧
      Separate (before ++ [.own i chunk hchunk]) after (results ++ [result]) ∧
      (ownArrived (before ++ [.own i chunk hchunk]) = Finset.range m.total →
        after.lookup m.id = none) := by
  obtain ⟨hincomplete, halone⟩ := hapart
  have hlookup : buffer.lookup m.id = some (m.entry (ownArrived before)) ∨
      ownArrived before = ∅ ∧ buffer.lookup m.id = none := by
    by_cases hempty : ownArrived before = ∅
    · rcases Option.eq_none_or_eq_some (buffer.lookup m.id) with hnone | ⟨entry, hentry⟩
      · exact Or.inr ⟨hempty, hnone⟩
      · obtain ⟨htotal, hown⟩ := halone entry hentry
        have hforeign := hseparate.idle (Or.inl hempty) entry hentry
        rw [hempty, hentry, eq_entry_empty (hseparate.counted _ _ hentry) htotal
          fun part hpart => hforeign part hpart (hown part hpart)]
        exact Or.inl rfl
    · exact Or.inl (hseparate.busy hempty hincomplete)
  have hcall := SplitMessage.addChunkAndReassemble_chunk hallocates (ownArrived_subset before)
    hlookup hchunk
  have harrived : ownArrived (before ++ [.own i chunk hchunk]) =
      insert i (ownArrived before) := ownArrived_append_singleton _
  have hcounted := hseparate.counted.addChunkAndReassemble p chunk
  have hsome : ownArrived (before ++ [.own i chunk hchunk]) ≠ ∅ :=
    harrived ▸ Finset.insert_ne_empty _ _
  have hfull : m.full.sender = m.first.sender := rfl
  rw [← harrived] at hcall
  by_cases hall : ownArrived (before ++ [.own i chunk hchunk]) = Finset.range m.total
  · rw [if_pos hall] at hcall
    rw [hcall] at hcounted
    refine ⟨_, _, hcall, ⟨hcounted, fun _ entry hentry => ?_, fun _ hnot => absurd hall hnot,
      fun hnot => absurd hall hnot, fun _ => ?_⟩, fun _ => Buffer.lookup_set _⟩
    · rw [Buffer.lookup_set] at hentry
      cases hentry
    · rw [ofSender_append_some, if_pos hfull, hseparate.pending hincomplete, List.nil_append]
  · rw [if_neg hall] at hcall
    rw [hcall] at hcounted
    refine ⟨_, _, hcall, ⟨hcounted, fun hidle => ?_, fun _ _ => Buffer.lookup_set _,
      fun _ => ?_, fun hdone => absurd hdone hall⟩, fun hdone => absurd hdone hall⟩
    · exact absurd hidle (not_or.mpr ⟨hsome, hall⟩)
    · rw [ofSender_append_none, hseparate.pending hincomplete]

/-- A chunk that finds its slot filled or out of range changes nothing. -/
theorem add_entry_of_rejected {arrived : Finset ℕ}
    (harrived : arrived ⊆ Finset.range m.total)
    (hincomplete : arrived ≠ Finset.range m.total) (chunk : Msg E) {sequenceNum : ℕ}
    (hrejected : m.total ≤ sequenceNum ∨
      ∃ part, (m.entry arrived).chunks[sequenceNum]? = some (some part)) :
    (m.entry arrived).add p chunk sequenceNum m.total =
      (.ok none, some (m.entry arrived)) := by
  have htotal : (m.entry arrived).totalChunks = m.total := rfl
  have hcount : (m.entry arrived).receivedCount ≠ m.total := fun hcard =>
    hincomplete ((SplitMessage.card_eq_total_iff harrived).mp hcard)
  rw [Entry.add, if_neg (not_not_intro htotal)]
  rcases hrejected with hge | ⟨part, hpart⟩
  · rw [if_neg (Nat.not_lt.mpr hge)]
  · have hlt : sequenceNum < m.total := by
      have hlength := (List.getElem?_eq_some_iff.mp hpart).1
      rwa [SplitMessage.entry, List.length_map, List.length_range] at hlength
    rw [if_pos hlt, hpart]
    dsimp only
    rw [Entry.fill, if_neg hcount]

/-- A chunk of others that is turned away leaves the message's entry as it is. -/
theorem Separate.foreign_of_busy {results : List (Option (Msg E))}
    (hseparate : Separate before buffer results) {x : Traffic m} (hx : x.index? = none)
    (hsome : ownArrived before ≠ ∅) (hincomplete : ownArrived before ≠ Finset.range m.total)
    {after : Buffer E} (hcounted : after.Counted)
    (hafter : after = buffer.set m.id (some (m.entry (ownArrived before)))) :
    Separate (before ++ [x]) after (results ++ [none]) := by
  have harrived : ownArrived (before ++ [x]) = ownArrived before := by
    rw [ownArrived_append_singleton, hx]
  refine ⟨hcounted, fun hidle => ?_, fun _ _ => ?_, fun hpending => ?_, fun hdone => ?_⟩
  · rw [harrived] at hidle
    exact absurd hidle (not_or.mpr ⟨hsome, hincomplete⟩)
  · rw [hafter, Buffer.lookup_set, harrived]
  · rw [ofSender_append_none, hseparate.pending hincomplete]
  · rw [harrived] at hdone
    exact absurd hdone hincomplete

/-- While there is no entry of the message, a chunk of others goes to an entry of others. -/
theorem Separate.foreign_of_idle {results : List (Option (Msg E))}
    (hseparate : Separate before buffer results) {x : Traffic m} (hx : x.index? = none)
    (hidle : ownArrived before = ∅ ∨ ownArrived before = Finset.range m.total)
    {result : Option (Msg E)}
    (hresult : ofSender m (results ++ [result]) = ofSender m results)
    {left : Option (Entry E)} (hleft : ∀ entry ∈ left, ForeignOnly m entry)
    (hcounted : (buffer.set m.id left).Counted) :
    Separate (before ++ [x]) (buffer.set m.id left) (results ++ [result]) := by
  have harrived : ownArrived (before ++ [x]) = ownArrived before := by
    rw [ownArrived_append_singleton, hx]
  rw [← harrived] at hidle
  refine ⟨hcounted, fun _ entry hentry => ?_, fun hsome hincomplete => ?_, fun hpending => ?_,
    fun hdone => ?_⟩
  · rw [Buffer.lookup_set] at hentry
    exact hleft entry hentry
  · exact absurd hidle (not_or.mpr ⟨hsome, hincomplete⟩)
  · rw [hresult, hseparate.pending (harrived ▸ hpending)]
  · rw [hresult, hseparate.done (harrived ▸ hdone)]

/-- A chunk of others is turned away from the message's entry, or goes to another one. -/
theorem Separate.foreign {results : List (Option (Msg E))}
    (hseparate : Separate before buffer results)
    (hsender : ∀ chunk ∈ m.chunks, chunk.sender = m.first.sender) {chunk : Msg E}
    {sequenceNum totalChunks : ℕ} (hne : chunk.sender ≠ m.first.sender)
    (hid : chunk.messageId = some m.id) (hnumber : chunk.sequenceNum = some sequenceNum)
    (htotal : chunk.totalChunks = some totalChunks)
    (hapart : Apart p before buffer
      (.foreign chunk sequenceNum totalChunks hne hid hnumber htotal)) :
    ∃ result after, addChunkAndReassemble p chunk buffer = (.ok result, after) ∧
      Separate (before ++ [.foreign chunk sequenceNum totalChunks hne hid hnumber htotal])
        after (results ++ [result]) := by
  obtain ⟨haccepts, haside⟩ := hapart
  have hcounted := hseparate.counted.addChunkAndReassemble p chunk
  have hcall := haccepts.addChunkAndReassemble_eq hid hnumber htotal
  rw [Buffer.add] at hcall
  by_cases hidle : ownArrived before = ∅ ∨ ownArrived before = Finset.range m.total
  · have hforeign : ForeignOnly m (buffer.entryFor m.id totalChunks) := by
      unfold Buffer.entryFor
      cases hlookup : buffer.lookup m.id with
      | some entry => exact hseparate.idle hidle entry hlookup
      | none =>
          intro part hpart
          cases List.eq_of_mem_replicate hpart
    have hfilled : ∀ slot part, some part ∈
        ((buffer.entryFor m.id totalChunks).fill sequenceNum chunk slot).chunks →
          part.sender ≠ m.first.sender := by
      intro slot part hpart
      rcases Entry.mem_chunks_fill hpart with hold | rfl
      · exact hforeign part hold
      · exact hne
    rcases (hseparate.counted.entryFor m.id totalChunks).add_cases p chunk sequenceNum
      totalChunks with ⟨first, rest, hcompletes, ⟨_, hadd⟩ | ⟨hempty, _⟩⟩ |
        ⟨_, left, hadd, hleft⟩
    · rw [hadd] at hcall
      rw [hcall] at hcounted
      obtain ⟨_, slot, _, hparts⟩ := hcompletes
      have hfirst : (joined first rest).sender ≠ m.first.sender :=
        hfilled slot first (hparts ▸ List.mem_cons_self)
      refine ⟨_, _, hcall, hseparate.foreign_of_idle rfl hidle ?_ ?_ hcounted⟩
      · rw [ofSender_append_some, if_neg hfirst]
      · intro entry hentry
        exact absurd hentry (Option.not_mem_none entry)
    · obtain ⟨part, hpart, hcontent⟩ := hempty
      exact absurd hcontent (haccepts.lines _ hcompletes part hpart)
    · rw [hadd] at hcall
      rw [hcall] at hcounted
      refine ⟨_, _, hcall, hseparate.foreign_of_idle rfl hidle (ofSender_append_none _) ?_
        hcounted⟩
      rcases hleft with rfl | rfl | ⟨slot, _, rfl⟩
      · intro entry hentry
        exact absurd hentry (Option.not_mem_none entry)
      · rintro entry ⟨⟩
        exact hforeign
      · rintro entry ⟨⟩
        exact hfilled slot
  · obtain ⟨hsome, hincomplete⟩ := not_or.mp hidle
    have hlookup := hseparate.busy hsome hincomplete
    obtain ⟨i, hi⟩ := Finset.nonempty_iff_ne_empty.mpr hsome
    have hlt : i < m.total := Finset.mem_range.mp (ownArrived_subset before hi)
    have hslot : (m.entry (ownArrived before)).chunks[i]? = some (some m.chunks[i]) := by
      rw [SplitMessage.getElem?_chunks_entry hlt, if_pos hi]
      exact congrArg some (List.getElem?_eq_getElem hlt)
    obtain ⟨rfl, hrejected⟩ := haside _ hlookup ⟨_, List.mem_of_getElem? hslot,
      hsender _ (List.getElem_mem hlt)⟩
    have hentry : buffer.entryFor m.id (m.entry (ownArrived before)).totalChunks =
        m.entry (ownArrived before) := by
      rw [Buffer.entryFor, hlookup, Option.getD_some]
    have htotals : (m.entry (ownArrived before)).totalChunks = m.total := rfl
    rw [hentry, htotals, add_entry_of_rejected (ownArrived_subset before) hincomplete chunk
      hrejected] at hcall
    rw [hcall] at hcounted
    exact ⟨_, _, hcall, hseparate.foreign_of_busy rfl hsome hincomplete hcounted rfl⟩

theorem separate_nil : Separate ([] : List (Traffic m)) ∅ [] where
  counted := Buffer.counted_empty
  idle _ entry hentry := by
    rw [Finmap.lookup_empty] at hentry
    cases hentry
  busy hsome _ := absurd rfl hsome
  pending _ := rfl
  done hall := absurd hall.symm m.range_ne_empty

/-- Along a run whose steps keep apart, the message's entry is its own. -/
theorem separate_of_apart (hsender : ∀ chunk ∈ m.chunks, chunk.sender = m.first.sender)
    (hallocates : p.allocates m.total = true) {traffic : List (Traffic m)}
    (hsteps : ∀ first x last, traffic = first ++ x :: last →
      Apart p first (bufferAfter p first) x) :
    ∃ results, addAll p (traffic.map Traffic.chunk) ∅ =
        (.ok results, bufferAfter p traffic) ∧
      Separate traffic (bufferAfter p traffic) results := by
  induction traffic using List.reverseRecOn with
  | nil => exact ⟨[], rfl, separate_nil⟩
  | append_singleton before x ih =>
      have hbefore : ∀ first y last, before = first ++ y :: last →
          Apart p first (bufferAfter p first) y := by
        intro first y last hsplit
        refine hsteps first y (last ++ [x]) ?_
        rw [hsplit, List.append_assoc, List.cons_append]
      obtain ⟨results, hcalls, hseparate⟩ := ih hbefore
      have hstep : ∃ result after,
          addChunkAndReassemble p x.chunk (bufferAfter p before) = (.ok result, after) ∧
            Separate (before ++ [x]) after (results ++ [result]) := by
        have hapart := hsteps before x [] rfl
        cases x with
        | own i chunk hchunk =>
            obtain ⟨result, after, hcall, hnext, _⟩ :=
              hseparate.own hallocates hchunk hapart
            exact ⟨result, after, hcall, hnext⟩
        | foreign chunk sequenceNum totalChunks hne hid hnumber htotal =>
            exact hseparate.foreign hsender hne hid hnumber htotal hapart
      obtain ⟨result, after, hcall, hnext⟩ := hstep
      have hall : addAll p ((before ++ [x]).map Traffic.chunk) ∅ =
          (.ok (results ++ [result]), after) := by
        rw [List.map_append]
        exact addAll_append_singleton hcalls hcall
      have hafter : bufferAfter p (before ++ [x]) = after := congrArg Prod.snd hall
      rw [hafter]
      exact ⟨_, hall, hnext⟩

/-- In every run whose steps keep apart, the message is returned exactly once, as it was
sent, and leaves nothing behind. -/
theorem undisturbed_of_apart (hsender : ∀ chunk ∈ m.chunks, chunk.sender = m.first.sender)
    (hallocates : p.allocates m.total = true) {traffic : List (Traffic m)}
    (hall : ownArrived traffic = Finset.range m.total)
    (hsteps : ∀ first x last, traffic = first ++ x :: last →
      Apart p first (bufferAfter p first) x) :
    Undisturbed p traffic := by
  constructor
  · obtain ⟨results, hcalls, hseparate⟩ := separate_of_apart hsender hallocates hsteps
    exact ⟨results, _, hcalls, hseparate.done hall⟩
  · intro first i chunk hchunk last hsplit hlast
    have hfirst : ∀ before y rest, first = before ++ y :: rest →
        Apart p before (bufferAfter p before) y := by
      intro before y rest hrest
      refine hsteps before y (rest ++ .own i chunk hchunk :: last) ?_
      rw [hsplit, hrest, List.append_assoc, List.cons_append]
    obtain ⟨results, hcalls, hseparate⟩ := separate_of_apart hsender hallocates hfirst
    obtain ⟨result, after, hcall, _, hcleared⟩ :=
      hseparate.own hallocates hchunk (hsteps first _ last hsplit)
    have hcomplete : ownArrived (first ++ [.own i chunk hchunk]) = Finset.range m.total := by
      rw [← ownArrived_append_of_foreign hlast, List.append_assoc, List.singleton_append,
        ← hsplit, hall]
    have hlist : addAll p ((first ++ [Traffic.own i chunk hchunk]).map Traffic.chunk) ∅ =
        (.ok (results ++ [result]), after) := by
      rw [List.map_append]
      exact addAll_append_singleton hcalls hcall
    have hafter : bufferAfter p (first ++ [Traffic.own i chunk hchunk]) = after :=
      congrArg Prod.snd hlist
    rw [hafter]
    exact hcleared hcomplete

end Invariant

section Sample

def eve (i n : ℕ) : Msg Empty := demoChunk "m2" "eve" i n "boo"

theorem firstChunk_bye : bye.chunks[0]? = some bye.first := rfl

theorem firstChunk_hello : hello.chunks[0]? = some hello.first := rfl

theorem lastChunk_hello : hello.chunks[1]? = some (demoChunk "m1" "ben" 1 2 "lo") := rfl

/-- Another sender's message under the same id, before the message itself. -/
def guardedTraffic : List (Traffic bye) :=
  [.foreign (eve 0 1) 0 1 (by decide) rfl rfl rfl, .own 0 _ firstChunk_bye]

theorem lookup_guardedTraffic :
    (bufferAfter demoProcess (guardedTraffic.take 1)).lookup bye.id = none := by
  rfl

theorem undisturbed_guardedTraffic : Undisturbed demoProcess guardedTraffic := by
  have hsender : ∀ chunk ∈ bye.chunks, chunk.sender = bye.first.sender := by
    intro chunk hchunk
    rw [List.mem_singleton.mp hchunk]
  have hall : ownArrived guardedTraffic = Finset.range bye.total := by decide
  refine undisturbed_of_apart hsender rfl hall ?_
  rintro (_ | ⟨y, _ | ⟨z, first⟩⟩) x last hsplit
  · cases hsplit
    refine ⟨⟨by decide, fun _ => rfl, ?_⟩, fun entry hentry => ?_⟩
    · rintro parts ⟨_, slot, hslot, hparts⟩ part hpart
      cases hslot
      have hmem : some part ∈ parts.map some := List.mem_map_of_mem hpart
      rw [← hparts] at hmem
      cases List.mem_singleton.mp hmem
      exact List.cons_ne_nil _ _
    · cases hentry
  · cases hsplit
    refine ⟨by decide, fun entry hentry => ?_⟩
    exact absurd (lookup_guardedTraffic.symm.trans hentry) (Option.some_ne_none entry).symm
  · have hlength := congrArg List.length hsplit
    simp only [guardedTraffic, List.length_cons, List.length_append,
      List.length_nil] at hlength
    omega

/-- A chunk that is repeated after its message is complete. -/
def lateRepeat : List (Traffic bye) :=
  [.own 0 _ firstChunk_bye, .own 0 _ firstChunk_bye]

/-- A chunk under the same id that announces another total. -/
def otherTotal : List (Traffic hello) :=
  [.own 0 _ firstChunk_hello,
    .foreign (demoChunk "m1" "eve" 0 3 "boo") 0 3 (by decide) rfl rfl rfl,
    .own 1 _ lastChunk_hello]

theorem not_undisturbed_lateRepeat :
    ¬ Undisturbed demoProcess lateRepeat ∧ ¬ Undisturbed demoProcess otherTotal := by
  have hrepeat : (addAll demoProcess (lateRepeat.map Traffic.chunk) ∅).1 =
      .ok [some bye.full, some bye.full] := by decide +kernel
  have htotal : (addAll demoProcess (otherTotal.map Traffic.chunk) ∅).1 =
      .ok [none, none, none] := by decide +kernel
  constructor
  · rintro ⟨⟨results, after, hcalls, hone⟩, _⟩
    rw [hcalls] at hrepeat
    cases hrepeat
    exact absurd hone (by decide)
  · rintro ⟨⟨results, after, hcalls, hone⟩, _⟩
    rw [hcalls] at htotal
    cases htotal
    exact absurd hone (by decide)

end Sample

end Chat

end Gnostr
