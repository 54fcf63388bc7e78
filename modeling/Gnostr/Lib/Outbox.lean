/-
Outboxes: what is sent waits in a queue until it is accepted or has failed. While only
the front of the queue is accepted, everything is accepted in the order it was sent.
-/
import Mathlib.Data.List.Sort
import Mathlib.Logic.Relation

namespace Gnostr

universe u

variable {α : Type u}

/-- Something that was sent, with its place among all that were. -/
structure Sent (α : Type u) where
  place : ℕ
  item : α

/-- Something that was accepted, with what was in the queue at that moment. -/
structure Acceptance (α : Type u) where
  sent : Sent α
  queue : List (Sent α)

/-- All that was sent, and what has become of it. -/
structure Outbox (α : Type u) where
  sends : List α
  pending : List (Sent α)
  accepted : List (Acceptance α)
  failed : List (Sent α)

namespace Outbox

def empty : Outbox α := ⟨[], [], [], []⟩

/-- What gets the next place. -/
def nextSent (box : Outbox α) (item : α) : Sent α := ⟨box.sends.length, item⟩

def acceptedSent (box : Outbox α) : List (Sent α) := box.accepted.map Acceptance.sent

/-- All that was sent, in order. -/
def allSent (box : Outbox α) : List (Sent α) := box.sends.mapIdx Sent.mk

/-- Everything sent was accepted or has failed or is in the queue, one of these, once. -/
def Accounted (box : Outbox α) : Prop :=
  (box.acceptedSent ++ box.failed ++ box.pending).Perm box.allSent

/-- Nothing goes out before something that was sent earlier and may still go out. -/
structure InOrder (box : Outbox α) : Prop where
  accounted : box.Accounted
  increasing : box.acceptedSent.Pairwise fun early late => early.place < late.place
  overtook_none : ∀ acceptance ∈ box.accepted, ∀ waiting ∈ acceptance.queue,
    acceptance.sent.place < waiting.place
  ahead : ∀ sent ∈ box.acceptedSent, ∀ waiting ∈ box.pending, sent.place < waiting.place

/-- The moves of a queue. -/
inductive Move : Outbox α → Outbox α → Prop
  | enqueue (box : Outbox α) (item : α) :
      Move box { box with
        sends := box.sends ++ [item], pending := box.pending ++ [box.nextSent item] }
  | accept (box : Outbox α) (sent : Sent α) (rest : List (Sent α))
      (hfront : box.pending = sent :: rest) :
      Move box { box with pending := rest, accepted := box.accepted ++ [⟨sent, rest⟩] }
  | fail (box : Outbox α) (front : List (Sent α)) (sent : Sent α) (back : List (Sent α))
      (hmember : box.pending = front ++ sent :: back) :
      Move box { box with pending := front ++ back, failed := box.failed ++ [sent] }

/-- What the moves of a queue keep. -/
structure Fifo (box : Outbox α) : Prop where
  accounted : box.Accounted
  sorted : (box.acceptedSent ++ box.pending).Pairwise fun early late =>
    early.place < late.place
  overtook_none : ∀ acceptance ∈ box.accepted, ∀ waiting ∈ acceptance.queue,
    acceptance.sent.place < waiting.place

theorem Fifo.inOrder {box : Outbox α} (hfifo : box.Fifo) : box.InOrder := by
  obtain ⟨haccepted, -, hahead⟩ := List.pairwise_append.mp hfifo.sorted
  exact ⟨hfifo.accounted, haccepted, hfifo.overtook_none, hahead⟩

theorem fifo_empty : (empty : Outbox α).Fifo :=
  ⟨List.Perm.refl _, List.Pairwise.nil, fun _ hmem => absurd hmem List.not_mem_nil⟩

theorem allSent_concat (box : Outbox α) (item : α) :
    (box.sends ++ [item]).mapIdx Sent.mk = box.allSent ++ [box.nextSent item] :=
  List.mapIdx_concat

theorem place_lt_of_mem_allSent {box : Outbox α} {sent : Sent α}
    (hsent : sent ∈ box.allSent) : sent.place < box.sends.length := by
  obtain ⟨place, hplace, rfl⟩ := List.mem_mapIdx.mp hsent
  exact hplace

/-- What may still go out or has gone out was sent before what is sent next. -/
theorem Accounted.place_lt {box : Outbox α} (haccounted : box.Accounted) {sent : Sent α}
    (hsent : sent ∈ box.acceptedSent ++ box.pending) : sent.place < box.sends.length := by
  apply place_lt_of_mem_allSent
  apply haccounted.subset
  rcases List.mem_append.mp hsent with haccepted | hpending
  · exact List.mem_append_left _ (List.mem_append_left _ haccepted)
  · exact List.mem_append_right _ hpending

theorem acceptedSent_concat (box : Outbox α) (acceptance : Acceptance α) :
    (box.accepted ++ [acceptance]).map Acceptance.sent =
      box.acceptedSent ++ [acceptance.sent] := List.map_append

theorem Accounted.enqueue {box : Outbox α} (haccounted : box.Accounted) (item : α) :
    Accounted { box with
      sends := box.sends ++ [item], pending := box.pending ++ [box.nextSent item] } := by
  have hperm := haccounted.append_right [box.nextSent item]
  rw [List.append_assoc, ← allSent_concat] at hperm
  exact hperm

theorem Accounted.accept {box : Outbox α} (haccounted : box.Accounted) {sent : Sent α}
    {rest : List (Sent α)} (hfront : box.pending = sent :: rest) (queue : List (Sent α)) :
    Accounted { box with
      pending := rest, accepted := box.accepted ++ [⟨sent, queue⟩] } := by
  have hmove : (box.acceptedSent ++ [sent] ++ box.failed ++ rest).Perm
      (box.acceptedSent ++ box.failed ++ sent :: rest) := by
    have hmiddle : (sent :: (box.failed ++ rest)).Perm (box.failed ++ sent :: rest) :=
      List.perm_middle.symm
    rw [List.append_assoc, List.append_assoc, List.append_assoc]
    exact hmiddle.append_left box.acceptedSent
  rw [Accounted, hfront] at haccounted
  rw [Accounted, acceptedSent, acceptedSent_concat]
  exact hmove.trans haccounted

theorem Accounted.fail {box : Outbox α} (haccounted : box.Accounted)
    {front back : List (Sent α)} {sent : Sent α}
    (hmember : box.pending = front ++ sent :: back) :
    Accounted { box with pending := front ++ back, failed := box.failed ++ [sent] } := by
  have hmove : (box.acceptedSent ++ (box.failed ++ [sent]) ++ (front ++ back)).Perm
      (box.acceptedSent ++ box.failed ++ (front ++ sent :: back)) := by
    rw [← List.append_assoc box.acceptedSent, List.append_assoc _ [sent],
      List.singleton_append]
    exact List.perm_middle.symm.append_left _
  rw [Accounted, hmember] at haccounted
  exact hmove.trans haccounted

/-- What is sent may also be accepted at once, past the queue. -/
theorem Accounted.acceptNext {box : Outbox α} (haccounted : box.Accounted) (item : α) :
    Accounted { box with
      sends := box.sends ++ [item],
      accepted := box.accepted ++ [⟨box.nextSent item, box.pending⟩] } := by
  have hlast : (box.acceptedSent ++ [box.nextSent item] ++ box.failed ++ box.pending).Perm
      (box.acceptedSent ++ box.failed ++ box.pending ++ [box.nextSent item]) := by
    have hcomm : ([box.nextSent item] ++ (box.failed ++ box.pending)).Perm
        (box.failed ++ box.pending ++ [box.nextSent item]) := List.perm_append_comm
    rw [List.append_assoc, List.append_assoc, List.append_assoc box.acceptedSent,
      List.append_assoc box.acceptedSent]
    exact hcomm.append_left box.acceptedSent
  rw [Accounted, acceptedSent, acceptedSent_concat, allSent, allSent_concat]
  exact hlast.trans (haccounted.append_right [box.nextSent item])

theorem Move.accounted {box after : Outbox α} (hmove : Move box after)
    (haccounted : box.Accounted) : after.Accounted := by
  cases hmove with
  | enqueue item => exact haccounted.enqueue item
  | accept sent rest hfront => exact haccounted.accept hfront rest
  | fail front sent back hmember => exact haccounted.fail hmember

theorem Accounted.moves {box after : Outbox α} (haccounted : box.Accounted)
    (hmoves : Relation.ReflTransGen Move box after) : after.Accounted := by
  induction hmoves with
  | refl => exact haccounted
  | tail _ hmove ih => exact hmove.accounted ih

theorem Fifo.enqueue {box : Outbox α} (hfifo : box.Fifo) (item : α) :
    Fifo { box with
      sends := box.sends ++ [item], pending := box.pending ++ [box.nextSent item] } where
  accounted := hfifo.accounted.enqueue item
  sorted := by
    change (box.acceptedSent ++ (box.pending ++ [box.nextSent item])).Pairwise _
    rw [← List.append_assoc]
    refine List.pairwise_append.mpr ⟨hfifo.sorted, List.pairwise_singleton _ _, ?_⟩
    intro earlier hearlier later hlater
    rw [List.mem_singleton.mp hlater]
    exact hfifo.accounted.place_lt hearlier
  overtook_none := hfifo.overtook_none

theorem Fifo.accept {box : Outbox α} (hfifo : box.Fifo) {sent : Sent α}
    {rest : List (Sent α)} (hfront : box.pending = sent :: rest) :
    Fifo { box with pending := rest, accepted := box.accepted ++ [⟨sent, rest⟩] } := by
  have hsorted := hfifo.sorted
  rw [hfront] at hsorted
  refine ⟨hfifo.accounted.accept hfront rest, ?_, ?_⟩
  · rw [acceptedSent, acceptedSent_concat, List.append_assoc]
    exact hsorted
  · intro acceptance hacceptance
    rcases List.mem_append.mp hacceptance with hbefore | hnew
    · exact hfifo.overtook_none acceptance hbefore
    · obtain rfl := List.mem_singleton.mp hnew
      exact (List.pairwise_cons.mp (List.pairwise_append.mp hsorted).2.1).1

theorem Fifo.fail {box : Outbox α} (hfifo : box.Fifo) {front back : List (Sent α)}
    {sent : Sent α} (hmember : box.pending = front ++ sent :: back) :
    Fifo { box with pending := front ++ back, failed := box.failed ++ [sent] } where
  accounted := hfifo.accounted.fail hmember
  sorted := by
    have hsorted := hfifo.sorted
    rw [hmember] at hsorted
    have hrest : (front ++ back).Sublist (front ++ sent :: back) :=
      (List.sublist_cons_self sent back).append_left front
    exact hsorted.sublist (hrest.append_left box.acceptedSent)
  overtook_none := hfifo.overtook_none

theorem Move.fifo {box after : Outbox α} (hmove : Move box after) (hfifo : box.Fifo) :
    after.Fifo := by
  cases hmove with
  | enqueue item => exact hfifo.enqueue item
  | accept sent rest hfront => exact hfifo.accept hfront
  | fail front sent back hmember => exact hfifo.fail hmember

/-- What only moves like a queue stays in order. -/
theorem Fifo.moves {box after : Outbox α} (hfifo : box.Fifo)
    (hmoves : Relation.ReflTransGen Move box after) : after.Fifo := by
  induction hmoves with
  | refl => exact hfifo
  | tail _ hmove ih => exact hmove.fifo ih

end Outbox

end Gnostr
