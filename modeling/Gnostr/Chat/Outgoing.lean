/-
The messages the user sends: `publish_or_queue_chat_message`,
`flush_pending_chat_messages` and the event loop of `chat/src/p2p.rs`.
-/
import Gnostr.Chat.Msg
import Gnostr.Lib.Machine
import Gnostr.Lib.Outbox
import Mathlib.Data.List.Infix

namespace Gnostr

namespace Chat

variable {E : Type}

section Loop

/-- What `gossipsub.publish` answers, call by call; an error stands as its `Debug` text. -/
abbrev PublishResults := ℕ → Except String Unit

def isInsufficientPeersError (error : String) : Bool :=
  let error := error.toList.map Char.toLower
  decide ("insufficient".toList <:+: error) && decide ("peer".toList <:+: error)

/-- The messages of the user, with the queue `pending_chat_messages`, and how often
gossipsub has been called. -/
structure Outgoing (E : Type) extends Outbox (Msg E) where
  calls : ℕ

def Outgoing.start : Outgoing E := ⟨.empty, 0⟩

/-- What the loop waits for: an event of the UI, or one of the swarm. Of these all but
new connections leave the user's messages alone and at most show something. -/
inductive LoopEvent (E : Type)
  | ui (event : ChatEvent E)
  | connectionEstablished (peerId endpoint : String)
  | otherSwarmEvent (shown : List (ChatEvent E))

/-- The line shown for a message that gossipsub refuses for another reason. -/
def publishErrorText (error : String) : String :=
  "[System] " ++ ("publish error: " ++ error)

/-- It is how a system message with that content is displayed. -/
theorem fmt_publishError (userName error : String) :
    ((Msg.default userName : Msg E).setContent ("publish error: " ++ error) >>=
      fun system => (system.setKind .system).fmt) = .ok (publishErrorText error) := rfl

def publishOrQueueChatMessage (results : PublishResults) (out : Outgoing E) (msg : Msg E) :
    Outgoing E × List (ChatEvent E) :=
  let sent := out.nextSent msg
  let called := { out with sends := out.sends ++ [msg], calls := out.calls + 1 }
  match results out.calls with
  | .ok () => ({ called with accepted := out.accepted ++ [⟨sent, out.pending⟩] }, [])
  | .error error =>
      if isInsufficientPeersError error then
        ({ called with pending := out.pending ++ [sent] },
          [.showInfoMsg "queued chat message until a peer connects"])
      else
        ({ called with failed := out.failed ++ [sent] },
          [.showErrorMsg (publishErrorText error)])

/-- The loop over the queue; a message that still finds no peers goes back to its front. -/
def flushFrom (results : PublishResults) :
    List (Sent (Msg E)) → Outgoing E → Outgoing E × List (ChatEvent E)
  | [], out => (out, [])
  | sent :: rest, out =>
      let called := { out with pending := rest, calls := out.calls + 1 }
      match results out.calls with
      | .ok () =>
          let accepted := out.accepted ++ [⟨sent, rest⟩]
          let flushed := flushFrom results rest { called with accepted }
          (flushed.1, .showInfoMsg "sent queued chat message" :: flushed.2)
      | .error error =>
          if isInsufficientPeersError error then
            ({ called with pending := sent :: rest }, [])
          else
            let failed := out.failed ++ [sent]
            let flushed := flushFrom results rest { called with failed }
            (flushed.1, .showErrorMsg (publishErrorText error) :: flushed.2)

def flushPendingChatMessages (results : PublishResults) (out : Outgoing E) :
    Outgoing E × List (ChatEvent E) :=
  flushFrom results out.pending out

/-- The loop of `evt_loop`, and what it shows. -/
def evtLoop (results : PublishResults) :
    Machine (Outgoing E) (LoopEvent E) (ChatEvent E) where
  step out
    | .ui (.chatMessage msg) => publishOrQueueChatMessage results out msg
    | .ui (.crawlerSearch nip) =>
        (out, [.showInfoMsg ("searching crawler bucket " ++ toString nip ++ " providers")])
    | .ui _ => (out, [])
    | .connectionEstablished peerId endpoint =>
        let flushed := flushPendingChatMessages results out
        (flushed.1, .peerConnected peerId endpoint :: flushed.2 ++
          [.showInfoMsg ("Connected to peer " ++ peerId ++ " via " ++ endpoint)])
    | .otherSwarmEvent shown => (out, shown)

end Loop

section Order

variable (results : PublishResults)

/-- Gossipsub does not take a new message while older ones are in the queue. -/
def Waits (out : Outgoing E) (event : LoopEvent E) : Prop :=
  ∀ msg, event = .ui (.chatMessage msg) → out.pending ≠ [] → results out.calls ≠ .ok ()

/-- A flush accepts and fails messages from the front of the queue. -/
theorem flushFrom_moves (queue : List (Sent (Msg E))) (out : Outgoing E)
    (hqueue : out.pending = queue) :
    Relation.ReflTransGen Outbox.Move out.toOutbox
      (flushFrom results queue out).1.toOutbox := by
  induction queue generalizing out with
  | nil => exact .refl
  | cons sent rest ih =>
      unfold flushFrom
      dsimp only
      split
      · let accepted : Outgoing E :=
          ⟨{ out with pending := rest, accepted := out.accepted ++ [⟨sent, rest⟩] },
            out.calls + 1⟩
        exact .head (.accept out.toOutbox sent rest hqueue) (ih accepted rfl)
      · split
        · rw [← hqueue]
        · let failed : Outgoing E :=
            ⟨{ out with pending := rest, failed := out.failed ++ [sent] }, out.calls + 1⟩
          exact .head (.fail out.toOutbox [] sent rest hqueue) (ih failed rfl)

/-- A new message passes through the queue, where it does not go past it. -/
theorem publishOrQueueChatMessage_moves (out : Outgoing E) (msg : Msg E)
    (hwaits : out.pending ≠ [] → results out.calls ≠ .ok ()) :
    Relation.ReflTransGen Outbox.Move out.toOutbox
      (publishOrQueueChatMessage results out msg).1.toOutbox := by
  have henqueue := Outbox.Move.enqueue out.toOutbox msg
  unfold publishOrQueueChatMessage
  dsimp only
  split
  · rename_i hok
    have hempty : out.pending = [] := by
      by_contra hpending
      exact hwaits hpending hok
    rw [hempty] at henqueue ⊢
    exact .tail (.single henqueue) (.accept _ _ [] rfl)
  · split
    · exact .single henqueue
    · have hfail := Outbox.Move.fail { out.toOutbox with
        sends := out.sends ++ [msg], pending := out.pending ++ [out.nextSent msg] }
        out.pending (out.nextSent msg) [] rfl
      rw [List.append_nil] at hfail
      exact .tail (.single henqueue) hfail

/-- A turn whose message does not go past the queue moves like a queue. -/
theorem evtLoop_moves (out : Outgoing E) (event : LoopEvent E)
    (hwaits : Waits results out event) :
    Relation.ReflTransGen Outbox.Move out.toOutbox
      ((evtLoop results).next out event).toOutbox := by
  cases event with
  | ui event =>
      cases event with
      | chatMessage msg =>
          exact publishOrQueueChatMessage_moves results out msg (hwaits msg rfl)
      | _ => exact .refl
  | connectionEstablished peerId endpoint =>
      exact flushFrom_moves results out.pending out rfl
  | otherSwarmEvent shown => exact .refl

/-- A message that goes past the queue is accepted before one that was sent earlier. -/
theorem not_inOrder_of_overtaking (out : Outgoing E) (event : LoopEvent E)
    (haccounted : out.Accounted) (hpast : ¬ Waits results out event) :
    ¬ ((evtLoop results).next out event).InOrder := by
  unfold Waits at hpast
  push Not at hpast
  obtain ⟨msg, rfl, hpending, hok⟩ := hpast
  intro horder
  obtain ⟨earlier, hearlier⟩ := List.exists_mem_of_ne_nil out.pending hpending
  have hplace : earlier.place < out.sends.length :=
    haccounted.place_lt (List.mem_append_right _ hearlier)
  have hnext : ((evtLoop results).next out (.ui (.chatMessage msg))).accepted =
      out.accepted ++ [⟨out.nextSent msg, out.pending⟩] := by
    change (publishOrQueueChatMessage results out msg).1.accepted = _
    rw [publishOrQueueChatMessage, hok]
  have hnew : Acceptance.mk (out.nextSent msg) out.pending ∈
      ((evtLoop results).next out (.ui (.chatMessage msg))).accepted := by
    rw [hnext]
    exact List.mem_append_right _ (List.mem_singleton_self _)
  exact Nat.lt_asymm hplace (horder.overtook_none _ hnew earlier hearlier)

/-- Whatever gossipsub answers, a turn loses no message and doubles none. -/
theorem accounted_next (out : Outgoing E) (event : LoopEvent E)
    (haccounted : out.Accounted) : ((evtLoop results).next out event).Accounted := by
  by_cases hwaits : Waits results out event
  · exact haccounted.moves (evtLoop_moves results out event hwaits)
  · unfold Waits at hwaits
    push Not at hwaits
    obtain ⟨msg, rfl, -, hok⟩ := hwaits
    change (publishOrQueueChatMessage results out msg).1.Accounted
    rw [publishOrQueueChatMessage, hok]
    exact haccounted.acceptNext msg

/-- In every run each message sent is accepted, reported as failed or in the queue. -/
theorem accounted_run (events : List (LoopEvent E)) :
    ((evtLoop results).run Outgoing.start events).Accounted :=
  (evtLoop results).run_preserves (fun out => out.Accounted)
    (fun out event _ => accounted_next results out event) Outbox.fifo_empty.accounted

/-- The messages of all runs are accounted for and accepted in the order they were sent,
exactly as long as gossipsub does not take a new message while older ones are queued. -/
theorem in_order_iff_waits (events : List (LoopEvent E)) :
    (evtLoop results).Throughout (fun out => out.InOrder) Outgoing.start events ↔
      (evtLoop results).EachStep (Waits results) Outgoing.start events := by
  have hgood : ∀ out : Outgoing E, out.Fifo → out.InOrder := fun out hfifo => hfifo.inOrder
  refine Machine.throughout_iff_eachStep hgood ?_ ?_ Outbox.fifo_empty events
  · intro out event hfifo hwaits
    exact hfifo.moves (evtLoop_moves results out event hwaits)
  · intro out event hfifo hpast
    exact not_inOrder_of_overtaking results out event hfifo.accounted hpast

/-- There are no peers for the first call, and then there are. -/
def peersAfterFirst : PublishResults := fun call =>
  if call = 0 then .error "InsufficientPeers" else .ok ()

def sendText (text : String) : LoopEvent Unit :=
  .ui (.chatMessage { Msg.default "alice" with content := [text] })

/-- The first message is queued, and the second goes out before it. -/
theorem not_in_order_peersAfterFirst :
    ¬ ∀ (results : PublishResults) (events : List (LoopEvent Unit)),
      (evtLoop results).Throughout (fun out => out.InOrder) Outgoing.start events := by
  intro hall
  have hlast := hall peersAfterFirst [sendText "first", sendText "second"]
    [sendText "first", sendText "second"] [] rfl
  have hqueued : ((evtLoop peersAfterFirst).run Outgoing.start [sendText "first"]).pending ≠
      [] := List.cons_ne_nil _ _
  have hpast : ¬ Waits peersAfterFirst
      ((evtLoop peersAfterFirst).run Outgoing.start [sendText "first"])
      (sendText "second") := fun hwaits => hwaits _ rfl hqueued rfl
  exact not_inOrder_of_overtaking peersAfterFirst _ _ (accounted_run _ _) hpast hlast

end Order

end Chat

end Gnostr
