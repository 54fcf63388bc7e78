/-
The chat topics of the embedded network, `p2p/src/embedded_network.rs`: the topics
that are registered, those taken to be subscribed, and those gossipsub has joined.
-/
import Gnostr.Lib.IterOrder
import Gnostr.Lib.Machine
import Gnostr.Types.Url
import Mathlib.Data.Finset.Lattice.Lemmas

namespace Gnostr

namespace P2p

section Topics

/-- `CHAT_TOPICS` and `SUBSCRIBED_CHAT_TOPICS`, and beside them the topics for which a
call of `subscribe` on the swarm that runs has come back without an error. -/
structure ChatTopics where
  registered : Finset String
  subscribed : Finset String
  joined : Finset String

/-- `reset_topic_state`, which `start` calls before it builds a swarm. -/
def resetTopicState (activeChatTopic : String) : ChatTopics :=
  ⟨{activeChatTopic}, ∅, ∅⟩

/-- `register_chat_topic`, with the lines it logs. -/
def registerChatTopic (topics : ChatTopics) (topic : String) :
    ChatTopics × List String :=
  let topic := Types.trim topic
  if topic = "" then (topics, ["skipping empty chat topic"])
  else if topic ∈ topics.registered then (topics, [])
  else
    ({ topics with registered := insert topic topics.registered },
      ["registered chat topic " ++ topic])

/-- What gossipsub answers when it is asked to subscribe to a topic: whether the topic
is new to it, or an error. -/
abbrev SubscribeResults := String → Except String Bool

/-- The loop of `sync_registered_chat_topics`: the state it leaves, the lines it logs
and the error it stops at. -/
def syncTopics (subscribe : SubscribeResults) :
    ChatTopics → List String → ChatTopics × List String × Except String Unit
  | topics, [] => (topics, [], .ok ())
  | topics, topic :: rest =>
      if topic ∈ topics.subscribed then syncTopics subscribe topics rest
      else
        let topics := { topics with subscribed := insert topic topics.subscribed }
        match subscribe topic with
        | .error error => (topics, [], .error error)
        | .ok _ =>
            let (topics, logs, result) := syncTopics subscribe
              { topics with joined := insert topic topics.joined } rest
            (topics, ("subscribed chat topic " ++ topic) :: logs, result)

def syncRegisteredChatTopics (order : IterOrder String) (subscribe : SubscribeResults)
    (topics : ChatTopics) : ChatTopics × List String × Except String Unit :=
  syncTopics subscribe topics (order.list topics.registered)

/-- A topic is registered, by the user or from the file on disk, the loop of the network
makes a round, or the network starts anew. -/
inductive TopicEvent
  | register (topic : String)
  | sync (order : IterOrder String) (subscribe : SubscribeResults)
  | start (activeChatTopic : String)

/-- The topics from event to event, with the lines that are logged. -/
def chatTopics : Machine ChatTopics TopicEvent String where
  step
    | topics, .register topic => registerChatTopic topics topic
    | topics, .sync order subscribe =>
        let (topics, logs, result) := syncRegisteredChatTopics order subscribe topics
        match result with
        | .ok () => (topics, logs)
        | .error error => (topics, logs ++ ["chat topic sync failed: " ++ error])
    | _, .start activeChatTopic => (resetTopicState activeChatTopic, [])

@[simp] theorem next_register (topics : ChatTopics) (topic : String) :
    chatTopics.next topics (.register topic) = (registerChatTopic topics topic).1 := rfl

@[simp] theorem next_sync (topics : ChatTopics) (order : IterOrder String)
    (subscribe : SubscribeResults) :
    chatTopics.next topics (.sync order subscribe) =
      (syncRegisteredChatTopics order subscribe topics).1 := by
  unfold Machine.next
  simp only [chatTopics]
  split <;> rfl

end Topics

section Round

variable {subscribe : SubscribeResults}

theorem syncTopics_cons_of_mem {topics : ChatTopics} {topic : String}
    (hmem : topic ∈ topics.subscribed) (rest : List String) :
    syncTopics subscribe topics (topic :: rest) = syncTopics subscribe topics rest := by
  rw [syncTopics, if_pos hmem]

theorem syncTopics_cons_of_error {topics : ChatTopics} {topic error : String}
    (hmem : topic ∉ topics.subscribed) (herror : subscribe topic = .error error)
    (rest : List String) :
    syncTopics subscribe topics (topic :: rest) =
      ({ topics with subscribed := insert topic topics.subscribed }, [],
        .error error) := by
  rw [syncTopics, if_neg hmem, herror]

theorem syncTopics_cons_of_ok {topics : ChatTopics} {topic : String} {isNew : Bool}
    (hmem : topic ∉ topics.subscribed) (hok : subscribe topic = .ok isNew)
    (rest : List String) :
    (syncTopics subscribe topics (topic :: rest)).1 =
      (syncTopics subscribe
        ⟨topics.registered, insert topic topics.subscribed, insert topic topics.joined⟩
        rest).1 := by
  rw [syncTopics, if_neg hmem, hok]

/-- The cases of one turn of the loop. -/
theorem syncTopics_cases (topics : ChatTopics) (topic : String) (rest : List String) :
    (topic ∈ topics.subscribed ∧ syncTopics subscribe topics (topic :: rest) =
        syncTopics subscribe topics rest) ∨
    (topic ∉ topics.subscribed ∧ (subscribe topic).isOk = false ∧
      (syncTopics subscribe topics (topic :: rest)).1 =
        ⟨topics.registered, insert topic topics.subscribed, topics.joined⟩) ∨
    (topic ∉ topics.subscribed ∧ (subscribe topic).isOk = true ∧
      (syncTopics subscribe topics (topic :: rest)).1 =
        (syncTopics subscribe
          ⟨topics.registered, insert topic topics.subscribed,
            insert topic topics.joined⟩ rest).1) := by
  by_cases hmem : topic ∈ topics.subscribed
  · exact .inl ⟨hmem, syncTopics_cons_of_mem hmem rest⟩
  · cases hanswer : subscribe topic with
    | error error =>
        refine .inr (.inl ⟨hmem, rfl, ?_⟩)
        rw [syncTopics_cons_of_error hmem hanswer]
    | ok isNew => exact .inr (.inr ⟨hmem, rfl, syncTopics_cons_of_ok hmem hanswer rest⟩)

/-- A round in which no call fails subscribes to every topic it goes through. -/
theorem syncTopics_of_isOk (topics : ChatTopics) (order : List String)
    (hok : ∀ topic ∈ order, topic ∉ topics.subscribed → (subscribe topic).isOk = true)
    (hjoined : topics.joined = topics.subscribed) :
    (syncTopics subscribe topics order).1 =
      ⟨topics.registered, topics.subscribed ∪ order.toFinset,
        topics.joined ∪ order.toFinset⟩ := by
  induction order generalizing topics with
  | nil => simp [syncTopics]
  | cons topic order ih =>
      obtain ⟨htopic, hrest⟩ := List.forall_mem_cons.mp hok
      rw [List.toFinset_cons]
      obtain ⟨hmem, hturn⟩ | ⟨hmem, hfail, -⟩ | ⟨-, -, hturn⟩ :=
        syncTopics_cases topics topic order
      · rw [hturn, ih topics hrest hjoined, hjoined, Finset.union_insert,
          Finset.insert_eq_of_mem (Finset.mem_union_left _ hmem)]
      · exact absurd (htopic hmem) (ne_true_of_eq_false hfail)
      · have hlater : ∀ later ∈ order, later ∉ insert topic topics.subscribed →
            (subscribe later).isOk = true := fun later hlater hnot =>
          hrest later hlater fun hmem => hnot (Finset.mem_insert_of_mem hmem)
        rw [hturn, ih _ hlater (congrArg (insert topic) hjoined), Finset.insert_union,
          Finset.insert_union, Finset.union_insert, Finset.union_insert]

/-- A round in which a call fails leaves a topic in the set that was not subscribed to. -/
theorem exists_not_joined_of_fail (topics : ChatTopics) {order : List String}
    (hfail : ∃ topic ∈ order, topic ∉ topics.subscribed ∧ (subscribe topic).isOk = false)
    (hjoined : topics.joined = topics.subscribed) :
    ∃ topic ∈ (syncTopics subscribe topics order).1.subscribed,
      topic ∉ (syncTopics subscribe topics order).1.joined := by
  induction order generalizing topics with
  | nil =>
      obtain ⟨topic, hmem, -⟩ := hfail
      exact absurd hmem List.not_mem_nil
  | cons topic order ih =>
      obtain ⟨failed, hfailed, hnot, hanswer⟩ := hfail
      obtain ⟨hmem, hturn⟩ | ⟨hmem, -, hturn⟩ | ⟨-, hok, hturn⟩ :=
        syncTopics_cases topics topic order
      · have hne : failed ≠ topic := fun heq => hnot (heq ▸ hmem)
        rw [hturn]
        exact ih topics ⟨failed, List.mem_of_ne_of_mem hne hfailed, hnot, hanswer⟩ hjoined
      · rw [hturn]
        exact ⟨topic, Finset.mem_insert_self _ _, hjoined ▸ hmem⟩
      · have hne : failed ≠ topic := fun heq => by simp [heq, hok] at hanswer
        rw [hturn]
        refine ih _ ⟨failed, List.mem_of_ne_of_mem hne hfailed, ?_, hanswer⟩
          (congrArg (insert topic) hjoined)
        exact fun hmem => (Finset.mem_insert.mp hmem).elim hne hnot

/-- What a round takes to be subscribed stays so, and what it does not join was not
joined: a topic whose call failed is passed over from then on. -/
theorem not_joined_syncTopics {topics : ChatTopics} {lost : String}
    (hmem : lost ∈ topics.subscribed) (hnot : lost ∉ topics.joined) (order : List String) :
    lost ∈ (syncTopics subscribe topics order).1.subscribed ∧
      lost ∉ (syncTopics subscribe topics order).1.joined := by
  induction order generalizing topics with
  | nil => exact ⟨hmem, hnot⟩
  | cons topic order ih =>
      obtain ⟨-, hturn⟩ | ⟨-, -, hturn⟩ | ⟨hother, -, hturn⟩ :=
        syncTopics_cases topics topic order
      · rw [hturn]
        exact ih hmem hnot
      · rw [hturn]
        exact ⟨Finset.mem_insert_of_mem hmem, hnot⟩
      · rw [hturn]
        have hne : lost ≠ topic := fun heq => hother (heq ▸ hmem)
        apply ih (Finset.mem_insert_of_mem hmem)
        exact fun hjoined => (Finset.mem_insert.mp hjoined).elim hne hnot

end Round

section Runs

/-- A topic is taken to be subscribed only if gossipsub has joined it. -/
def ChatTopics.Honest (topics : ChatTopics) : Prop :=
  topics.subscribed ⊆ topics.joined

/-- No call of `subscribe` that the event makes fails. -/
def NoCallFails (topics : ChatTopics) : TopicEvent → Prop
  | .sync _ subscribe =>
      ∀ topic ∈ topics.registered, topic ∉ topics.subscribed →
        (subscribe topic).isOk = true
  | .register _ => True
  | .start _ => True

/-- What the two sets are kept for: nothing is taken to be subscribed that is not, so
that a round tries again what failed before, and a round in which gossipsub accepts
every registered topic leaves every registered topic joined. -/
structure Subscribes (topics : ChatTopics) (events : List TopicEvent) : Prop where
  honest : chatTopics.Throughout ChatTopics.Honest topics events
  complete : ∀ first order subscribe last,
    events = first ++ .sync order subscribe :: last →
    (∀ topic ∈ (chatTopics.run topics first).registered,
      (subscribe topic).isOk = true) →
    (chatTopics.run topics first).registered ⊆
      (chatTopics.run topics (first ++ [.sync order subscribe])).joined

theorem registerChatTopic_subscribed (topics : ChatTopics) (topic : String) :
    (registerChatTopic topics topic).1.subscribed = topics.subscribed := by
  unfold registerChatTopic
  dsimp only
  split_ifs <;> rfl

theorem registerChatTopic_joined (topics : ChatTopics) (topic : String) :
    (registerChatTopic topics topic).1.joined = topics.joined := by
  unfold registerChatTopic
  dsimp only
  split_ifs <;> rfl

theorem next_sync_of_noCallFails {topics : ChatTopics} {order : IterOrder String}
    {subscribe : SubscribeResults}
    (hok : NoCallFails topics (.sync order subscribe))
    (hjoined : topics.joined = topics.subscribed) :
    chatTopics.next topics (.sync order subscribe) =
      ⟨topics.registered, topics.subscribed ∪ topics.registered,
        topics.joined ∪ topics.registered⟩ := by
  have hlist : (order.list topics.registered).toFinset = topics.registered := by
    ext topic
    rw [List.mem_toFinset, order.mem_list]
  rw [next_sync, syncRegisteredChatTopics, syncTopics_of_isOk topics _ ?_ hjoined, hlist]
  exact fun topic hmem => hok topic ((order.mem_list _ _).mp hmem)

/-- An event whose calls succeed leaves the two sets equal. -/
theorem joined_next_eq {topics : ChatTopics} {event : TopicEvent}
    (hjoined : topics.joined = topics.subscribed) (hok : NoCallFails topics event) :
    (chatTopics.next topics event).joined = (chatTopics.next topics event).subscribed := by
  cases event with
  | register topic =>
      rw [next_register, registerChatTopic_joined, registerChatTopic_subscribed, hjoined]
  | sync order subscribe =>
      rw [next_sync_of_noCallFails hok hjoined]
      exact congrArg (· ∪ topics.registered) hjoined
  | start activeChatTopic => rfl

theorem not_honest_next {topics : ChatTopics} {event : TopicEvent}
    (hjoined : topics.joined = topics.subscribed) (hfail : ¬ NoCallFails topics event) :
    ¬ (chatTopics.next topics event).Honest := by
  cases event with
  | register topic => exact absurd trivial hfail
  | start activeChatTopic => exact absurd trivial hfail
  | sync order subscribe =>
      simp only [NoCallFails, not_forall, Bool.not_eq_true] at hfail
      obtain ⟨topic, hregistered, hnot, hanswer⟩ := hfail
      obtain ⟨lost, hlost, hlostNot⟩ := exists_not_joined_of_fail topics
        ⟨topic, (order.mem_list _ _).mpr hregistered, hnot, hanswer⟩ hjoined
      rw [next_sync]
      exact fun hhonest => hlostNot (hhonest hlost)

theorem honest_throughout_iff {topics : ChatTopics}
    (hjoined : topics.joined = topics.subscribed) (events : List TopicEvent) :
    chatTopics.Throughout ChatTopics.Honest topics events ↔
      chatTopics.EachStep NoCallFails topics events :=
  @Machine.throughout_iff_eachStep _ _ _ chatTopics
    (fun topics => topics.joined = topics.subscribed) ChatTopics.Honest NoCallFails
    (fun _ heq => heq.ge) (fun _ _ heq hok => joined_next_eq heq hok)
    (fun _ _ heq hfail => not_honest_next heq hfail) topics hjoined events

/-- A topic whose call has failed is not subscribed to before the network starts anew,
whatever gossipsub would answer. -/
theorem not_joined_run_of_lost {topics : ChatTopics} {lost : String}
    (hmem : lost ∈ topics.subscribed) (hnot : lost ∉ topics.joined)
    {events : List TopicEvent} (hstart : ∀ active, .start active ∉ events) :
    lost ∉ (chatTopics.run topics events).joined := by
  refine (chatTopics.run_preserves
    (fun topics => lost ∈ topics.subscribed ∧ lost ∉ topics.joined) ?_ ⟨hmem, hnot⟩).2
  intro topics event hevent ⟨hmem, hnot⟩
  cases event with
  | register topic =>
      rw [next_register, registerChatTopic_joined, registerChatTopic_subscribed]
      exact ⟨hmem, hnot⟩
  | sync order subscribe =>
      rw [next_sync]
      exact not_joined_syncTopics hmem hnot _
  | start activeChatTopic => exact absurd hevent (hstart activeChatTopic)

/-- From the start of the network the sets do what they are kept for exactly when no
call of `subscribe` fails. -/
theorem subscribes_iff_noCallFails (activeChatTopic : String) (events : List TopicEvent) :
    Subscribes (resetTopicState activeChatTopic) events ↔
      chatTopics.EachStep NoCallFails (resetTopicState activeChatTopic) events := by
  rw [← honest_throughout_iff rfl events]
  refine ⟨Subscribes.honest, fun hhonest => ⟨hhonest, ?_⟩⟩
  intro first order subscribe last hsplit hok topic hregistered
  have hsteps := (honest_throughout_iff rfl events).mp hhonest
  rw [hsplit] at hsteps
  have hjoined : (chatTopics.run (resetTopicState activeChatTopic) first).joined =
      (chatTopics.run (resetTopicState activeChatTopic) first).subscribed :=
    @Machine.run_of_eachStep _ _ _ chatTopics
      (fun topics => topics.joined = topics.subscribed) _
      (fun _ _ heq hok => joined_next_eq heq hok) _ rfl _ hsteps.of_append
  rw [Machine.run_append, Machine.run_cons, Machine.run_nil,
    next_sync_of_noCallFails (fun topic hmem _ => hok topic hmem) hjoined]
  exact Finset.mem_union_right _ hregistered

/-- A round in which gossipsub refuses every topic. -/
noncomputable def refusedRound : TopicEvent :=
  .sync (.some String) fun _ => .error "publish error"

theorem run_refusedRound (topic : String) :
    chatTopics.run (resetTopicState topic) [refusedRound] = ⟨{topic}, {topic}, ∅⟩ := by
  have hlist : (IterOrder.some String).list {topic} = [topic] := Finset.toList_singleton _
  rw [Machine.run_cons, Machine.run_nil, refusedRound, next_sync, syncRegisteredChatTopics]
  simp [resetTopicState, hlist, syncTopics]

/-- A round in which gossipsub accepts every topic. -/
noncomputable def acceptedRound : TopicEvent :=
  .sync (.some String) fun _ => .ok true

/-- One topic, a round in which gossipsub refuses it, and a round in which it would not:
the second round does not ask. -/
theorem not_subscribes_of_refused :
    ¬ Subscribes (resetTopicState "gnostr") [refusedRound, acceptedRound] ∧
      "gnostr" ∉ (chatTopics.run (resetTopicState "gnostr")
        [refusedRound, acceptedRound]).joined := by
  have hlost : "gnostr" ∉ (chatTopics.run (resetTopicState "gnostr")
      ([refusedRound] ++ [acceptedRound])).joined := by
    rw [Machine.run_append, run_refusedRound]
    apply not_joined_run_of_lost (Finset.mem_singleton_self _) (Finset.notMem_empty _)
    intro active hmem
    exact nomatch List.mem_singleton.mp hmem
  refine ⟨fun hsubscribes => hlost ?_, hlost⟩
  have hregistered : "gnostr" ∈
      (chatTopics.run (resetTopicState "gnostr") [refusedRound]).registered := by
    rw [run_refusedRound]
    exact Finset.mem_singleton_self _
  exact hsubscribes.complete [refusedRound] (.some String) (fun _ => .ok true) [] rfl
    (fun _ _ => rfl) hregistered

end Runs

end P2p

end Gnostr
