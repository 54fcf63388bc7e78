/-
A session with a relay, of `p2p/src/relay_bridge.rs`: a task of its own takes the commands
and the frames of the relay, and publishes to those who have subscribed.  What it publishes
before, and that it is connected, is received by nobody.
-/
import Gnostr.Lib.Machine
import Gnostr.Types.Messages

namespace Gnostr

namespace P2p

open Types

inductive RelayBridgeError
  | webSocket (error : String)
  | json (error : String)
  | closed
  | unexpectedFrame

def RelayBridgeError.text : RelayBridgeError → String
  | .webSocket error => "websocket error: " ++ error
  | .json error => "json error: " ++ error
  | .closed => "relay connection closed"
  | .unexpectedFrame => "unexpected websocket frame"

inductive RelayBridgeNotification
  | connected (relayUrl : String)
  | message (message : RelayMessageV5)
  | closed
  | error (text : String)
deriving DecidableEq

inductive RelayBridgeCommand
  | publish (event : EventV3)
  | subscribe (subscriptionId : SubscriptionId) (filters : List LimitedFilter)
  | closeSubscription (subscriptionId : SubscriptionId)
  | authenticate (event : EventV3)
  | raw (message : ClientMessageV3)
  | shutdown

/-- What a command sends to the relay. -/
def RelayBridgeCommand.clientMessage : RelayBridgeCommand → Option ClientMessageV3
  | .publish event => some (.event event)
  | .subscribe subscriptionId filters => some (.req subscriptionId filters)
  | .closeSubscription subscriptionId => some (.close subscriptionId)
  | .authenticate event => some (.auth event)
  | .raw message => some message
  | .shutdown => none

/-- `tungstenite::Message`, a frame of the relay. -/
inductive WebSocketMessage
  | text (text : String)
  | binary
  | ping
  | pong
  | close
  | frame

/-- What `next` of the socket gives. -/
inductive Incoming
  | message (message : WebSocketMessage)
  | failed (error : String)
  | ended

structure RelayBridgeSession where
  relayUrl : String
  /-- `connect` has returned the session to the caller. -/
  returned : Bool
  dropped : Bool
  running : Bool
  commands : List RelayBridgeCommand
  written : List String

/-- What the caller and the task do, at any time; the environment says how a write ends, and
it is left out of a pong that a command cut off. -/
inductive BridgeEvent
  | announce
  | send (command : RelayBridgeCommand)
  | drop
  | abort
  | takeCommand (writing : Except String Unit)
  | commandsClosed
  | readFrame (incoming : Incoming) (pong : Option (Except String Unit))

section Model

variable (hex : Hex) (reader : JsonReader) (jsonError : String → String)

/-- The session when its task was spawned. -/
def RelayBridgeSession.spawned (relayUrl : String) : RelayBridgeSession :=
  ⟨relayUrl, false, false, true, [], []⟩

/-- One round of `next_message`, which goes on when there is no message. -/
def nextMessage (incoming : Incoming) (pong : Option (Except String Unit)) :
    Except RelayBridgeError (Option RelayMessageV5) :=
  match incoming with
  | .ended => .error .closed
  | .failed error => .error (.webSocket error)
  | .message (.text text) =>
      match RelayMessageV5.fromJsonString hex reader text with
      | .ok message => .ok (some message)
      | _ => .error (.json (jsonError text))
  | .message .binary => .error .unexpectedFrame
  | .message .ping =>
      match pong with
      | some (.error error) => .error (.webSocket error)
      | _ => .ok none
  | .message .pong => .ok none
  | .message .close => .error .closed
  | .message .frame => .error .unexpectedFrame

/-- The last notification of a session that ends with an error. -/
def finalNotification : RelayBridgeError → RelayBridgeNotification
  | .closed => .closed
  | error => .error error.text

/-- The channel for commands. -/
def commandCapacity : ℕ := 64

/-- The session under the steps of the caller and of `run_session`, which publish
notifications. -/
def bridgeMachine : Machine RelayBridgeSession BridgeEvent RelayBridgeNotification where
  step session
    | .announce =>
        if session.returned then (session, [])
        else ({ session with returned := true }, [.connected session.relayUrl])
    | .send command =>
        if session.returned && session.running &&
            session.commands.length < commandCapacity then
          ({ session with commands := session.commands ++ [command] }, [])
        else (session, [])
    | .drop => ({ session with dropped := session.returned }, [])
    | .abort => ({ session with running := session.running && !session.dropped }, [])
    | .takeCommand writing =>
        if session.running then
          match session.commands with
          | [] => (session, [])
          | command :: commands =>
              match command.clientMessage, writing with
              | none, _ => ({ session with running := false }, [.closed])
              | some message, .ok () =>
                  let written := session.written ++ [message.toJsonString hex]
                  ({ session with commands, written }, [])
              | some _, .error error =>
                  ({ session with running := false },
                    [.error (RelayBridgeError.webSocket error).text])
        else (session, [])
    | .commandsClosed =>
        if session.running && session.dropped && session.commands.isEmpty then
          ({ session with running := false }, [.closed])
        else (session, [])
    | .readFrame incoming pong =>
        if session.running then
          match nextMessage hex reader jsonError incoming pong with
          | .ok none => (session, [])
          | .ok (some message) => (session, [.message message])
          | .error error => ({ session with running := false }, [finalNotification error])
        else (session, [])

end Model

section Spec

variable (hex : Hex) (reader : JsonReader) (jsonError : String → String)

/-- The frame that the task takes at an event. -/
def readAt (session : RelayBridgeSession) : BridgeEvent → List Incoming
  | .readFrame incoming _ => if session.running then [incoming] else []
  | _ => []

/-- The command that the channel takes at an event. -/
def sentAt (session : RelayBridgeSession) : BridgeEvent → List RelayBridgeCommand
  | .send command =>
      if session.returned && session.running &&
        session.commands.length < commandCapacity then [command] else []
  | _ => []

/-- The frames that the task takes in a run. -/
def incomingsRead : RelayBridgeSession → List BridgeEvent → List Incoming
  | _, [] => []
  | session, event :: events =>
      readAt session event ++
        incomingsRead ((bridgeMachine hex reader jsonError).next session event) events

/-- The commands that the channel takes in a run. -/
def commandsSent : RelayBridgeSession → List BridgeEvent → List RelayBridgeCommand
  | _, [] => []
  | session, event :: events =>
      sentAt session event ++
        commandsSent ((bridgeMachine hex reader jsonError).next session event) events

/-- The messages of the well-formed text frames. -/
def messagesOf (incomings : List Incoming) : List RelayMessageV5 :=
  incomings.filterMap fun incoming => match incoming with
    | .message (.text text) => (RelayMessageV5.fromJsonString hex reader text).toOption
    | _ => none

def textsOf (commands : List RelayBridgeCommand) : List String :=
  commands.filterMap fun command => command.clientMessage.map (·.toJsonString hex)

def RelayBridgeNotification.IsFinal : RelayBridgeNotification → Prop
  | .closed => True
  | .error _ => True
  | _ => False

/-- A session that has ended has published a last notification. -/
def EndsWith (session : RelayBridgeSession) (last : List RelayBridgeNotification) : Prop :=
  if session.running then last = [] else ∃ final, last = [final] ∧ final.IsFinal

/-- What a session streams to one who subscribes behind the first events: that it is
connected, the messages, and a last notification if it has ended; and the commands are
written in order. -/
structure Streams (relayUrl : String) (before later : List BridgeEvent) : Prop where
  received : ∃ last,
    (bridgeMachine hex reader jsonError).trace
        ((bridgeMachine hex reader jsonError).run (.spawned relayUrl) before) later =
      .connected relayUrl :: ((messagesOf hex reader
        (incomingsRead hex reader jsonError (.spawned relayUrl) (before ++ later))).map
          .message ++ last) ∧
      EndsWith ((bridgeMachine hex reader jsonError).run (.spawned relayUrl)
        (before ++ later)) last
  written : ((bridgeMachine hex reader jsonError).run (.spawned relayUrl)
      (before ++ later)).written <+:
    textsOf hex (commandsSent hex reader jsonError (.spawned relayUrl) (before ++ later))

end Spec

section Stream

variable {hex : Hex} {reader : JsonReader} {jsonError : String → String}
  {session : RelayBridgeSession} {event : BridgeEvent} {events : List BridgeEvent}

theorem finalNotification_isFinal (error : RelayBridgeError) :
    (finalNotification error).IsFinal := by
  cases error <;> trivial

/-- A stopped session stays so, and takes and publishes nothing. -/
theorem next_of_stopped (hreturned : session.returned = true)
    (hstopped : session.running = false) :
    ((bridgeMachine hex reader jsonError).next session event).returned = true ∧
      ((bridgeMachine hex reader jsonError).next session event).running = false ∧
      (bridgeMachine hex reader jsonError).emit session event = [] ∧
      readAt session event = [] := by
  cases event <;>
    simp [Machine.next, Machine.emit, bridgeMachine, readAt, hreturned, hstopped]

theorem messagesOf_readAt {incoming : Incoming} {pong : Option (Except String Unit)}
    (hrunning : session.running = true) :
    messagesOf hex reader (readAt session (.readFrame incoming pong)) =
      match nextMessage hex reader jsonError incoming pong with
      | .ok (some message) => [message]
      | _ => [] := by
  rw [readAt, if_pos hrunning]
  cases incoming with
  | ended => rfl
  | failed error => rfl
  | message message =>
      cases message with
      | text text =>
          cases hread : RelayMessageV5.fromJsonString hex reader text <;>
            simp [messagesOf, nextMessage, hread, Outcome.toOption]
      | ping =>
          cases pong with
          | none => rfl
          | some sent => cases sent <;> rfl
      | _ => rfl

/-- How a step of a running session goes on: the message that it takes is published, or it
ends, with a last notification unless it is aborted. -/
inductive Advances (messages : List RelayMessageV5) (event : BridgeEvent) :
    RelayBridgeSession × List RelayBridgeNotification → Prop
  | goesOn {next : RelayBridgeSession} (hreturned : next.returned = true)
      (hrunning : next.running = true) :
      Advances messages event (next, messages.map .message)
  | ends {next : RelayBridgeSession} {final : RelayBridgeNotification}
      (hreturned : next.returned = true) (hrunning : next.running = false)
      (hmessages : messages = []) (hfinal : final.IsFinal) :
      Advances messages event (next, [final])
  | aborted {next : RelayBridgeSession} (hreturned : next.returned = true)
      (hrunning : next.running = false) (hmessages : messages = [])
      (habort : event = .abort) : Advances messages event (next, [])

theorem advances_step (hreturned : session.returned = true)
    (hrunning : session.running = true) :
    Advances (messagesOf hex reader (readAt session event)) event
      ((bridgeMachine hex reader jsonError).step session event) := by
  cases event with
  | announce =>
      simp only [bridgeMachine, hreturned, if_true]
      exact .goesOn hreturned hrunning
  | send command =>
      simp only [bridgeMachine]
      split_ifs
      · exact .goesOn hreturned hrunning
      · exact .goesOn hreturned hrunning
  | drop => exact .goesOn hreturned hrunning
  | abort =>
      cases hdropped : session.dropped with
      | false =>
          simp only [bridgeMachine, hrunning, hdropped]
          exact .goesOn hreturned rfl
      | true =>
          simp only [bridgeMachine, hrunning, hdropped]
          exact .aborted hreturned rfl rfl rfl
  | takeCommand writing =>
      simp only [bridgeMachine, hrunning, if_true]
      split
      · exact .goesOn hreturned hrunning
      · split
        · exact .ends hreturned rfl rfl trivial
        · exact .goesOn hreturned rfl
        · exact .ends hreturned rfl rfl trivial
  | commandsClosed =>
      simp only [bridgeMachine]
      split_ifs
      · exact .ends hreturned rfl rfl trivial
      · exact .goesOn hreturned hrunning
  | readFrame incoming pong =>
      rw [@messagesOf_readAt hex reader jsonError _ _ _ hrunning]
      simp only [bridgeMachine, hrunning, if_true]
      cases nextMessage hex reader jsonError incoming pong with
      | error error => exact .ends hreturned rfl rfl (finalNotification_isFinal error)
      | ok message =>
          cases message with
          | none => exact .goesOn hreturned hrunning
          | some message => exact .goesOn hreturned hrunning

theorem messagesOf_append (first second : List Incoming) :
    messagesOf hex reader (first ++ second) =
      messagesOf hex reader first ++ messagesOf hex reader second :=
  List.filterMap_append

theorem trace_of_stopped (hreturned : session.returned = true)
    (hstopped : session.running = false) (events : List BridgeEvent) :
    (bridgeMachine hex reader jsonError).trace session events = [] ∧
      incomingsRead hex reader jsonError session events = [] ∧
      ((bridgeMachine hex reader jsonError).run session events).running = false := by
  induction events generalizing session with
  | nil => exact ⟨rfl, rfl, hstopped⟩
  | cons event events ih =>
      obtain ⟨hreturned, hstopped, hemit, hread⟩ :=
        @next_of_stopped hex reader jsonError _ event hreturned hstopped
      obtain ⟨htrace, hincomings, hrun⟩ := ih hreturned hstopped
      rw [Machine.trace_cons, hemit, htrace, incomingsRead, hread, hincomings]
      exact ⟨rfl, rfl, hrun⟩

/-- Whoever has subscribed to a running session receives the messages that the task takes,
in their order, and behind them one last notification when it ends without being aborted. -/
theorem exists_trace_eq (hreturned : session.returned = true)
    (hrunning : session.running = true) (events : List BridgeEvent) :
    ∃ last, (bridgeMachine hex reader jsonError).trace session events =
        (messagesOf hex reader (incomingsRead hex reader jsonError session events)).map
          .message ++ last ∧
      if ((bridgeMachine hex reader jsonError).run session events).running then last = []
      else (∃ final, last = [final] ∧ final.IsFinal) ∨ last = [] ∧ .abort ∈ events := by
  induction events generalizing session with
  | nil => exact ⟨[], rfl, by simp [hrunning]⟩
  | cons event events ih =>
      have hadvances := @advances_step hex reader jsonError _ event hreturned hrunning
      rw [Machine.trace_cons, Machine.run_cons, incomingsRead, messagesOf_append,
        List.map_append, Machine.emit, Machine.next]
      generalize (bridgeMachine hex reader jsonError).step session event = stepped at *
      generalize messagesOf hex reader (readAt session event) = messages at *
      cases hadvances with
      | goesOn hreturned hrunning =>
          obtain ⟨last, htrace, hlast⟩ := ih hreturned hrunning
          refine ⟨last, ?_, ?_⟩
          · rw [htrace, List.append_assoc]
          · split_ifs at hlast ⊢ with hrun
            · exact hlast
            · exact hlast.imp_right fun ⟨hnone, habort⟩ =>
                ⟨hnone, List.mem_cons_of_mem event habort⟩
      | @ends next final hreturned hstopped hmessages hfinal =>
          obtain ⟨htrace, hincomings, hrun⟩ :=
            @trace_of_stopped hex reader jsonError _ hreturned hstopped events
          refine ⟨[final], ?_, ?_⟩
          · rw [htrace, hincomings, hmessages]
            rfl
          · rw [hrun]
            exact .inl ⟨final, rfl, hfinal⟩
      | aborted hreturned hstopped hmessages habort =>
          obtain ⟨htrace, hincomings, hrun⟩ :=
            @trace_of_stopped hex reader jsonError _ hreturned hstopped events
          refine ⟨[], ?_, ?_⟩
          · rw [htrace, hincomings, hmessages]
            rfl
          · rw [hrun, habort]
            exact .inr ⟨rfl, List.mem_cons_self⟩

/-- Whoever subscribes when the session was returned is not told that it is connected. -/
theorem connected_not_mem_trace (hreturned : session.returned = true)
    (events : List BridgeEvent) (relayUrl : String) :
    .connected relayUrl ∉ (bridgeMachine hex reader jsonError).trace session events := by
  cases hrunning : session.running with
  | false =>
      rw [(trace_of_stopped hreturned hrunning events).1]
      exact List.not_mem_nil
  | true =>
      obtain ⟨last, htrace, hlast⟩ :=
        @exists_trace_eq hex reader jsonError _ hreturned hrunning events
      rw [htrace, List.mem_append, List.mem_map]
      rintro (⟨message, -, hmessage⟩ | hmem)
      · cases hmessage
      · split_ifs at hlast
        · rw [hlast] at hmem
          cases hmem
        · rcases hlast with ⟨final, rfl, hfinal⟩ | ⟨rfl, -⟩
          · rw [← List.mem_singleton.mp hmem] at hfinal
            exact hfinal
          · cases hmem

/-- The caller has the session once `connect` has returned. -/
theorem returned_run_announce (session : RelayBridgeSession)
    (before after : List BridgeEvent) :
    ((bridgeMachine hex reader jsonError).run session
      (before ++ .announce :: after)).returned = true := by
  rw [Machine.run_append, Machine.run_cons]
  apply (bridgeMachine hex reader jsonError).run_preserves
    fun session => session.returned = true
  · intro reached event _ hreturned
    cases hrunning : reached.running with
    | false => exact (next_of_stopped hreturned hrunning).1
    | true =>
        have hadvances := @advances_step hex reader jsonError _ event hreturned hrunning
        rw [Machine.next]
        generalize (bridgeMachine hex reader jsonError).step reached event = stepped at *
        cases hadvances <;> assumption
  · simp only [Machine.next, bridgeMachine]
    split_ifs with hreturned
    · exact hreturned
    · rfl

end Stream

section Commands

variable {hex : Hex} {reader : JsonReader} {jsonError : String → String}

theorem textsOf_append (first second : List RelayBridgeCommand) :
    textsOf hex (first ++ second) = textsOf hex first ++ textsOf hex second :=
  List.filterMap_append

/-- What was written and what waits is what was sent. -/
theorem written_next (session : RelayBridgeSession) (event : BridgeEvent) :
    let next := (bridgeMachine hex reader jsonError).next session event
    next.written ++ textsOf hex next.commands =
      session.written ++ textsOf hex (session.commands ++ sentAt session event) := by
  cases event with
  | announce =>
      simp only [Machine.next, bridgeMachine, sentAt, List.append_nil]
      split_ifs <;> rfl
  | send command =>
      simp only [Machine.next, bridgeMachine, sentAt]
      split_ifs
      · rfl
      · rw [List.append_nil]
  | drop => simp [Machine.next, bridgeMachine, sentAt]
  | abort => simp [Machine.next, bridgeMachine, sentAt]
  | takeCommand writing =>
      simp only [Machine.next, bridgeMachine, sentAt, List.append_nil]
      split_ifs
      · split
        · rfl
        · rename_i command commands hcommands
          split
          · rfl
          · rename_i message hmessage
            simp [textsOf, hcommands, hmessage]
          · rfl
      · rfl
  | commandsClosed =>
      simp only [Machine.next, bridgeMachine, sentAt, List.append_nil]
      split_ifs <;> rfl
  | readFrame incoming pong =>
      simp only [Machine.next, bridgeMachine, sentAt, List.append_nil]
      split_ifs
      · split <;> rfl
      · rfl

theorem written_run (session : RelayBridgeSession) (events : List BridgeEvent) :
    let reached := (bridgeMachine hex reader jsonError).run session events
    reached.written ++ textsOf hex reached.commands =
      session.written ++ textsOf hex
        (session.commands ++ commandsSent hex reader jsonError session events) := by
  induction events generalizing session with
  | nil => rw [commandsSent, List.append_nil, Machine.run_nil]
  | cons event events ih =>
      have hnext := @written_next hex reader jsonError session event
      dsimp only at ih hnext ⊢
      rw [Machine.run_cons, ih, commandsSent, textsOf_append, ← List.append_assoc, hnext,
        ← List.append_assoc, textsOf_append, textsOf_append, textsOf_append]
      simp only [List.append_assoc]

/-- Commands are written in the order in which they were sent. -/
theorem written_isPrefix (relayUrl : String) (events : List BridgeEvent) :
    ((bridgeMachine hex reader jsonError).run (.spawned relayUrl) events).written <+:
      textsOf hex (commandsSent hex reader jsonError (.spawned relayUrl) events) := by
  have hrun := @written_run hex reader jsonError (.spawned relayUrl) events
  exact ⟨_, hrun⟩

end Commands

section Subscriber

theorem incomingsRead_append {hex : Hex} {reader : JsonReader} {jsonError : String → String}
    (session : RelayBridgeSession) (before later : List BridgeEvent) :
    incomingsRead hex reader jsonError session (before ++ later) =
      incomingsRead hex reader jsonError session before ++
        incomingsRead hex reader jsonError
          ((bridgeMachine hex reader jsonError).run session before) later := by
  induction before generalizing session with
  | nil => rfl
  | cons event before ih =>
      rw [List.cons_append, incomingsRead, incomingsRead, ih, List.append_assoc,
        Machine.run_cons]

variable (hex : Hex) (reader : JsonReader) (jsonError : String → String)
  (relayUrl : String) (connecting meanwhile later : List BridgeEvent)

/-- A subscriber receives all messages, and a last notification, when the task has taken no
message and not ended before, and is not aborted. -/
theorem received_of_quiet
    (hquiet : messagesOf hex reader (incomingsRead hex reader jsonError (.spawned relayUrl)
      (connecting ++ .announce :: meanwhile)) = [])
    (hrunning : ((bridgeMachine hex reader jsonError).run (.spawned relayUrl)
      (connecting ++ .announce :: meanwhile)).running = true)
    (habort : .abort ∉ later) :
    let before := connecting ++ .announce :: meanwhile
    ∃ last, (bridgeMachine hex reader jsonError).trace
        ((bridgeMachine hex reader jsonError).run (.spawned relayUrl) before) later =
      (messagesOf hex reader (incomingsRead hex reader jsonError (.spawned relayUrl)
        (before ++ later))).map .message ++ last ∧
      EndsWith ((bridgeMachine hex reader jsonError).run (.spawned relayUrl)
        (before ++ later)) last := by
  intro before
  have hreturned := @returned_run_announce hex reader jsonError (.spawned relayUrl)
    connecting meanwhile
  obtain ⟨last, htrace, hlast⟩ :=
    @exists_trace_eq hex reader jsonError _ hreturned hrunning later
  refine ⟨last, ?_, ?_⟩
  · rw [incomingsRead_append, messagesOf_append, hquiet, List.nil_append, htrace]
  · rw [EndsWith, Machine.run_append]
    split_ifs at hlast ⊢ with hrun
    · exact hlast
    · exact hlast.resolve_right fun haborted => habort haborted.2

/-- In no run a subscriber is told first that the session is connected. -/
theorem not_streams :
    ¬ Streams hex reader jsonError relayUrl (connecting ++ .announce :: meanwhile)
      later := by
  intro hstreams
  obtain ⟨last, htrace, -⟩ := hstreams.received
  have hreturned := @returned_run_announce hex reader jsonError (.spawned relayUrl)
    connecting meanwhile
  apply connected_not_mem_trace hreturned later relayUrl
  rw [htrace]
  exact List.mem_cons_self

/-- The relay closes the connection, and that is all that is received. -/
theorem not_streams_closed :
    ¬ Streams .reference .compact id "ws://127.0.0.1:7777" [.announce]
      [.readFrame (.message .close) none] := by
  rintro ⟨⟨last, hreceived, -⟩, -⟩
  have htrace : (bridgeMachine .reference .compact id).trace
      ((bridgeMachine .reference .compact id).run (.spawned "ws://127.0.0.1:7777")
        [.announce]) [.readFrame (.message .close) none] = [.closed] := rfl
  rw [htrace] at hreceived
  cases hreceived

end Subscriber

end P2p

end Gnostr
