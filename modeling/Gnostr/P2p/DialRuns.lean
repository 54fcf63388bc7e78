/-
Runs of the file exchange: commands and events in any order the swarm can bring them in,
when the loop survives them, and what those who have dialed are told.
-/
import Gnostr.Lib.Machine
import Gnostr.P2p.DialTable

namespace Gnostr

namespace P2p

section System

/-- The loop, what it has sent, and what the swarm behind it has under way: queries and
requests that will be answered, the attempts to connect that commands have asked for, and
how attempts have ended. -/
structure System where
  loop : EventLoop
  sent : List Sent
  providing : Finset ℕ
  running : Finset ℕ
  requests : Finset ℕ
  dials : ℕ → Option Dial
  resolved : ℕ → Option DialResult

def System.start : System := ⟨.new, [], ∅, ∅, ∅, fun _ => none, fun _ => none⟩

/-- A command, with the answers of the swarm and the id of the attempt where it dials; an
event, and whether the application still listens. -/
inductive LoopInput
  | command (command : Command) (swarm : SwarmAnswers) (connection : ℕ)
  | event (event : SwarmEvent) (eventReceiver providersReceiver : Bool)

/-- What a command sets off in the swarm. -/
def System.afterCommand (sys : System) (swarm : SwarmAnswers) (connection : ℕ) :
    Command → System
  | .dial peerId peerAddr sender =>
      { sys with
        dials := Function.update sys.dials connection (some ⟨sender, peerId⟩)
        resolved :=
          match swarm.dial (withP2p peerAddr peerId) with
          | .ok () => sys.resolved
          | .error error => Function.update sys.resolved connection (some (.error error)) }
  | .startProviding fileName _ =>
      match swarm.startProviding fileName with
      | .ok id => { sys with providing := insert id sys.providing }
      | .error _ => sys
  | .getProviders fileName _ =>
      { sys with running := insert (swarm.getProviders fileName) sys.running }
  | .requestFile fileName peer _ =>
      { sys with requests := insert (swarm.sendRequest peer fileName) sys.requests }
  | _ => sys

/-- What is over with an event. -/
def System.afterEvent (sys : System) : SwarmEvent → System
  | .kademlia (.startProviding id) => { sys with providing := sys.providing.erase id }
  | .kademlia (.finishedWithNoAdditionalRecord id) =>
      { sys with running := sys.running.erase id }
  | .kademlia (.getProvidersError id) => { sys with running := sys.running.erase id }
  | .requestResponse (.response requestId _) =>
      { sys with requests := sys.requests.erase requestId }
  | .requestResponse (.outboundFailure requestId _) =>
      { sys with requests := sys.requests.erase requestId }
  | .connectionEstablished _ connection _ =>
      { sys with resolved := Function.update sys.resolved connection (some (.ok ())) }
  | .outgoingConnectionError _ connection error =>
      { sys with resolved := Function.update sys.resolved connection (some (.error error)) }
  | _ => sys

def System.put (sys : System) (handled : EventLoop × List Sent) : System :=
  { sys with loop := handled.1, sent := sys.sent ++ handled.2 }

/-- The event loop of a peer; it is `none` once it has panicked. -/
def loopMachine (localPeerId : PeerId) : Machine (Option System) LoopInput Empty where
  step
    | none, _ => (none, [])
    | some sys, .command command swarm connection =>
        ((handleCommand swarm sys.loop command).map
          (sys.afterCommand swarm connection command).put, [])
    | some sys, .event event eventReceiver providersReceiver =>
        ((handleEvent ⟨localPeerId, eventReceiver, providersReceiver, sys.running⟩ sys.loop
          event).map (sys.afterEvent event).put, [])

end System

section Conditions

/-- The swarm ends what is under way, and each attempt once; an attempt that a command has
asked for ends as one to its peer. The ids of attempts and the senders of Dials are
new. -/
def LegalCommand (sys : System) (connection : ℕ) : Command → Prop
  | .dial _ _ sender => sys.dials connection = none ∧ sys.resolved connection = none ∧
      ∀ other dial, sys.dials other = some dial → dial.sender ≠ sender
  | _ => True

def LegalEvent (sys : System) : SwarmEvent → Prop
  | .kademlia (.startProviding id) => id ∈ sys.providing
  | .kademlia (.foundProviders id _) => id ∈ sys.running
  | .requestResponse (.response requestId _) => requestId ∈ sys.requests
  | .requestResponse (.outboundFailure requestId _) => requestId ∈ sys.requests
  | .connectionEstablished peerId connection isDialer =>
      sys.resolved connection = none ∧
        ∀ dial, sys.dials connection = some dial → isDialer = true ∧ peerId = dial.peer
  | .outgoingConnectionError peerId connection _ =>
      sys.resolved connection = none ∧
        ∀ dial, sys.dials connection = some dial → peerId = some dial.peer
  | _ => True

def Legal : Option System → LoopInput → Prop
  | none, _ => True
  | some sys, .command command _ connection => LegalCommand sys connection command
  | some sys, .event event _ _ => LegalEvent sys event

/-- No other Dial to the peer is pending, the store takes the record, the channel of the
request is still open. -/
def CommandMeets (sys : System) (swarm : SwarmAnswers) : Command → Prop
  | .dial peerId _ _ => peerId ∉ sys.loop.pendingDial
  | .startProviding fileName _ => (swarm.startProviding fileName).isOk = true
  | .respondFile file channel => swarm.sendResponse channel file = true
  | _ => True

/-- A Dial to the peer that is pending, if there is one, has asked for the attempt. -/
def OwnAttempt (sys : System) (peerId : PeerId) (connection : ℕ) : Prop :=
  ∀ sender, sys.loop.pendingDial.lookup peerId = some sender →
    ∃ dial, sys.dials connection = some dial ∧ dial.sender = sender

/-- The receiver is still there where something is sent, the loop knows the kind of the
event, and no attempt ends that a pending Dial to the same peer has not asked for. -/
def EventMeets (sys : System) (eventReceiver providersReceiver : Bool) : SwarmEvent → Prop
  | .kademlia (.foundProviders id _) =>
      id ∈ sys.loop.pendingGetProviders → providersReceiver = true
  | .kademlia _ => True
  | .requestResponse (.request _ _) => eventReceiver = true
  | .requestResponse (.inboundFailure _ _) => False
  | .requestResponse _ => True
  | .newListenAddr _ => eventReceiver = true
  | .connectionEstablished peerId connection isDialer =>
      isDialer = true → OwnAttempt sys peerId connection
  | .outgoingConnectionError peerId connection _ =>
      ∀ peer, peerId = some peer → OwnAttempt sys peer connection
  | .incomingConnection | .connectionClosed | .incomingConnectionError => True
  | .dialing peerId => peerId.isSome = true
  | _ => False

def Meets : Option System → LoopInput → Prop
  | none, _ => True
  | some sys, .command command swarm _ => CommandMeets sys swarm command
  | some sys, .event event eventReceiver providersReceiver =>
      EventMeets sys eventReceiver providersReceiver event

/-- Whoever has dialed has received the result of the attempt, once, if the attempt has
ended, and nothing before. -/
def DialsAnswered (sys : System) : Prop :=
  ∀ connection dial, sys.dials connection = some dial →
    resultsOf sys.sent dial.sender = (sys.resolved connection).toList

/-- The loop has not panicked, and the Dials are answered. -/
def Good : Option System → Prop
  | none => False
  | some sys => DialsAnswered sys

end Conditions

section Steps

/-- The tables hold all that is under way, and the Dials are answered. -/
structure SystemSound (sys : System) : Prop where
  providing : ∀ id ∈ sys.providing, id ∈ sys.loop.pendingStartProviding
  requests : ∀ id ∈ sys.requests, id ∈ sys.loop.pendingRequestFile
  dials : DialsSound sys.loop.pendingDial sys.dials sys.resolved sys.sent

def Inv : Option System → Prop
  | none => False
  | some sys => SystemSound sys

theorem inv_start : Inv (some .start) where
  providing _ hid := absurd hid (Finset.notMem_empty _)
  requests _ hid := absurd hid (Finset.notMem_empty _)
  dials :=
    { pending_iff := fun _ _ => iff_of_false
        (fun hlookup => by simp [System.start, EventLoop.new] at hlookup)
        fun ⟨_, hdial, _⟩ => nomatch hdial
      sender_inj := nofun
      known := fun _ hne => absurd rfl hne
      answered := nofun }

theorem mem_insert_insert {map : Finmap fun _ : ℕ => Sender} {ids : Finset ℕ}
    (hids : ∀ id ∈ ids, id ∈ map) (new : ℕ) (sender : Sender) :
    ∀ id ∈ insert new ids, id ∈ map.insert new sender := by
  intro id hid
  rw [Finmap.mem_insert]
  exact (Finset.mem_insert.mp hid).imp_right (hids id)

theorem mem_erase_erase {map : Finmap fun _ : ℕ => Sender} {ids : Finset ℕ}
    (hids : ∀ id ∈ ids, id ∈ map) (old : ℕ) :
    ∀ id ∈ ids.erase old, id ∈ map.erase old := by
  intro id hid
  obtain ⟨hne, hmem⟩ := Finset.mem_erase.mp hid
  exact Finmap.mem_erase.mpr ⟨hne, hids id hmem⟩

theorem resolveDial_tables (loop : EventLoop) (peer : PeerId) (result : DialResult) :
    (resolveDial loop peer result).1.pendingStartProviding = loop.pendingStartProviding ∧
      (resolveDial loop peer result).1.pendingRequestFile = loop.pendingRequestFile := by
  unfold resolveDial
  split <;> exact ⟨rfl, rfl⟩

/-- The system when an attempt has ended. -/
def System.ended (sys : System) (connection : ℕ) (result : DialResult) : System :=
  { sys with resolved := Function.update sys.resolved connection (some result) }

/-- The end of an attempt, told to the Dial that is pending for its peer if that has asked
for it. -/
theorem SystemSound.resolve {sys : System} (hsound : SystemSound sys) {peer : PeerId}
    {connection : ℕ} (result : DialResult) (hopen : sys.resolved connection = none)
    (hpeer : ∀ dial, sys.dials connection = some dial → peer = dial.peer)
    (hown : OwnAttempt sys peer connection) :
    SystemSound ((sys.ended connection result).put (resolveDial sys.loop peer result)) := by
  obtain ⟨hproviding, hrequests⟩ := resolveDial_tables sys.loop peer result
  refine ⟨fun id hid => hproviding ▸ hsound.providing id hid,
    fun id hid => hrequests ▸ hsound.requests id hid, ?_⟩
  simp only [System.put, System.ended]
  unfold resolveDial
  cases hlookup : sys.loop.pendingDial.lookup peer with
  | some sender =>
      obtain ⟨⟨asked, dialed⟩, hdial, rfl⟩ := hown sender hlookup
      obtain rfl : peer = dialed := hpeer _ hdial
      exact hsound.dials.resolve_own hdial hopen result
  | none =>
      rw [List.append_nil]
      apply hsound.dials.resolve_other
      apply Option.eq_none_iff_forall_ne_some.mpr
      intro dial hdial
      have hpending := (hsound.dials.pending_iff peer dial.sender).mpr
        ⟨connection, by rw [hdial, hpeer dial hdial], hopen⟩
      rw [hlookup] at hpending
      cases hpending

/-- The end of an attempt that no Dial has asked for. -/
theorem SystemSound.resolve_other {sys : System} (hsound : SystemSound sys)
    {connection : ℕ} (hother : ∀ dial, sys.dials connection ≠ some dial)
    (result : DialResult) :
    SystemSound ((sys.ended connection result).put (sys.loop, [])) :=
  ⟨hsound.providing, hsound.requests,
    (hsound.dials.resolve_other (Option.eq_none_iff_forall_ne_some.mpr hother) _).append
      fun _ => rfl⟩

/-- A command that meets its condition is handled. -/
theorem SystemSound.command {sys : System} (hsound : SystemSound sys) {command : Command}
    {swarm : SwarmAnswers} {connection : ℕ} (hlegal : LegalCommand sys connection command)
    (hmeets : CommandMeets sys swarm command) :
    ∃ handled, handleCommand swarm sys.loop command = some handled ∧
      SystemSound ((sys.afterCommand swarm connection command).put handled) := by
  cases command with
  | startListening addr sender =>
      exact ⟨_, rfl, hsound.providing, hsound.requests,
        hsound.dials.append fun _ => rfl⟩
  | dial peerId peerAddr sender =>
      obtain ⟨hdials, hresolved, hnew⟩ := hlegal
      simp only [handleCommand, if_neg hmeets, System.afterCommand]
      cases swarm.dial (withP2p peerAddr peerId) with
      | ok _ =>
          refine ⟨_, rfl, hsound.providing, hsound.requests, ?_⟩
          simp only [System.put, List.append_nil]
          exact hsound.dials.ask hmeets hdials hresolved hnew
      | error error =>
          exact ⟨_, rfl, hsound.providing, hsound.requests,
            hsound.dials.refuse hmeets hdials hresolved hnew (.error error)⟩
  | startProviding fileName sender =>
      simp only [CommandMeets] at hmeets
      simp only [handleCommand, System.afterCommand]
      cases hanswer : swarm.startProviding fileName with
      | ok id =>
          exact ⟨_, rfl, mem_insert_insert hsound.providing id sender, hsound.requests,
            hsound.dials.append fun _ => rfl⟩
      | error error =>
          rw [hanswer] at hmeets
          cases hmeets
  | getProviders fileName sender =>
      exact ⟨_, rfl, hsound.providing, hsound.requests, hsound.dials.append fun _ => rfl⟩
  | requestFile fileName peer sender =>
      exact ⟨_, rfl, hsound.providing, mem_insert_insert hsound.requests _ sender,
        hsound.dials.append fun _ => rfl⟩
  | respondFile file channel =>
      refine ⟨_, if_pos hmeets, hsound.providing, hsound.requests,
        hsound.dials.append fun _ => rfl⟩

/-- A command that does not meet its condition ends the loop. -/
theorem handleCommand_eq_none {sys : System} {command : Command} {swarm : SwarmAnswers}
    (hfails : ¬ CommandMeets sys swarm command) :
    handleCommand swarm sys.loop command = none := by
  cases command with
  | dial peerId peerAddr sender => exact if_pos (not_not.mp hfails)
  | startProviding fileName sender =>
      simp only [CommandMeets] at hfails
      simp only [handleCommand]
      cases hanswer : swarm.startProviding fileName with
      | ok id => exact absurd (by rw [hanswer]; rfl) hfails
      | error error => rfl
  | respondFile file channel => exact if_neg hfails
  | startListening addr sender => exact absurd trivial hfails
  | getProviders fileName sender => exact absurd trivial hfails
  | requestFile fileName peer sender => exact absurd trivial hfails

/-- A file that was requested, or the failure to get it, finds its request pending. -/
theorem SystemSound.answerRequest {sys : System} (hsound : SystemSound sys) {requestId : ℕ}
    (hrequest : requestId ∈ sys.requests) (result : Except String (List UInt8)) :
    ∃ handled, P2p.answerRequest sys.loop requestId result = some handled ∧
      SystemSound ({ sys with requests := sys.requests.erase requestId }.put handled) := by
  obtain ⟨sender, hsender⟩ := Finmap.mem_iff.mp (hsound.requests requestId hrequest)
  refine ⟨({ sys.loop with
    pendingRequestFile := sys.loop.pendingRequestFile.erase requestId },
      [.file sender result]), ?_, hsound.providing,
    mem_erase_erase hsound.requests requestId, hsound.dials.append fun _ => rfl⟩
  rw [P2p.answerRequest, hsender]

theorem SystemSound.sendEvent {sys : System} (hsound : SystemSound sys)
    {around : Surroundings} (hreceiver : around.eventReceiver = true) {event : Sent}
    (hevent : ∀ sender, resultsOf [event] sender = []) :
    ∃ handled, P2p.sendEvent around sys.loop event = some handled ∧
      SystemSound (sys.put handled) :=
  ⟨_, if_pos hreceiver, hsound.providing, hsound.requests, hsound.dials.append hevent⟩

/-- What leaves the loop as it is keeps the system sound. -/
theorem SystemSound.put_same {sys : System} (hsound : SystemSound sys) :
    SystemSound (sys.put (sys.loop, [])) :=
  ⟨hsound.providing, hsound.requests, hsound.dials.append fun _ => rfl⟩

theorem SystemSound.kademlia {sys : System} (hsound : SystemSound sys) {event : KadEvent}
    {localPeerId : PeerId} {eventReceiver providersReceiver : Bool}
    (hlegal : LegalEvent sys (.kademlia event))
    (hmeets : EventMeets sys eventReceiver providersReceiver (.kademlia event)) :
    ∃ handled, handleKademlia ⟨localPeerId, eventReceiver, providersReceiver, sys.running⟩
        sys.loop event = some handled ∧
      SystemSound ((sys.afterEvent (.kademlia event)).put handled) := by
  cases event with
  | startProviding id =>
      obtain ⟨sender, hsender⟩ := Finmap.mem_iff.mp (hsound.providing id hlegal)
      refine ⟨({ sys.loop with
        pendingStartProviding := sys.loop.pendingStartProviding.erase id },
          [.providing sender]), ?_, mem_erase_erase hsound.providing id, hsound.requests,
        hsound.dials.append fun _ => rfl⟩
      rw [handleKademlia, hsender]
  | foundProviders id providers =>
      cases hsender : sys.loop.pendingGetProviders.lookup id with
      | none =>
          refine ⟨(sys.loop, []), ?_, hsound.put_same⟩
          rw [handleKademlia, hsender]
      | some sender =>
          have hreceiver : providersReceiver = true :=
            hmeets (Finmap.mem_of_lookup_eq_some hsender)
          refine ⟨({ sys.loop with
            pendingGetProviders := sys.loop.pendingGetProviders.erase id },
              [.providers sender providers]), ?_, hsound.providing, hsound.requests,
            hsound.dials.append fun _ => rfl⟩
          rw [handleKademlia, hsender]
          exact if_pos ⟨hreceiver, hlegal⟩
  | finishedWithNoAdditionalRecord id =>
      exact ⟨_, rfl, hsound.providing, hsound.requests, hsound.dials.append fun _ => rfl⟩
  | getProvidersError id =>
      exact ⟨_, rfl, hsound.providing, hsound.requests, hsound.dials.append fun _ => rfl⟩
  | other => exact ⟨_, rfl, hsound.put_same⟩

theorem SystemSound.requestResponse {sys : System} (hsound : SystemSound sys)
    {event : RequestResponseEvent} {around : Surroundings} {providersReceiver : Bool}
    (hlegal : LegalEvent sys (.requestResponse event))
    (hmeets : EventMeets sys around.eventReceiver providersReceiver
      (.requestResponse event)) :
    ∃ handled, handleRequestResponse around sys.loop event = some handled ∧
      SystemSound ((sys.afterEvent (.requestResponse event)).put handled) := by
  cases event with
  | request request channel => exact hsound.sendEvent hmeets fun _ => rfl
  | response requestId response => exact hsound.answerRequest hlegal (.ok response)
  | outboundFailure requestId error => exact hsound.answerRequest hlegal (.error error)
  | inboundFailure requestId error => exact absurd hmeets not_false
  | responseSent => exact ⟨_, rfl, hsound.put_same⟩

/-- An event that meets its condition is handled. -/
theorem SystemSound.event {sys : System} (hsound : SystemSound sys) {event : SwarmEvent}
    {localPeerId : PeerId} {eventReceiver providersReceiver : Bool}
    (hlegal : LegalEvent sys event)
    (hmeets : EventMeets sys eventReceiver providersReceiver event) :
    ∃ handled, handleEvent ⟨localPeerId, eventReceiver, providersReceiver, sys.running⟩
        sys.loop event = some handled ∧
      SystemSound ((sys.afterEvent event).put handled) := by
  cases event with
  | kademlia event => exact hsound.kademlia hlegal hmeets
  | requestResponse event =>
      exact hsound.requestResponse hlegal hmeets
  | newListenAddr address =>
      exact @SystemSound.sendEvent sys hsound
        ⟨localPeerId, eventReceiver, providersReceiver, sys.running⟩ hmeets _ fun _ => rfl
  | incomingConnection => exact ⟨_, rfl, hsound.put_same⟩
  | connectionEstablished peerId connection isDialer =>
      obtain ⟨hopen, hown⟩ := hlegal
      cases isDialer with
      | true =>
          exact ⟨_, rfl, hsound.resolve (.ok ()) hopen
            (fun dial hdial => (hown dial hdial).2) (hmeets rfl)⟩
      | false =>
          exact ⟨_, rfl, hsound.resolve_other
            (fun dial hdial => nomatch (hown dial hdial).1) (.ok ())⟩
  | connectionClosed => exact ⟨_, rfl, hsound.put_same⟩
  | outgoingConnectionError peerId connection error =>
      obtain ⟨hopen, hown⟩ := hlegal
      cases peerId with
      | some peer =>
          exact ⟨_, rfl, hsound.resolve (.error error) hopen
            (fun dial hdial => Option.some.inj (hown dial hdial)) (hmeets peer rfl)⟩
      | none =>
          exact ⟨_, rfl, hsound.resolve_other (fun dial hdial => nomatch hown dial hdial)
            (.error error)⟩
  | incomingConnectionError => exact ⟨_, rfl, hsound.put_same⟩
  | dialing peerId =>
      obtain ⟨peer, rfl⟩ := Option.isSome_iff_exists.mp hmeets
      exact ⟨_, rfl, hsound.put_same⟩
  | expiredListenAddr => exact absurd hmeets not_false
  | listenerClosed => exact absurd hmeets not_false
  | listenerError => exact absurd hmeets not_false
  | newExternalAddrCandidate => exact absurd hmeets not_false
  | externalAddrConfirmed => exact absurd hmeets not_false
  | externalAddrExpired => exact absurd hmeets not_false
  | newExternalAddrOfPeer => exact absurd hmeets not_false

/-- The end of an attempt that the pending Dial to the peer has not asked for is taken for
the end of the one it has. -/
theorem SystemSound.not_dialsAnswered {sys : System} (hsound : SystemSound sys)
    {peer : PeerId} {connection : ℕ} (result : DialResult)
    (hother : ¬ OwnAttempt sys peer connection) :
    ¬ DialsAnswered ((sys.ended connection result).put
      (resolveDial sys.loop peer result)) := by
  simp only [OwnAttempt, not_forall] at hother
  obtain ⟨sender, hlookup, hnot⟩ := hother
  obtain ⟨own, hdial, hopen⟩ := (hsound.dials.pending_iff peer sender).mp hlookup
  have hne : own ≠ connection := fun heq => hnot ⟨_, heq ▸ hdial, rfl⟩
  intro hanswered
  have hresults := hanswered own _ hdial
  simp only [System.put, System.ended, resolveDial, hlookup, resultsOf_append,
    resultsOf_dial_self, Function.update_of_ne hne, hopen] at hresults
  exact absurd hresults (List.append_ne_nil_of_right_ne_nil _ (List.cons_ne_nil _ _))

/-- An event that does not meet its condition ends the loop, or a Dial is answered with
what became of another attempt. -/
theorem SystemSound.event_fails {sys : System} (hsound : SystemSound sys)
    {event : SwarmEvent} {localPeerId : PeerId} {eventReceiver providersReceiver : Bool}
    (hfails : ¬ EventMeets sys eventReceiver providersReceiver event) :
    ¬ Good ((handleEvent ⟨localPeerId, eventReceiver, providersReceiver, sys.running⟩
      sys.loop event).map (sys.afterEvent event).put) := by
  have hreceiver {event : Sent} (hgone : eventReceiver ≠ true) :
      P2p.sendEvent ⟨localPeerId, eventReceiver, providersReceiver, sys.running⟩ sys.loop
        event = none := if_neg hgone
  cases event with
  | kademlia event =>
      cases event with
      | foundProviders id providers =>
          simp only [EventMeets, Classical.not_imp] at hfails
          obtain ⟨sender, hsender⟩ := Finmap.mem_iff.mp hfails.1
          rw [handleEvent, handleKademlia, hsender]
          simp [hfails.2, Good]
      | startProviding id => exact absurd trivial hfails
      | finishedWithNoAdditionalRecord id => exact absurd trivial hfails
      | getProvidersError id => exact absurd trivial hfails
      | other => exact absurd trivial hfails
  | requestResponse event =>
      cases event with
      | request request channel =>
          rw [handleEvent, handleRequestResponse, hreceiver hfails]
          exact not_false
      | inboundFailure requestId error => exact not_false
      | response requestId response => exact absurd trivial hfails
      | outboundFailure requestId error => exact absurd trivial hfails
      | responseSent => exact absurd trivial hfails
  | newListenAddr address =>
      rw [handleEvent, hreceiver hfails]
      exact not_false
  | connectionEstablished peerId connection isDialer =>
      simp only [EventMeets, Classical.not_imp] at hfails
      obtain ⟨rfl, hother⟩ := hfails
      exact hsound.not_dialsAnswered (.ok ()) hother
  | outgoingConnectionError peerId connection error =>
      simp only [EventMeets, not_forall] at hfails
      obtain ⟨peer, rfl, hother⟩ := hfails
      exact hsound.not_dialsAnswered (.error error) hother
  | dialing peerId =>
      cases peerId with
      | none => exact not_false
      | some peer => exact absurd rfl hfails
  | incomingConnection => exact absurd trivial hfails
  | connectionClosed => exact absurd trivial hfails
  | incomingConnectionError => exact absurd trivial hfails
  | expiredListenAddr => exact not_false
  | listenerClosed => exact not_false
  | listenerError => exact not_false
  | newExternalAddrCandidate => exact not_false
  | externalAddrConfirmed => exact not_false
  | externalAddrExpired => exact not_false
  | newExternalAddrOfPeer => exact not_false

end Steps

section Runs

variable {localPeerId : PeerId}

theorem next_command (sys : System) (command : Command) (swarm : SwarmAnswers)
    (connection : ℕ) :
    (loopMachine localPeerId).next (some sys) (.command command swarm connection) =
      (handleCommand swarm sys.loop command).map
        (sys.afterCommand swarm connection command).put := rfl

theorem next_event (sys : System) (event : SwarmEvent)
    (eventReceiver providersReceiver : Bool) :
    (loopMachine localPeerId).next (some sys)
        (.event event eventReceiver providersReceiver) =
      (handleEvent ⟨localPeerId, eventReceiver, providersReceiver, sys.running⟩ sys.loop
        event).map (sys.afterEvent event).put := rfl

theorem inv_next {state : Option System} {input : LoopInput} (hinv : Inv state)
    (hlegal : Legal state input) (hmeets : Meets state input) :
    Inv ((loopMachine localPeerId).next state input) := by
  cases state with
  | none => exact absurd hinv not_false
  | some sys =>
      cases input with
      | command command swarm connection =>
          obtain ⟨handled, hhandled, hsound⟩ := SystemSound.command hinv hlegal hmeets
          rw [next_command, hhandled]
          exact hsound
      | event event eventReceiver providersReceiver =>
          obtain ⟨handled, hhandled, hsound⟩ :=
            @SystemSound.event sys hinv event localPeerId _ _ hlegal hmeets
          rw [next_event, hhandled]
          exact hsound

theorem not_good_next {state : Option System} {input : LoopInput} (hinv : Inv state)
    (hfails : ¬ Meets state input) :
    ¬ Good ((loopMachine localPeerId).next state input) := by
  cases state with
  | none => exact absurd hinv not_false
  | some sys =>
      cases input with
      | command command swarm connection =>
          rw [next_command, handleCommand_eq_none hfails]
          exact not_false
      | event event eventReceiver providersReceiver =>
          exact SystemSound.event_fails hinv hfails

/-- On a legal run the loop does not die and every Dial is answered once, with the end of
its own attempt, exactly when every step meets its condition. -/
theorem loop_good_iff_meets (localPeerId : PeerId) {inputs : List LoopInput}
    (hlegal : (loopMachine localPeerId).EachStep Legal (some .start) inputs) :
    (loopMachine localPeerId).Throughout Good (some .start) inputs ↔
      (loopMachine localPeerId).EachStep Meets (some .start) inputs := by
  refine @Machine.throughout_iff_eachStep_of_legal _ _ _ (loopMachine localPeerId) Inv Good
    Legal Meets ?_ ?_ ?_ _ inv_start _ hlegal
  · intro state hinv
    cases state with
    | none => exact hinv
    | some sys => exact hinv.dials.answered
  · exact fun _ _ => inv_next
  · exact fun _ _ hinv _ => not_good_next hinv

/-- A swarm that takes every call. -/
def willing : SwarmAnswers where
  listenOn _ := .ok ()
  dial _ := .ok ()
  startProviding _ := .ok 0
  getProviders _ := 0
  sendRequest _ _ := 0
  sendResponse _ _ := true

def dialPeer (sender : Sender) (connection : ℕ) : LoopInput :=
  .command (.dial "peer" "/ip4/10.0.0.1/tcp/4001" sender) willing connection

/-- The system after the first Dial. -/
def System.dialed : System where
  loop := { EventLoop.new with pendingDial := (∅ : Finmap _).insert "peer" 0 }
  sent := []
  providing := ∅
  running := ∅
  requests := ∅
  dials := Function.update (fun _ => none) 0 (some ⟨0, "peer"⟩)
  resolved := fun _ => none

theorem next_dialPeer :
    (loopMachine "local").next (some .start) (dialPeer 0 0) = some .dialed := by
  have hfree : "peer" ∉ System.start.loop.pendingDial := Finmap.notMem_empty
  rw [dialPeer, next_command, handleCommand, if_neg hfree]
  rfl

/-- One Dial whose attempt succeeds. -/
theorem loop_good_dialed :
    (loopMachine "local").Throughout Good (some .start)
      [dialPeer 0 0, .event (.connectionEstablished "peer" 0 true) true true] := by
  refine (loop_good_iff_meets "local" ?_).mpr ?_
  · refine Machine.eachStep_cons_iff.mpr ⟨⟨rfl, rfl, nofun⟩, ?_⟩
    rw [next_dialPeer]
    refine Machine.eachStep_cons_iff.mpr ⟨⟨rfl, ?_⟩, Machine.eachStep_nil⟩
    rintro dial hdial
    obtain rfl := Option.some.inj hdial
    exact ⟨rfl, rfl⟩
  · refine Machine.eachStep_cons_iff.mpr ⟨Finmap.notMem_empty, ?_⟩
    rw [next_dialPeer]
    refine Machine.eachStep_cons_iff.mpr ⟨fun _ sender hsender => ?_, Machine.eachStep_nil⟩
    refine ⟨⟨0, "peer"⟩, rfl, ?_⟩
    rw [System.dialed, Finmap.lookup_insert] at hsender
    exact Option.some.inj hsender

/-- Two Dials for one peer before the first attempt ends. -/
theorem loop_dies_on_second_dial :
    (loopMachine "local").EachStep Legal (some .start) [dialPeer 0 0, dialPeer 1 1] ∧
      ¬ (loopMachine "local").Throughout Good (some .start)
        [dialPeer 0 0, dialPeer 1 1] := by
  constructor
  · refine Machine.eachStep_cons_iff.mpr ⟨⟨rfl, rfl, nofun⟩, ?_⟩
    rw [next_dialPeer]
    refine Machine.eachStep_cons_iff.mpr ⟨⟨rfl, rfl, ?_⟩, Machine.eachStep_nil⟩
    rintro other dial hdial
    simp only [System.dialed, Function.update_apply] at hdial
    split_ifs at hdial
    obtain rfl := Option.some.inj hdial
    exact Nat.zero_ne_one
  · intro hgood
    have hend := hgood [dialPeer 0 0, dialPeer 1 1] [] rfl
    have hfails : ¬ CommandMeets .dialed willing
        (.dial "peer" "/ip4/10.0.0.1/tcp/4001" 1) :=
      fun hmeets => hmeets (Finmap.mem_insert.mpr (.inl rfl))
    rw [Machine.run_cons, next_dialPeer, Machine.run_cons, Machine.run_nil, dialPeer,
      next_command, handleCommand_eq_none hfails] at hend
    exact hend

end Runs

end P2p

end Gnostr
