/-
The loop of the file exchange, `p2p/src/kvs.rs`: commands of the clients and events of
the swarm, with the four tables of those who wait for an answer.
-/
import Mathlib.Data.Finmap

namespace Gnostr

namespace P2p

abbrev PeerId := String

/-- The end of a oneshot channel that a command brings along. -/
abbrev Sender := ℕ

abbrev DialResult := Except String Unit

section Source

inductive Command
  | startListening (addr : String) (sender : Sender)
  | dial (peerId : PeerId) (peerAddr : String) (sender : Sender)
  | startProviding (fileName : String) (sender : Sender)
  | getProviders (fileName : String) (sender : Sender)
  | requestFile (fileName : String) (peer : PeerId) (sender : Sender)
  | respondFile (file : List UInt8) (channel : ℕ)

/-- Events of the DHT. Only the first two are not passed over. -/
inductive KadEvent
  | startProviding (id : ℕ)
  | foundProviders (id : ℕ) (providers : Finset PeerId)
  | finishedWithNoAdditionalRecord (id : ℕ)
  | getProvidersError (id : ℕ)
  | other

inductive RequestResponseEvent
  | request (request : String) (channel : ℕ)
  | response (requestId : ℕ) (response : List UInt8)
  | outboundFailure (requestId : ℕ) (error : String)
  | inboundFailure (requestId : ℕ) (error : String)
  | responseSent

inductive SwarmEvent
  | kademlia (event : KadEvent)
  | requestResponse (event : RequestResponseEvent)
  | newListenAddr (address : String)
  | incomingConnection
  | connectionEstablished (peerId : PeerId) (connection : ℕ) (isDialer : Bool)
  | connectionClosed
  | outgoingConnectionError (peerId : Option PeerId) (connection : ℕ) (error : String)
  | incomingConnectionError
  | dialing (peerId : Option PeerId)
  | expiredListenAddr
  | listenerClosed
  | listenerError
  | newExternalAddrCandidate
  | externalAddrConfirmed
  | externalAddrExpired
  | newExternalAddrOfPeer

/-- What goes down the oneshot channels, and the events for the application. -/
inductive Sent
  | listening (sender : Sender) (result : Except String Unit)
  | dial (sender : Sender) (result : DialResult)
  | providing (sender : Sender)
  | providers (sender : Sender) (providers : Finset PeerId)
  | file (sender : Sender) (result : Except String (List UInt8))
  | inboundRequest (request : String) (channel : ℕ)
  | newListenAddr (address : String)

structure EventLoop where
  pendingDial : Finmap fun _ : PeerId => Sender
  pendingStartProviding : Finmap fun _ : ℕ => Sender
  pendingGetProviders : Finmap fun _ : ℕ => Sender
  pendingRequestFile : Finmap fun _ : ℕ => Sender

def EventLoop.new : EventLoop := ⟨∅, ∅, ∅, ∅⟩

/-- What the swarm answers to the calls of a command; `sendResponse` holds while the
channel of the request is open. -/
structure SwarmAnswers where
  listenOn : String → Except String Unit
  dial : String → DialResult
  startProviding : String → Except String ℕ
  getProviders : String → ℕ
  sendRequest : PeerId → String → ℕ
  sendResponse : ℕ → List UInt8 → Bool

/-- The address with the peer it is dialed for. -/
def withP2p (address : String) (peerId : PeerId) : String := address ++ "/p2p/" ++ peerId

/-- `handle_command`, which is `none` where it panics. -/
def handleCommand (swarm : SwarmAnswers) (loop : EventLoop) :
    Command → Option (EventLoop × List Sent)
  | .startListening addr sender => some (loop, [.listening sender (swarm.listenOn addr)])
  | .dial peerId peerAddr sender =>
      -- `todo!("Already dialing peer.")`
      if peerId ∈ loop.pendingDial then none
      else
        match swarm.dial (withP2p peerAddr peerId) with
        | .ok () => some ({ loop with
            pendingDial := loop.pendingDial.insert peerId sender }, [])
        | .error error => some (loop, [.dial sender (.error error)])
  | .startProviding fileName sender =>
      match swarm.startProviding fileName with
      | .ok id => some ({ loop with
          pendingStartProviding := loop.pendingStartProviding.insert id sender }, [])
      | .error _ => none
  | .getProviders fileName sender => some ({ loop with
      pendingGetProviders :=
        loop.pendingGetProviders.insert (swarm.getProviders fileName) sender }, [])
  | .requestFile fileName peer sender => some ({ loop with
      pendingRequestFile :=
        loop.pendingRequestFile.insert (swarm.sendRequest peer fileName) sender }, [])
  | .respondFile file channel =>
      if swarm.sendResponse channel file then some (loop, []) else none

/-- Who still listens, and the queries of the DHT that are running, as an event finds
them. -/
structure Surroundings where
  localPeerId : PeerId
  eventReceiver : Bool
  providersReceiver : Bool
  running : Finset ℕ

/-- `event_sender.send(..).await.expect("Event receiver not to be dropped.")`. -/
def sendEvent (around : Surroundings) (loop : EventLoop) (event : Sent) :
    Option (EventLoop × List Sent) :=
  if around.eventReceiver then some (loop, [event]) else none

def handleKademlia (around : Surroundings) (loop : EventLoop) :
    KadEvent → Option (EventLoop × List Sent)
  | .startProviding id =>
      match loop.pendingStartProviding.lookup id with
      | some sender => some ({ loop with
          pendingStartProviding := loop.pendingStartProviding.erase id },
            [.providing sender])
      | none => none
  | .foundProviders id providers =>
      match loop.pendingGetProviders.lookup id with
      | some sender =>
          -- the send is expected to succeed and `query_mut(&id)` is unwrapped
          if around.providersReceiver ∧ id ∈ around.running then
            some ({ loop with pendingGetProviders := loop.pendingGetProviders.erase id },
              [.providers sender providers])
          else none
      | none => some (loop, [])
  | .finishedWithNoAdditionalRecord _ => some (loop, [])
  | _ => some (loop, [])

/-- The answer to a request that is expected to be pending. -/
def answerRequest (loop : EventLoop) (requestId : ℕ) (result : Except String (List UInt8)) :
    Option (EventLoop × List Sent) :=
  match loop.pendingRequestFile.lookup requestId with
  | some sender => some ({ loop with
      pendingRequestFile := loop.pendingRequestFile.erase requestId },
        [.file sender result])
  | none => none

def handleRequestResponse (around : Surroundings) (loop : EventLoop) :
    RequestResponseEvent → Option (EventLoop × List Sent)
  | .request request channel => sendEvent around loop (.inboundRequest request channel)
  | .response requestId response => answerRequest loop requestId (.ok response)
  | .outboundFailure requestId error => answerRequest loop requestId (.error error)
  | .responseSent => some (loop, [])
  | .inboundFailure _ _ => none

/-- A Dial to the peer that is pending gets the result. -/
def resolveDial (loop : EventLoop) (peerId : PeerId) (result : DialResult) :
    EventLoop × List Sent :=
  match loop.pendingDial.lookup peerId with
  | some sender => ({ loop with pendingDial := loop.pendingDial.erase peerId },
      [.dial sender result])
  | none => (loop, [])

/-- `handle_event`, which is `none` where it panics. -/
def handleEvent (around : Surroundings) (loop : EventLoop) :
    SwarmEvent → Option (EventLoop × List Sent)
  | .kademlia event => handleKademlia around loop event
  | .requestResponse event => handleRequestResponse around loop event
  | .newListenAddr address =>
      sendEvent around loop (.newListenAddr (withP2p address around.localPeerId))
  | .incomingConnection => some (loop, [])
  | .connectionEstablished peerId _ isDialer =>
      some (if isDialer then resolveDial loop peerId (.ok ()) else (loop, []))
  | .connectionClosed => some (loop, [])
  | .outgoingConnectionError peerId _ error =>
      match peerId with
      | some peerId => some (resolveDial loop peerId (.error error))
      | none => some (loop, [])
  | .incomingConnectionError => some (loop, [])
  | .dialing (some _) => some (loop, [])
  -- `e => panic!("{e:?}")`
  | _ => none

end Source

end P2p

end Gnostr
