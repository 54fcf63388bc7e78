/-
How a client fetches events from its relays, of `types/src/nostr/client.rs`: one reading
loop a relay, and the answers of all of them put together by the id.
-/
import Gnostr.Lib.Firsts
import Gnostr.Types.Messages

namespace Gnostr

namespace Types

namespace Client

/-- What `ws_read.next()` gives within the timeout, until the stream ends.  A ping is
answered, with what comes of that. -/
inductive WsRead
  | text (frame : String)
  | ping (reply : Except String Unit)
  | close
  | otherFrame
  | failed (error : String)
  | timedOut

inductive Connection
  | connected
  | failed (error : String)
  | timedOut

/-- A relay as it is met: whether it takes a connection and the request, and what it
answers to the text of the request. -/
structure Relay where
  connection : Connection
  written : Except String Unit
  answers : String → List WsRead

inductive FetchError
  | custom (message : String)
  | json (error : Error)

section Fetch

variable (hex : Hex) (reader : JsonReader)

/-- The reading loop, with the events so far. -/
def readEvents : List WsRead → List EventV3 → Except FetchError (List EventV3)
  | [], events => .ok events
  | .timedOut :: _, events => .ok events
  | .failed error :: _, _ => .error (.custom error)
  | .close :: _, events => .ok events
  | .otherFrame :: reads, events => readEvents reads events
  | .ping (.error error) :: _, _ => .error (.custom error)
  | .ping (.ok ()) :: reads, events => readEvents reads events
  | .text frame :: reads, events =>
      match RelayMessageV5.fromJsonString hex reader frame with
      | .ok (.event _ event) => readEvents reads (events ++ [event])
      | .ok (.eose _) => .ok events
      | .ok (.closed _ _) => .ok events
      | .ok _ => readEvents reads events
      | .err error => .error (.json error)
      | .panic => .error (.json .serdeJson)

/-- The events that were put together, and the first error. -/
structure Merged where
  firsts : Firsts EventV3 Id
  firstError : Option FetchError

def Merged.add (merged : Merged) : Except FetchError (List EventV3) → Merged
  | .ok relayEvents =>
      { merged with firsts := relayEvents.foldl (Firsts.push EventV3.id) merged.firsts }
  | .error error => { merged with firstError := merged.firstError.or (some error) }

end Fetch

section Merge

variable {hex : Hex} {reader : JsonReader} {filters : List LimitedFilter}
  {relays : List Met} {events : List EventV3}

end Merge

section WellBehaved

variable {hex : Hex} {reader : JsonReader}

/-- Messages that change nothing. -/
def IsAside : RelayMessageV5 → Prop
  | .notice _ | .notify _ | .ok _ _ _ | .auth _ => True
  | .event _ _ | .eose _ | .closed _ _ => False

/-- The relay sends these events and then the end of what it has stored. -/
inductive Delivers (hex : Hex) (reader : JsonReader) : List WsRead → List EventV3 → Prop
  | eose {frame : String} {id : SubscriptionId} (reads : List WsRead)
      (hframe : RelayMessageV5.fromJsonString hex reader frame = .ok (.eose id)) :
      Delivers hex reader (.text frame :: reads) []
  | event {frame : String} {id : SubscriptionId} {event : EventV3} {reads : List WsRead}
      {events : List EventV3}
      (hframe : RelayMessageV5.fromJsonString hex reader frame = .ok (.event id event))
      (hrest : Delivers hex reader reads events) :
      Delivers hex reader (.text frame :: reads) (event :: events)
  | aside {frame : String} {message : RelayMessageV5} {reads : List WsRead}
      {events : List EventV3}
      (hframe : RelayMessageV5.fromJsonString hex reader frame = .ok message)
      (haside : IsAside message) (hrest : Delivers hex reader reads events) :
      Delivers hex reader (.text frame :: reads) events
  | ping {reads : List WsRead} {events : List EventV3}
      (hrest : Delivers hex reader reads events) :
      Delivers hex reader (.ping (.ok ()) :: reads) events
  | otherFrame {reads : List WsRead} {events : List EventV3}
      (hrest : Delivers hex reader reads events) :
      Delivers hex reader (.otherFrame :: reads) events

theorem Delivers.readEvents {reads : List WsRead} {delivered : List EventV3}
    (hdelivers : Delivers hex reader reads delivered) (events : List EventV3) :
    readEvents hex reader reads events = .ok (events ++ delivered) := by
  induction hdelivers generalizing events with
  | eose reads hframe =>
      rw [Client.readEvents, hframe, List.append_nil]
  | event hframe hrest ih =>
      rw [Client.readEvents, hframe]
      dsimp only
      rw [ih, List.append_assoc, List.singleton_append]
  | @aside frame message reads delivered hframe haside hrest ih =>
      rw [Client.readEvents, hframe]
      cases message with
      | event | eose | closed => exact haside.elim
      | notice | notify | ok | auth => exact ih events
  | ping hrest ih => exact ih events
  | otherFrame hrest ih => exact ih events

end WellBehaved

section Safe

variable (hex : Hex) (reader : JsonReader) (prims : Primitives) {curve : Secp256k1}
  (schnorr : Schnorr curve) (filters : List LimitedFilter) (relays : List Met)

end Safe

end Client

end Types

end Gnostr
