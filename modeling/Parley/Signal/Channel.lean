import Parley.Metrics
import Parley.Signal.Frame
/-!
The channel to the rendezvous server.

One connection carries every message. A message is sent only while the channel is ready; each send
is counted once, as sent or as failed. When the connection is lost the receiving side drops it and
tries again until it has a new one. `close` ends all this; a channel that is closed while an attempt
succeeds drops that connection at once.

The channel is told of what happens on its connection: `Arrival` is what the receiving side sees,
and the outcome of an attempt to connect or of a write is handed in.
-/
namespace Parley

/-- How the connection stands. -/
inductive ChannelState where
  | uninitialized
  | connecting
  | ready
  | closed
  deriving DecidableEq

/-- The name of a state. -/
def ChannelState.name : ChannelState → String
  | .uninitialized => "Uninitialized"
  | .connecting => "Connecting"
  | .ready => "Ready"
  | .closed => "Closed"

/-- Why the channel did not do what was asked. -/
inductive ChannelError where
  /-- The server at the address could not be reached. -/
  | connectFailure (address : String)
  /-- The channel is not ready. -/
  | notReady (state : ChannelState)
  /-- The message cannot be written. -/
  | encode (error : Frame.EncodeError)
  /-- The connection did not take the octets. -/
  | io
  deriving DecidableEq

/-- The wording of an error; what the system reports has none of its own. -/
def ChannelError.message? : ChannelError → Option String
  | .connectFailure _ => none
  | .notReady state => some s!"signaling channel not ready (state {state.name})"
  | .encode error => some error.message
  | .io => none

/-- What a session needs of the connection to its server. -/
class Transport (τ : Type) where
  /-- Sends a message. The error, if there is one, comes along. -/
  send : τ → Message → τ × Option ChannelError
  /-- Whether messages can be sent. -/
  isReady : τ → Bool
  /-- How many connections there have been. -/
  generation : τ → Nat

/-- The channel to one server. -/
structure Channel where
  /-- The server as `host:port`. -/
  address : String
  state : ChannelState
  closed : Bool
  /-- Whether there is a connection to read from. -/
  reader : Bool
  /-- Whether there is a connection to write to. -/
  writer : Bool
  /-- Octets that arrived behind the last delimiter. -/
  pending : Bytes
  /-- How many connections there have been. -/
  generation : Nat
  sent : Nat
  received : Nat
  sendFailures : Nat
  parseFailures : Nat
  reconnects : Nat
  deriving DecidableEq

namespace Channel

/-- The most octets of one read. -/
def readSize : Nat := 4096

/-- The most octets that may wait for a delimiter. -/
def maxPending : Nat := 1048576

/-- The time between two attempts to connect again, in milliseconds. -/
def reconnectDelay : Nat := 1000

/-- A channel that has not been connected. -/
def new (address : String) : Channel where
  address
  state := .uninitialized
  closed := false
  reader := false
  writer := false
  pending := []
  generation := 0
  sent := 0
  received := 0
  sendFailures := 0
  parseFailures := 0
  reconnects := 0

/-- How an attempt to connect ends. -/
inductive Attempt where
  /-- The server's name has no address, none of its addresses accepts, or the connection cannot be
  shared between reading and writing. -/
  | refused
  | accepted
  deriving DecidableEq

/-- The counters of the channel; it counts nothing else. -/
def metrics (c : Channel) : Metrics
  | .signalsSent => c.sent
  | .signalsReceived => c.received
  | .signalSendFailures => c.sendFailures
  | .parseFailures => c.parseFailures
  | .reconnects => c.reconnects
  | _ => 0

/-- The channel without its connection. -/
def dropConnection (c : Channel) : Channel :=
  { c with reader := false, writer := false, pending := [] }

/-- Connects to the server. An attempt that is refused leaves an older connection as it is. -/
def connect (c : Channel) (attempt : Attempt) : Channel × Option ChannelError :=
  let c := { c with state := .connecting }
  match attempt with
  | .refused => (c, some (.connectFailure c.address))
  | .accepted =>
    if c.closed then ({ c.dropConnection with state := .closed }, some (.notReady .closed))
    else
      ({ c with
          reader := true
          writer := true
          pending := []
          state := .ready
          generation := c.generation + 1 },
        none)

/-- Whether the channel is ready. -/
def isReady (c : Channel) : Bool := c.state == .ready

/-- A send that failed. -/
def failSend (c : Channel) (e : ChannelError) : Channel × Except ChannelError Bytes :=
  ({ c with sendFailures := c.sendFailures + 1 }, .error e)

/-- Sends a message over a connection that takes its octets if `taken`. The octets come along. -/
def send (c : Channel) (m : Message) (taken : Bool) : Channel × Except ChannelError Bytes :=
  if c.state = .ready then
    match Frame.encode m with
    | .error e => c.failSend (.encode e)
    | .ok frame =>
      if c.writer then
        if taken then ({ c with sent := c.sent + 1 }, .ok frame) else c.failSend .io
      else (c, .error (.notReady .connecting))
  else c.failSend (.notReady c.state)

/-! ### Receiving -/

/-- What the receiving side sees. -/
inductive Arrival where
  /-- Octets on the connection. -/
  | octets (bs : Bytes)
  /-- Nothing for now. -/
  | quiet
  /-- The end of the connection. -/
  | lost
  /-- The end of an attempt to connect again. -/
  | attempt (outcome : Attempt)
  deriving DecidableEq

/-- Takes octets that have arrived: the messages that are complete now, if a delimiter is there. -/
def takeOctets (c : Channel) (bs : Bytes) : Channel × Option (List Message) :=
  let buffer := c.pending ++ bs
  if Frame.hasDelimiter buffer then
    let decoded := Frame.decodeAll buffer
    ({ c with
        pending := decoded.rest
        received := c.received + decoded.messages.length
        parseFailures := c.parseFailures + decoded.failures },
      some decoded.messages)
  else if maxPending < buffer.length then
    ({ c with pending := [], parseFailures := c.parseFailures + 1 }, none)
  else ({ c with pending := buffer }, none)

/-- Tries to connect again. The first batch on a new connection is empty, so that the caller can
restore what the server knew before it says anything. -/
def reconnect (c : Channel) (attempt : Attempt) : Channel × Option (List Message) :=
  match c.connect attempt with
  | (c, none) => ({ c with reconnects := c.reconnects + 1 }, some [])
  | (c, some _) => (c, none)

/-- One step of receiving. The batch comes along when there is one to hand out. -/
def arrive (c : Channel) (arrival : Arrival) : Channel × Option (List Message) :=
  if c.closed then (c, some [])
  else if c.reader then
    match arrival with
    | .octets bs => c.takeOctets bs
    | .lost => ({ c.dropConnection with state := .connecting }, none)
    | .quiet | .attempt _ => (c, none)
  else
    match arrival with
    | .attempt outcome => c.reconnect outcome
    | _ => ({ c.dropConnection with state := .connecting }, none)

/-- Receives until there is a batch to hand out, and what is left to be seen then. Without a batch
the channel is still waiting. -/
def receive (c : Channel) : List Arrival → Channel × Option (List Message) × List Arrival
  | [] => if c.closed then (c, some [], []) else (c, none, [])
  | arrival :: rest =>
    match c.arrive arrival with
    | (c, some batch) => (c, some batch, if c.closed then arrival :: rest else rest)
    | (c, none) => receive c rest

/-- Closes the channel for good. -/
def close (c : Channel) : Channel :=
  if c.closed then c else { c with closed := true, state := .closed, writer := false }

end Channel
end Parley
