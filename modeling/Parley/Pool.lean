import Parley.Link.Agent
import Parley.Link.Inbox
/-!
The pool: one agent for each known peer.

An agent is created on first use, except for the server and for ourselves. It controls its
negotiation when our identity is above the peer's. A failed or disconnected agent is replaced when
the peer is pinged or pings, and any agent that is not negotiating when the peer has started again
is. An agent that has not heard of its peer for a minute is dropped, unless it is negotiating.

The pool does not touch sockets or the server: what its agents want sent comes along with each
operation, as `Outgoing`. What an operation needs from outside is its `Occasion`.
-/
namespace Parley

/-- Fresh numbers for what one operation may do with the agent of one peer. -/
structure Supply where
  /-- The session of an agent that is created. -/
  session : UInt64
  /-- The port of the socket of an agent that is created. -/
  port : UInt16
  /-- The identifier of a question to the STUN server. -/
  queryId : TransactionId
  /-- The identifier of a check. -/
  checkId : TransactionId
  /-- The identifier of a nomination. -/
  nominationId : TransactionId

/-- What an operation finds outside. -/
structure Occasion where
  /-- The time in milliseconds. -/
  now : Nat
  /-- The addresses of the local interfaces. -/
  interfaces : List Ipv4
  /-- The address of the STUN server, once it is known. -/
  stunServer : Option SocketAddress
  /-- Fresh numbers, for each peer. -/
  supply : PeerId → Supply

/-- An agent with the port of its socket. -/
structure Slot where
  agent : Agent
  port : UInt16
  deriving DecidableEq

/-- What is to be sent after an operation. -/
structure Outgoing where
  /-- Through the server, in order. -/
  signals : List Message
  /-- From the sockets of the given peers' agents, in order. -/
  datagrams : List (PeerId × SocketAddress × Bytes)

/-- Why an agent was not created. -/
inductive PoolError where
  /-- No agent negotiates with that peer. -/
  | invalidPeer (peer : PeerId)
  /-- The pool is shut down. -/
  | shutDown
  deriving DecidableEq

/-- The wording of an error. -/
def PoolError.message : PoolError → String
  | .invalidPeer peer => "no agent may be created for " ++ peer.text
  | .shutDown => "agent pool is shut down"

/-- The agents and the queue of what they have received. -/
structure Pool where
  slots : List Slot
  localId : Option PeerId
  running : Bool
  includeLoopback : Bool
  inbox : Inbox
  datagramsSent : Nat
  datagramsReceived : Nat
  deriving DecidableEq

/-- The addresses at which a socket with the given port may be reached, each once. -/
def localAddresses (interfaces : List Ipv4) (port : UInt16) (includeLoopback : Bool) :
    List SocketAddress :=
  let usable := interfaces.filter fun ip => includeLoopback || !ip.isLoopback
  let ips := if includeLoopback then usable ++ [Ipv4.localhost] else usable
  ips.eraseDups.map fun ip => .v4 ip port

namespace Outgoing

/-- Nothing to send. -/
def none : Outgoing := ⟨[], []⟩

/-- What `a` wants sent and then what `b` does. -/
def append (a b : Outgoing) : Outgoing := ⟨a.signals ++ b.signals, a.datagrams ++ b.datagrams⟩

end Outgoing

namespace Slot

/-- The peer with which the agent negotiates. -/
def peer (s : Slot) : PeerId := s.agent.peer

/-- Empties the queues of the agent. -/
def flush (s : Slot) : Slot × Outgoing :=
  ({ s with agent := s.agent.clearDatagrams.clearSignals },
    ⟨s.agent.signals, s.agent.datagrams.map fun (destination, datagram) =>
      (s.peer, destination, datagram)⟩)

end Slot

namespace Pool

/-- How long an agent may be without word of its peer, in milliseconds. -/
def idleTimeout : Nat := 60000

/-- A pool without agents. -/
def new (includeLoopback : Bool) : Pool := ⟨[], none, true, includeLoopback, .empty, 0, 0⟩

/-! ### Agents -/

/-- The agent for a peer with its port. -/
def slot? (p : Pool) (peer : PeerId) : Option Slot := p.slots.find? (·.peer == peer)

/-- The agent for a peer. -/
def agent? (p : Pool) (peer : PeerId) : Option Agent := (p.slot? peer).map (·.agent)

/-- The state and the kind of path of a peer's agent. -/
def status? (p : Pool) (peer : PeerId) : Option (AgentState × PathKind) :=
  (p.agent? peer).map fun a => (a.state, a.pathKind)

/-- The pool with the agent of a peer changed. -/
def update (p : Pool) (peer : PeerId) (f : Slot → Slot) : Pool :=
  { p with slots := p.slots.map fun s => if s.peer = peer then f s else s }

/-- The pool without the agent of a peer. -/
def remove (p : Pool) (peer : PeerId) : Pool :=
  { p with slots := p.slots.filter (·.peer ≠ peer) }

/-- The pool without the agent of a peer if that agent is as `condition` says. -/
def removeIf (p : Pool) (peer : PeerId) (condition : Agent → Bool) : Pool :=
  match p.agent? peer with
  | some a => if condition a then p.remove peer else p
  | none => p

/-- Whether we control a negotiation with a peer. -/
def controls (p : Pool) (peer : PeerId) : Bool :=
  match p.localId with
  | some id => id.isAbove peer
  | none => false

/-- The agent for a peer, created if there is none. -/
def ensure (p : Pool) (peer : PeerId) (o : Occasion) : Except PoolError Pool :=
  if !p.running then .error .shutDown
  else
    match p.slot? peer with
    | some _ => .ok p
    | none =>
      if peer = PeerId.server ∨ p.localId = some peer then .error (.invalidPeer peer)
      else
        let fresh := o.supply peer
        let agent := Agent.new peer (p.controls peer) fresh.session o.now
        .ok { p with slots := p.slots ++ [⟨agent, fresh.port⟩] }

/-- Takes our identity, and gives every agent that has not started the role that goes with it. -/
def setLocalId (p : Pool) (id : PeerId) : Pool :=
  { p with
    localId := some id
    slots := p.slots.map fun s => { s with agent := s.agent.setControlling (id.isAbove s.peer) } }

/-- Whether an agent is to be dropped for want of word of its peer. -/
def isIdle (now : Nat) (s : Slot) : Bool :=
  s.agent.state ≠ .checking && idleTimeout < s.agent.idleFor now

/-- Drops the agents that have not heard of their peers for long. -/
def prune (p : Pool) (now : Nat) : Pool :=
  { p with slots := p.slots.filter fun s => !isIdle now s }

/-- Notes that a peer has been heard of. -/
def touch (p : Pool) (peer : PeerId) (now : Nat) : Pool :=
  p.update peer fun s => { s with agent := s.agent.touch now }

/-- Drops every agent, for good. -/
def shutdown (p : Pool) : Pool :=
  if p.running then { p with running := false, slots := [] } else p

/-! ### Negotiation -/

/-- Starts an agent that has not started. -/
def startSlot (p : Pool) (o : Occasion) (s : Slot) : Slot :=
  let addresses := localAddresses o.interfaces s.port p.includeLoopback
  let queryId := (o.supply s.peer).queryId
  { s with agent := s.agent.start o.now addresses p.includeLoopback o.stunServer queryId }

/-- Changes the agent of a peer and takes from it what it wants sent. -/
def work (p : Pool) (peer : PeerId) (f : Slot → Slot) : Pool × Outgoing :=
  match p.slot? peer with
  | none => (p, .none)
  | some s =>
    let (flushed, out) := (f s).flush
    (p.update peer fun _ => flushed, out)

/-- Drops the agent of a peer if that is finished. -/
def replaceFinished (p : Pool) (peer : PeerId) : Pool := p.removeIf peer (·.state.isTerminal)

/-- Drops the agent that an inbound message shows to be out of date. -/
def replaceFor (p : Pool) (peer : PeerId) (kind : MessageKind) (data : String) : Pool :=
  if Message.isPing kind data then p.replaceFinished peer
  else if kind = .agentLocalDescription then
    match Description.ofPayload? data with
    | some d => p.removeIf peer (·.shouldReplace d.session)
    | none => p
  else p

/-- Whether an inbound message makes an agent start. -/
def starts (kind : MessageKind) (data : String) : Bool :=
  Message.isPing kind data || kind == .agentLocalDescription

/-- Takes a negotiation message from a peer. A payload that its agent refuses changes nothing but
the time at which the peer was last heard of. -/
def negotiate (p : Pool) (peer : PeerId) (kind : MessageKind) (data : String) (o : Occasion) :
    Pool × Except PoolError Outgoing :=
  let p := p.replaceFor peer kind data
  match p.ensure peer o with
  | .error e => (p, .error e)
  | .ok p =>
    let (p, out) := p.work peer fun s =>
      let a := (s.agent.applySignal kind data o.now (o.supply peer).nominationId).1
      let s := { s with agent := a }
      if starts kind data then p.startSlot o s else s
    (p, .ok out)

/-- Pings a peer through the server, and starts its agent. -/
def ping (p : Pool) (peer : PeerId) (o : Occasion) : Pool × Except PoolError Outgoing :=
  let p := p.replaceFinished peer
  match p.ensure peer o with
  | .error e => (p, .error e)
  | .ok p =>
    let (p, out) := p.work peer (p.startSlot o)
    (p, .ok { out with signals := Message.ping peer :: out.signals })

/-! ### Sockets -/

/-- Takes a datagram from the socket of a peer's agent. -/
def onDatagram (p : Pool) (peer : PeerId) (source : SocketAddress) (datagram : Bytes)
    (o : Occasion) : Pool × Outgoing :=
  match p.slot? peer with
  | none => (p, .none)
  | some s =>
    let (a, payload) := s.agent.onDatagram source datagram o.now (o.supply peer).nominationId
    let p := match payload with
      | some data =>
        { p with
          inbox := p.inbox.push ⟨peer, data, o.now⟩
          datagramsReceived := p.datagramsReceived + 1 }
      | none => p
    p.work peer fun s => { s with agent := a }

/-- Lets the agent of a peer do what the time calls for. -/
def tick (p : Pool) (peer : PeerId) (o : Occasion) : Pool × Outgoing :=
  p.work peer fun s =>
    { s with agent := s.agent.tick o.now (o.supply peer).checkId (o.supply peer).nominationId }

/-- Lets every agent do what the time calls for. -/
def tickAll (p : Pool) (o : Occasion) : Pool × Outgoing :=
  (p.slots.map (·.peer)).foldl
    (fun (p, out) peer =>
      let (p, more) := p.tick peer o
      (p, out.append more))
    (p, .none)

/-! ### Game data -/

/-- The datagram of a payload for a peer and where it goes. -/
def prepareSend (p : Pool) (peer : PeerId) (payload : Bytes) :
    Except SendError (SocketAddress × Bytes) :=
  match p.agent? peer with
  | some a => a.prepareSend payload
  | none => .error (.noRoute peer)

/-- The datagrams of a payload for every peer that can be reached. -/
def prepareBroadcast (p : Pool) (payload : Bytes) : List (PeerId × SocketAddress × Bytes) :=
  p.slots.filterMap fun s =>
    match s.agent.prepareSend payload with
    | .ok (destination, datagram) => some (s.peer, destination, datagram)
    | .error _ => none

/-- Counts datagrams of game data that the sockets have taken. -/
def countSent (p : Pool) (n : Nat) : Pool := { p with datagramsSent := p.datagramsSent + n }

/-- Sends a payload to every peer that can be reached, when `takes` tells which of the datagrams the
sockets take. How many they take comes along. -/
def broadcast (p : Pool) (payload : Bytes) (takes : PeerId × SocketAddress × Bytes → Bool) :
    Pool × Nat :=
  let sent := (p.prepareBroadcast payload).countP takes
  (p.countSent sent, sent)

end Pool
end Parley
