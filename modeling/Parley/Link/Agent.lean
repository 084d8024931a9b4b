import Parley.Link.CheckList
import Parley.Link.Datagram
import Parley.Link.Negotiation
import Parley.Link.State
/-!
The agent: one attempt to reach one peer.

An agent gathers its candidates, tells the peer of them through the server, checks the pairs that
they form with the peer's, and keeps the path alive that the two sides settle on. The controlling
side settles it, by a check that nominates a working pair.

An agent does no work of its own. It is told of the time, of messages and of datagrams, and what it
wants sent stands in its two queues until it is taken from there. Times are in milliseconds, and
every identifier that an operation may need is handed to it, fresh.
-/
namespace Parley

/-- A question to a STUN server that is not answered yet. -/
structure StunQuery where
  server : SocketAddress
  id : TransactionId
  started : Nat
  lastSent : Nat
  deriving DecidableEq

/-- The negotiation with one peer. -/
structure Agent where
  peer : PeerId
  state : AgentState
  pathKind : PathKind
  /-- Whether this side settles the path. -/
  controlling : Bool
  session : UInt64
  /-- The session of the peer, once it is known. -/
  remoteSession : Option UInt64
  /-- Our candidates. -/
  ours : List Candidate
  /-- The peer's candidates. -/
  theirs : List Candidate
  checks : CheckList
  /-- Whether there will be no more candidates of ours. -/
  gathered : Bool
  /-- Whether there will be no more candidates of the peer's. -/
  remoteGathered : Bool
  query : Option StunQuery
  startedAt : Option Nat
  /-- When a path was first found to work. -/
  firstSuccess : Option Nat
  nominationSent : Bool
  /-- Where game data is sent. -/
  selected : Option SocketAddress
  keepalive : Option Keepalive
  /-- When the peer was last heard of, other than by checks. -/
  lastActivity : Nat
  /-- What is to be sent from the socket, in order. -/
  datagrams : List (SocketAddress × Bytes)
  /-- What is to be sent through the server, in order. -/
  signals : List Message
  deriving DecidableEq

/-- Why a payload cannot be sent. -/
inductive SendError where
  /-- There is no path to the peer. -/
  | noRoute (peer : PeerId)
  /-- It does not fit into a datagram. -/
  | tooLarge (length : Nat)
  deriving DecidableEq

/-- The wording of an error. -/
def SendError.message : SendError → String
  | .noRoute peer => "no route to " ++ peer.text
  | .tooLarge length => s!"payload of {length} bytes exceeds datagram size"

namespace Agent

/-- How long an agent may look for a path. -/
def negotiationTimeout : Nat := 10000

/-- How long the STUN server is given to answer. -/
def queryTimeout : Nat := 1500

/-- The time between two questions to the STUN server. -/
def queryInterval : Nat := 500

/-- How long the controlling side waits for a better path before it nominates one. -/
def nominationDelay : Nat := 100

/-- An agent that has not started. -/
def new (peer : PeerId) (controlling : Bool) (session : UInt64) (now : Nat) : Agent where
  peer
  state := .new
  pathKind := .unknown
  controlling
  session
  remoteSession := none
  ours := []
  theirs := []
  checks := CheckList.new controlling
  gathered := false
  remoteGathered := false
  query := none
  startedAt := none
  firstSuccess := none
  nominationSent := false
  selected := none
  keepalive := none
  lastActivity := now
  datagrams := []
  signals := []

/-- Takes the given role, which is open until the agent starts. -/
def setControlling (a : Agent) (controlling : Bool) : Agent :=
  if a.state = .new ∧ a.controlling ≠ controlling then
    { a with controlling, checks := CheckList.new controlling }
  else a

/-- Notes that the peer has been heard of. -/
def touch (a : Agent) (now : Nat) : Agent := { a with lastActivity := now }

/-- How long the peer has not been heard of. -/
def idleFor (a : Agent) (now : Nat) : Nat := now - a.lastActivity

/-! ### Queues -/

/-- Queues a datagram. -/
def queue (a : Agent) (destination : SocketAddress) (datagram : Bytes) : Agent :=
  { a with datagrams := a.datagrams ++ [(destination, datagram)] }

/-- Queues a check. -/
def queueRequest (a : Agent) (destination : SocketAddress) (request : BindingRequest) : Agent :=
  a.queue destination (BindingMessage.request request).encode

/-- Queues a message to the peer. -/
def signal (a : Agent) (kind : MessageKind) (data : String) : Agent :=
  { a with signals := a.signals ++ [⟨a.peer, kind, data⟩] }

/-- The agent after its datagrams have been taken from it. -/
def clearDatagrams (a : Agent) : Agent := { a with datagrams := [] }

/-- The agent after its messages have been taken from it. -/
def clearSignals (a : Agent) : Agent := { a with signals := [] }

/-! ### Gathering -/

/-- Ends the gathering and says so. -/
def finishGathering (a : Agent) : Agent :=
  if a.gathered then a
  else
    { a with gathered := true, query := none }.signal .agentGatheringDone
      (GatheringDone.payload ⟨a.session⟩)

/-- Starts the negotiation: gathers the local addresses, describes them to the peer and asks the
STUN server, if there is one. Only a new agent starts. -/
def start (a : Agent) (now : Nat) (addresses : List SocketAddress) (includeLoopback : Bool)
    (stunServer : Option SocketAddress) (id : TransactionId) : Agent :=
  if a.state = .new then
    let ours := Candidate.gather addresses includeLoopback
    let a := { a with
      state := .checking, startedAt := some now, ours, checks := a.checks.start now }
    let a := a.signal .agentLocalDescription (Description.payload ⟨a.session, ours⟩)
    let a := match stunServer with
      | some server =>
        { a with query := some ⟨server, id, now, now⟩ }.queue server (Stun.request id)
      | none => a.finishGathering
    { a with checks := a.checks.addPairs a.ours a.theirs }
  else a

/-- The local address for which the public address `mapped` stands. -/
def base (a : Agent) (mapped : SocketAddress) : SocketAddress :=
  match a.ours with
  | first :: _ => first.address
  | [] => .v4 Ipv4.unspecified mapped.port

/-- The candidate that a public address gives, unless it is one of ours already. -/
def reflexiveCandidate (a : Agent) (mapped : SocketAddress) : Option Candidate :=
  if a.ours.any (·.address == mapped) then none
  else Candidate.gatherReflexive mapped (a.base mapped)

/-- Adds a candidate of ours and tells the peer of it. -/
def addOurs (a : Agent) (c : Candidate) : Agent :=
  { a with ours := a.ours ++ [c], checks := a.checks.addPairs [c] a.theirs }.signal .agentCandidate
    (CandidateNotice.payload ⟨a.session, c⟩)

/-- Takes an answer of the STUN server. -/
def handleStun (a : Agent) (datagram : Bytes) : Agent :=
  match a.query with
  | none => a
  | some query =>
    match Stun.parseResponse query.id datagram with
    | .error _ => a
    | .ok mapped =>
      let a := match a.reflexiveCandidate mapped with
        | some c => a.addOurs c
        | none => a
      a.finishGathering

/-! ### State -/

/-- How the path to an address reaches the peer. -/
def pathKindOf (a : Agent) (address : SocketAddress) : PathKind :=
  match a.checks.pairs.find? fun p => p.state == .succeeded && p.remote == address with
  | none => .direct
  | some p =>
    if p.ours.isRelay || p.theirs.isRelay then .relayed
    else if p.theirs.kind == .host && p.theirs.isPrivate then .localNetwork
    else .direct

/-- Sends game data to an address from now on, and keeps the path to it alive. -/
def select (a : Agent) (address : SocketAddress) (now : Nat) : Agent :=
  { a with
    selected := some address
    pathKind := a.pathKindOf address
    keepalive := match a.keepalive with
      | some k => some (k.setRemote address)
      | none => some (Keepalive.new address now) }

/-- Selects the best path that works, if one does. -/
def selectBest (a : Agent) (now : Nat) : Agent :=
  match a.checks.bestSucceeded.bind fun i => a.checks.pairs[i]? with
  | some p => a.select p.remote now
  | none => a

/-- Whether neither side can come up with a working path any more. -/
def isExhausted (a : Agent) (now : Nat) : Bool :=
  (match a.startedAt with
    | some started => decide (negotiationTimeout ≤ now - started)
    | none => false) ||
  (a.gathered && a.remoteGathered && (a.checks.pairs.isEmpty || a.checks.isComplete))

/-- Forgets a nomination that has failed. -/
def withdrawNomination (a : Agent) : Agent :=
  if a.nominationSent && !a.checks.nominationPending && a.checks.nominatedPair.isNone then
    { a with nominationSent := false }
  else a

/-- Whether it is time for the controlling side to nominate. -/
def mayNominate (a : Agent) (now : Nat) : Bool :=
  a.controlling && !a.nominationSent &&
    ((match a.firstSuccess with
      | some first => decide (nominationDelay ≤ now - first)
      | none => false) ||
    a.checks.isComplete)

/-- Nominates the best path that works, when it is time to. -/
def nominate (a : Agent) (now : Nat) (id : TransactionId) : Agent :=
  if a.mayNominate now then
    match a.checks.bestSucceeded with
    | none => a
    | some best =>
      match a.checks.nominate best now id with
      | (checks, some (request, destination)) =>
        { a with checks, nominationSent := true }.queueRequest destination request
      | (_, none) => a
  else a

/-- Settles on the nominated path, when it works. -/
def complete (a : Agent) (now : Nat) : Agent :=
  match a.checks.nominatedPair with
  | some p => { a with state := .completed }.select p.remote now
  | none => a

/-- What a connected agent does for its path. -/
def settle (a : Agent) (now : Nat) (id : TransactionId) : Agent :=
  (a.withdrawNomination.nominate now id).complete now

/-- Moves on as far as the checks allow. -/
def updateState (a : Agent) (now : Nat) (id : TransactionId) : Agent :=
  match a.state with
  | .checking =>
    if a.checks.hasSucceeded then
      ({ a with firstSuccess := some now, state := .connected }.selectBest now).settle now id
    else if a.isExhausted now then { a with state := .failed, query := none }
    else a
  | .connected =>
    if !a.checks.hasSucceeded && a.checks.isComplete then
      { a with state := .failed, selected := none, keepalive := none }
    else (a.selectBest now).settle now id
  | _ => a

/-! ### Messages -/

/-- Whether a description calls for a new agent: the peer has started again. An agent that is still
negotiating takes the new session up itself. -/
def shouldReplace (a : Agent) (session : UInt64) : Bool :=
  match a.state with
  | .new | .checking => false
  | .failed | .disconnected => true
  | .connected | .completed =>
    match a.remoteSession with
    | some known => known != session
    | none => false

/-- Adds a candidate of the peer's, unless its address is known. -/
def addTheirs (a : Agent) (c : Candidate) : Agent :=
  if a.theirs.any (·.address == c.address) then a
  else
    let a := { a with theirs := a.theirs ++ [c] }
    if a.state = .new then a else { a with checks := a.checks.addPairs a.ours [c] }

/-- Takes up the session of a description. -/
def adopt (a : Agent) (session : UInt64) : Agent :=
  if a.remoteSession = some session then a
  else { a with remoteSession := some session, remoteGathered := false }

/-- Takes up a session when none is known, and refuses one that is not the known one. The error, if
there is one, comes along. -/
def takeSession (a : Agent) (session : UInt64) : Agent × Option NegotiationError :=
  match a.remoteSession with
  | none => ({ a with remoteSession := some session }, none)
  | some known => if known = session then (a, none) else (a, some (.staleSession session))

/-- Takes a negotiation message: what it changes, it changes one after the other, until it is done
or there is an error, which comes along. -/
def applySignal (a : Agent) (kind : MessageKind) (data : String) (now : Nat) (id : TransactionId) :
    Agent × Option NegotiationError :=
  let a := a.touch now
  match kind with
  | .agentLocalDescription =>
    match Description.ofPayload? data with
    | none => (a, some (.malformed kind))
    | some d =>
      let a := a.adopt d.session
      let a := d.candidates.foldl addTheirs a
      (a.updateState now id, none)
  | .agentCandidate =>
    match CandidateNotice.ofPayload? data with
    | none => (a, some (.malformed kind))
    | some n =>
      match a.takeSession n.session with
      | (a, some e) => (a, some e)
      | (a, none) => ((a.addTheirs n.candidate).updateState now id, none)
  | .agentGatheringDone =>
    if Message.isPing kind data then (a.updateState now id, none)
    else
      match GatheringDone.ofPayload? data with
      | none => (a, some (.malformed kind))
      | some g =>
        match a.takeSession g.session with
        | (a, some e) => (a, some e)
        | (a, none) =>
          let a := { a with remoteGathered := true }
          (a.updateState now id, none)
  | _ => (a, some (.notNegotiation kind))

/-! ### Datagrams -/

/-- Whether game data is taken from an address: it is the selected one, or a check has shown that
the peer answers there. -/
def isVerifiedPath (a : Agent) (source : SocketAddress) : Bool :=
  a.selected == some source || a.checks.isVerified source

/-- Makes sure of a pair with the address from which a check came. -/
def learnTheirs (a : Agent) (source : SocketAddress) (priority : UInt32) : Agent :=
  match a.checks.findByRemote source with
  | some _ => a
  | none =>
    match a.ours.find? fun c => c.address.isV4 == source.isV4 with
    | none => a
    | some near =>
      let far := { Candidate.peerReflexive source with priority }
      { a with theirs := a.theirs ++ [far], checks := a.checks.addPeerReflexive near far }

/-- Schedules a check of the pair from whose address one came, and notes a nomination. -/
def answerCheck (a : Agent) (source : SocketAddress) (useCandidate : Bool) : Agent :=
  match a.checks.findByRemote source with
  | none => a
  | some index =>
    let checks := a.checks.trigger index
    { a with checks :=
        if useCandidate && !a.controlling then checks.markNominated index else checks }

/-- Takes a check: answers it, and checks the same path from this side. -/
def handleRequest (a : Agent) (source : SocketAddress) (request : BindingRequest) : Agent :=
  let a := a.queue source (BindingMessage.response (.accept request.id source)).encode
  if a.state = .new ∨ a.state.isTerminal then a
  else (a.learnTheirs source request.priority).answerCheck source request.useCandidate

/-- Takes the answer to a check. -/
def handleResponse (a : Agent) (response : BindingResponse) : Agent :=
  { a with checks := (a.checks.handleResponse response).1 }

/-- Takes a binding message; what is none is passed over. -/
def handleBinding (a : Agent) (source : SocketAddress) (datagram : Bytes) : Agent :=
  match BindingMessage.decode datagram with
  | .ok (.request request) => a.handleRequest source request
  | .ok (.response response) => a.handleResponse response
  | .error _ => a

/-- Takes a keepalive: answers a request, and records a response. -/
def handleKeepalive (a : Agent) (source : SocketAddress) (isResponse : Bool) (sequence : UInt32)
    (now : Nat) : Agent :=
  if isResponse then { a with keepalive := a.keepalive.map (·.recordResponse sequence now) }
  else a.queue source (Keepalive.response sequence)

/-- Whether game data from an address is taken. -/
def accepts (a : Agent) (source : SocketAddress) : Bool :=
  a.state.isUsable && a.isVerifiedPath source

/-- What a datagram changes before the state follows, and the game data in it. -/
def handleDatagram (a : Agent) (source : SocketAddress) (datagram : Bytes) (now : Nat) :
    Agent × Option Bytes :=
  match Datagram.classify datagram with
  | .stun => (a.handleStun datagram, none)
  | .binding => (a.handleBinding source datagram, none)
  | .keepalive isResponse sequence => (a.handleKeepalive source isResponse sequence now, none)
  | .data payload => if a.accepts source then (a.touch now, some payload) else (a, none)
  | .unknown => (a, none)

/-- Takes a datagram from the socket. The game data in it comes along. -/
def onDatagram (a : Agent) (source : SocketAddress) (datagram : Bytes) (now : Nat)
    (id : TransactionId) : Agent × Option Bytes :=
  let (a, payload) := a.handleDatagram source datagram now
  (a.updateState now id, payload)

/-! ### Time -/

/-- Asks the STUN server again, or gives it up. -/
def tickQuery (a : Agent) (now : Nat) : Agent :=
  match a.query with
  | none => a
  | some query =>
    if queryTimeout ≤ now - query.started then a.finishGathering
    else if queryInterval ≤ now - query.lastSent then
      { a with query := some { query with lastSent := now } }.queue query.server
        (Stun.request query.id)
    else a

/-- Gives up the checks whose time is over and sends the next one. -/
def tickChecks (a : Agent) (now : Nat) (id : TransactionId) : Agent :=
  match a.state with
  | .checking | .connected | .completed =>
    match (a.checks.handleTimeouts now).nextRequest now id with
    | (checks, some check) => { a with checks }.queueRequest check.destination check.request
    | (checks, none) => { a with checks }
  | _ => a

/-- Keeps the selected path alive, or gives it up. -/
def tickKeepalive (a : Agent) (now : Nat) : Agent :=
  match a.keepalive with
  | none => a
  | some k =>
    match k.checkTimeout now with
    | (k, true) => { a with keepalive := some k, state := .disconnected, selected := none }
    | (k, false) =>
      match k.poll now with
      | (k, some (destination, datagram)) =>
        { a with keepalive := some k }.queue destination datagram
      | (k, none) => { a with keepalive := some k }

/-- Does what the time calls for. `checkId` identifies the next check, `nominationId` a nomination
that follows. -/
def tick (a : Agent) (now : Nat) (checkId nominationId : TransactionId) : Agent :=
  (((a.tickQuery now).tickChecks now checkId).tickKeepalive now).updateState now nominationId

/-! ### Game data -/

/-- The datagram of a payload and where it goes. -/
def prepareSend (a : Agent) (payload : Bytes) : Except SendError (SocketAddress × Bytes) :=
  match a.state.isUsable, a.selected with
  | true, some destination =>
    if Datagram.maxPayload < payload.length then .error (.tooLarge payload.length)
    else .ok (destination, Datagram.ofPayload payload)
  | _, _ => .error (.noRoute a.peer)

end Agent
end Parley
