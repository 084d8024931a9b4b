import Parley.Lobby.Directory
import Parley.Metrics
import Parley.Pool
import Parley.Signal.Channel
/-!
The session: the connection to the server, the agents, and the directory of games.

Every message from the server is dispatched by its kind: it tells us our identity or the advertising
peers, asks for our advertisement, brings that of a peer, or belongs to a negotiation. The verbs of
the game ask the server for the advertising peers, open and close a lobby, and send data.

When the transport has a new connection and we have a lobby open, the server is told of it again.
-/
namespace Parley

/-- Why a message from the server could not be handled. -/
inductive DispatchError where
  | ad (error : Ad.DecodeError)
  | peerId (error : PeerId.Error)
  | pool (error : PoolError)
  | transport (error : ChannelError)
  deriving DecidableEq

/-- A session over a transport. -/
structure Session (τ : Type) where
  transport : τ
  client : ClientInfo
  pool : Pool
  directory : Directory
  /-- The peers of which the server has said that they advertise. -/
  advertisers : List PeerId
  /-- The lobby that we have open. -/
  hosted : Option Ad
  localId : Option PeerId
  /-- The connection of the transport for which the server has been told of our lobby. -/
  generation : Nat
  /-- How often discovery has found the transport not ready. -/
  rounds : Nat
  adsMerged : Nat
  /-- Datagrams that are to be sent from the sockets, in order. -/
  datagrams : List (PeerId × SocketAddress × Bytes)

namespace Session

variable {τ : Type} [Transport τ]

/-- A session over a transport that is connected. -/
def new (transport : τ) (client : ClientInfo) (includeLoopback : Bool) : Session τ where
  transport
  client
  pool := Pool.new includeLoopback
  directory := Directory.empty client
  advertisers := []
  hosted := none
  localId := none
  generation := Transport.generation transport
  rounds := 0
  adsMerged := 0
  datagrams := []

/-! ### Sending -/

/-- Sends a message through the server. The error, if there is one, comes along. -/
def send (s : Session τ) (m : Message) : Session τ × Option ChannelError :=
  let (transport, error) := Transport.send s.transport m
  ({ s with transport }, error)

/-- Sends messages through the server; one that fails does not hold up the others. -/
def sendAll (s : Session τ) (messages : List Message) : Session τ :=
  messages.foldl (fun s m => (s.send m).1) s

/-- Sends what agents want sent. -/
def emit (s : Session τ) (out : Outgoing) : Session τ :=
  { s with datagrams := s.datagrams ++ out.datagrams }.sendAll out.signals

/-- The session after its datagrams have been taken from it. -/
def clearDatagrams (s : Session τ) : Session τ := { s with datagrams := [] }

/-! ### Messages from the server -/

/-- Tells the server of our lobby again when the transport has a new connection, and before that who
we are. -/
def checkGeneration (s : Session τ) : Session τ :=
  let current := Transport.generation s.transport
  let known := s.generation
  let s := { s with generation := current }
  if current = known ∨ s.hosted.isNone then s
  else
    let s := match s.localId with
      | some id => (s.send ⟨PeerId.server, .serverSetClientId, id.text⟩).1
      | none => s
    (s.send (.toServer .startAdvertising)).1

/-- Takes our identity. -/
def setLocalId (s : Session τ) (id : PeerId) : Session τ :=
  { s with localId := some id, pool := s.pool.setLocalId id }

/-- Creates the agent for a peer, if that can be done. -/
def ensureAgent (s : Session τ) (o : Occasion) (peer : PeerId) : Session τ :=
  match s.pool.ensure peer o with
  | .ok pool => { s with pool }
  | .error _ => s

/-- The peers of a list, without ourselves and what names no peer. -/
def othersIn (s : Session τ) (data : String) : List PeerId :=
  (PeerId.readList data).filterMap fun
    | .ok peer => if s.localId = some peer then none else some peer
    | .error _ => none

/-- Takes the list of the advertising peers and sees to an agent for each. -/
def updateAdvertisers (s : Session τ) (data : String) (o : Occasion) : Session τ :=
  let advertisers := s.othersIn data
  { advertisers.foldl (fun s peer => s.ensureAgent o peer) s with advertisers }

/-- Lists the advertisement of a peer. It shows that the peer is alive, unless its game has
started. -/
def mergeAd (s : Session τ) (host : PeerId) (data : String) (o : Occasion) :
    Session τ × Option DispatchError :=
  match Ad.ofPayload data with
  | .error e => (s, some (.ad e))
  | .ok ad =>
    match s.pool.ensure host o with
    | .error e => (s, some (.pool e))
    | .ok pool =>
      let (directory, _) := s.directory.merge host ad (pool.status? host) o.now
      let pool := if ad.isInProgress then pool else pool.touch host o.now
      ({ s with pool, directory, adsMerged := s.adsMerged + 1 }, none)

/-- Handles a message from the server. The error, if there is one, comes along. -/
def dispatch (s : Session τ) (m : Message) (o : Occasion) : Session τ × Option DispatchError :=
  match m.kind with
  | .startAdvertising | .stopAdvertising | .serverEcho => (s, none)
  | .serverSetClientId =>
    if Text.trim m.data = "" then (s.setLocalId m.peer, none)
    else
      match PeerId.ofText m.data with
      | .ok id => (s.setLocalId id, none)
      | .error e => (s, some (.peerId e))
  | .requestAdvertisers => (s.updateAdvertisers m.data o, none)
  | .solicitAds =>
    match s.hosted with
    | none => (s, none)
    | some ad =>
      let (s, error) := s.send ⟨m.peer, .gameAd, ad.payload⟩
      (s, error.map .transport)
  | .gameAd => s.mergeAd m.peer m.data o
  | .agentLocalDescription | .agentCandidate | .agentGatheringDone =>
    match s.pool.negotiate m.peer m.kind m.data o with
    | (pool, .ok out) => ({ s with pool }.emit out, none)
    | (pool, .error e) => ({ s with pool }, some (.pool e))

/-- Handles messages in their order, each on an occasion of its own. -/
def dispatchAll (s : Session τ) (batch : List (Message × Occasion)) : Session τ :=
  batch.foldl (fun s (m, o) => (s.dispatch m o).1) s

/-- One round of receiving, of which `batch` is what the transport handed out. -/
def handleBatch (s : Session τ) (batch : List (Message × Occasion)) : Session τ :=
  s.checkGeneration.dispatchAll batch

/-- Drops the agents that have not heard of their peers for long. -/
def prune (s : Session τ) (now : Nat) : Session τ := { s with pool := s.pool.prune now }

/-! ### Verbs of the game -/

/-- What the status entry says while the transport is not ready. -/
def connectingText (round : Nat) : String :=
  "Connecting" ++ String.ofList (List.replicate (round % 4) '.')

/-- Shows in the directory whether the transport is ready. -/
def showStatus (s : Session τ) : Session τ :=
  if Transport.isReady s.transport then { s with directory := s.directory.clearStatus }
  else
    { s with
      directory := s.directory.setStatus (connectingText s.rounds)
      rounds := s.rounds + 1 }

/-- Pings a peer and asks it for its advertisement. -/
def solicit (s : Session τ) (o : Occasion) (peer : PeerId) : Session τ :=
  let s := match s.pool.ping peer o with
    | (pool, .ok out) => { s with pool }.emit out
    | (pool, .error _) => { s with pool }
  (s.send ⟨peer, .solicitAds, ""⟩).1

/-- Asks the server for the advertising peers, and each known one for its advertisement. -/
def discover (s : Session τ) (o : Occasion) : Session τ :=
  let s := (s.showStatus.send (.toServer .requestAdvertisers)).1
  s.advertisers.foldl (fun s peer => s.solicit o peer) s

/-- Opens a lobby. It is open even when the server could not be told. -/
def advertise (s : Session τ) (ad : Ad) : Session τ × Option ChannelError :=
  { s with hosted := some (ad.stamp s.client).bound }.send (.toServer .startAdvertising)

/-- Closes the lobby. It is closed even when the server could not be told. -/
def unadvertise (s : Session τ) : Session τ × Option ChannelError :=
  { s with hosted := none }.send (.toServer .stopAdvertising)

/-- Whether we have a lobby open. -/
def isAdvertising (s : Session τ) : Bool := s.hosted.isSome

/-- The live advertisements. -/
def advertisements (s : Session τ) (now : Nat) : Session τ × List Ad :=
  let (directory, ads) := s.directory.snapshot now
  ({ s with directory }, ads)

/-- The advertisement with the given number. -/
def gameInfo? (s : Session τ) (index : UInt32) : Option Ad := s.directory.find? index

/-! ### Sockets and time -/

/-- Takes a datagram from the socket of a peer's agent. -/
def onDatagram (s : Session τ) (peer : PeerId) (source : SocketAddress) (datagram : Bytes)
    (o : Occasion) : Session τ :=
  let (pool, out) := s.pool.onDatagram peer source datagram o
  { s with pool }.emit out

/-- Lets every agent do what the time calls for. -/
def tick (s : Session τ) (o : Occasion) : Session τ :=
  let (pool, out) := s.pool.tickAll o
  { s with pool }.emit out

/-- Sends game data to every peer that can be reached, when `takes` tells which of the datagrams the
sockets take, and counts the peers that it went to. -/
def broadcast (s : Session τ) (payload : Bytes) (takes : PeerId × SocketAddress × Bytes → Bool) :
    Session τ × Nat :=
  let (pool, sent) := s.pool.broadcast payload takes
  ({ s with pool }, sent)

/-- Takes the oldest packet of game data that is not stale. -/
def receive (s : Session τ) (now : Nat) : Session τ × Option Packet :=
  let (inbox, packet) := s.pool.inbox.pop now
  ({ s with pool := { s.pool with inbox } }, packet)

/-- Takes every packet of game data that is not stale. -/
def drain (s : Session τ) (now : Nat) : Session τ × List Packet :=
  let (inbox, packets) := s.pool.inbox.drain now
  ({ s with pool := { s.pool with inbox } }, packets)

/-- The counters of the session. Those of its messages are the transport's. -/
def metrics (s : Session τ) (ofTransport : Metrics) : Metrics
  | .adsMerged => s.adsMerged
  | .datagramsSent => s.pool.datagramsSent
  | .datagramsReceived => s.pool.datagramsReceived
  | .packetsQueued => s.pool.inbox.queued
  | .packetsDroppedStale => s.pool.inbox.droppedStale
  | .packetsDroppedOverflow => s.pool.inbox.droppedOverflow
  | counter => ofTransport counter

/-- Drops every agent, for good. -/
def shutdown (s : Session τ) : Session τ := { s with pool := s.pool.shutdown }

end Session
end Parley
