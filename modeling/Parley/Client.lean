import Parley.CommandLine
import Parley.Link.Resolver
import Parley.Session
/-!
The program apart from its sockets: a session over the channel to the server.

An `Uplink` is the channel together with the octets that it has taken and that still have to be
written. The client is told of what happens one thing at a time and, in between, hands out what is
to be written to the server and sent from the sockets of its agents. It goes through a batch message
by message, so that each message finds an occasion of its own.
-/
namespace Parley

/-- The channel, and what is to be written on its connection, in order. -/
structure Uplink where
  channel : Channel
  frames : List Bytes

instance : Transport Uplink where
  send u m :=
    match u.channel.send m true with
    | (channel, .ok frame) => (⟨channel, u.frames ++ [frame]⟩, none)
    | (channel, .error e) => (⟨channel, u.frames⟩, some e)
  isReady u := u.channel.isReady
  generation u := u.channel.generation

/-- A session over the channel to the server. -/
abbrev Client := Session Uplink

namespace Client

/-- What is to be sent: frames to the server, and datagrams from the sockets of agents. -/
structure Output where
  frames : List Bytes
  datagrams : List (PeerId × SocketAddress × Bytes)

/-- The client that a command line asks for, once it is connected. -/
def start (c : CommandLine) : Client :=
  let (channel, _) := (Channel.new c.serverText).connect .accepted
  let client : Client := Session.new ⟨channel, []⟩ c.client c.settings.includeLoopback
  match c.ad? with
  | some ad => (client.advertise ad).1
  | none => client

/-- The client with its channel changed. -/
def setChannel (c : Client) (channel : Channel) : Client :=
  { c with transport := { c.transport with channel } }

/-- Takes what the receiving side of the channel sees. The messages that are to be dispatched come
along; there may be none in a batch, but each batch is a round of receiving. -/
def arrive (c : Client) (arrival : Channel.Arrival) : Client × Option (List Message) :=
  match c.transport.channel.arrive arrival with
  | (channel, some batch) => ((setChannel c channel).checkGeneration, some batch)
  | (channel, none) => (setChannel c channel, none)

/-- Whether the connection is gone and a new one has to be made. -/
def isDisconnected (c : Client) : Bool := !c.transport.channel.reader

/-- The peers for which a message may have an agent created. -/
def concerned (m : Message) : List PeerId :=
  if m.kind = .requestAdvertisers then (PeerId.readList m.data).filterMap (·.toOption)
  else [m.peer]

/-- Takes what is to be sent from the client. -/
def takeOutput (c : Client) : Client × Output :=
  ({ c.clearDatagrams with transport := { c.transport with frames := [] } },
    ⟨c.transport.frames, c.datagrams⟩)

/-- An advertisement, for the log. -/
def adText (ad : Ad) : String := s!"  #{ad.index.toNat} {ad.name} (host {ad.host.text})"

/-- A packet of game data, for the log. -/
def packetText (p : Packet) : String := s!"{p.data.length} bytes from {p.sender.text}"

end Client
end Parley
