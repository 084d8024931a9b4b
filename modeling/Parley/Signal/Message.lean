import Parley.Json.Raw
import Parley.Json.Value
import Parley.PeerId
/-!
Signaling messages.

A message names a peer, a kind and a payload. On the wire it is a record of three members whose
kind is a number; `Message.ofRaw? (raw of Message.json)` gives it back. The server relays only the
kinds it knows, so an agent's ping travels as the end of a gathering with a payload of its own.
-/
namespace Parley

/-- What a signaling message is about. -/
inductive MessageKind where
  /-- A client has opened a lobby, or the server confirms it. -/
  | startAdvertising
  /-- A client has closed its lobby, or the server confirms it. -/
  | stopAdvertising
  /-- A request for the advertising peers, or their list. -/
  | requestAdvertisers
  /-- A request for a peer's advertisement. -/
  | solicitAds
  /-- A peer's advertisement. -/
  | gameAd
  /-- The session and the first candidates of a negotiation. -/
  | agentLocalDescription
  /-- One more candidate. -/
  | agentCandidate
  /-- The end of the candidates, or a ping. -/
  | agentGatheringDone
  /-- The identity of a client. -/
  | serverSetClientId
  /-- An echo from the server. -/
  | serverEcho
  deriving DecidableEq

namespace MessageKind

/-- Every kind. -/
def all : List MessageKind :=
  [.startAdvertising, .stopAdvertising, .requestAdvertisers, .solicitAds, .gameAd,
    .agentLocalDescription, .agentCandidate, .agentGatheringDone, .serverSetClientId, .serverEcho]

/-- The number of a kind on the wire. -/
def tag : MessageKind → Nat
  | .startAdvertising => 1
  | .stopAdvertising => 2
  | .requestAdvertisers => 3
  | .solicitAds => 4
  | .gameAd => 5
  | .agentLocalDescription => 101
  | .agentCandidate => 102
  | .agentGatheringDone => 103
  | .serverSetClientId => 254
  | .serverEcho => 255

/-- The name of a kind. -/
def name : MessageKind → String
  | .startAdvertising => "StartAdvertising"
  | .stopAdvertising => "StopAdvertising"
  | .requestAdvertisers => "RequestAdvertisers"
  | .solicitAds => "SolicitAds"
  | .gameAd => "GameAd"
  | .agentLocalDescription => "AgentLocalDescription"
  | .agentCandidate => "AgentCandidate"
  | .agentGatheringDone => "AgentGatheringDone"
  | .serverSetClientId => "ServerSetClientId"
  | .serverEcho => "ServerEcho"

/-- The kind with the given number. -/
def ofTag? (n : Nat) : Option MessageKind := all.find? fun kind => kind.tag == n

/-- What is said of a number that no kind has. -/
def unknownMessage (n : Nat) : String := s!"unknown message type {n}"

theorem ofTag?_tag (kind : MessageKind) : ofTag? kind.tag = some kind := by
  cases kind <;> rfl

/-- Whether messages of this kind belong to a negotiation between two agents. -/
def isNegotiation : MessageKind → Bool
  | .agentLocalDescription | .agentCandidate | .agentGatheringDone => true
  | _ => false

end MessageKind

/-- One signaling message. -/
structure Message where
  /-- The destination of a message that is sent, the origin of one that is received. -/
  peer : PeerId
  kind : MessageKind
  data : String
  deriving DecidableEq

namespace Message

/-- A message to the rendezvous server with nothing to add. -/
def toServer (kind : MessageKind) : Message := ⟨PeerId.server, kind, ""⟩

/-- The payload that makes the end of a gathering a ping. -/
def pingPayload : String := "ping"

/-- A ping for a peer's agent. -/
def ping (peer : PeerId) : Message := ⟨peer, .agentGatheringDone, pingPayload⟩

/-- Whether a negotiation message is a ping. -/
def isPing (kind : MessageKind) (data : String) : Bool :=
  kind == .agentGatheringDone && data == pingPayload

/-- The record of a message. -/
def json (m : Message) : Json :=
  .object [("peer_ID", .string m.peer.text), ("message_type", .number m.kind.tag),
    ("data", .string m.data)]

/-- The identity that a document spells. -/
def peerOfRaw? (raw : Json.Raw) : Option PeerId := do
  match PeerId.ofText (← raw.text?) with
  | .ok peer => return peer
  | .error _ => none

/-- The message of a record; a record without data has empty data. -/
def ofRaw? (raw : Json.Raw) : Option Message := do
  match ← raw.record? ["peer_ID", "message_type", "data"] with
  | [some peer, some kind, data] =>
    let peer ← peerOfRaw? peer
    let kind ← MessageKind.ofTag? (← kind.nat? 256)
    let data ← match data with
      | some data => data.text?
      | none => pure ""
    return ⟨peer, kind, data⟩
  | _ => none

end Message
end Parley
