import Parley.Json.Raw
import Parley.Json.Value
import Parley.Net.Text
/-!
Candidates: the addresses at which an agent may be reached.

The priority packs a preference for the kind, one for the address and one for the component into
32 bits, so that a host address is preferred to a reflexive one, and that to a relay. Candidates of
one kind and one internet address share a foundation.
-/
namespace Parley

/-- How an address was learned. -/
inductive CandidateKind where
  /-- From a local interface. -/
  | host
  /-- From a STUN server. -/
  | serverReflexive
  /-- From a check of the peer. -/
  | peerReflexive
  /-- From a relay. -/
  | relay
  deriving DecidableEq

namespace CandidateKind

/-- Every kind. -/
def all : List CandidateKind := [.host, .serverReflexive, .peerReflexive, .relay]

/-- How much a kind is preferred. -/
def preference : CandidateKind → UInt32
  | .host => 126
  | .serverReflexive => 100
  | .peerReflexive => 110
  | .relay => 0

/-- The short name of a kind. -/
def label : CandidateKind → String
  | .host => "host"
  | .serverReflexive => "srflx"
  | .peerReflexive => "prflx"
  | .relay => "relay"

/-- The name of a kind in a record. -/
def name : CandidateKind → String
  | .host => "Host"
  | .serverReflexive => "ServerReflexive"
  | .peerReflexive => "PeerReflexive"
  | .relay => "Relay"

/-- The kind with the given name. -/
def ofName? (s : String) : Option CandidateKind := all.find? fun kind => kind.name == s

theorem ofName?_name (kind : CandidateKind) : ofName? kind.name = some kind := by
  cases kind <;> decide

/-- The kind that a document names, as a literal or as an object of that one name and `null`. -/
def ofRaw? (raw : Json.Raw) : Option CandidateKind :=
  match raw with
  | .object [(key, .null)] => (Json.unescape? key).bind ofName?
  | raw => raw.text?.bind ofName?

end CandidateKind

/-- One address at which an agent may be reached. -/
structure Candidate where
  kind : CandidateKind
  address : SocketAddress
  /-- Higher is preferred. -/
  priority : UInt32
  /-- Candidates of one foundation are taken to work or fail together. -/
  foundation : String
  /-- The local address that a reflexive or relayed one stands for. -/
  related : Option SocketAddress
  deriving DecidableEq

namespace Candidate

/-- The priority of a kind's preference, a local preference and a component, each within its
range. -/
def packPriority (kindPreference localPreference component : UInt32) : UInt32 :=
  let kindPreference := min kindPreference 126
  let localPreference := min localPreference 65535
  let component := max 1 (min component 256)
  kindPreference <<< 24 ||| localPreference <<< 8 ||| (256 - component)

/-- Loopback addresses come last, and version 6 after version 4. -/
def localPreference (address : SocketAddress) : UInt32 :=
  if address.ip.isLoopback then 1 else if address.isV4 then 65535 else 65534

/-- The candidate of an address. -/
def new (kind : CandidateKind) (address : SocketAddress) (related : Option SocketAddress) :
    Candidate where
  kind
  address
  priority := packPriority kind.preference (localPreference address) 1
  foundation := kind.label ++ "_" ++ address.ip.text
  related

/-- An address of a local interface. -/
def host (address : SocketAddress) : Candidate := new .host address none

/-- The public address that stands for the local address `base`. -/
def serverReflexive (address base : SocketAddress) : Candidate :=
  new .serverReflexive address (some base)

/-- An address that a check came from. -/
def peerReflexive (address : SocketAddress) : Candidate := new .peerReflexive address none

/-- Whether the candidate reaches only its own machine. -/
def isLoopback (c : Candidate) : Bool := c.address.ip.isLoopback

/-- Whether the candidate leads through a relay. -/
def isRelay (c : Candidate) : Bool := c.kind == .relay

/-- Whether the candidate lies on a private network. -/
def isPrivate (c : Candidate) : Bool := c.address.ip.isPrivate

/-- A candidate for a reader. -/
def text (c : Candidate) : String :=
  s!"{c.kind.label} {c.address.text} priority {c.priority.toNat}"

/-! ### Gathering -/

/-- The host candidates of local addresses, loopback ones only where they are wanted. -/
def gather (addresses : List SocketAddress) (includeLoopback : Bool) : List Candidate :=
  (addresses.filter fun address =>
    (includeLoopback || !address.ip.isLoopback) && !address.ip.isUnspecified).map host

/-- The candidate of a public address, unless it is the local one. -/
def gatherReflexive (mapped base : SocketAddress) : Option Candidate :=
  if mapped = base then none else some (serverReflexive mapped base)

/-- The candidates by falling priority, those of one priority in their order. -/
def sort (candidates : List Candidate) : List Candidate :=
  candidates.mergeSort fun a b => b.priority ≤ a.priority

/-! ### Records -/

/-- The record of a candidate. -/
def json (c : Candidate) : Json :=
  .object ([("type", .string c.kind.name), ("address", .string c.address.text),
    ("priority", .number c.priority.toNat), ("foundation", .string c.foundation)] ++
    match c.related with
    | some related => [("related_address", .string related.text)]
    | none => [])

/-- The socket address that a document spells. -/
def addressOfRaw? (raw : Json.Raw) : Option SocketAddress :=
  raw.text?.bind SocketAddress.ofText?

/-- The candidate of a record. -/
def ofRaw? (raw : Json.Raw) : Option Candidate := do
  match ← raw.record? ["type", "address", "priority", "foundation", "related_address"] with
  | [some kind, some address, some priority, some foundation, related] =>
    let kind ← CandidateKind.ofRaw? kind
    let address ← addressOfRaw? address
    let priority ← priority.nat? 4294967296
    let foundation ← foundation.text?
    let related ← Json.Raw.optional? addressOfRaw? related
    return ⟨kind, address, UInt32.ofNat priority, foundation, related⟩
  | _ => none

end Candidate
end Parley
