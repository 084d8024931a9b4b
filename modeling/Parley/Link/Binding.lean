import Parley.Binary
import Parley.Link.Transaction
import Parley.Net.Socket
/-!
Binding messages: the requests and responses that prove a path between two agents.

A datagram is a tag octet and the record of a message. A record carries an address without its
scope and flow information, so these are zero in a message that is read.
-/
namespace Parley

/-- A check of a path. -/
structure BindingRequest where
  id : TransactionId
  /-- The priority that a peer reflexive candidate of the sender would have. -/
  priority : UInt32
  /-- Whether the controlling side nominates the path with this check. -/
  useCandidate : Bool
  deriving DecidableEq

/-- The answer to a check. -/
structure BindingResponse where
  id : TransactionId
  success : Bool
  /-- Where the request was seen to come from. -/
  mapped : Option SocketAddress
  deriving DecidableEq

/-- A message of a check. -/
inductive BindingMessage where
  | request (r : BindingRequest)
  | response (r : BindingResponse)
  deriving DecidableEq

namespace BindingResponse

/-- The answer to a request that came from `source`. -/
def accept (id : TransactionId) (source : SocketAddress) : BindingResponse :=
  ⟨id, true, some source⟩

end BindingResponse

namespace BindingMessage

/-- The first octet of every datagram. -/
def tag : UInt8 := 0xb1

/-- Why a datagram holds no message. -/
inductive Error where
  /-- It does not start with the tag. -/
  | notBinding
  /-- There is no record behind the tag. -/
  | record
  deriving DecidableEq

/-- The wording of an error; a bad record is reported without one. -/
def Error.message? : Error → Option String
  | .notBinding => some "not a binding datagram"
  | .record => none

/-- The record of an address. -/
def putAddress : SocketAddress → Bytes
  | .v4 ip port => Binary.putUInt32 0 ++ ip.octets ++ Binary.putUInt16 port
  | .v6 ip port _ _ => Binary.putUInt32 1 ++ ip.octets ++ Binary.putUInt16 port

/-- The record of a message. -/
def put : BindingMessage → Bytes
  | .request r =>
    Binary.putUInt32 0 ++ r.id.bytes ++ Binary.putUInt32 r.priority ++ Binary.putBool r.useCandidate
  | .response r =>
    Binary.putUInt32 1 ++ r.id.bytes ++ Binary.putBool r.success ++
      Binary.putOption putAddress r.mapped

/-- The datagram of a message. -/
def encode (m : BindingMessage) : Bytes := tag :: put m

/-- The octets of an address and its port. -/
def getAddress : Binary.Get SocketAddress := fun bs => do
  let (version, bs) ← Binary.getUInt32 bs
  if version = 0 then
    let (octets, bs) ← Bytes.take? 4 bs
    let ip ← Ipv4.ofOctets? octets
    let (port, bs) ← Binary.getUInt16 bs
    return (.v4 ip port, bs)
  else if version = 1 then
    let (octets, bs) ← Bytes.take? 16 bs
    let ip ← Ipv6.ofOctets? octets
    let (port, bs) ← Binary.getUInt16 bs
    return (.v6 ip port 0 0, bs)
  else none

/-- An identifier. -/
def getId : Binary.Get TransactionId := fun bs => do
  let (octets, bs) ← Bytes.take? 12 bs
  let id ← TransactionId.ofBytes? octets
  return (id, bs)

/-- The message of a record. -/
def get : Binary.Get BindingMessage := fun bs => do
  let (alternative, bs) ← Binary.getUInt32 bs
  if alternative = 0 then
    let (id, bs) ← getId bs
    let (priority, bs) ← Binary.getUInt32 bs
    let (useCandidate, bs) ← Binary.getBool bs
    return (.request ⟨id, priority, useCandidate⟩, bs)
  else if alternative = 1 then
    let (id, bs) ← getId bs
    let (success, bs) ← Binary.getBool bs
    let (mapped, bs) ← Binary.getOption getAddress bs
    return (.response ⟨id, success, mapped⟩, bs)
  else none

/-- The message of a datagram; what follows its record is passed over. -/
def decode (datagram : Bytes) : Except Error BindingMessage :=
  match datagram with
  | first :: body =>
    if first = tag then
      match get body with
      | some (m, _) => .ok m
      | none => .error .record
    else .error .notBinding
  | [] => .error .notBinding

end BindingMessage
end Parley
