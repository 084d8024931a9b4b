import Parley.Link.Binding
import Parley.Link.Keepalive
import Parley.Link.Stun
/-!
Telling apart what arrives on an agent's socket.

STUN messages, binding messages, keepalives and game data share one socket. A STUN message is known
by its cookie, and everything else by its first octet.
-/
namespace Parley

/-- What a datagram is. -/
inductive Datagram where
  | stun
  | binding
  | keepalive (isResponse : Bool) (sequence : UInt32)
  | data (payload : Bytes)
  | unknown
  deriving DecidableEq

namespace Datagram

/-- The first octet of game data. -/
def dataTag : UInt8 := 0xd0

/-- The most octets of game data that one datagram takes. -/
def maxPayload : Nat := 65506

/-- The datagram of game data. -/
def ofPayload (payload : Bytes) : Bytes := dataTag :: payload

/-- What a datagram is. -/
def classify (datagram : Bytes) : Datagram :=
  if Stun.isMessage datagram then .stun
  else
    match datagram with
    | [] => .unknown
    | first :: rest =>
      if first = BindingMessage.tag then .binding
      else if first = Keepalive.requestTag ∨ first = Keepalive.responseTag then
        match Keepalive.decode? datagram with
        | some (isResponse, sequence) => .keepalive isResponse sequence
        | none => .unknown
      else if first = dataTag then .data rest
      else .unknown

end Datagram
end Parley
