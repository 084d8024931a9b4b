import Parley.Net.Socket
/-!
Keepalives on a path that is in use.

A request goes out every fifteen seconds. One that is not answered within five counts as missed,
and the third miss in a row loses the path for good.
-/
namespace Parley

/-- The bookkeeping of one path. Times are in milliseconds. -/
structure Keepalive where
  remote : SocketAddress
  lastSent : Nat
  /-- The number and the time of the request that is waiting for its answer. -/
  outstanding : Option (UInt32 × Nat)
  nextSequence : UInt32
  missed : Nat
  /-- How long the last answer took. -/
  roundTrip : Option Nat
  lost : Bool
  deriving DecidableEq

namespace Keepalive

/-- The time between two requests. -/
def interval : Nat := 15000

/-- How long a request may go unanswered. -/
def timeout : Nat := 5000

/-- How many misses in a row lose the path. -/
def threshold : Nat := 3

/-! ### Datagrams -/

/-- The first octet of a request. -/
def requestTag : UInt8 := 0x10

/-- The first octet of a response. -/
def responseTag : UInt8 := 0x11

/-- The datagram of a request. -/
def request (sequence : UInt32) : Bytes := requestTag :: Bytes.bigEndian 4 sequence.toNat

/-- The datagram of a response. -/
def response (sequence : UInt32) : Bytes := responseTag :: Bytes.bigEndian 4 sequence.toNat

/-- Whether a datagram is a response, and its number; what follows the number is passed over. -/
def decode? (datagram : Bytes) : Option (Bool × UInt32) :=
  match datagram with
  | tag :: a :: b :: c :: d :: _ =>
    let sequence := UInt32.ofNat (Bytes.ofBigEndian [a, b, c, d])
    if tag = requestTag then some (false, sequence)
    else if tag = responseTag then some (true, sequence)
    else none
  | _ => none

/-! ### Bookkeeping -/

/-- A path taken into use; its first request goes out one interval later. -/
def new (remote : SocketAddress) (now : Nat) : Keepalive where
  remote
  lastSent := now
  outstanding := none
  nextSequence := 1
  missed := 0
  roundTrip := none
  lost := false

/-- Follows the path to another address, where nothing is missed yet. -/
def setRemote (k : Keepalive) (remote : SocketAddress) : Keepalive :=
  if k.remote = remote then k else { k with remote, outstanding := none, missed := 0 }

/-- Counts a request that has run out of time. The flag says that this has just lost the path. -/
def checkTimeout (k : Keepalive) (now : Nat) : Keepalive × Bool :=
  if k.lost then (k, false)
  else
    match k.outstanding with
    | none => (k, false)
    | some (_, sent) =>
      if now - sent < timeout then (k, false)
      else
        let missed := k.missed + 1
        let lost := decide (threshold ≤ missed)
        ({ k with outstanding := none, missed, lost }, lost)

/-- The next request and its destination, when one is due. -/
def poll (k : Keepalive) (now : Nat) : Keepalive × Option (SocketAddress × Bytes) :=
  if k.lost ∨ now - k.lastSent < interval then (k, none)
  else
    ({ k with
        nextSequence := k.nextSequence + 1
        lastSent := now
        outstanding := some (k.nextSequence, now) },
      some (k.remote, request k.nextSequence))

/-- Takes a response. Any of them ends a row of misses; only the one that was waited for ends the
wait. -/
def recordResponse (k : Keepalive) (sequence : UInt32) (now : Nat) : Keepalive :=
  match k.outstanding with
  | some (expected, sent) =>
    if expected = sequence then
      { k with roundTrip := some (now - sent), outstanding := none, missed := 0 }
    else { k with missed := 0 }
  | none => { k with missed := 0 }

end Keepalive
end Parley
