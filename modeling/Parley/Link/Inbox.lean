import Parley.PeerId
/-!
Game data that waits for the game.

The queue holds at most `capacity` packets and drops what is older than `staleAfter`. Every packet
that does not reach the game is counted, as stale or as evicted.
-/
namespace Parley

/-- Game data from a peer. -/
structure Packet where
  sender : PeerId
  data : Bytes
  /-- When it arrived, in milliseconds. -/
  receivedAt : Nat
  deriving DecidableEq

/-- The packets that wait, the oldest first, and the counts of what has happened to all others. -/
structure Inbox where
  packets : List Packet
  queued : Nat
  droppedStale : Nat
  droppedOverflow : Nat
  deriving DecidableEq

namespace Inbox

/-- The age in milliseconds beyond which a packet is not delivered. -/
def staleAfter : Nat := 10000

/-- The most packets that wait. -/
def capacity : Nat := 4096

/-- A queue that has seen nothing. -/
def empty : Inbox := ⟨[], 0, 0, 0⟩

/-- Whether a packet is too old to be delivered. -/
def isStale (now : Nat) (p : Packet) : Bool := staleAfter < now - p.receivedAt

/-- Drops the stale packets in front. -/
def dropStale (q : Inbox) (now : Nat) : Inbox :=
  { q with
    packets := q.packets.dropWhile (isStale now)
    droppedStale := q.droppedStale + (q.packets.takeWhile (isStale now)).length }

/-- Makes room for a packet by evicting the oldest. -/
def makeRoom (q : Inbox) : Inbox :=
  if capacity ≤ q.packets.length then
    { q with packets := q.packets.drop 1, droppedOverflow := q.droppedOverflow + 1 }
  else q

/-- Queues a packet that has just arrived. -/
def push (q : Inbox) (p : Packet) : Inbox :=
  let q := (q.dropStale p.receivedAt).makeRoom
  { q with packets := q.packets ++ [p], queued := q.queued + 1 }

/-- Takes the oldest packet that is not stale. -/
def pop (q : Inbox) (now : Nat) : Inbox × Option Packet :=
  let q := q.dropStale now
  match q.packets with
  | [] => (q, none)
  | p :: rest => ({ q with packets := rest }, some p)

/-- Takes every packet that is not stale. -/
def drain (q : Inbox) (now : Nat) : Inbox × List Packet :=
  ({ q with packets := [], droppedStale := q.droppedStale + q.packets.countP (isStale now) },
    q.packets.filter fun p => !isStale now p)

end Inbox
end Parley
