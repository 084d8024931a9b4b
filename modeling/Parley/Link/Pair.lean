import Parley.Link.Binding
import Parley.Link.Candidate
/-!
Candidate pairs and the check of one of them.

A check is one transaction: a request that is sent up to `maxSends` times, at intervals that double
from `firstInterval` to `lastInterval`, until its response arrives or its time is over. Times are in
milliseconds.
-/
namespace Parley

/-- How far the check of a pair has come. -/
inductive CheckState where
  /-- Held back, because a pair of the same foundation is being checked first. -/
  | frozen
  /-- To be checked. -/
  | waiting
  /-- A request is out. -/
  | inProgress
  /-- The path works. -/
  | succeeded
  /-- The path does not work. -/
  | failed
  deriving DecidableEq

/-- Every state. -/
def CheckState.all : List CheckState := [.frozen, .waiting, .inProgress, .succeeded, .failed]

/-- The name of a state. -/
def CheckState.name : CheckState → String
  | .frozen => "Frozen"
  | .waiting => "Waiting"
  | .inProgress => "InProgress"
  | .succeeded => "Succeeded"
  | .failed => "Failed"

/-- A candidate of ours, one of the peer's, and the check of the path between them. -/
structure Pair where
  ours : Candidate
  theirs : Candidate
  /-- Higher is checked first. -/
  priority : UInt64
  /-- Pairs of one foundation are unfrozen together. -/
  foundation : String
  state : CheckState
  /-- How often the request of the transaction has been sent. -/
  sends : Nat
  firstSent : Option Nat
  lastSent : Option Nat
  transaction : Option TransactionId
  /-- Whether the path has been chosen by the controlling side. -/
  nominated : Bool
  deriving DecidableEq

/-- The priority of a pair, from the priority `g` of the controlling side's candidate and `d` of the
other's: the lower of the two counts most, then the higher, then which side has it. -/
def pairPriority (ours theirs : UInt32) (controlling : Bool) : UInt64 :=
  let g := (if controlling then ours else theirs).toNat
  let d := (if controlling then theirs else ours).toNat
  UInt64.ofNat (UInt32.size * min g d + 2 * max g d + if d < g then 1 else 0)

namespace Pair

/-- The interval after the first send. -/
def firstInterval : Nat := 100

/-- The longest interval between two sends. -/
def lastInterval : Nat := 1600

/-- How often a request is sent. -/
def maxSends : Nat := 5

/-- How long after its first send a check may be answered. -/
def checkTimeout : Nat := 5000

/-- A pair that is not checked yet. -/
def new (ours theirs : Candidate) (controlling : Bool) : Pair where
  ours
  theirs
  priority := pairPriority ours.priority theirs.priority controlling
  foundation := ours.foundation ++ ":" ++ theirs.foundation
  state := .frozen
  sends := 0
  firstSent := none
  lastSent := none
  transaction := none
  nominated := false

/-- The address to which checks of the pair go. -/
def remote (p : Pair) : SocketAddress := p.theirs.address

/-- The time from the latest send to the next: it doubles with each send. -/
def interval (p : Pair) : Nat := min (firstInterval <<< min p.sends 4) lastInterval

/-- Whether that time is over. -/
def intervalOver (p : Pair) (now : Nat) : Bool :=
  match p.lastSent with
  | some sent => p.interval ≤ now - sent
  | none => true

/-- Whether the request is to be sent again. -/
def needsRetransmit (p : Pair) (now : Nat) : Bool :=
  p.state == .inProgress && p.sends < maxSends && p.intervalOver now

/-- Whether the check is over without an answer: the last send has not been answered, or the time
for the whole check has passed. -/
def isTimedOut (p : Pair) (now : Nat) : Bool :=
  p.state == .inProgress &&
    ((maxSends ≤ p.sends && p.intervalOver now) ||
      match p.firstSent with
      | some first => checkTimeout ≤ now - first
      | none => false)

/-- The request of the pair's check with the given identifier. -/
def request (p : Pair) (id : TransactionId) : BindingRequest where
  id
  priority := (Candidate.peerReflexive p.ours.address).priority
  useCandidate := p.nominated

/-- Starts a new check. -/
def startCheck (p : Pair) (now : Nat) (id : TransactionId) : Pair × BindingRequest :=
  ({ p with
      transaction := some id
      state := .inProgress
      sends := 1
      firstSent := some now
      lastSent := some now },
    p.request id)

/-- Sends the request of the running check again. -/
def retransmit (p : Pair) (now : Nat) : Option (Pair × BindingRequest) :=
  p.transaction.map fun id =>
    ({ p with sends := p.sends + 1, lastSent := some now }, p.request id)

/-- Whether the pair waits for a response with the given identifier. -/
def awaits (p : Pair) (id : TransactionId) : Bool :=
  p.state == .inProgress && p.transaction == some id

/-- Takes a response, when the pair waits for it. -/
def takeResponse (p : Pair) (r : BindingResponse) : Option Pair :=
  if p.awaits r.id then
    some { p with state := if r.success then .succeeded else .failed }
  else none

/-- Schedules a check of a pair that is held back or has failed. -/
def trigger (p : Pair) : Pair :=
  match p.state with
  | .frozen | .failed => { p with state := .waiting, sends := 0, transaction := none }
  | _ => p

/-- Gives up a check that has run out of time, and a nomination with it. -/
def expire (p : Pair) (now : Nat) : Pair :=
  if p.isTimedOut now then { p with state := .failed, nominated := false } else p

/-- Takes over the candidates of a better pair, as long as no check has been started. -/
def improve (p better : Pair) : Pair :=
  if (p.state = .frozen ∨ p.state = .waiting) ∧ p.priority < better.priority then
    { p with
      ours := better.ours
      theirs := better.theirs
      priority := better.priority
      foundation := better.foundation }
  else p

end Pair
end Parley
