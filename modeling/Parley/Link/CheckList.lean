import Parley.Link.Pair
/-!
The check list of an agent: its candidate pairs and the schedule of their checks.

All candidates of ours share one socket, so there is one pair for each address of the peer, the one
of the highest priority. Pairs stand in the order of their priority. Of each foundation one pair is
checked first and the others are held back until it has succeeded. Requests are scheduled at least
`pace` apart; a nomination does not wait for its turn.
-/
namespace Parley

/-- Replaces the first element for which `f` gives a replacement. The index of that element and
what else `f` gives for it come along. -/
def updateFirst {α β : Type} (f : α → Option (α × β)) : List α → Option (List α × Nat × β)
  | [] => none
  | a :: as =>
    match f a with
    | some (new, b) => some (new :: as, 0, b)
    | none => (updateFirst f as).map fun (rest, i, b) => (a :: rest, i + 1, b)

/-- The pairs of an agent. Times are in milliseconds. -/
structure CheckList where
  pairs : List Pair
  /-- When checking started. -/
  started : Option Nat
  controlling : Bool
  /-- When the latest request was scheduled. -/
  lastCheck : Option Nat
  deriving DecidableEq

namespace CheckList

/-- The least time between two requests that are scheduled. -/
def pace : Nat := 20

/-- A list without pairs. -/
def new (controlling : Bool) : CheckList := ⟨[], none, controlling, none⟩

/-! ### Pairing -/

/-- Puts a pair in front of the first one of no higher priority. -/
def insertPair (p : Pair) : List Pair → List Pair
  | [] => [p]
  | q :: qs => if q.priority ≤ p.priority then p :: q :: qs else q :: insertPair p qs

/-- Pairs by falling priority, those of one priority in their order. -/
def sortPairs (pairs : List Pair) : List Pair := pairs.foldr insertPair []

/-- Adds a pair, or improves the one that has its remote address already. -/
def offer (pairs : List Pair) (p : Pair) : List Pair :=
  match pairs.findIdx? (·.remote == p.remote) with
  | some i => pairs.modify i (·.improve p)
  | none => pairs ++ [p]

/-- Lets the first pair of each foundation go of which none is active. -/
def unfreeze (active : List String) : List Pair → List Pair
  | [] => []
  | p :: ps =>
    if p.state = .frozen ∧ p.foundation ∉ active then
      { p with state := .waiting } :: unfreeze (p.foundation :: active) ps
    else p :: unfreeze active ps

/-- The foundations of the pairs that are not held back. -/
def activeFoundations (pairs : List Pair) : List String :=
  (pairs.filter (·.state ≠ .frozen)).map (·.foundation)

/-- The pairs that candidates of ours and theirs form, those of one version only. -/
def combinations (ours theirs : List Candidate) (controlling : Bool) : List Pair :=
  theirs.flatMap fun far =>
    (ours.filter fun near => near.address.isV4 == far.address.isV4).map fun near =>
      Pair.new near far controlling

/-- Pairs each candidate of ours with each of theirs. -/
def addPairs (l : CheckList) (ours theirs : List Candidate) : CheckList :=
  let pairs := sortPairs ((combinations ours theirs l.controlling).foldl offer l.pairs)
  { l with pairs := unfreeze (activeFoundations pairs) pairs }

/-- How many of the pairs that are offered one after the other are added. -/
def countNew : (pairs offered : List Pair) → Nat
  | _, [] => 0
  | pairs, p :: offered =>
    let rest := countNew (offer pairs p) offered
    match pairs.findIdx? (·.remote == p.remote) with
    | some _ => rest
    | none => rest + 1

/-- How many pairs pairing adds. -/
def countAdded (l : CheckList) (ours theirs : List Candidate) : Nat :=
  countNew l.pairs (combinations ours theirs l.controlling)

/-- The index of the pair with the given remote address. -/
def findByRemote (l : CheckList) (address : SocketAddress) : Option Nat :=
  l.pairs.findIdx? (·.remote == address)

/-- Schedules a pair with an address that a check has come from, unless there is one. -/
def addPeerReflexive (l : CheckList) (ours theirs : Candidate) : CheckList :=
  match l.findByRemote theirs.address with
  | some _ => l
  | none =>
    let p := { Pair.new ours theirs l.controlling with state := .waiting }
    { l with pairs := sortPairs (l.pairs ++ [p]) }

/-- The list with one of its pairs changed. -/
def modify (l : CheckList) (index : Nat) (f : Pair → Pair) : CheckList :=
  { l with pairs := l.pairs.modify index f }

/-- Schedules a check of a pair that is held back or has failed. -/
def trigger (l : CheckList) (index : Nat) : CheckList := l.modify index Pair.trigger

/-- Notes that the controlling side has chosen the path of a pair. -/
def markNominated (l : CheckList) (index : Nat) : CheckList :=
  l.modify index fun p => { p with nominated := true }

/-! ### Checking -/

/-- A request, its destination and the index of its pair. -/
structure Check where
  index : Nat
  request : BindingRequest
  destination : SocketAddress
  deriving DecidableEq

/-- Starts the clock; it is started once. -/
def start (l : CheckList) (now : Nat) : CheckList :=
  match l.started with
  | some _ => l
  | none => { l with started := some now }

/-- Whether the clock runs and the latest request was long enough ago. -/
def mayCheck (l : CheckList) (now : Nat) : Bool :=
  l.started.isSome &&
    match l.lastCheck with
    | some last => pace ≤ now - last
    | none => true

/-- Sends the request of a pair again, when it is due. -/
def resend (now : Nat) (p : Pair) : Option (Pair × BindingRequest × SocketAddress) :=
  if p.needsRetransmit now then
    (p.retransmit now).map fun (q, request) => (q, request, p.remote)
  else none

/-- Starts the check of a pair in the given state. -/
def startIn (state : CheckState) (now : Nat) (id : TransactionId) (p : Pair) :
    Option (Pair × BindingRequest × SocketAddress) :=
  if p.state = state then
    let (q, request) := p.startCheck now id
    some (q, request, p.remote)
  else none

/-- The pairs after the next request, and the request: one that is due again goes first, then the
check of the first waiting pair, and of the first one held back when nothing else is under way. -/
def schedule (pairs : List Pair) (now : Nat) (id : TransactionId) :
    Option (List Pair × Nat × BindingRequest × SocketAddress) :=
  match updateFirst (resend now) pairs with
  | some next => some next
  | none =>
    match updateFirst (startIn .waiting now id) pairs with
    | some next => some next
    | none =>
      if pairs.any (·.state == .inProgress) then none
      else updateFirst (startIn .frozen now id) pairs

/-- The next request to send, if one may be sent now. `id` identifies the check that it starts. -/
def nextRequest (l : CheckList) (now : Nat) (id : TransactionId) : CheckList × Option Check :=
  if l.mayCheck now then
    match schedule l.pairs now id with
    | some (pairs, index, request, destination) =>
      ({ l with pairs, lastCheck := some now }, some ⟨index, request, destination⟩)
    | none => (l, none)
  else (l, none)

/-- Lets the pairs of a foundation go that are held back. -/
def release (foundation : String) (p : Pair) : Pair :=
  if p.state = .frozen ∧ p.foundation = foundation then { p with state := .waiting } else p

/-- Takes a response. The index of the pair that waited for it comes along. -/
def handleResponse (l : CheckList) (r : BindingResponse) : CheckList × Option Nat :=
  match updateFirst (fun p => (p.takeResponse r).map fun q => (q, p.foundation)) l.pairs with
  | some (pairs, index, foundation) =>
    let pairs := if r.success then pairs.map (release foundation) else pairs
    ({ l with pairs }, some index)
  | none => (l, none)

/-- How many checks have run out of time. -/
def countTimeouts (l : CheckList) (now : Nat) : Nat := l.pairs.countP (·.isTimedOut now)

/-- Gives up the checks that have run out of time. -/
def handleTimeouts (l : CheckList) (now : Nat) : CheckList :=
  { l with pairs := l.pairs.map (·.expire now) }

/-- Checks a path again that works, now to nominate it. -/
def nominate (l : CheckList) (index : Nat) (now : Nat) (id : TransactionId) :
    CheckList × Option (BindingRequest × SocketAddress) :=
  match l.pairs[index]? with
  | some p =>
    if p.state = .succeeded then
      let (q, request) := { p with nominated := true }.startCheck now id
      ({ l with pairs := l.pairs.set index q }, some (request, p.remote))
    else (l, none)
  | none => (l, none)

/-! ### Results -/

/-- The better of two pairs with their indices, the second one when neither is. -/
def better : Option (Pair × Nat) → Pair × Nat → Option (Pair × Nat)
  | none, p => some p
  | some p, q => if p.1.priority ≤ q.1.priority then some q else some p

/-- The index of the working pair of the highest priority, the last one of that priority. -/
def bestSucceeded (l : CheckList) : Option Nat :=
  ((l.pairs.zipIdx.filter (·.1.state == .succeeded)).foldl better none).map (·.2)

/-- The first pair that works and is nominated. -/
def nominatedPair (l : CheckList) : Option Pair :=
  l.pairs.find? fun p => p.nominated && p.state == .succeeded

/-- Whether a nominating check is under way. -/
def nominationPending (l : CheckList) : Bool :=
  l.pairs.any fun p => p.nominated && p.state == .inProgress

/-- Whether a pair's check is over. -/
def isSettled (p : Pair) : Bool := p.state == .succeeded || p.state == .failed

/-- Whether there are pairs and every check is over. -/
def isComplete (l : CheckList) : Bool := !l.pairs.isEmpty && l.pairs.all isSettled

/-- Whether some path works. -/
def hasSucceeded (l : CheckList) : Bool := l.pairs.any (·.state == .succeeded)

/-- Whether the path to an address works. -/
def isVerified (l : CheckList) (address : SocketAddress) : Bool :=
  l.pairs.any fun p => p.state == .succeeded && p.remote == address

end CheckList
end Parley
