/-!
How far a negotiation with a peer has come, and how its path reaches the peer.
-/
namespace Parley

/-- The states of an agent. -/
inductive AgentState where
  /-- Not started. -/
  | new
  /-- Looking for a working path. -/
  | checking
  /-- A path works. -/
  | connected
  /-- A path works and both sides have settled on it. -/
  | completed
  /-- No path was found, or none is left. -/
  | failed
  /-- The path that was settled on has gone dead. -/
  | disconnected
  deriving DecidableEq

namespace AgentState

/-- Every state. -/
def all : List AgentState := [.new, .checking, .connected, .completed, .failed, .disconnected]

/-- The name of a state. -/
def name : AgentState → String
  | .new => "New"
  | .checking => "Checking"
  | .connected => "Connected"
  | .completed => "Completed"
  | .failed => "Failed"
  | .disconnected => "Disconnected"

/-- Whether game data can flow. -/
def isUsable : AgentState → Bool
  | .connected | .completed => true
  | _ => false

/-- Whether the agent can only be replaced. -/
def isTerminal : AgentState → Bool
  | .failed | .disconnected => true
  | _ => false

end AgentState

/-- How the selected path reaches the peer. It is shown and decides nothing. -/
inductive PathKind where
  | unknown
  | direct
  | relayed
  /-- Over a private or shared network that both ends are on. -/
  | localNetwork
  deriving DecidableEq

namespace PathKind

/-- Every kind of path. -/
def all : List PathKind := [.unknown, .direct, .relayed, .localNetwork]

/-- The name of a kind of path. -/
def name : PathKind → String
  | .unknown => "Unknown"
  | .direct => "Direct"
  | .relayed => "Relayed"
  | .localNetwork => "OtherLocalNetwork"

end PathKind
end Parley
