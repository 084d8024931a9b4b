import Parley.Link.State
import Parley.Lobby.Ad
/-!
The directory of advertised games.

A host has at most one entry. Merging its advertisement again refreshes the entry where it stands
and keeps its number; an entry that was not refreshed for more than `timeToLive` is dropped by the
next snapshot. Numbers are handed out in rising order and never twice. A status entry, when there
is one, ends every snapshot and cannot be found by its number.
-/
namespace Parley

/-- The marks in front of a lobby's name: a version that differs from ours, and the state and kind
of the path to its host. -/
def annotation (ours theirs : UInt32) (status : Option (AgentState × PathKind)) : String :=
  let version := if ours = theirs then "" else "[!Ver]"
  match status with
  | none => version
  | some (state, kind) =>
    let progress := match state with
      | .new | .checking => "[P2P Connecting]"
      | .failed => "[P2P Failed]"
      | .disconnected => "[P2P Not Connected]"
      | .connected | .completed => ""
    let path := match kind with
      | .relayed => "[Relayed]"
      | .localNetwork => "[LAN]"
      | .direct | .unknown => ""
    version ++ progress ++ path

/-- The live advertisements. -/
structure Directory where
  client : ClientInfo
  ads : List Ad
  /-- The number handed out last. -/
  lastIndex : UInt32
  status : Option Ad

namespace Directory

/-- How long an entry stays without being refreshed, in milliseconds. -/
def timeToLive : Nat := 2000

/-- A directory without entries. -/
def empty (client : ClientInfo) : Directory := ⟨client, [], 0, none⟩

/-- The advertisement as it is listed, before it has a number. -/
def entry (d : Directory) (host : PeerId) (ad : Ad) (status : Option (AgentState × PathKind))
    (now : Nat) : Ad :=
  let ad := { ad.bound with host, lastSeen := some now }
  let mark := annotation d.client.version ad.version status
  if mark = "" then ad else { ad with name := Text.clip Ad.maxName (mark ++ " " ++ ad.name) }

/-- Lists the advertisement of `host`, or refreshes it. The number of its entry comes along. -/
def merge (d : Directory) (host : PeerId) (ad : Ad) (status : Option (AgentState × PathKind))
    (now : Nat) : Directory × UInt32 :=
  let ad := d.entry host ad status now
  match d.ads.find? (·.host == host) with
  | some known =>
    let ad := { ad with index := known.index }
    ({ d with ads := d.ads.map fun old => if old.host = host then ad else old }, known.index)
  | none =>
    let index := d.lastIndex + 1
    ({ d with ads := d.ads ++ [{ ad with index }], lastIndex := index }, index)

/-- Whether an entry has been refreshed lately. -/
def isLive (now : Nat) (ad : Ad) : Bool :=
  match ad.lastSeen with
  | some seen => now - seen ≤ timeToLive
  | none => false

/-- Drops the entries that have expired. The live ones come along, the status entry behind them. -/
def snapshot (d : Directory) (now : Nat) : Directory × List Ad :=
  let live := d.ads.filter (isLive now)
  let last := match d.status with
    | none => []
    | some status =>
      let index := match live.getLast? with
        | some ad => ad.index + 1
        | none => 1
      [{ status with index }]
  ({ d with ads := live }, live ++ last)

/-- The entry with the given number, expired or not. -/
def find? (d : Directory) (index : UInt32) : Option Ad := d.ads.find? (·.index == index)

/-- The line of settings of the status entry. -/
def statusStat : String := ",33,,3,,1e,,1,cb2edaab,5,,Server\rStatus\r"

/-- The extra data of the status entry: its state, and zeros. -/
def statusExtra : Bytes := 12 :: List.replicate 31 0

/-- Shows a text as the status entry. -/
def setStatus (d : Directory) (text : String) : Directory :=
  { d with status := some ((Ad.new text statusStat 0 statusExtra).stamp d.client) }

/-- Removes the status entry. -/
def clearStatus (d : Directory) : Directory := { d with status := none }

end Directory
end Parley
