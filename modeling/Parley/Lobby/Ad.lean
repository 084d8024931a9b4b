import Parley.Base64
import Parley.Binary
import Parley.PeerId
import Parley.Text.Blank
import Parley.Text.Clip
/-!
Advertisements of hosted games.

Every part of an advertisement whose size may vary is bounded: `Ad.bound` cuts the texts at the end
of a character and the extra data at an octet. The payload of an advertisement is its record in
base64; reading it bounds it again.
-/
namespace Parley

/-- Product and version of a game. -/
structure ClientInfo where
  product : UInt32
  version : UInt32
  deriving DecidableEq

/-- One advertised game. -/
structure Ad where
  /-- The hosting peer. -/
  host : PeerId
  /-- The number under which the directory lists it. -/
  index : UInt32
  /-- The state of the game, a number of the game's own. -/
  state : UInt32
  name : String
  /-- A line of settings, in the game's own format. -/
  stat : String
  /-- Octets that only the game understands. -/
  extra : Bytes
  version : UInt32
  product : UInt32
  /-- When it was last merged into a directory, in milliseconds; not part of its payload. -/
  lastSeen : Option Nat
  deriving DecidableEq

namespace Ad

/-- The most octets of a name. -/
def maxName : Nat := 128

/-- The most octets of a line of settings. -/
def maxStat : Nat := 128

/-- The most octets of extra data. -/
def maxExtra : Nat := 128

/-- The state of a game that has started. Its advertisement is listed, but does not show that its
host is alive. -/
def inProgressState : UInt32 := 12

/-- The identity of sixteen zeros, which stands for no host yet. -/
def noHost : PeerId := .filled 0

/-- The advertisement with every part cut to its bound. -/
def bound (ad : Ad) : Ad :=
  { ad with
    name := Text.clip maxName ad.name
    stat := Text.clip maxStat ad.stat
    extra := ad.extra.take maxExtra }

/-- An advertisement that has no host, number or version yet. -/
def new (name stat : String) (state : UInt32) (extra : Bytes) : Ad :=
  bound ⟨noHost, 0, state, name, stat, extra, 0, 0, none⟩

/-- The advertisement with a client's product and version. -/
def stamp (client : ClientInfo) (ad : Ad) : Ad :=
  { ad with product := client.product, version := client.version }

/-- Whether the game has started. -/
def isInProgress (ad : Ad) : Bool := ad.state == inProgressState

/-! ### The payload -/

/-- Why a payload holds no advertisement. -/
inductive DecodeError where
  /-- It is not base64. -/
  | base64
  /-- Its octets are no record of an advertisement. -/
  | record
  deriving DecidableEq

/-- The record of an advertisement. -/
def record (ad : Ad) : Bytes :=
  Binary.putText ad.host.text ++ Binary.putUInt32 ad.index ++ Binary.putUInt32 ad.state ++
    Binary.putText ad.name ++ Binary.putText ad.stat ++ Binary.putBytes ad.extra ++
    Binary.putUInt32 ad.version ++ Binary.putUInt32 ad.product

/-- An identity that is written as its text. -/
def getPeer : Binary.Get PeerId := fun bs =>
  (Binary.getText bs).bind fun (s, rest) =>
    match PeerId.ofText s with
    | .ok peer => some (peer, rest)
    | .error _ => none

/-- The advertisement of a record; what follows it is passed over. -/
def ofRecord? (bs : Bytes) : Option Ad := do
  let (host, bs) ← getPeer bs
  let (index, bs) ← Binary.getUInt32 bs
  let (state, bs) ← Binary.getUInt32 bs
  let (name, bs) ← Binary.getText bs
  let (stat, bs) ← Binary.getText bs
  let (extra, bs) ← Binary.getBytes bs
  let (version, bs) ← Binary.getUInt32 bs
  let (product, _) ← Binary.getUInt32 bs
  return ⟨host, index, state, name, stat, extra, version, product, none⟩

/-- The payload of an advertisement. -/
def payload (ad : Ad) : String := Base64.text ad.record

/-- The advertisement of a payload, within its bounds. -/
def ofPayload (s : String) : Except DecodeError Ad :=
  match Base64.ofText? (Text.trim s) with
  | none => .error .base64
  | some bs =>
    match ofRecord? bs with
    | none => .error .record
    | some ad => .ok ad.bound

end Ad
end Parley
