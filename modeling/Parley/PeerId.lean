import Parley.Base64
import Parley.Text.Blank
import Parley.Text.Utf8
/-!
Peer identity.

A client is known by sixteen opaque octets. Their text is padded base64, which is always
twenty-four characters long, and a list of peers is their texts with nothing between them.
-/
namespace Parley

/-- The sixteen octets that name a client. -/
structure PeerId where
  bytes : Bytes
  length_bytes : bytes.length = 16

namespace PeerId

theorem ext_bytes {a b : PeerId} (h : a.bytes = b.bytes) : a = b := by
  cases a
  cases b
  cases h
  rfl

instance : DecidableEq PeerId := fun a b =>
  decidable_of_iff (a.bytes = b.bytes) ⟨ext_bytes, congrArg bytes⟩

/-- Why octets or a text name no peer. -/
inductive Error where
  /-- The text is not base64. -/
  | invalidText
  /-- There are `length` octets. -/
  | wrongLength (length : Nat)
  deriving DecidableEq

/-- The wording of a wrong length; a text that is not base64 is reported without one. -/
def Error.message? : Error → Option String
  | .invalidText => none
  | .wrongLength length => some s!"peer id must be 16 bytes, got {length}"

/-- The identity that repeats one octet. -/
def filled (octet : UInt8) : PeerId := ⟨List.replicate 16 octet, List.length_replicate⟩

/-- The identity of the rendezvous server itself. -/
def server : PeerId := filled 0xff

/-- The peer that the octets name. -/
def ofBytes (bs : Bytes) : Except Error PeerId :=
  if h : bs.length = 16 then .ok ⟨bs, h⟩ else .error (.wrongLength bs.length)

/-- The text of an identity. -/
def text (id : PeerId) : String := Base64.text id.bytes

/-- The peer that a text names; blank characters around it are left out. -/
def ofText (s : String) : Except Error PeerId :=
  match Base64.ofText? (Text.trim s) with
  | some bs => ofBytes bs
  | none => .error .invalidText

/-- The form of an identity in records for a reader. -/
def describe (id : PeerId) : String := s!"PeerId({id.text})"

/-- Identities are ordered octet by octet, the first one counting most. -/
instance : Ord PeerId where
  compare a b := compare a.bytes b.bytes

/-- `a` comes after `b`. -/
def isAbove (a b : PeerId) : Bool := compare a b == .gt

/-- How many octets one text takes in a list of peers. -/
def textLength : Nat := 24

/-- The complete pieces of `size` octets, up to the first incomplete one. `fuel` bounds their
number; the length of the octets is enough. -/
def pieces (size : Nat) : Nat → Bytes → List Bytes
  | 0, _ => []
  | fuel + 1, bs =>
    let piece := bs.take size
    if piece.length = size then piece :: pieces size fuel (bs.drop size) else []

/-- One peer, or the reason that there is none, for each complete text in a list of peers. -/
def readList (s : String) : List (Except Error PeerId) :=
  let bs := Text.octets s
  (pieces textLength bs.length bs).map fun piece =>
    match Text.ofOctets? piece with
    | some t => ofText t
    | none => .error .invalidText

end PeerId
end Parley
