import Parley.Signal.Message
/-!
Messages on a stream.

Each message is the text of its record behind which the two characters `-+` stand. The segments of
a stream are what lies between the delimiters; empty ones are passed over, and one that is no
message is counted and does not touch its neighbours. What follows the last delimiter is kept for
the octets still to come.
-/
namespace Parley.Frame

/-- The first octet of the delimiter. -/
def dash : UInt8 := 0x2d

/-- The second octet of the delimiter. -/
def plus : UInt8 := 0x2b

/-- The two octets behind every message. -/
def delimiter : Bytes := [dash, plus]

/-- Why a message was not written. -/
inductive EncodeError where
  /-- Its text contains the delimiter. -/
  | delimiterInPayload
  deriving DecidableEq

/-- The wording of a refusal. -/
def EncodeError.message : EncodeError → String
  | .delimiterInPayload => "payload contains the frame delimiter"

/-- Whether the delimiter stands somewhere in the octets. -/
def hasDelimiter : Bytes → Bool
  | a :: b :: rest => (a == dash && b == plus) || hasDelimiter (b :: rest)
  | _ => false

/-- The octets of a message, its delimiter included. -/
def encode (m : Message) : Except EncodeError Bytes :=
  let body := Text.octets m.json.text
  if hasDelimiter body then .error .delimiterInPayload else .ok (body ++ delimiter)

/-- The message that one segment holds. -/
def decode? (segment : Bytes) : Option Message :=
  (Json.Raw.ofBytes? segment).bind Message.ofRaw?

/-! ### Segments -/

/-- The complete segments of a stream and the octets behind the last delimiter, when `complete`
segments and the start `current` of the next are read already, both in reverse order. -/
def splitFrom (complete : List Bytes) (current : Bytes) : Bytes → List Bytes × Bytes
  | [] => (complete.reverse, current.reverse)
  | [b] => (complete.reverse, (b :: current).reverse)
  | a :: b :: rest =>
    if a = dash ∧ b = plus then splitFrom (current.reverse :: complete) [] rest
    else splitFrom complete (a :: current) (b :: rest)

/-- The complete segments of a stream, and the octets behind the last delimiter. -/
def split (bs : Bytes) : List Bytes × Bytes := splitFrom [] [] bs

/-- What a stream held. -/
structure Decoded where
  /-- The messages in their order. -/
  messages : List Message
  /-- How many segments held none. -/
  failures : Nat
  /-- The octets of the segment still open. -/
  rest : Bytes
  deriving DecidableEq

/-- What the non-empty segments hold. -/
def decodeSegments (segments : List Bytes) : List Message × Nat :=
  let results := (segments.filter (· ≠ [])).map decode?
  (results.filterMap id, results.countP (· == none))

/-- What a stream holds. -/
def decodeAll (bs : Bytes) : Decoded :=
  let (segments, rest) := split bs
  let (messages, failures) := decodeSegments segments
  ⟨messages, failures, rest⟩

end Parley.Frame
