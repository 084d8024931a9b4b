import Parley.Bytes
/-!
Transaction identifiers.

A request carries twelve octets drawn at random, and only a response with the same octets answers
it.
-/
namespace Parley

/-- The twelve octets that tie a response to its request. -/
structure TransactionId where
  bytes : Bytes
  length_bytes : bytes.length = 12
  deriving DecidableEq

/-- The identifier of twelve octets. -/
def TransactionId.ofBytes? (bs : Bytes) : Option TransactionId :=
  if h : bs.length = 12 then some ⟨bs, h⟩ else none

end Parley
