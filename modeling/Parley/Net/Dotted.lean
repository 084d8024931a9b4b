import Parley.Net.Text
/-!
Hosts that are spelled as numbers.

An operator may write a version 4 address as one to four numbers with dots between them. All but
the last are one octet each and the last fills the octets that are left, so `127.1` and
`2130706433` both are 127.0.0.1. Each number is decimal, or hexadecimal behind `0x`, or octal behind
another leading zero. Such a host and a port behind the last colon name a socket address without
any look-up.
-/
namespace Parley

namespace Net

/-- A number of 32 bits in the base that its start tells. -/
def readPart : List Char → Option (Nat × List Char)
  | '0' :: 'x' :: cs => readNumber UInt32.size 16 cs
  | '0' :: 'X' :: cs => readNumber UInt32.size 16 cs
  | '0' :: cs => readNumber UInt32.size 8 ('0' :: cs)
  | cs => readNumber UInt32.size 10 cs

/-- One to `limit` numbers with dots between them. -/
def readParts : (limit : Nat) → List Char → Option (List Nat × List Char)
  | 0, _ => none
  | limit + 1, cs => do
    let (n, cs) ← readPart cs
    match readChar '.' cs with
    | none => return ([n], cs)
    | some cs =>
      let (ns, cs) ← readParts limit cs
      return (n :: ns, cs)

end Net

namespace Ipv4

/-- The octets of numbers of which the last fills `room` less one octet for each before it. -/
def partOctets? : (room : Nat) → List Nat → Option Bytes
  | _, [] => none
  | room, [n] => if n < Bytes.capacity room then some (Bytes.bigEndian room n) else none
  | room + 1, n :: ns =>
    if n < 256 then (partOctets? room ns).map (UInt8.ofNat n :: ·) else none
  | 0, _ => none

/-- The address that one to four numbers with dots between them stand for. -/
def ofDotted? (s : String) : Option Ipv4 := do
  let parts ← Net.whole (Net.readParts 4 s.toList)
  let octets ← partOctets? 4 parts
  ofOctets? octets

end Ipv4

namespace SocketAddress

/-- The last colon of a text splits it into a host and a port. -/
def splitHost? (s : String) : Option (String × String) :=
  let back := s.toList.reverse
  match back.dropWhile (· != ':') with
  | _ :: host =>
    let port := back.takeWhile (· != ':')
    some (String.ofList host.reverse, String.ofList port.reverse)
  | [] => none

/-- The address that a text names without any look-up: a socket address, or a host spelled as
numbers and a port. -/
def ofHostText? (s : String) : Option SocketAddress :=
  match ofText? s with
  | some address => some address
  | none => do
    let (host, port) ← splitHost? s
    let ip ← Ipv4.ofDotted? host
    let port ← Text.read? 65536 port
    return .v4 ip (UInt16.ofNat port)

end SocketAddress
end Parley
