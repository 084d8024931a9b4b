import Parley.Bytes
/-!
Internet addresses and the address classes that a negotiation looks at.

An address is private when only its own network can reach it: the private, shared and link-local
ranges of version 4, and the link-local and unique-local ranges of version 6.
-/
namespace Parley

/-- An address of version 4. -/
structure Ipv4 where
  a : UInt8
  b : UInt8
  c : UInt8
  d : UInt8
  deriving DecidableEq

/-- An address of version 6, as sixteen octets. -/
structure Ipv6 where
  octets : Bytes
  length_octets : octets.length = 16
  deriving DecidableEq

/-- An address of either version. -/
inductive IpAddress where
  | v4 (ip : Ipv4)
  | v6 (ip : Ipv6)
  deriving DecidableEq

namespace Ipv4

/-- The octets in the order in which they are sent. -/
def octets (ip : Ipv4) : Bytes := [ip.a, ip.b, ip.c, ip.d]

/-- The address of four octets. -/
def ofOctets? : Bytes → Option Ipv4
  | [a, b, c, d] => some ⟨a, b, c, d⟩
  | _ => none

/-- The address that stands for no address. -/
def unspecified : Ipv4 := ⟨0, 0, 0, 0⟩

/-- The usual loopback address. -/
def localhost : Ipv4 := ⟨127, 0, 0, 1⟩

/-- The block 127.0.0.0/8. -/
def isLoopback (ip : Ipv4) : Bool := ip.a == 127

/-- The blocks 10.0.0.0/8, 172.16.0.0/12, 192.168.0.0/16, 169.254.0.0/16 and 100.64.0.0/10. -/
def isPrivate (ip : Ipv4) : Bool :=
  ip.a == 10 || (ip.a == 172 && ip.b &&& 0xf0 == 16) || (ip.a == 192 && ip.b == 168) ||
    (ip.a == 169 && ip.b == 254) || (ip.a == 100 && ip.b &&& 0xc0 == 64)

end Ipv4

namespace Ipv6

/-- The address of sixteen octets. -/
def ofOctets? (bs : Bytes) : Option Ipv6 :=
  if h : bs.length = 16 then some ⟨bs, h⟩ else none

/-- The numbers that consecutive pairs of octets spell. -/
def pairs : Bytes → List Nat
  | hi :: lo :: rest => (hi.toNat * 256 + lo.toNat) :: pairs rest
  | _ => []

/-- The eight groups of an address. -/
def groups (ip : Ipv6) : List Nat := pairs ip.octets

/-- The address of eight groups, each below 65536. -/
def ofGroups? (gs : List Nat) : Option Ipv6 := ofOctets? (gs.flatMap (Bytes.bigEndian 2))

/-- The address that stands for no address. -/
def unspecified : Ipv6 := ⟨List.replicate 16 0, rfl⟩

/-- The loopback address. -/
def loopback : Ipv6 := ⟨List.replicate 15 0 ++ [1], rfl⟩

/-- The version 4 address that this one carries in its last four octets, when the others mark it
as doing so. -/
def mapped? (ip : Ipv6) : Option Ipv4 :=
  if ip.octets.take 12 = List.replicate 10 0 ++ [0xff, 0xff] then
    Ipv4.ofOctets? (ip.octets.drop 12)
  else none

/-- The blocks fe80::/10 and fc00::/7. -/
def isPrivate (ip : Ipv6) : Bool :=
  match ip.octets with
  | hi :: lo :: _ => (hi == 0xfe && lo &&& 0xc0 == 0x80) || hi &&& 0xfe == 0xfc
  | _ => false

end Ipv6

namespace IpAddress

/-- An address that reaches only the machine it is used on. -/
def isLoopback : IpAddress → Bool
  | .v4 ip => ip.isLoopback
  | .v6 ip => ip == Ipv6.loopback

/-- The address that stands for no address. -/
def isUnspecified : IpAddress → Bool
  | .v4 ip => ip == Ipv4.unspecified
  | .v6 ip => ip == Ipv6.unspecified

/-- An address that only its own network can reach. -/
def isPrivate : IpAddress → Bool
  | .v4 ip => ip.isPrivate
  | .v6 ip => ip.isPrivate

/-- The two versions are told apart when addresses are paired. -/
def isV4 : IpAddress → Bool
  | .v4 _ => true
  | .v6 _ => false

end IpAddress
end Parley
