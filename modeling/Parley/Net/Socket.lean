import Parley.Net.Ip
/-!
Socket addresses: an internet address and a port.
-/
namespace Parley

/-- Where a datagram goes to or comes from. A version 6 address also carries its flow
information and the scope in which it is meant. -/
inductive SocketAddress where
  | v4 (ip : Ipv4) (port : UInt16)
  | v6 (ip : Ipv6) (port : UInt16) (flow scope : UInt32)
  deriving DecidableEq

namespace SocketAddress

/-- The socket address of a plain address, without flow information or scope. -/
def of : IpAddress → UInt16 → SocketAddress
  | .v4 ip, port => .v4 ip port
  | .v6 ip, port => .v6 ip port 0 0

/-- The internet address. -/
def ip : SocketAddress → IpAddress
  | .v4 ip _ => .v4 ip
  | .v6 ip _ _ _ => .v6 ip

/-- The port. -/
def port : SocketAddress → UInt16
  | .v4 _ port => port
  | .v6 _ port _ _ => port

/-- Which version the address is of. -/
def isV4 (address : SocketAddress) : Bool := address.ip.isV4

/-- The address without flow information and scope, which not every format carries. -/
def plain (address : SocketAddress) : SocketAddress := of address.ip address.port

end SocketAddress
end Parley
