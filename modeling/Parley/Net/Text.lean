import Parley.Net.Socket
import Parley.Text.Digits
import Parley.Text.Hex
/-!
The text of internet and socket addresses.

Version 4 is four decimal numbers. Version 6 is eight groups in lowercase hexadecimal without
leading zeros, the first of its longest runs of two or more zero groups written as `::`, and an
address that carries one of version 4 ends in it. A socket address puts version 6 in brackets,
with its scope after a percent sign unless that is zero.

Reading takes every spelling: leading zeros in a group, a port or a scope (not in a version 4
number), either letter case, `::` for any number of zero groups from one up, and a version 4
address as the last two groups.
-/
namespace Parley

/-! ### Writing -/

namespace Ipv4

/-- Four decimal numbers with dots between them. -/
def text (ip : Ipv4) : String :=
  s!"{ip.a.toNat}.{ip.b.toNat}.{ip.c.toNat}.{ip.d.toNat}"

end Ipv4

namespace Ipv6

/-- The groups in lowercase hexadecimal with colons between them. -/
def groupsText (gs : List Nat) : String :=
  ":".intercalate (gs.map fun g => String.ofList (Nat.toDigits 16 g))

/-- How many zeros a list starts with. -/
def leadingZeros (gs : List Nat) : Nat := (gs.takeWhile (· == 0)).length

/-- The start and the length of the longest run of zero groups, the first one of that length. -/
def zeroRun (gs : List Nat) : Nat × Nat :=
  (List.range gs.length).foldl
    (fun best i =>
      let n := leadingZeros (gs.drop i)
      if best.2 < n then (i, n) else best)
    (0, 0)

/-- The text of an address. -/
def text (ip : Ipv6) : String :=
  match ip.mapped? with
  | some v4 => "::ffff:" ++ v4.text
  | none =>
    let gs := ip.groups
    let (start, length) := zeroRun gs
    if 1 < length then
      groupsText (gs.take start) ++ "::" ++ groupsText (gs.drop (start + length))
    else groupsText gs

end Ipv6

namespace IpAddress

/-- The text of an address. -/
def text : IpAddress → String
  | .v4 ip => ip.text
  | .v6 ip => ip.text

end IpAddress

namespace SocketAddress

/-- The text of a socket address. -/
def text : SocketAddress → String
  | .v4 ip port => s!"{ip.text}:{port.toNat}"
  | .v6 ip port _ scope =>
    if scope = 0 then s!"[{ip.text}]:{port.toNat}"
    else s!"[{ip.text}%{scope.toNat}]:{port.toNat}"

end SocketAddress

/-! ### Reading

A reader takes a run of characters from the front and hands back what is left. -/

namespace Net

/-- The value of a digit in the given base. -/
def digit? (radix : Nat) (c : Char) : Option Nat := (Text.Hex.value? c).filter (· < radix)

/-- The values of the digits in front and what follows them. -/
def digits (radix : Nat) (cs : List Char) : List Nat × List Char :=
  let (ds, rest) := cs.span fun c => (digit? radix c).isSome
  (ds.filterMap (digit? radix), rest)

/-- One octet of a version 4 address: up to three digits, no leading zero. -/
def readOctet (cs : List Char) : Option (UInt8 × List Char) :=
  let (ds, rest) := digits 10 cs
  let n := Text.numberUpTo 256 10 ds
  if ds = [] ∨ (ds.head? = some 0 ∧ 1 < ds.length) ∨ 256 ≤ n then none
  else some (UInt8.ofNat n, rest)

/-- One given character. -/
def readChar (c : Char) : List Char → Option (List Char)
  | d :: rest => if d = c then some rest else none
  | [] => none

/-- A version 4 address. -/
def readIpv4 (cs : List Char) : Option (Ipv4 × List Char) := do
  let (a, cs) ← readOctet cs
  let cs ← readChar '.' cs
  let (b, cs) ← readOctet cs
  let cs ← readChar '.' cs
  let (c, cs) ← readOctet cs
  let cs ← readChar '.' cs
  let (d, cs) ← readOctet cs
  return (⟨a, b, c, d⟩, cs)

/-- One group of a version 6 address: up to four hexadecimal digits. -/
def readGroup (cs : List Char) : Option (Nat × List Char) :=
  let (ds, rest) := digits 16 cs
  if ds = [] ∨ 4 < ds.length then none else some (Text.number 16 ds, rest)

/-- Groups in front: their values, whether a version 4 address stands for the last two, and what
follows. -/
structure Groups where
  values : List Nat
  endsInIpv4 : Bool
  rest : List Char

/-- At most `limit` groups with colons between them; `separated` asks for a colon before the first
one too. -/
def readGroups : (limit : Nat) → (separated : Bool) → List Char → Groups
  | 0, _, cs => ⟨[], false, cs⟩
  | limit + 1, separated, cs =>
    match if separated then readChar ':' cs else some cs with
    | none => ⟨[], false, cs⟩
    | some start =>
      match if limit = 0 then none else readIpv4 start with
      | some (ip, rest) =>
        ⟨[ip.a.toNat * 256 + ip.b.toNat, ip.c.toNat * 256 + ip.d.toNat], true, rest⟩
      | none =>
        match readGroup start with
        | some (g, rest) =>
          let more := readGroups limit true rest
          ⟨g :: more.values, more.endsInIpv4, more.rest⟩
        | none => ⟨[], false, cs⟩

/-- A version 6 address: eight groups, or fewer around a `::` that stands for at least one. -/
def readIpv6 (cs : List Char) : Option (Ipv6 × List Char) := do
  let head := readGroups 8 false cs
  if head.values.length = 8 then
    let ip ← Ipv6.ofGroups? head.values
    return (ip, head.rest)
  else
    guard (!head.endsInIpv4)
    let cs ← readChar ':' head.rest
    let cs ← readChar ':' cs
    let tail := readGroups (7 - head.values.length) false cs
    let zeros := List.replicate (8 - head.values.length - tail.values.length) 0
    let ip ← Ipv6.ofGroups? (head.values ++ zeros ++ tail.values)
    return (ip, tail.rest)

/-- A number below `limit` with any number of leading zeros. -/
def readNumber (limit radix : Nat) (cs : List Char) : Option (Nat × List Char) :=
  let (ds, rest) := digits radix cs
  let n := Text.numberUpTo limit radix ds
  if ds = [] ∨ limit ≤ n then none else some (n, rest)

/-- A colon and a port. -/
def readPort (cs : List Char) : Option (UInt16 × List Char) := do
  let cs ← readChar ':' cs
  let (n, cs) ← readNumber UInt16.size 10 cs
  return (UInt16.ofNat n, cs)

/-- A percent sign and a scope. -/
def readScope (cs : List Char) : Option (UInt32 × List Char) := do
  let cs ← readChar '%' cs
  let (n, cs) ← readNumber UInt32.size 10 cs
  return (UInt32.ofNat n, cs)

/-- A socket address of version 4. -/
def readSocketV4 (cs : List Char) : Option (SocketAddress × List Char) := do
  let (ip, cs) ← readIpv4 cs
  let (port, cs) ← readPort cs
  return (.v4 ip port, cs)

/-- A socket address of version 6. -/
def readSocketV6 (cs : List Char) : Option (SocketAddress × List Char) := do
  let cs ← readChar '[' cs
  let (ip, cs) ← readIpv6 cs
  let (scope, cs) := (readScope cs).getD (0, cs)
  let cs ← readChar ']' cs
  let (port, cs) ← readPort cs
  return (.v6 ip port 0 scope, cs)

/-- The value of a reader that leaves nothing over. -/
def whole {α : Type} : Option (α × List Char) → Option α
  | some (a, []) => some a
  | _ => none

end Net

namespace IpAddress

/-- The address that a text spells. -/
def ofText? (s : String) : Option IpAddress :=
  match Net.whole (Net.readIpv4 s.toList) with
  | some ip => some (.v4 ip)
  | none => (Net.whole (Net.readIpv6 s.toList)).map .v6

end IpAddress

namespace SocketAddress

/-- The socket address that a text spells. -/
def ofText? (s : String) : Option SocketAddress :=
  match Net.whole (Net.readSocketV4 s.toList) with
  | some address => some address
  | none => Net.whole (Net.readSocketV6 s.toList)

end SocketAddress
end Parley
