import Parley.Bytes
/-!
Padded base64 in the standard alphabet.

Three octets become four symbols, and a last group of one or two octets is filled up with `=`.
Decoding is strict: the padding has to be there, nothing may follow it, and the bits that it cuts
off have to be zero. So every string of octets has exactly one text.
-/
namespace Parley.Base64

/-- The symbol of a six-bit value. -/
def symbol (v : Nat) : Char :=
  if v < 26 then Char.ofNat (v + 65)
  else if v < 52 then Char.ofNat (v + 71)
  else if v < 62 then Char.ofNat (v - 4)
  else if v = 62 then '+'
  else '/'

/-- The six-bit value of a symbol. -/
def value? (c : Char) : Option Nat :=
  let n := c.toNat
  if 65 ≤ n ∧ n ≤ 90 then some (n - 65)
  else if 97 ≤ n ∧ n ≤ 122 then some (n - 71)
  else if 48 ≤ n ∧ n ≤ 57 then some (n + 4)
  else if c = '+' then some 62
  else if c = '/' then some 63
  else none

theorem value?_symbol {v : Nat} (h : v < 64) : value? (symbol v) = some v := by
  have all : ∀ v : Fin 64, value? (symbol v) = some v.val := by decide
  exact all ⟨v, h⟩

/-- The symbols of a string of octets. -/
def encode : Bytes → List Char
  | a :: b :: c :: rest =>
    symbol (a.toNat / 4) :: symbol (a.toNat % 4 * 16 + b.toNat / 16) ::
      symbol (b.toNat % 16 * 4 + c.toNat / 64) :: symbol (c.toNat % 64) :: encode rest
  | [a, b] =>
    [symbol (a.toNat / 4), symbol (a.toNat % 4 * 16 + b.toNat / 16), symbol (b.toNat % 16 * 4), '=']
  | [a] => [symbol (a.toNat / 4), symbol (a.toNat % 4 * 16), '=', '=']
  | [] => []

/-- The octets of the remaining groups, behind those read so far, which are in reverse order. -/
def decodeFrom? (sofar : Bytes) : List Char → Option Bytes
  | [] => some sofar.reverse
  | [w, x, '=', '='] => do
    let w ← value? w
    let x ← value? x
    guard (x % 16 = 0)
    return (UInt8.ofNat (w * 4 + x / 16) :: sofar).reverse
  | [w, x, y, '='] => do
    let w ← value? w
    let x ← value? x
    let y ← value? y
    guard (y % 4 = 0)
    return (UInt8.ofNat (x % 16 * 16 + y / 4) :: UInt8.ofNat (w * 4 + x / 16) :: sofar).reverse
  | w :: x :: y :: z :: rest => do
    let w ← value? w
    let x ← value? x
    let y ← value? y
    let z ← value? z
    decodeFrom? (UInt8.ofNat (y % 4 * 64 + z) :: UInt8.ofNat (x % 16 * 16 + y / 4) ::
      UInt8.ofNat (w * 4 + x / 16) :: sofar) rest
  | _ => none

/-- The octets that symbols stand for. -/
def decode? (cs : List Char) : Option Bytes := decodeFrom? [] cs

/-- The text of a string of octets. -/
def text (bs : Bytes) : String := String.ofList (encode bs)

/-- The octets that a text stands for. -/
def ofText? (s : String) : Option Bytes := decode? s.toList

end Parley.Base64
