import Parley.Text.Hex
import Parley.Text.Utf8
/-!
String literals of JSON.

`escape` writes the inside of a literal: a quote, a backslash and the control characters are
escaped, with the short form where there is one, and all else stands for itself. `unescape?` reads
the inside of a literal back, from octets: every escape is taken, a surrogate only as half of a
pair, and the result has to be UTF-8. `scan` finds where a literal ends without reading it.
-/
namespace Parley.Json

/-- The quote that ends a literal. -/
def quote : UInt8 := 0x22

/-- The backslash that starts an escape. -/
def backslash : UInt8 := 0x5c

/-- The letter of an escape by number. -/
def letterU : UInt8 := 0x75

/-! ### Writing -/

/-- One character as it stands inside a literal. -/
def escapeChar (c : Char) : List Char :=
  if c = '"' then ['\\', '"']
  else if c = '\\' then ['\\', '\\']
  else if 0x20 ≤ c.toNat then [c]
  else if c.toNat = 0x08 then ['\\', 'b']
  else if c.toNat = 0x09 then ['\\', 't']
  else if c.toNat = 0x0a then ['\\', 'n']
  else if c.toNat = 0x0c then ['\\', 'f']
  else if c.toNat = 0x0d then ['\\', 'r']
  else ['\\', 'u', '0', '0', Text.Hex.digit (c.toNat / 16), Text.Hex.digit (c.toNat % 16)]

/-- The inside of the literal of a text. -/
def escape (s : String) : String := String.ofList (s.toList.flatMap escapeChar)

/-! ### Finding the end -/

/-- The value of a hexadecimal digit. -/
def hexValue? (b : UInt8) : Option Nat := Text.Hex.value? (Char.ofNat b.toNat)

/-- The number that four hexadecimal digits spell. -/
def unit? (a b c d : UInt8) : Option Nat := do
  let a ← hexValue? a
  let b ← hexValue? b
  let c ← hexValue? c
  let d ← hexValue? d
  return ((a * 16 + b) * 16 + c) * 16 + d

/-- What an escape of a single letter stands for. -/
def shortEscape? (b : UInt8) : Option UInt8 :=
  if b = 0x22 then some 0x22
  else if b = 0x5c then some 0x5c
  else if b = 0x2f then some 0x2f
  else if b = 0x62 then some 0x08
  else if b = 0x66 then some 0x0c
  else if b = 0x6e then some 0x0a
  else if b = 0x72 then some 0x0d
  else if b = 0x74 then some 0x09
  else none

/-- The inside of the literal in front, after `sofar` in reverse order, and what follows its closing
quote. Escapes are checked for their form only, and control characters have no place. -/
def scanFrom (sofar : Bytes) : Bytes → Option (Bytes × Bytes)
  | [] => none
  | b :: rest =>
    if b = quote then some (sofar.reverse, rest)
    else if b = backslash then
      match rest with
      | [] => none
      | e :: rest =>
        if e = letterU then
          match rest with
          | h :: i :: j :: k :: rest =>
            if (unit? h i j k).isSome then
              scanFrom (k :: j :: i :: h :: e :: b :: sofar) rest
            else none
          | _ => none
        else if (shortEscape? e).isSome then scanFrom (e :: b :: sofar) rest
        else none
    else if b < 0x20 then none
    else scanFrom (b :: sofar) rest

/-- The inside of the literal whose opening quote has been read, and what follows it. -/
def scan (bs : Bytes) : Option (Bytes × Bytes) := scanFrom [] bs

/-! ### Reading -/

/-- The octets that the inside of a literal stands for, after `sofar` in reverse order. -/
def unescapeFrom (sofar : Bytes) : Bytes → Option Bytes
  | [] => some sofar.reverse
  | b :: rest =>
    if b = backslash then
      match rest with
      | [] => none
      | e :: rest =>
        if e = letterU then
          match rest with
          | h :: i :: j :: k :: rest =>
            match unit? h i j k with
            | none => none
            | some high =>
              if high < 0xd800 ∨ 0xdfff < high then
                unescapeFrom ((String.utf8EncodeChar (Char.ofNat high)).reverse ++ sofar) rest
              else
                match rest with
                | s :: u :: h :: i :: j :: k :: rest =>
                  match unit? h i j k with
                  | none => none
                  | some low =>
                    if s = backslash ∧ u = letterU ∧ high < 0xdc00 ∧
                        0xdc00 ≤ low ∧ low ≤ 0xdfff then
                      let c := Char.ofNat (0x10000 + (high - 0xd800) * 0x400 + (low - 0xdc00))
                      unescapeFrom ((String.utf8EncodeChar c).reverse ++ sofar) rest
                    else none
                | _ => none
          | _ => none
        else
          match shortEscape? e with
          | some c => unescapeFrom (c :: sofar) rest
          | none => none
    else unescapeFrom (b :: sofar) rest

/-- The text that the inside of a literal stands for. -/
def unescape? (body : Bytes) : Option String :=
  (unescapeFrom [] body).bind Text.ofOctets?

end Parley.Json
