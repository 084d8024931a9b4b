import Parley.Json.Literal
import Parley.Text.Digits
/-!
JSON documents that are read.

A reader takes some members of an object and skips the others, and of what it skips only the form
is checked. So reading has two steps: `Raw.ofBytes?` checks the form of a whole document and keeps
numbers and literals as they stand, to any depth; `Raw.text?` and `Raw.nat?` say what a literal or
a number means, where it is wanted.
-/
namespace Parley.Json

/-- A well-formed document whose literals and numbers have not been interpreted. -/
inductive Raw where
  | null
  | bool (value : Bool)
  | number (digits : Bytes)
  | string (body : Bytes)
  | array (items : List Raw)
  | object (members : List (Bytes × Raw))

/-! ### Tokens -/

/-- The four blank characters of JSON. -/
def isSpace (b : UInt8) : Bool := b == 0x20 || b == 0x09 || b == 0x0a || b == 0x0d

/-- What follows the blanks in front. -/
def skipSpace (bs : Bytes) : Bytes := bs.dropWhile isSpace

/-- A decimal digit. -/
def isDigit (b : UInt8) : Bool := 0x30 ≤ b && b ≤ 0x39

/-- One or more digits. -/
def readDigits (bs : Bytes) : Option (Bytes × Bytes) :=
  match bs.span isDigit with
  | ([], _) => none
  | (ds, rest) => some (ds, rest)

/-- Digits without a leading zero. -/
def readWhole (bs : Bytes) : Option (Bytes × Bytes) :=
  match readDigits bs with
  | some (0x30 :: _ :: _, _) => none
  | digits => digits

/-- Nothing, or a point and digits. -/
def readFraction : Bytes → Option (Bytes × Bytes)
  | 0x2e :: bs => (readDigits bs).map fun (ds, rest) => (0x2e :: ds, rest)
  | bs => some ([], bs)

/-- A plus or minus sign, or nothing. -/
def readSign : Bytes → Bytes × Bytes
  | 0x2b :: bs => ([0x2b], bs)
  | 0x2d :: bs => ([0x2d], bs)
  | bs => ([], bs)

/-- Nothing, or the letter E in either case, a sign or none, and digits. -/
def readExponent : Bytes → Option (Bytes × Bytes)
  | [] => some ([], [])
  | b :: bs =>
    if b = 0x65 ∨ b = 0x45 then
      let (sign, bs) := readSign bs
      (readDigits bs).map fun (ds, rest) => (b :: sign ++ ds, rest)
    else some ([], b :: bs)

/-- A minus sign, or nothing. -/
def readMinus : Bytes → Bytes × Bytes
  | 0x2d :: bs => ([0x2d], bs)
  | bs => ([], bs)

/-- A number. -/
def readNumber (bs : Bytes) : Option (Bytes × Bytes) := do
  let (minus, bs) := readMinus bs
  let (whole, bs) ← readWhole bs
  let (fraction, bs) ← readFraction bs
  let (exponent, bs) ← readExponent bs
  return (minus ++ whole ++ fraction ++ exponent, bs)

/-- What follows the given octets, when they stand in front. -/
def expect : Bytes → Bytes → Option Bytes
  | [], bs => some bs
  | w :: word, b :: bs => if b = w then expect word bs else none
  | _ :: _, [] => none

/-! ### Documents -/

mutual

/-- The value in front and what follows it. `fuel` bounds the depth of the recursion. -/
def readValue : (fuel : Nat) → Bytes → Option (Raw × Bytes)
  | 0, _ => none
  | fuel + 1, bs =>
    match skipSpace bs with
    | [] => none
    | b :: bs =>
      if b = quote then
        (scan bs).map fun (body, rest) => (.string body, rest)
      else if b = 0x5b then
        match skipSpace bs with
        | 0x5d :: rest => some (.array [], rest)
        | bs => (readItems fuel bs).map fun (items, rest) => (.array items, rest)
      else if b = 0x7b then
        match skipSpace bs with
        | 0x7d :: rest => some (.object [], rest)
        | bs => (readMembers fuel bs).map fun (members, rest) => (.object members, rest)
      else if b = 0x6e then
        (expect [0x75, 0x6c, 0x6c] bs).map fun rest => (.null, rest)
      else if b = 0x74 then
        (expect [0x72, 0x75, 0x65] bs).map fun rest => (.bool true, rest)
      else if b = 0x66 then
        (expect [0x61, 0x6c, 0x73, 0x65] bs).map fun rest => (.bool false, rest)
      else
        (readNumber (b :: bs)).map fun (digits, rest) => (.number digits, rest)

/-- The items up to the closing bracket, at least one. -/
def readItems : (fuel : Nat) → Bytes → Option (List Raw × Bytes)
  | 0, _ => none
  | fuel + 1, bs =>
    match readValue fuel bs with
    | none => none
    | some (item, bs) =>
      match skipSpace bs with
      | 0x2c :: bs => (readItems fuel bs).map fun (items, rest) => (item :: items, rest)
      | 0x5d :: rest => some ([item], rest)
      | _ => none

/-- The members up to the closing brace, at least one. -/
def readMembers : (fuel : Nat) → Bytes → Option (List (Bytes × Raw) × Bytes)
  | 0, _ => none
  | fuel + 1, bs =>
    match skipSpace bs with
    | 0x22 :: bs =>
      match scan bs with
      | none => none
      | some (key, bs) =>
        match skipSpace bs with
        | 0x3a :: bs =>
          match readValue fuel bs with
          | none => none
          | some (value, bs) =>
            match skipSpace bs with
            | 0x2c :: bs =>
              (readMembers fuel bs).map fun (members, rest) => ((key, value) :: members, rest)
            | 0x7d :: rest => some ([(key, value)], rest)
            | _ => none
        | _ => none
    | _ => none

end

namespace Raw

/-- The document that octets spell, with blanks allowed around it. Every two steps of the recursion
take an octet, so the fuel does not run out. -/
def ofBytes? (bs : Bytes) : Option Raw :=
  match readValue (2 * bs.length + 2) bs with
  | some (value, rest) => if skipSpace rest = [] then some value else none
  | none => none

/-- The text of a literal. -/
def text? : Raw → Option String
  | .string body => unescape? body
  | _ => none

/-- The value of a number that is written as digits alone and lies below `limit`. -/
def nat? (limit : Nat) : Raw → Option Nat
  | .number digits => do
    guard (digits.all isDigit)
    let n := Text.numberUpTo limit 10 (digits.map fun b => b.toNat - 0x30)
    if n < limit then some n else none
  | _ => none

/-- The value of an optional member: absence and `null` both mean that there is none. -/
def optional? {α : Type} (read : Raw → Option α) : Option Raw → Option (Option α)
  | none => some none
  | some .null => some none
  | some raw => (read raw).map some

/-- The items of an array, all read the same way. -/
def list? {α : Type} (read : Raw → Option α) : Raw → Option (List α)
  | .array items => items.mapM read
  | _ => none

/-- The members of a record with the given names, in that order, absent ones left open. A record is
an object, whose other members are skipped and none of whose named ones occurs twice, or an array
of the values of the first names. -/
def record? (names : List String) : Raw → Option (List (Option Raw))
  | .array items =>
    if items.length ≤ names.length then
      some (items.map some ++ List.replicate (names.length - items.length) none)
    else none
  | .object members => do
    let named ← members.mapM fun (key, value) => (unescape? key).map fun name => (name, value)
    guard (names.all fun name => (named.filter fun m => m.1 == name).length ≤ 1)
    return names.map fun name => named.lookup name
  | _ => none

end Raw
end Parley.Json
