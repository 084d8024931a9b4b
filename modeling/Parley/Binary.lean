import Parley.Text.Utf8
/-!
The binary format of records.

Numbers are little-endian and of fixed width, a length is a number of eight octets, a choice
between alternatives is a number of four, and a truth value or the presence of an optional part is
one octet that is 0 or 1. A reader takes what it wants from the front and hands back what is left.
-/
namespace Parley.Binary

/-! ### Writing -/

/-- A number of one octet. -/
def putBool (b : Bool) : Bytes := [if b then 1 else 0]

/-- A number of two octets. -/
def putUInt16 (n : UInt16) : Bytes := Bytes.littleEndian 2 n.toNat

/-- A number of four octets. -/
def putUInt32 (n : UInt32) : Bytes := Bytes.littleEndian 4 n.toNat

/-- A length. -/
def putLength (n : Nat) : Bytes := Bytes.littleEndian 8 n

/-- Octets behind their number. -/
def putBytes (bs : Bytes) : Bytes := putLength bs.length ++ bs

/-- A text as octets. -/
def putText (s : String) : Bytes := putBytes (Text.octets s)

/-- An optional part. -/
def putOption {α : Type} (put : α → Bytes) : Option α → Bytes
  | none => putBool false
  | some a => putBool true ++ put a

/-! ### Reading -/

/-- A reader: a value and the octets behind it. -/
abbrev Get (α : Type) := Bytes → Option (α × Bytes)

/-- A truth value. -/
def getBool : Get Bool
  | b :: bs => if b = 0 then some (false, bs) else if b = 1 then some (true, bs) else none
  | [] => none

/-- A number of the given width. -/
def getNat (width : Nat) : Get Nat := fun bs =>
  (Bytes.take? width bs).map fun (front, rest) => (Bytes.ofLittleEndian front, rest)

/-- A number of two octets. -/
def getUInt16 : Get UInt16 := fun bs => (getNat 2 bs).map fun (n, rest) => (UInt16.ofNat n, rest)

/-- A number of four octets. -/
def getUInt32 : Get UInt32 := fun bs => (getNat 4 bs).map fun (n, rest) => (UInt32.ofNat n, rest)

/-- Octets behind their number. -/
def getBytes : Get Bytes := fun bs => (getNat 8 bs).bind fun (n, rest) => Bytes.take? n rest

/-- A text as octets. -/
def getText : Get String := fun bs =>
  (getBytes bs).bind fun (front, rest) => (Text.ofOctets? front).map fun s => (s, rest)

/-- An optional part. -/
def getOption {α : Type} (get : Get α) : Get (Option α) := fun bs =>
  match getBool bs with
  | none => none
  | some (false, rest) => some (none, rest)
  | some (true, rest) => (get rest).map fun (a, rest) => (some a, rest)

end Parley.Binary
