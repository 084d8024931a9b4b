import Parley.Link.Transaction
import Parley.Net.Socket
/-!
Asking a STUN server for the public address of a socket.

A message is a header of twenty octets (type, length, a fixed cookie, a transaction identifier) and
attributes, each of a type, a length and a value filled up to a multiple of four octets. The answer
is the first attribute that holds the address combined with the cookie and the identifier; an old
server sends the address as it is, which is taken when there is no other.

An answer is read by places in its octets, and its lengths are those that its sender names. A
reading comes to nothing where it reaches outside of the octets; `isSome_readResponse` says that it
never does, and `parseResponse` is what it comes to.
-/
namespace Parley.Stun

/-- The fixed octets by which a message is recognised. -/
def cookie : Bytes := [0x21, 0x12, 0xa4, 0x42]

/-- The type of a request for the address. -/
def bindingRequest : Nat := 0x0001

/-- The type of an answer to it. -/
def bindingSuccess : Nat := 0x0101

/-- The attribute with the address as it is. -/
def mappedAddress : Nat := 0x0001

/-- The attribute with the address combined with cookie and identifier. -/
def xorMappedAddress : Nat := 0x0020

/-- How many octets the header of a message has. -/
def headerSize : Nat := 20

/-- Why a datagram gives no address. -/
inductive Error where
  | messageTooShort
  | invalidMagicCookie
  | unexpectedType (type : Nat)
  | transactionMismatch
  | noMappedAddress
  deriving DecidableEq

/-- A number below 65536 as four hexadecimal digits. -/
def fourDigits (n : Nat) : String :=
  let ds := Nat.toDigits 16 n
  String.ofList (List.replicate (4 - ds.length) '0' ++ ds)

/-- The wording of an error. -/
def Error.message : Error → String
  | .messageTooShort => "message too short"
  | .invalidMagicCookie => "invalid magic cookie"
  | .unexpectedType type => "unexpected message type 0x" ++ fourDigits type
  | .transactionMismatch => "transaction id mismatch"
  | .noMappedAddress => "no mapped address in response"

/-- Whether a datagram has the form of a message: two zero bits in front and the cookie in its
place. -/
def isMessage (datagram : Bytes) : Bool :=
  match datagram with
  | first :: rest =>
    19 ≤ rest.length && first &&& 0xc0 == 0 && (rest.drop 3).take 4 == cookie
  | [] => false

/-- The request with the given identifier. -/
def request (id : TransactionId) : Bytes :=
  Bytes.bigEndian 2 bindingRequest ++ Bytes.bigEndian 2 0 ++ cookie ++ id.bytes

/-! ### Reading by places -/

/-- What a reading comes to: nothing when it reaches outside of the octets. -/
abbrev Reading (α : Type) := Option α

/-- The octets at a place. -/
def slice? (bs : Bytes) (start length : Nat) : Reading Bytes :=
  if start + length ≤ bs.length then some ((bs.drop start).take length) else none

/-- The number of two octets at a place. -/
def number? (bs : Bytes) (start : Nat) : Reading Nat := (slice? bs start 2).map Bytes.ofBigEndian

theorem slice?_of_le {bs : Bytes} {start length : Nat} (h : start + length ≤ bs.length) :
    slice? bs start length = some ((bs.drop start).take length) := if_pos h

theorem number?_of_le {bs : Bytes} {start : Nat} (h : start + 2 ≤ bs.length) :
    number? bs start = some (Bytes.ofBigEndian ((bs.drop start).take 2)) := by
  rw [number?, slice?_of_le h, Option.map_some]

/-! ### Addresses -/

/-- Octets combined with a key; octets beyond the key stay as they are. -/
def combine : Bytes → Bytes → Bytes
  | k :: key, b :: bs => (b ^^^ k) :: combine key bs
  | _, bs => bs

/-- The address in the value of an attribute, combined with `key`: a family, a port and the octets
of the address. -/
def readAddress (key value : Bytes) : Reading (Option SocketAddress) :=
  if value.length < 4 then some none
  else do
    let port := UInt16.ofNat (Bytes.ofBigEndian (combine (key.take 2) (← slice? value 2 2)))
    let family ← value[1]?
    if family = 1 ∧ 8 ≤ value.length then
      let octets ← slice? value 4 4
      return (Ipv4.ofOctets? (combine key octets)).map fun ip => .v4 ip port
    else if family = 2 ∧ 20 ≤ value.length then
      let octets ← slice? value 4 16
      return (Ipv6.ofOctets? (combine key octets)).map fun ip => .v6 ip port 0 0
    else return none

/-- The value of an attribute is read within its octets. -/
theorem isSome_readAddress (key value : Bytes) : (readAddress key value).isSome = true := by
  unfold readAddress
  split
  · rfl
  · rename_i long
    have family : value[1]? = some value[1] := List.getElem?_eq_getElem (by omega)
    have port : slice? value 2 2 = some ((value.drop 2).take 2) := slice?_of_le (by omega)
    simp only [port, family, Option.pure_def, Option.bind_eq_bind, Option.bind_some]
    split
    · rename_i v4
      rw [slice?_of_le (by omega)]
      rfl
    · split
      · rename_i v6
        rw [slice?_of_le (by omega)]
        rfl
      · rfl

/-- The address in the value of an attribute. -/
def decode? (key value : Bytes) : Option SocketAddress :=
  (readAddress key value).get (isSome_readAddress key value)

theorem readAddress_eq (key value : Bytes) : readAddress key value = some (decode? key value) :=
  (Option.some_get _).symm

/-! ### Attributes -/

/-- How many octets fill a value up to a multiple of four. -/
def padding (length : Nat) : Nat := (4 - length % 4) % 4

/-- The answer when no attribute holds the address in its combined form. -/
def fallBack : Option SocketAddress → Except Error SocketAddress
  | some address => .ok address
  | none => .error .noMappedAddress

/-- Looks through the attributes from `offset` on, as far as they are complete before `finish`.
`mapped` is the first address that was found as it is. -/
def scan (id : TransactionId) (datagram : Bytes) (finish offset : Nat)
    (mapped : Option SocketAddress) : Reading (Except Error SocketAddress) :=
  if offset + 4 ≤ finish then do
    let type ← number? datagram offset
    let length ← number? datagram (offset + 2)
    let start := offset + 4
    if start + length ≤ finish then
      let value ← slice? datagram start length
      let next := start + length + padding length
      if type = xorMappedAddress then
        match ← readAddress (cookie ++ id.bytes) value with
        | some address => return .ok address
        | none => scan id datagram finish next mapped
      else if type = mappedAddress ∧ mapped = none then
        scan id datagram finish next (← readAddress [] value)
      else scan id datagram finish next mapped
    else return fallBack mapped
  else return fallBack mapped
termination_by finish - offset

section Scan
variable {id : TransactionId} {datagram : Bytes} {finish offset : Nat}
  {mapped : Option SocketAddress}

theorem scan_incomplete (h : finish < offset + 4) :
    scan id datagram finish offset mapped = some (fallBack mapped) := by
  rw [scan, if_neg (Nat.not_le.2 h)]
  rfl

/-- What one attribute adds: the answer, or an address to fall back on. -/
theorem scan_attribute {type length : Nat} {value : Bytes}
    (htype : number? datagram offset = some type)
    (hlength : number? datagram (offset + 2) = some length)
    (hvalue : slice? datagram (offset + 4) length = some value)
    (inside : offset + 4 + length ≤ finish) :
    scan id datagram finish offset mapped =
      let next := offset + 4 + length + padding length
      if type = xorMappedAddress then
        match decode? (cookie ++ id.bytes) value with
        | some address => some (.ok address)
        | none => scan id datagram finish next mapped
      else if type = mappedAddress then
        scan id datagram finish next (mapped.or (decode? [] value))
      else scan id datagram finish next mapped := by
  rw [scan, if_pos (by omega)]
  simp only [htype, hlength, Option.pure_def, Option.bind_eq_bind, Option.bind_some, inside,
    if_true, hvalue, readAddress_eq]
  split
  · rfl
  · cases mapped <;> simp

/-- Attributes are read within a datagram that goes on up to `finish`. -/
theorem isSome_scan (hfinish : finish ≤ datagram.length) :
    (scan id datagram finish offset mapped).isSome = true := by
  induction offset, mapped using scan.induct finish with
  | case1 offset mapped header _ ih =>
    obtain ⟨type, htype⟩ : ∃ type, number? datagram offset = some type :=
      ⟨_, number?_of_le (by omega)⟩
    obtain ⟨length, hlength⟩ : ∃ length, number? datagram (offset + 2) = some length :=
      ⟨_, number?_of_le (by omega)⟩
    by_cases inside : offset + 4 + length ≤ finish
    · have next := ih type length
      rw [scan_attribute htype hlength (slice?_of_le (Nat.le_trans inside hfinish)) inside]
      dsimp only
      split
      · split
        · rfl
        · exact next mapped
      · split <;> exact next _
    · rw [scan, if_pos header]
      simp [htype, hlength, inside]
  | case2 offset mapped header =>
    rw [scan_incomplete (Nat.not_le.1 header)]
    rfl
end Scan

/-- The address in the answer to the request with the given identifier. The header may name a
length that is more than there is, or less. -/
def readResponse (id : TransactionId) (datagram : Bytes) : Reading (Except Error SocketAddress) :=
  if datagram.length < headerSize then some (.error .messageTooShort)
  else if !isMessage datagram then some (.error .invalidMagicCookie)
  else do
    let type ← number? datagram 0
    if type ≠ bindingSuccess then return .error (.unexpectedType type)
    if (← slice? datagram 8 12) ≠ id.bytes then return .error .transactionMismatch
    let length ← number? datagram 2
    scan id datagram (min (headerSize + length) datagram.length) headerSize none

/-- Nothing is read outside of a datagram, whatever it is. -/
theorem isSome_readResponse (id : TransactionId) (datagram : Bytes) :
    (readResponse id datagram).isSome = true := by
  unfold readResponse
  split
  · rfl
  · rename_i header
    unfold headerSize at header
    split
    · rfl
    · obtain ⟨type, htype⟩ : ∃ type, number? datagram 0 = some type :=
        ⟨_, number?_of_le (by omega)⟩
      obtain ⟨length, hlength⟩ : ∃ length, number? datagram 2 = some length :=
        ⟨_, number?_of_le (by omega)⟩
      obtain ⟨octets, hoctets⟩ : ∃ octets, slice? datagram 8 12 = some octets :=
        ⟨_, slice?_of_le (by omega)⟩
      simp only [htype, hlength, hoctets, Option.pure_def, Option.bind_eq_bind, Option.bind_some]
      split
      · rfl
      · split
        · rfl
        · exact isSome_scan (Nat.min_le_right ..)

/-- The answer to the request with the given identifier. -/
def parseResponse (id : TransactionId) (datagram : Bytes) : Except Error SocketAddress :=
  (readResponse id datagram).get (isSome_readResponse id datagram)

end Parley.Stun
