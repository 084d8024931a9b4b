import Parley.Proofs.Link.Binding
import Mathlib.Data.List.Basic
/-!
What is read from an answer of a STUN server.

`written` is the form in which an attribute holds an address. The reader of addresses finds the
address in what starts with that form and in nothing else (`decode?_eq_some_iff`). The reader of
messages goes through their attributes one by one, each behind what fills up the one before it
(`scan_attributes`), and `first_decodable_address` is what it answers with.
-/
namespace Parley

/-- The octets in the order in which they are sent. -/
def IpAddress.octets : IpAddress → Bytes
  | .v4 ip => ip.octets
  | .v6 ip => ip.octets

namespace Stun

/-! ### Octets at a place -/

theorem slice?_append (front mid rest : Bytes) :
    slice? (front ++ (mid ++ rest)) front.length mid.length = some mid := by
  simp [slice?]

theorem number?_append (front rest : Bytes) {n : Nat} (h : n < Bytes.capacity 2) :
    number? (front ++ (Bytes.bigEndian 2 n ++ rest)) front.length = some n := by
  have octets := slice?_append front (Bytes.bigEndian 2 n) rest
  rw [Bytes.length_bigEndian] at octets
  rw [number?, octets, Option.map_some, Bytes.ofBigEndian_bigEndian, Nat.mod_eq_of_lt h]

/-! ### Combined octets -/

@[simp] theorem length_combine (key bs : Bytes) : (combine key bs).length = bs.length := by
  induction bs generalizing key with
  | nil => cases key <;> rfl
  | cons b bs ih =>
    cases key with
    | nil => rfl
    | cons k key => rw [combine, List.length_cons, ih, List.length_cons]

/-- What was combined with a key is taken back by combining it with the key again. -/
theorem combine_combine (key bs : Bytes) : combine key (combine key bs) = bs := by
  induction bs generalizing key with
  | nil => cases key <;> rfl
  | cons b bs ih =>
    cases key with
    | nil => rfl
    | cons k key => rw [combine, combine, ih, UInt8.xor_assoc, UInt8.xor_self, UInt8.xor_zero]

/-! ### Addresses -/

/-- The octet that says which version an address is of. -/
def family : IpAddress → UInt8
  | .v4 _ => 1
  | .v6 _ => 2

/-- The form of an address: behind an octet that says nothing its version, and its port and its
octets combined with a key. -/
def written (key : Bytes) (first : UInt8) (ip : IpAddress) (port : UInt16) : Bytes :=
  first :: family ip ::
    (combine (key.take 2) (Bytes.bigEndian 2 port.toNat) ++ combine key ip.octets)

section Address
variable {key : Bytes}

theorem decode?_cons (first version hi lo : UInt8) (octets : Bytes) :
    decode? key (first :: version :: hi :: lo :: octets) =
      let port := UInt16.ofNat (Bytes.ofBigEndian (combine (key.take 2) [hi, lo]))
      if version = 1 ∧ 4 ≤ octets.length then
        (Ipv4.ofOctets? (combine key (octets.take 4))).map fun ip => .v4 ip port
      else if version = 2 ∧ 16 ≤ octets.length then
        (Ipv6.ofOctets? (combine key (octets.take 16))).map fun ip => .v6 ip port 0 0
      else none := by
  have hport : slice? (first :: version :: hi :: lo :: octets) 2 2 = some [hi, lo] :=
    slice?_append [first, version] [hi, lo] octets
  have hoctets (n : Nat) (h : n ≤ octets.length) :
      slice? (first :: version :: hi :: lo :: octets) 4 n = some (octets.take n) :=
    slice?_of_le (by simp only [List.length_cons]; omega)
  refine Option.some.inj ((readAddress_eq _ _).symm.trans ?_)
  rw [readAddress, if_neg (by simp)]
  simp only [hport, List.getElem?_cons_succ, List.getElem?_cons_zero, Option.pure_def,
    Option.bind_eq_bind, Option.bind_some, List.length_cons, Nat.reduceLeDiff]
  split
  · rename_i v4
    rw [hoctets 4 v4.2, Option.bind_some]
  · split
    · rename_i v6
      rw [hoctets 16 v6.2, Option.bind_some]
    · rfl

/-- The address that was written is found again, whatever key it was combined with. -/
theorem decode?_written (first : UInt8) (ip : IpAddress) (port : UInt16) (rest : Bytes) :
    decode? key (written key first ip port ++ rest) = some (.of ip port) := by
  obtain ⟨hi, lo, hport⟩ :
      ∃ hi lo, combine (key.take 2) (Bytes.bigEndian 2 port.toNat) = [hi, lo] :=
    List.length_eq_two.1 ((length_combine ..).trans (Bytes.length_bigEndian ..))
  have back : UInt16.ofNat (Bytes.ofBigEndian (combine (key.take 2) [hi, lo])) = port := by
    rw [← hport, combine_combine, Bytes.ofBigEndian_bigEndian,
      Nat.mod_eq_of_lt (show _ < Bytes.capacity 2 from port.toNat_lt), UInt16.ofNat_toNat]
  have form : written key first ip port ++ rest =
      first :: family ip :: hi :: lo :: (combine key ip.octets ++ rest) := by
    simp [written, hport]
  rw [form, decode?_cons, back]
  cases ip with
  | v4 ip =>
    have octets : (combine key ip.octets ++ rest).take 4 = combine key ip.octets :=
      List.take_left' (length_combine ..)
    rw [if_pos (by simp [family, IpAddress.octets, Ipv4.octets]), IpAddress.octets, octets,
      combine_combine, Ipv4.ofOctets?_octets]
    rfl
  | v6 ip =>
    have octets : (combine key ip.octets ++ rest).take 16 = combine key ip.octets :=
      List.take_left' ((length_combine ..).trans ip.length_octets)
    rw [if_neg (by simp [family]), if_pos (by simp [family, IpAddress.octets, ip.length_octets]),
      IpAddress.octets, octets, combine_combine, Ipv6.ofOctets?_octets]
    rfl

/-- An address is found only in what starts with its form. -/
theorem eq_written_of_decode? {value : Bytes} {address : SocketAddress}
    (h : decode? key value = some address) :
    ∃ first ip port rest, address = .of ip port ∧ value = written key first ip port ++ rest := by
  obtain ⟨first, version, hi, lo, octets, rfl⟩ :
      ∃ first version hi lo octets, value = first :: version :: hi :: lo :: octets := by
    match value, h with
    | first :: version :: hi :: lo :: octets, _ => exact ⟨first, version, hi, lo, octets, rfl⟩
    | [], h | [_], h | [_, _], h | [_, _, _], h => cases h
  rw [decode?_cons] at h
  have back : combine (key.take 2) (Bytes.bigEndian 2
      (UInt16.ofNat (Bytes.ofBigEndian (combine (key.take 2) [hi, lo]))).toNat) = [hi, lo] := by
    have two : (combine (key.take 2) [hi, lo]).length = 2 := length_combine ..
    rw [UInt16.toNat_ofNat_of_lt' (Bytes.ofBigEndian_lt two), Bytes.bigEndian_ofBigEndian two,
      combine_combine]
  dsimp only at h
  split at h
  · rename_i v4
    obtain ⟨ip, hip, rfl⟩ := Option.map_eq_some_iff.1 h
    refine ⟨first, .v4 ip, _, octets.drop 4, rfl, ?_⟩
    rw [written, back, v4.1, IpAddress.octets, ← BindingMessage.octets_of_ipv4 hip, combine_combine]
    simp [family]
  · split at h
    · rename_i v6
      obtain ⟨ip, hip, rfl⟩ := Option.map_eq_some_iff.1 h
      refine ⟨first, .v6 ip, _, octets.drop 16, rfl, ?_⟩
      rw [written, back, v6.1, IpAddress.octets, ← BindingMessage.octets_of_ipv6 hip,
        combine_combine]
      simp [family]
    · cases h

theorem decode?_eq_some_iff {value : Bytes} {address : SocketAddress} :
    decode? key value = some address ↔
      ∃ first ip port rest, address = .of ip port ∧ value = written key first ip port ++ rest := by
  refine ⟨eq_written_of_decode?, ?_⟩
  rintro ⟨first, ip, port, rest, rfl, rfl⟩
  exact decode?_written first ip port rest

end Address

/-! ### Messages -/

/-- One attribute of a message. -/
structure Attribute where
  type : UInt16
  value : Bytes
  /-- What fills the value up to a multiple of four octets. -/
  fill : Bytes
  length_fill : fill.length = padding value.length
  deriving DecidableEq

namespace Attribute

/-- The octets of an attribute. -/
def octets (a : Attribute) : Bytes :=
  Bytes.bigEndian 2 a.type.toNat ++ (Bytes.bigEndian 2 a.value.length ++ (a.value ++ a.fill))

theorem length_octets (a : Attribute) :
    a.octets.length = 4 + a.value.length + padding a.value.length := by
  simp only [octets, List.length_append, Bytes.length_bigEndian, a.length_fill]
  omega

/-- The address that an attribute holds combined with the cookie and an identifier. -/
def combined? (id : TransactionId) (a : Attribute) : Option SocketAddress :=
  if a.type.toNat = xorMappedAddress then decode? (cookie ++ id.bytes) a.value else none

/-- The address that an attribute holds as it is. -/
def plain? (a : Attribute) : Option SocketAddress :=
  if a.type.toNat = mappedAddress then decode? [] a.value else none

end Attribute

/-- The octets of attributes, one behind the other. -/
def octetsOf (as : List Attribute) : Bytes := as.flatMap Attribute.octets

theorem octetsOf_cons (a : Attribute) (as : List Attribute) :
    octetsOf (a :: as) = a.octets ++ octetsOf as := rfl

/-- The header of an answer to a request: its type, a length, the cookie and the identifier. -/
def header (id : TransactionId) (length : Nat) : Bytes :=
  Bytes.bigEndian 2 bindingSuccess ++ (Bytes.bigEndian 2 length ++ (cookie ++ id.bytes))

theorem length_header (id : TransactionId) (length : Nat) :
    (header id length).length = headerSize := by
  simp [header, headerSize, cookie, id.length_bytes]

/-- An answer to a request. -/
def response (id : TransactionId) (as : List Attribute) : Bytes :=
  header id (octetsOf as).length ++ octetsOf as

/-- What there is to find in attributes: the first address in its combined form, or else the first
one as it is. -/
def answer (id : TransactionId) (as : List Attribute) : Except Error SocketAddress :=
  match as.findSome? (Attribute.combined? id) with
  | some address => .ok address
  | none => fallBack (as.findSome? Attribute.plain?)

section Scan
variable {id : TransactionId}

/-- An attribute in its place, with a length that has a form. -/
theorem scan_octets (front rest : Bytes) {a : Attribute} (short : a.value.length < Bytes.capacity 2)
    {finish : Nat} (inside : front.length + a.octets.length ≤ finish)
    (mapped : Option SocketAddress) :
    scan id (front ++ (a.octets ++ rest)) finish front.length mapped =
      match a.combined? id with
      | some address => some (.ok address)
      | none => scan id (front ++ (a.octets ++ rest)) finish (front ++ a.octets).length
        (mapped.or a.plain?) := by
  have places : (front ++ a.octets).length =
      front.length + 4 + a.value.length + padding a.value.length := by
    rw [List.length_append, a.length_octets]
    omega
  have htype : number? (front ++ (a.octets ++ rest)) front.length = some a.type.toNat := by
    have here := number?_append front
      (Bytes.bigEndian 2 a.value.length ++ (a.value ++ a.fill) ++ rest)
      (show _ < Bytes.capacity 2 from a.type.toNat_lt)
    simpa only [Attribute.octets, List.append_assoc] using here
  have hlength : number? (front ++ (a.octets ++ rest)) (front.length + 2) =
      some a.value.length := by
    have here := number?_append (front ++ Bytes.bigEndian 2 a.type.toNat)
      (a.value ++ a.fill ++ rest) short
    simpa only [Attribute.octets, List.append_assoc, List.length_append, Bytes.length_bigEndian]
      using here
  have hvalue : slice? (front ++ (a.octets ++ rest)) (front.length + 4) a.value.length =
      some a.value := by
    have here := slice?_append (front ++ Bytes.bigEndian 2 a.type.toNat ++
      Bytes.bigEndian 2 a.value.length) a.value (a.fill ++ rest)
    simpa only [Attribute.octets, List.append_assoc, List.length_append, Bytes.length_bigEndian,
      Nat.add_assoc, Nat.reduceAdd] using here
  have room : front.length + 4 + a.value.length ≤ finish := by
    rw [a.length_octets] at inside
    omega
  rw [scan_attribute htype hlength hvalue room, places, Attribute.combined?, Attribute.plain?]
  dsimp only
  split
  · rename_i combined
    have other : ¬a.type.toNat = mappedAddress := by
      rw [combined]
      decide
    cases decode? (cookie ++ id.bytes) a.value with
    | some address => rfl
    | none => simp [other]
  · split <;> simp

/-- Attributes one behind the other are looked through in their order, and the first address of
either kind is kept. -/
theorem scan_attributes (front rest : Bytes) {as : List Attribute}
    (short : ∀ a ∈ as, a.value.length < Bytes.capacity 2) (mapped : Option SocketAddress) :
    scan id (front ++ (octetsOf as ++ rest)) (front ++ octetsOf as).length front.length mapped =
      some (match as.findSome? (Attribute.combined? id) with
        | some address => .ok address
        | none => fallBack (mapped.or (as.findSome? Attribute.plain?))) := by
  -- The attributes that were gone through are in `front`, so each is read behind what came before.
  induction as generalizing front mapped with
  | nil =>
    rw [scan_incomplete (by simp [octetsOf])]
    simp
  | cons a as ih =>
    have inside : front.length + a.octets.length ≤ (front ++ (a.octets ++ octetsOf as)).length := by
      simp only [List.length_append]
      omega
    have next := ih (front ++ a.octets) (fun b hb => short b (List.mem_cons_of_mem a hb))
      (mapped.or a.plain?)
    simp only [List.append_assoc] at next
    rw [octetsOf_cons, List.append_assoc,
      scan_octets front (octetsOf as ++ rest) (short a (List.mem_cons_self ..)) inside,
      List.findSome?_cons]
    cases a.combined? id with
    | some address => rfl
    | none =>
      dsimp only
      rw [next, List.findSome?_cons]
      cases a.plain? <;> simp

end Scan

section Response
variable {id : TransactionId} {datagram : Bytes}

/-- Whatever a datagram is, the reading comes to an answer. -/
theorem readResponse_eq (id : TransactionId) (datagram : Bytes) :
    readResponse id datagram = some (parseResponse id datagram) := (Option.some_get _).symm

theorem length_value_le {as : List Attribute} {a : Attribute} (ha : a ∈ as) :
    a.value.length ≤ (octetsOf as).length := by
  have part : a.octets.length ≤ (octetsOf as).length := by
    obtain ⟨front, back, rfl⟩ := List.append_of_mem ha
    simp only [octetsOf, List.flatMap_append, List.flatMap_cons, List.length_append]
    omega
  rw [a.length_octets] at part
  omega

theorem isMessage_header (length : Nat) (rest : Bytes) :
    isMessage (header id length ++ rest) = true := by
  have twelve : id.bytes.length = 12 := id.length_bytes
  have first : (1 : UInt8) &&& 0xc0 = 0 := by decide
  simp [isMessage, header, Bytes.bigEndian, Bytes.littleEndian, bindingSuccess, cookie, twelve,
    first]

/-- Behind its header an answer is looked through as far as the header says. -/
theorem readResponse_header {length : Nat} (hsize : length < Bytes.capacity 2) (rest : Bytes) :
    readResponse id (header id length ++ rest) =
      scan id (header id length ++ rest) (headerSize + min length rest.length) headerSize none := by
  have long : ¬(header id length ++ rest).length < headerSize := by
    rw [List.length_append, length_header]
    omega
  have htype : number? (header id length ++ rest) 0 = some bindingSuccess := by
    have here := number?_append [] (Bytes.bigEndian 2 length ++ (cookie ++ id.bytes) ++ rest)
      (show bindingSuccess < Bytes.capacity 2 by decide)
    simpa only [header, List.append_assoc, List.nil_append, List.length_nil] using here
  have hlength : number? (header id length ++ rest) 2 = some length := by
    have here := number?_append (Bytes.bigEndian 2 bindingSuccess) (cookie ++ id.bytes ++ rest)
      hsize
    simpa only [header, List.append_assoc, Bytes.length_bigEndian] using here
  have hid : slice? (header id length ++ rest) 8 12 = some id.bytes := by
    have here := slice?_append (Bytes.bigEndian 2 bindingSuccess ++ (Bytes.bigEndian 2 length ++
      cookie)) id.bytes rest
    have eight : (Bytes.bigEndian 2 bindingSuccess ++ (Bytes.bigEndian 2 length ++ cookie)).length =
        8 := by simp [cookie]
    rw [id.length_bytes, eight] at here
    simpa only [header, List.append_assoc] using here
  rw [readResponse, if_neg long, isMessage_header]
  simp [htype, hlength, hid, length_header, Nat.add_min_add_left]

/-- The answer to the request is that of its attributes, whatever is behind them. -/
theorem parseResponse_response {as : List Attribute}
    (hsize : (octetsOf as).length < Bytes.capacity 2) (rest : Bytes) :
    parseResponse id (response id as ++ rest) = answer id as := by
  have finish : headerSize + min (octetsOf as).length (octetsOf as ++ rest).length =
      (header id (octetsOf as).length ++ octetsOf as).length := by
    simp [length_header]
  have scanned := @scan_attributes id (header id (octetsOf as).length) rest as
    (fun a ha => Nat.lt_of_le_of_lt (length_value_le ha) hsize) none
  rw [length_header] at scanned
  refine Option.some.inj ((readResponse_eq _ _).symm.trans ?_)
  rw [response, List.append_assoc, readResponse_header hsize, finish, scanned, Option.none_or]
  rfl

theorem cookie_of_isMessage (h : isMessage datagram = true) :
    (datagram.drop 4).take 4 = cookie := by
  cases datagram with
  | nil => cases h
  | cons first rest =>
    simp only [isMessage, Bool.and_eq_true, beq_iff_eq] at h
    exact h.2

/-- A datagram whose fields are those of an answer to the request starts with its header. -/
theorem eq_header (long : headerSize ≤ datagram.length)
    (htype : Bytes.ofBigEndian (datagram.take 2) = bindingSuccess)
    (hcookie : (datagram.drop 4).take 4 = cookie) (hid : (datagram.drop 8).take 12 = id.bytes) :
    ∃ length rest, datagram = header id length ++ rest := by
  have long : 20 ≤ datagram.length := long
  have two : (datagram.take 2).length = 2 := List.length_take_of_le (by omega)
  have length : ((datagram.drop 2).take 2).length = 2 :=
    List.length_take_of_le (by rw [List.length_drop]; omega)
  have behind (start length : Nat) : (datagram.drop start).take length ++
      datagram.drop (start + length) = datagram.drop start := by
    rw [← List.drop_drop, List.take_append_drop]
  refine ⟨Bytes.ofBigEndian ((datagram.drop 2).take 2), datagram.drop 20, ?_⟩
  rw [header, Bytes.bigEndian_ofBigEndian length, ← htype, Bytes.bigEndian_ofBigEndian two,
    ← hcookie, ← hid]
  simp only [List.append_assoc]
  rw [behind 8 12, behind 4 4, behind 2 2, List.take_append_drop]

/-- Only a datagram that has the header of an answer to the request holds an address. -/
theorem eq_header_of_parseResponse {address : SocketAddress}
    (h : parseResponse id datagram = .ok address) :
    ∃ length rest, datagram = header id length ++ rest := by
  have read := (readResponse_eq id datagram).trans (congrArg some h)
  rw [readResponse] at read
  split at read
  · cases read
  rename_i long
  have long : 20 ≤ datagram.length := Nat.not_lt.1 long
  split at read
  · cases read
  rename_i message
  have hcookie := cookie_of_isMessage (by simpa using message)
  rw [number?_of_le (by omega), slice?_of_le (by omega)] at read
  simp only [Option.pure_def, Option.bind_eq_bind, Option.bind_some] at read
  split at read
  · cases read
  rename_i htype
  split at read
  · cases read
  rename_i hid
  simp only [ne_eq, Decidable.not_not, List.drop_zero] at htype hid
  exact eq_header long htype hcookie hid

end Response

/-- **An answer of a server is read as it is meant.** The answer to a request, whatever its
attributes hold and whatever is behind it, gives the first address that an attribute holds in its
combined form, or else the first one that an attribute holds as it is. An attribute holds an address
when it starts with the form of the address, so that what was combined is found again. Any other
datagram is read within its octets too, and gives an address only behind the header of an answer to
the request. -/
theorem first_decodable_address :
    (∀ (id : TransactionId) (as : List Attribute) (rest : Bytes), (octetsOf as).length ≤ 65535 →
      parseResponse id (response id as ++ rest) = answer id as) ∧
    (∀ (key value : Bytes) (address : SocketAddress), decode? key value = some address ↔
      ∃ first ip port rest, address = .of ip port ∧ value = written key first ip port ++ rest) ∧
    (∀ (id : TransactionId) (datagram : Bytes),
      readResponse id datagram = some (parseResponse id datagram) ∧
      ∀ address, parseResponse id datagram = .ok address →
        ∃ length rest, datagram = header id length ++ rest) :=
  ⟨fun _ _ rest size => parseResponse_response (Nat.lt_succ_of_le size) rest,
    fun _ _ _ => decode?_eq_some_iff,
    fun id datagram => ⟨readResponse_eq id datagram, fun _ => eq_header_of_parseResponse⟩⟩

/-- An attribute of another type, one that is too short and an address as it is stand in front of
the combined address, and an octet behind the message. -/
theorem first_decodable_address_behind_others :
    let id : TransactionId := ⟨List.replicate 12 7, rfl⟩
    let key := cookie ++ id.bytes
    let combined := written key 0 (.v6 Ipv6.loopback) 3478
    let datagram (as : List Attribute) := response id as ++ [0xff]
    ∃ as, as.map (fun a => (a.type, a.value)) = [(0x8022, [0x70, 0x6b, 0x74]), (0x0020, [0, 1]),
        (0x0001, written [] 0 (.v4 Ipv4.localhost) 3479), (0x0020, combined)] ∧
      (octetsOf as).length ≤ 65535 ∧ decode? key combined = some (.v6 Ipv6.loopback 3478 0 0) ∧
      parseResponse id (datagram as) = .ok (.v6 Ipv6.loopback 3478 0 0) ∧
      ∃ length rest, datagram as = header id length ++ rest := by
  intro id key combined datagram
  let as : List Attribute := [⟨0x8022, [0x70, 0x6b, 0x74], [0], rfl⟩, ⟨0x0020, [0, 1], [9, 9], rfl⟩,
    ⟨0x0001, written [] 0 (.v4 Ipv4.localhost) 3479, [], by decide⟩,
    ⟨0x0020, combined, [], by decide⟩]
  obtain ⟨meant, found, others⟩ := first_decodable_address
  have size : (octetsOf as).length ≤ 65535 := by decide +kernel
  have answered : parseResponse id (datagram as) = .ok (.v6 Ipv6.loopback 3478 0 0) :=
    (meant id as [0xff] size).trans rfl
  exact ⟨as, rfl, size, (found _ _ _).2 ⟨0, .v6 Ipv6.loopback, 3478, [], rfl, rfl⟩, answered,
    (others id (datagram as)).2 _ answered⟩

end Stun
end Parley
