import Parley.Link.Datagram
import Parley.Proofs.Binary
/-!
Reading back binding messages.

`BindingMessage.decode_encode` says that a datagram holds its message, except that an address in it
comes back plain. Conversely a datagram holds a message only when it starts with what is written for
that message (`eq_append_of_get`), so that a message has one form; `exact_both_ways` is the two
together. A binding datagram is never taken for a STUN message, so an agent that is handed one reads
the message in it (`classify_of_decode`).
-/
namespace Parley

theorem Ipv4.ofOctets?_octets (ip : Ipv4) : ofOctets? ip.octets = some ip := rfl

theorem Ipv6.ofOctets?_octets (ip : Ipv6) : ofOctets? ip.octets = some ip := by
  rw [ofOctets?, dif_pos ip.length_octets]

theorem TransactionId.ofBytes?_bytes (id : TransactionId) : ofBytes? id.bytes = some id := by
  rw [ofBytes?, dif_pos id.length_bytes]

namespace BindingMessage

/-- The message as it is read back: the address in it has lost its scope and flow information. -/
def plain : BindingMessage → BindingMessage
  | .request r => .request r
  | .response r => .response { r with mapped := r.mapped.map SocketAddress.plain }

theorem getId_bytes (id : TransactionId) (rest : Bytes) :
    getId (id.bytes ++ rest) = some (id, rest) := by
  have front := Bytes.take?_append id.bytes rest
  rw [id.length_bytes] at front
  simp [getId, front, TransactionId.ofBytes?_bytes]

theorem getAddress_putAddress (address : SocketAddress) (rest : Bytes) :
    getAddress (putAddress address ++ rest) = some (address.plain, rest) := by
  cases address with
  | v4 ip port =>
    have front := Bytes.take?_append ip.octets (Binary.putUInt16 port ++ rest)
    rw [show ip.octets.length = 4 from rfl] at front
    simp only [getAddress, putAddress, List.append_assoc, Binary.getUInt32_putUInt32]
    simp [front, Ipv4.ofOctets?_octets, Binary.getUInt16_putUInt16, SocketAddress.plain,
      SocketAddress.of, SocketAddress.ip, SocketAddress.port]
  | v6 ip port flow scope =>
    have front := Bytes.take?_append ip.octets (Binary.putUInt16 port ++ rest)
    rw [ip.length_octets] at front
    simp only [getAddress, putAddress, List.append_assoc, Binary.getUInt32_putUInt32]
    simp [front, Ipv6.ofOctets?_octets, Binary.getUInt16_putUInt16, SocketAddress.plain,
      SocketAddress.of, SocketAddress.ip, SocketAddress.port]

theorem get_put (m : BindingMessage) (rest : Bytes) :
    get (put m ++ rest) = some (m.plain, rest) := by
  cases m with
  | request r =>
    simp only [get, put, List.append_assoc, Binary.getUInt32_putUInt32]
    simp [getId_bytes, Binary.getUInt32_putUInt32, Binary.getBool_putBool, plain]
  | response r =>
    simp only [get, put, List.append_assoc, Binary.getUInt32_putUInt32]
    simp [getId_bytes, Binary.getBool_putBool, Binary.getOption_putOption getAddress_putAddress,
      plain]

/-- A datagram holds its message, with a plain address. -/
theorem decode_encode (m : BindingMessage) : decode m.encode = .ok m.plain := by
  have record := get_put m []
  rw [List.append_nil] at record
  simp [decode, encode, record]

theorem decode_encode_request (r : BindingRequest) :
    decode (request r).encode = .ok (request r) := decode_encode (request r)

/-! ### One form for each message -/

section Written
variable {bs rest : Bytes}

theorem eq_append_of_getId {id : TransactionId} (h : getId bs = some (id, rest)) :
    bs = id.bytes ++ rest := by
  simp only [getId, Option.bind_eq_bind, Option.bind_eq_some_iff, Prod.exists] at h
  obtain ⟨octets, back, taken, id', read, h⟩ := h
  cases h
  obtain ⟨rfl, length⟩ := Bytes.eq_append_of_take? taken
  rw [TransactionId.ofBytes?, dif_pos length] at read
  cases read
  rfl

theorem octets_of_ipv4 {octets : Bytes} {ip : Ipv4} (h : Ipv4.ofOctets? octets = some ip) :
    octets = ip.octets := by
  unfold Ipv4.ofOctets? at h
  split at h <;> cases h
  rfl

theorem octets_of_ipv6 {octets : Bytes} {ip : Ipv6} (h : Ipv6.ofOctets? octets = some ip) :
    octets = ip.octets := by
  unfold Ipv6.ofOctets? at h
  split at h <;> cases h
  rfl

theorem eq_append_of_getAddress {address : SocketAddress}
    (h : getAddress bs = some (address, rest)) : bs = putAddress address ++ rest := by
  simp only [getAddress, Option.bind_eq_bind, Option.bind_eq_some_iff, Prod.exists] at h
  obtain ⟨version, tail, first, h⟩ := h
  rw [Binary.eq_append_of_getUInt32 first]
  split at h
  · rename_i isV4
    simp only [Option.bind_eq_some_iff, Prod.exists] at h
    obtain ⟨octets, tail', taken, ip, read, port, back, last, h⟩ := h
    cases h
    rw [isV4, (Bytes.eq_append_of_take? taken).1, octets_of_ipv4 read,
      Binary.eq_append_of_getUInt16 last, putAddress]
    simp only [List.append_assoc]
  · split at h
    · rename_i isV6
      simp only [Option.bind_eq_some_iff, Prod.exists] at h
      obtain ⟨octets, tail', taken, ip, read, port, back, last, h⟩ := h
      cases h
      rw [isV6, (Bytes.eq_append_of_take? taken).1, octets_of_ipv6 read,
        Binary.eq_append_of_getUInt16 last, putAddress]
      simp only [List.append_assoc]
    · cases h

/-- A message is read only where it could have been written. -/
theorem eq_append_of_get {m : BindingMessage} (h : get bs = some (m, rest)) :
    bs = put m ++ rest := by
  simp only [get, Option.bind_eq_bind, Option.bind_eq_some_iff, Prod.exists] at h
  obtain ⟨alternative, tail, first, h⟩ := h
  rw [Binary.eq_append_of_getUInt32 first]
  split at h
  · rename_i isRequest
    simp only [Option.bind_eq_some_iff, Prod.exists] at h
    obtain ⟨id, afterId, hid, priority, afterPriority, hpriority, useCandidate, back, last, h⟩ := h
    cases h
    rw [isRequest, eq_append_of_getId hid, Binary.eq_append_of_getUInt32 hpriority,
      Binary.eq_append_of_getBool last, put]
    simp only [List.append_assoc]
  · split at h
    · rename_i isResponse
      simp only [Option.bind_eq_some_iff, Prod.exists] at h
      obtain ⟨id, afterId, hid, success, afterSuccess, hsuccess, mapped, back, last, h⟩ := h
      cases h
      rw [isResponse, eq_append_of_getId hid, Binary.eq_append_of_getBool hsuccess,
        Binary.eq_append_of_getOption eq_append_of_getAddress last, put]
      simp only [List.append_assoc]
    · cases h

end Written

/-- A datagram holds the message whose form it starts with. -/
theorem decode_eq_ok_iff {datagram : Bytes} {m : BindingMessage} :
    decode datagram = .ok m ↔ m.plain = m ∧ m.encode <+: datagram := by
  constructor
  · intro h
    unfold decode at h
    split at h
    · split at h
      · rename_i tagged
        split at h
        · rename_i rest read
          cases h
          have written := eq_append_of_get read
          -- Reading the form of the message again tells that its address is plain.
          have again := get_put m rest
          rw [← written, read] at again
          refine ⟨(congrArg Prod.fst (Option.some.inj again)).symm, ?_⟩
          rw [tagged, written, encode]
          exact (List.prefix_cons_inj tag).2 (List.prefix_append ..)
        · cases h
      · cases h
    · cases h
  · rintro ⟨plain, rest, rfl⟩
    rw [encode, List.cons_append, decode, if_pos rfl, get_put, plain]

theorem decode_eq_notBinding_iff {datagram : Bytes} :
    decode datagram = .error .notBinding ↔ datagram.head? ≠ some tag := by
  constructor
  · intro h tagged
    obtain ⟨body, rfl⟩ := List.head?_eq_some_iff.1 tagged
    rw [decode, if_pos rfl] at h
    split at h <;> cases h
  · intro h
    cases datagram with
    | nil => rfl
    | cons first body =>
      have other : first ≠ tag := fun same => h (congrArg some same)
      rw [decode, if_neg other]

/-- **Binding datagrams are exact both ways.** A message is read back from its datagram, its address
without scope and flow information. A datagram holds a message exactly when it starts with the form
of that message, which is plain; any other one is refused, for its tag or for its record. -/
theorem exact_both_ways :
    (∀ m, decode (encode m) = .ok m.plain) ∧
    (∀ datagram m, decode datagram = .ok m ↔ m.plain = m ∧ m.encode <+: datagram) ∧
    (∀ datagram, decode datagram = .error .notBinding ↔ datagram.head? ≠ some tag) ∧
    ∀ datagram, decode datagram = .error .record ↔
      datagram.head? = some tag ∧ ¬∃ m : BindingMessage, m.plain = m ∧ m.encode <+: datagram := by
  refine ⟨decode_encode, fun _ _ => decode_eq_ok_iff, fun _ => decode_eq_notBinding_iff,
    fun datagram => ?_⟩
  have other : decode datagram = .error .notBinding ↔ _ := decode_eq_notBinding_iff
  simp only [← decode_eq_ok_iff]
  cases read : decode datagram with
  | ok m => simp
  | error e =>
    rw [read] at other
    cases e with
    | notBinding => simpa using other.1 rfl
    | record => simpa using other

example : decode (tag :: [9]) = .error .record := rfl

end BindingMessage

/-- A datagram that does not start with the tag is no binding message. -/
theorem decode_eq_error {octets : Bytes} (h : octets.head? ≠ some BindingMessage.tag) :
    BindingMessage.decode octets = .error .notBinding := by
  cases octets with
  | nil => rfl
  | cons b bs =>
    have hb : b ≠ BindingMessage.tag := by simpa using h
    simp [BindingMessage.decode, hb]

/-- Only a datagram that starts with the tag holds a message, and it is taken for one. -/
theorem classify_of_decode {octets : Bytes} {m : BindingMessage}
    (h : BindingMessage.decode octets = .ok m) : Datagram.classify octets = .binding := by
  cases octets with
  | nil => cases h
  | cons first rest =>
    by_cases hfirst : first = BindingMessage.tag
    · have tagged : (BindingMessage.tag &&& 0xc0 == 0) = false := by decide
      simp [Datagram.classify, Stun.isMessage, hfirst, tagged]
    · rw [decode_eq_error (by simpa using hfirst)] at h
      cases h

namespace Datagram

/-- Game data is what stands behind its tag. -/
theorem classify_eq_data {octets payload : Bytes} (h : classify octets = .data payload) :
    octets = ofPayload payload := by
  unfold classify at h
  split at h
  · cases h
  · split at h
    · cases h
    · split at h
      · cases h
      · split at h
        · split at h <;> cases h
        · split at h
          · rename_i htag
            cases h
            rw [htag]
            rfl
          · cases h

theorem classify_ofPayload (payload : Bytes) : classify (ofPayload payload) = .data payload := by
  have first : dataTag &&& 0xc0 ≠ 0 := by decide
  have other : Stun.isMessage (ofPayload payload) = false := by
    simp [Stun.isMessage, ofPayload, first]
  rw [classify.eq_def, other]
  rfl

end Datagram
end Parley
