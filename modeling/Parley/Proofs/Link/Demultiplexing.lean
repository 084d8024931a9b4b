import Parley.Proofs.Link.Path
/-!
One socket for all that two agents send each other.

STUN is recognised by octets behind the first one, and the first octets of keepalives are among
those that STUN may have; so it takes the length of a keepalive, and the first octets of everything
else, to see that no content makes one kind of datagram look like another. `socket_unambiguous` says
so of every kind that an agent sends, and that game data comes out of the receiving agent as it went
into the sending one.
-/
namespace Parley
namespace Datagram

/-! ### Each kind -/

/-- What is shorter than the header of STUN is none of it. -/
theorem isMessage_of_short {octets : Bytes} (h : octets.length < 20) :
    Stun.isMessage octets = false := by
  cases octets with
  | nil => rfl
  | cons first rest =>
    have short : ¬19 ≤ rest.length := by
      rw [List.length_cons] at h
      omega
    simp [Stun.isMessage, short]

theorem classify_binding (m : BindingMessage) : classify m.encode = .binding :=
  classify_of_decode m.decode_encode

/-- A keepalive is as long as its number takes it to be, which is shorter than STUN. -/
theorem classify_numbered {tag : UInt8} {isResponse : Bool} {sequence : UInt32}
    (tagged : tag = Keepalive.requestTag ∨ tag = Keepalive.responseTag)
    (read : Keepalive.decode? (tag :: Bytes.bigEndian 4 sequence.toNat) =
      some (isResponse, sequence)) :
    classify (tag :: Bytes.bigEndian 4 sequence.toNat) = .keepalive isResponse sequence := by
  have short : Stun.isMessage (tag :: Bytes.bigEndian 4 sequence.toNat) = false :=
    isMessage_of_short (by simp)
  have other : tag ≠ BindingMessage.tag := by rcases tagged with rfl | rfl <;> decide
  rw [classify.eq_def, short, if_neg Bool.false_ne_true]
  simp only [if_neg other, if_pos tagged, read]

theorem classify_keepalive (sequence : UInt32) :
    classify (Keepalive.request sequence) = .keepalive false sequence ∧
      classify (Keepalive.response sequence) = .keepalive true sequence :=
  ⟨classify_numbered (.inl rfl) (Keepalive.decode?_request sequence),
    classify_numbered (.inr rfl) (Keepalive.decode?_response sequence)⟩

theorem classify_request (id : TransactionId) : classify (Stun.request id) = .stun := by
  have header : Stun.request id = 0 :: 1 :: 0 :: 0 :: (Stun.cookie ++ id.bytes) := rfl
  have message : Stun.isMessage (Stun.request id) = true := by
    rw [header]
    simp [Stun.isMessage, Stun.cookie, id.length_bytes]
  rw [classify.eq_def, message, if_pos rfl]

end Datagram

namespace Agent

/-! ### Game data -/

theorem prepareSend_eq_ok {a : Agent} {payload octets : Bytes} {destination : SocketAddress} :
    a.prepareSend payload = .ok (destination, octets) ↔ a.state.isUsable = true ∧
      a.selected = some destination ∧ payload.length ≤ Datagram.maxPayload ∧
      octets = Datagram.ofPayload payload := by
  unfold prepareSend
  split
  · rename_i husable hselected
    split
    · rename_i hlarge
      simp [hlarge]
    · rename_i hfits
      simp [husable, hselected, Nat.le_of_not_lt hfits, eq_comm]
  · rename_i hnone
    refine iff_of_false (by simp) ?_
    rintro ⟨husable, hselected, -⟩
    exact hnone destination husable hselected

/-- What an agent makes of game data depends on where it comes from alone. -/
theorem onDatagram_data (a : Agent) (source : SocketAddress) (payload : Bytes) (now : Nat)
    (id : TransactionId) : (a.onDatagram source (Datagram.ofPayload payload) now id).2 =
      if a.accepts source then some payload else none := by
  simp only [onDatagram, handleDatagram, Datagram.classify_ofPayload]
  split <;> rfl

/-- A usable agent that a run has made sends every payload that fits. -/
theorem Reachable.prepares {a : Agent} (h : a.Reachable) (usable : a.state.isUsable = true)
    {payload : Bytes} (fits : payload.length ≤ 65506) :
    ∃ destination, a.prepareSend payload = .ok (destination, Datagram.ofPayload payload) := by
  obtain ⟨destination, selected⟩ := Option.isSome_iff_exists.1 (h.grounded.usable_iff.1 usable)
  exact ⟨destination, (h.grounded.carries selected).2 payload fits⟩

/-- **What shares a socket is told apart.** Game data, binding messages, keepalives and questions to
a STUN server are taken for what they are, with what is in them, whatever that is. So every payload
that fits is sent by a usable agent, and taken as that payload by every usable agent that trusts the
address from which it comes. -/
theorem socket_unambiguous :
    (∀ (a : Agent) (payload : Bytes) (destination : SocketAddress) (octets : Bytes),
      a.prepareSend payload = .ok (destination, octets) →
        payload.length ≤ 65506 ∧ Datagram.classify octets = .data payload) ∧
    (∀ m : BindingMessage, Datagram.classify m.encode = .binding) ∧
    (∀ sequence, Datagram.classify (Keepalive.request sequence) = .keepalive false sequence ∧
      Datagram.classify (Keepalive.response sequence) = .keepalive true sequence) ∧
    (∀ id, Datagram.classify (Stun.request id) = .stun) ∧
    ∀ sender receiver : Agent, sender.Reachable → sender.state.isUsable = true →
      receiver.state.isUsable = true → ∀ source, receiver.isVerifiedPath source = true →
      ∀ payload, payload.length ≤ 65506 → ∃ destination octets,
        sender.prepareSend payload = .ok (destination, octets) ∧
        ∀ now id, (receiver.onDatagram source octets now id).2 = some payload := by
  refine ⟨fun a payload destination octets prepared => ?_, Datagram.classify_binding,
    Datagram.classify_keepalive, Datagram.classify_request,
    fun sender receiver reachable usable usable' source verified payload fits => ?_⟩
  · obtain ⟨-, -, fits, rfl⟩ := prepareSend_eq_ok.1 prepared
    exact ⟨fits, Datagram.classify_ofPayload payload⟩
  · obtain ⟨destination, prepared⟩ := reachable.prepares usable fits
    have accepts : receiver.accepts source = true := by rw [Agent.accepts, usable', verified]; rfl
    refine ⟨destination, _, prepared, fun now id => ?_⟩
    rw [onDatagram_data, if_pos accepts]

/-- Two agents that have checked the path between them: the empty payload arrives as such. -/
theorem socket_unambiguous_for_nothing :
    let id : UInt8 → TransactionId := fun n => ⟨List.replicate 12 n, List.length_replicate⟩
    let near : SocketAddress := .v4 ⟨10, 0, 0, 1⟩ 5000
    let far : SocketAddress := .v4 ⟨10, 0, 0, 2⟩ 6000
    let a := (new (.filled 1) true 7 0).run [
      .signal .agentLocalDescription (Description.payload ⟨8, [.host far]⟩) 0 (id 0),
      .start 0 [near] false none (id 1), .tick 20 (id 2) (id 3),
      .datagram far (BindingMessage.response ⟨id 2, true, some near⟩).encode 40 (id 4)]
    let b := (new (.filled 2) false 8 0).run [
      .start 0 [far] false none (id 5),
      .datagram near (BindingMessage.request ⟨id 2, 0, false⟩).encode 30 (id 6),
      .tick 50 (id 7) (id 8),
      .datagram near (BindingMessage.response ⟨id 7, true, some far⟩).encode 70 (id 9)]
    a.state.isUsable = true ∧ b.state.isUsable = true ∧ b.isVerifiedPath near = true ∧
      ∃ destination octets, a.prepareSend [] = .ok (destination, octets) ∧
        ∀ now id, (b.onDatagram near octets now id).2 = some [] := by
  intro id near far a b
  have reachable : a.Reachable := ⟨_, _, _, _, _, rfl⟩
  have usable : a.state.isUsable = true := by decide +kernel
  have usable' : b.state.isUsable = true := by decide +kernel
  have verified : b.isVerifiedPath near = true := by decide +kernel
  exact ⟨usable, usable', verified,
    socket_unambiguous.2.2.2.2 a b reachable usable usable' near verified [] (by decide)⟩

end Agent
end Parley
