import Parley.Link.Negotiation
import Parley.Proofs.Json.Record
import Parley.Proofs.Net.Text
/-!
Reading back what agents tell each other.

Every payload that an agent writes is read as what it was written from, except that addresses have
lost their flow information on the way; where they have none, nothing is lost (`payload_read_back`).
-/
namespace Parley
namespace Candidate

/-- The candidate as it is read back. -/
def withoutFlow (c : Candidate) : Candidate :=
  { c with address := c.address.withoutFlow, related := c.related.map SocketAddress.withoutFlow }

theorem isV4_withoutFlow (c : Candidate) :
    c.withoutFlow.address.isV4 = c.address.isV4 := by
  cases h : c.address <;> simp [withoutFlow, h, SocketAddress.withoutFlow, SocketAddress.isV4,
    SocketAddress.ip, IpAddress.isV4]

theorem addressOfRaw?_text (address : SocketAddress) :
    addressOfRaw? (Json.string address.text).raw = some address.withoutFlow := by
  rw [addressOfRaw?, Json.text?_string]
  exact address.ofText?_text

theorem kindOfRaw?_name (kind : CandidateKind) :
    CandidateKind.ofRaw? (Json.string kind.name).raw = some kind := by
  have text := Json.text?_string kind.name
  rw [Json.raw] at text ⊢
  rw [CandidateKind.ofRaw?, text]
  · exact kind.ofName?_name
  · simp

/-- The record of a candidate is read as the candidate. -/
theorem ofRaw?_json (c : Candidate) : ofRaw? c.json.raw = some c.withoutFlow := by
  have kind := kindOfRaw?_name c.kind
  have address := addressOfRaw?_text c.address
  have priority : (Json.number c.priority.toNat).raw.nat? 4294967296 = some c.priority.toNat :=
    Json.nat?_number c.priority.toNat_lt
  have foundation := Json.text?_string c.foundation
  unfold json
  cases hrelated : c.related with
  | none =>
    rw [ofRaw?, Json.record?_object ["type", "address", "priority", "foundation"] rfl
      (by decide)]
    simp [List.lookup_cons, List.lookup_nil, kind, address, priority, foundation,
      Json.Raw.optional?, withoutFlow, hrelated]
  | some related =>
    have optional : Json.Raw.optional? addressOfRaw? (some (Json.string related.text).raw) =
        some (some related.withoutFlow) := by
      have read := addressOfRaw?_text related
      rw [Json.raw] at read ⊢
      simp [Json.Raw.optional?, read]
    rw [ofRaw?, Json.record?_object ["type", "address", "priority", "foundation",
      "related_address"] rfl (by decide)]
    simp [List.lookup_cons, List.lookup_nil, kind, address, priority, foundation, optional,
      withoutFlow, hrelated]

end Candidate

theorem sessionOfRaw?_number (session : UInt64) :
    sessionOfRaw? (Json.number session.toNat).raw = some session := by
  rw [sessionOfRaw?, Json.nat?_number session.toNat_lt]
  simp

/-- No record is taken for a ping. -/
theorem Message.isPing_object (kind : MessageKind) (members : List (String × Json)) :
    isPing kind (Json.object members).text = false := by
  have differ : (Json.object members).text ≠ pingPayload := by
    intro h
    have octets := congrArg Text.octets h
    rw [Json.text, Text.octets_append, Text.octets_append] at octets
    exact absurd (List.cons.inj octets).1 (by decide)
  simp [isPing, differ]

theorem documentOf?_text (j : Json) : documentOf? j.text = some j.raw := Json.ofBytes?_text j

namespace Description

theorem list?_candidates (cs : List Candidate) :
    (Json.array (cs.map (·.json))).raw.list? Candidate.ofRaw? =
      some (cs.map Candidate.withoutFlow) := by
  rw [Json.raw, Json.Raw.list?, Json.rawItems_eq, List.map_map]
  induction cs with
  | nil => rfl
  | cons c cs ih => simp [Candidate.ofRaw?_json, ih]

/-- **A description is read as what it describes**, with addresses without flow information. -/
theorem ofPayload?_payload (d : Description) :
    ofPayload? d.payload = some ⟨d.session, d.candidates.map Candidate.withoutFlow⟩ := by
  have session := sessionOfRaw?_number d.session
  have candidates := list?_candidates d.candidates
  rw [ofPayload?, payload, documentOf?_text]
  simp only [Option.bind_eq_bind, Option.bind_some]
  rw [Json.record?_object ["session_id", "candidates"] rfl (by decide)]
  simp [List.lookup_cons, List.lookup_nil, sessionMember, session, candidates]

end Description

namespace CandidateNotice

theorem ofPayload?_payload (n : CandidateNotice) :
    ofPayload? n.payload = some ⟨n.session, n.candidate.withoutFlow⟩ := by
  have session := sessionOfRaw?_number n.session
  have candidate := n.candidate.ofRaw?_json
  rw [ofPayload?, payload, documentOf?_text]
  simp only [Option.bind_eq_bind, Option.bind_some]
  rw [Json.record?_object ["session_id", "candidate"] rfl (by decide)]
  simp [List.lookup_cons, List.lookup_nil, sessionMember, session, candidate]

end CandidateNotice

namespace GatheringDone

theorem ofPayload?_payload (g : GatheringDone) : ofPayload? g.payload = some g := by
  have session := sessionOfRaw?_number g.session
  rw [ofPayload?, payload, documentOf?_text]
  simp only [Option.bind_eq_bind, Option.bind_some]
  rw [Json.record?_object ["session_id"] rfl (by decide)]
  simp [List.lookup_cons, List.lookup_nil, sessionMember, session]

/-- The end of a gathering is never taken for a ping. -/
theorem isPing_payload (g : GatheringDone) (kind : MessageKind) :
    Message.isPing kind g.payload = false := Message.isPing_object kind _

end GatheringDone

/-! ### Addresses without flow information -/

namespace SocketAddress

/-- The flow information of an address; one of version 4 has none. -/
def flow : SocketAddress → UInt32
  | .v4 _ _ => 0
  | .v6 _ _ flow _ => flow

theorem withoutFlow_of_flow {address : SocketAddress} (h : address.flow = 0) :
    address.withoutFlow = address := by
  cases address with
  | v4 => rfl
  | v6 ip port flow scope =>
    obtain rfl : flow = 0 := h
    rfl

end SocketAddress

namespace Candidate

/-- No address of the candidate has flow information. -/
structure Flowless (c : Candidate) : Prop where
  address : c.address.flow = 0
  related : ∀ base, c.related = some base → base.flow = 0

theorem Flowless.withoutFlow {c : Candidate} (h : c.Flowless) : c.withoutFlow = c := by
  have address := SocketAddress.withoutFlow_of_flow h.address
  have related : c.related.map SocketAddress.withoutFlow = c.related := by
    cases base : c.related with
    | none => rfl
    | some base' => exact congrArg some (SocketAddress.withoutFlow_of_flow (h.related _ base))
  rw [Candidate.withoutFlow, address, related]

end Candidate

/-- What an agent tells of a session and of candidates is read as what was told, and none of it is
taken for a ping. -/
structure ReadBack (session : UInt64) (cs : List Candidate) : Prop where
  description : Description.ofPayload? (Description.payload ⟨session, cs⟩) = some ⟨session, cs⟩
  notice : ∀ c ∈ cs,
    CandidateNotice.ofPayload? (CandidateNotice.payload ⟨session, c⟩) = some ⟨session, c⟩
  gatheringDone : GatheringDone.ofPayload? (GatheringDone.payload ⟨session⟩) = some ⟨session⟩
  noPing : ∀ kind, Message.isPing kind (Description.payload ⟨session, cs⟩) = false ∧
    (∀ c, Message.isPing kind (CandidateNotice.payload ⟨session, c⟩) = false) ∧
    Message.isPing kind (GatheringDone.payload ⟨session⟩) = false

/-- **Whatever agents tell each other is read back**, whatever the session, the kinds, priorities,
foundations and addresses, as long as these have no flow information. -/
theorem payload_read_back (session : UInt64) {cs : List Candidate}
    (flowless : ∀ c ∈ cs, c.Flowless) : ReadBack session cs := by
  refine ⟨?_, fun c hc => ?_, GatheringDone.ofPayload?_payload _, fun kind => ?_⟩
  · have same : cs.map Candidate.withoutFlow = cs :=
      (List.map_congr_left fun c hc => (flowless c hc).withoutFlow).trans (List.map_id cs)
    rw [Description.ofPayload?_payload, same]
  · rw [CandidateNotice.ofPayload?_payload, (flowless c hc).withoutFlow]
  · exact ⟨Message.isPing_object kind _, fun _ => Message.isPing_object kind _,
      Message.isPing_object kind _⟩

/-- The last session, a relay on an interface of a link, with a base that carries a version 4
address and a foundation that has to be escaped, and a candidate with nothing to it. -/
theorem payload_read_back_scoped :
    let base : SocketAddress := .v6 ⟨List.replicate 10 0 ++ [255, 255, 192, 0, 2, 1], rfl⟩ 0 0 1
    let relay : SocketAddress :=
      .v6 ⟨[254, 128] ++ List.replicate 13 0 ++ [1], rfl⟩ 65535 0 4294967295
    let cs : List Candidate := [⟨.relay, relay, 4294967295, "\"\\-+\n\x01é😀", some base⟩,
      ⟨.peerReflexive, .v4 ⟨0, 255, 1, 10⟩ 0, 0, "", none⟩]
    (∀ c ∈ cs, c.Flowless) ∧ ReadBack 18446744073709551615 cs := by
  intro base relay cs
  have flowless : ∀ c ∈ cs, c.Flowless := by
    refine List.forall_mem_cons.2 ⟨⟨rfl, ?_⟩, List.forall_mem_singleton.2 ⟨rfl, nofun⟩⟩
    rintro _ ⟨⟩
    rfl
  exact ⟨flowless, payload_read_back _ flowless⟩

end Parley
