import Parley.Proofs.Link.Frame
import Parley.Proofs.Link.Payload
/-!
Messages that an agent refuses.

A message changes an agent step by step, and may be refused at several of these steps. Each of them
comes before the first change to what the agent knows, so a message that is refused leaves nothing
behind but the time (`refused_signal_changes_nothing`). Which messages are refused, and why, is told
from the payload and the session that is known (`applySignal_error_iff`).
-/
namespace Parley

/-- A ping is no record of the end of a gathering. -/
theorem GatheringDone.not_ping {data : String} {g : GatheringDone} (h : ofPayload? data = some g) :
    Message.isPing .agentGatheringDone data = false := by
  have noRecord : ofPayload? Message.pingPayload = none := by decide +kernel
  have differ : data ≠ Message.pingPayload := by
    rintro rfl
    rw [noRecord] at h
    cases h
  simp [Message.isPing, differ]

namespace Agent

/-- **A message is refused for just these reasons.** -/
theorem applySignal_error_iff {a : Agent} {kind : MessageKind} {data : String} {now : Nat}
    {id : TransactionId} {e : NegotiationError} :
    (a.applySignal kind data now id).2 = some e ↔ Refused a kind data e := by
  constructor
  · intro h
    rcases a.applySignal_cases kind data now id with ⟨b, -, applied⟩ | ⟨e', refused, applied⟩
    · rw [applied] at h
      cases h
    · rw [applied] at h
      cases h
      exact refused
  · intro h
    have known : (a.touch now).remoteSession = a.remoteSession := rfl
    cases h with
    | malformed h =>
      cases h with
      | description hd => simp [applySignal, hd]
      | candidate hn => simp [applySignal, hn]
      | gatheringDone hping hg => simp [applySignal, hping, hg]
    | stale names hknown other =>
      cases names with
      | candidate hn => simp [applySignal, hn, takeSession, known, hknown, other]
      | gatheringDone hg =>
        simp [applySignal, GatheringDone.not_ping hg, hg, takeSession, known, hknown, other]
    | foreign hkind =>
      cases kind <;> first | rfl | exact absurd (by decide) hkind

/-- **A message that is refused changes nothing.** All that an agent has of it is the time at which
the peer was heard of. A session is refused just when a well-formed candidate or end of the
gathering names it and another one is known. -/
theorem refused_signal_changes_nothing (a : Agent) (kind : MessageKind) (data : String) (now : Nat)
    (id : TransactionId) :
    (∀ e, (a.applySignal kind data now id).2 = some e →
      (a.applySignal kind data now id).1 = { a with lastActivity := now }) ∧
    ∀ session, (a.applySignal kind data now id).2 = some (.staleSession session) ↔
      Names data kind session ∧ ∃ known, a.remoteSession = some known ∧ known ≠ session := by
  constructor
  · intro e h
    rcases a.applySignal_cases kind data now id with ⟨b, -, applied⟩ | ⟨_, -, applied⟩
    · rw [applied] at h
      cases h
    · rw [applied]
      rfl
  · intro session
    rw [applySignal_error_iff]
    constructor
    · intro h
      cases h with
      | stale names hknown other => exact ⟨names, _, hknown, other⟩
    · rintro ⟨names, known, hknown, other⟩
      exact .stale names hknown other

/-- An agent that has been told of one session, and then of a candidate of an older one. -/
theorem refused_signal_changes_nothing_stale :
    let id : TransactionId := ⟨List.replicate 12 0, rfl⟩
    let a := ((Agent.new (PeerId.filled 1) true 5 0).applySignal .agentLocalDescription
      (Description.payload ⟨8, []⟩) 10 id).1
    let late := CandidateNotice.payload ⟨7, .host (.v4 ⟨10, 0, 0, 2⟩ 5000)⟩
    (Names late .agentCandidate 7 ∧ ∃ known, a.remoteSession = some known ∧ known ≠ 7) ∧
      (a.applySignal .agentCandidate late 20 id).2 = some (.staleSession 7) ∧
      (a.applySignal .agentCandidate late 20 id).1 = { a with lastActivity := 20 } := by
  intro id a late
  have told : Received ((Agent.new (PeerId.filled 1) true 5 0).touch 10) .agentLocalDescription
      (Description.payload ⟨8, []⟩) _ := .description rfl (Description.ofPayload?_payload ⟨8, []⟩)
  have known : a.remoteSession = some 8 := by
    simp only [a, applySignal_of_received told id]
    rfl
  have names : Names late .agentCandidate 7 :=
    .candidate (CandidateNotice.ofPayload?_payload ⟨7, .host (.v4 ⟨10, 0, 0, 2⟩ 5000)⟩)
  obtain ⟨unchanged, stale⟩ := refused_signal_changes_nothing a .agentCandidate late 20 id
  have refused := (stale 7).2 ⟨names, 8, known, by decide⟩
  exact ⟨⟨names, 8, known, by decide⟩, refused, unchanged _ refused⟩

end Agent
end Parley
