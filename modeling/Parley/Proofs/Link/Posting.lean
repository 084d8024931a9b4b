import Parley.Proofs.Link.Frame
import Parley.Proofs.Link.Payload
import Parley.Proofs.Link.Run
/-!
What an agent has to tell its peer.

Messages are queued when the gathering starts, when a candidate is added and when the gathering is
over, and by nothing else. Each says of the session and of the candidates what is so (`Truthful`),
and goes on being so, since candidates are only added.
-/
namespace Parley

/-- A message that says what is so of the session of its sender and of the candidates `ours`. -/
structure Message.Truthful (session : UInt64) (ours : List Candidate) (m : Message) : Prop where
  description : ∀ d, m.kind = .agentLocalDescription → Description.ofPayload? m.data = some d →
    d.session = session ∧ d.candidates ⊆ ours.map Candidate.withoutFlow
  candidate : ∀ n, m.kind = .agentCandidate → CandidateNotice.ofPayload? m.data = some n →
    n.session = session ∧ n.candidate ∈ ours.map Candidate.withoutFlow
  gatheringDone : ∀ g, m.kind = .agentGatheringDone → GatheringDone.ofPayload? m.data = some g →
    g.session = session

namespace Message.Truthful

theorem mono {session : UInt64} {ours ours' : List Candidate} {m : Message}
    (h : Truthful session ours m) (hours : ours ⊆ ours') : Truthful session ours' m where
  description := fun d hkind hd =>
    have before := h.description d hkind hd
    ⟨before.1, fun _ hc => List.map_subset _ hours (before.2 hc)⟩
  candidate := fun n hkind hn =>
    ⟨(h.candidate n hkind hn).1, List.map_subset _ hours (h.candidate n hkind hn).2⟩
  gatheringDone := h.gatheringDone

theorem of_description (peer : PeerId) (session : UInt64) (ours : List Candidate) :
    Truthful session ours ⟨peer, .agentLocalDescription, Description.payload ⟨session, ours⟩⟩ where
  description := fun d _ hd => by
    rw [Description.ofPayload?_payload] at hd
    cases hd
    exact ⟨rfl, fun _ h => h⟩
  candidate := nofun
  gatheringDone := nofun

theorem of_candidate (peer : PeerId) (session : UInt64) {ours : List Candidate} {c : Candidate}
    (h : c ∈ ours) :
    Truthful session ours ⟨peer, .agentCandidate, CandidateNotice.payload ⟨session, c⟩⟩ where
  description := nofun
  candidate := fun n _ hn => by
    rw [CandidateNotice.ofPayload?_payload] at hn
    cases hn
    exact ⟨rfl, List.mem_map_of_mem h⟩
  gatheringDone := nofun

theorem of_gatheringDone (peer : PeerId) (session : UInt64) (ours : List Candidate) :
    Truthful session ours ⟨peer, .agentGatheringDone, GatheringDone.payload ⟨session⟩⟩ where
  description := nofun
  candidate := nofun
  gatheringDone := fun g _ hg => by
    rw [GatheringDone.ofPayload?_payload] at hg
    cases hg
    rfl

end Message.Truthful

namespace Agent

/-! ### Operations that post nothing -/

@[simp] theorem updateState_signals (a : Agent) (now : Nat) (id : TransactionId) :
    (a.updateState now id).signals = a.signals := by
  have best : ∀ a : Agent, (a.selectBest now).signals = a.signals := by
    intro a
    unfold selectBest
    split <;> rfl
  have settled : ∀ a : Agent, (a.settle now id).signals = a.signals := by
    intro a
    have kept : a.withdrawNomination.signals = a.signals := by
      unfold withdrawNomination
      split <;> rfl
    have nominated : (a.withdrawNomination.nominate now id).signals = a.signals := by
      rw [← kept]
      unfold nominate
      repeat' split
      all_goals rfl
    rw [← nominated]
    unfold settle complete
    split <;> rfl
  unfold updateState
  split
  · split
    · rw [settled, best]
    · split <;> rfl
  · split
    · rfl
    · rw [settled, best]
  · rfl

@[simp] theorem applySignal_signals (a : Agent) (kind : MessageKind) (data : String) (now : Nat)
    (id : TransactionId) : (a.applySignal kind data now id).1.signals = a.signals := by
  rcases a.applySignal_cases kind data now id with ⟨b, received, applied⟩ | ⟨_, -, applied⟩
  · rw [applied, updateState_signals]
    exact received.listens.signals
  · rw [applied]
    rfl

/-! ### Posting -/

/-- From `a` to `b` an agent has queued messages that are true of it now. -/
def Posts (a b : Agent) : Prop :=
  ∃ ms, b.signals = a.signals ++ ms ∧ ∀ m ∈ ms, m.Truthful b.session b.ours

theorem Posts.silent {a b : Agent} (h : b.signals = a.signals) : Posts a b :=
  ⟨[], by simpa using h, by simp⟩

theorem Posts.then {a b c : Agent} (h : Posts a b) (hsignals : c.signals = b.signals)
    (hsession : c.session = b.session) (hours : c.ours = b.ours) : Posts a c := by
  obtain ⟨ms, hms, truthful⟩ := h
  exact ⟨ms, hsignals.trans hms, fun m hm => hsession ▸ hours ▸ truthful m hm⟩

theorem Posts.trans {a b c : Agent} (h : Posts a b) (h' : Posts b c)
    (hsession : c.session = b.session) (hours : b.ours ⊆ c.ours) : Posts a c := by
  obtain ⟨ms, hms, truthful⟩ := h
  obtain ⟨ns, hns, truthful'⟩ := h'
  refine ⟨ms ++ ns, by rw [hns, hms, List.append_assoc], fun m hm => ?_⟩
  rcases List.mem_append.1 hm with hm | hm
  · rw [hsession]
    exact (truthful m hm).mono hours
  · exact truthful' m hm

theorem finishGathering_posts (a : Agent) : Posts a a.finishGathering := by
  unfold finishGathering
  split
  · exact .silent rfl
  · refine ⟨_, rfl, fun m hm => ?_⟩
    rw [List.mem_singleton.1 hm]
    exact .of_gatheringDone ..

theorem start_posts {a : Agent} (h : a.state = .new) (now : Nat) (addresses : List SocketAddress)
    (includeLoopback : Bool) (stunServer : Option SocketAddress) (id : TransactionId) :
    Posts a (a.start now addresses includeLoopback stunServer id) := by
  have described : Posts a ({ a with
      state := .checking
      startedAt := some now
      ours := Candidate.gather addresses includeLoopback
      checks := a.checks.start now }.signal .agentLocalDescription
        (Description.payload ⟨a.session, Candidate.gather addresses includeLoopback⟩)) := by
    refine ⟨_, rfl, fun m hm => ?_⟩
    rw [List.mem_singleton.1 hm]
    exact .of_description ..
  unfold start
  rw [if_pos h]
  cases stunServer with
  | none =>
    have finish := finishGathering_keeps ({ a with
      state := .checking
      startedAt := some now
      ours := Candidate.gather addresses includeLoopback
      checks := a.checks.start now }.signal .agentLocalDescription
        (Description.payload ⟨a.session, Candidate.gather addresses includeLoopback⟩))
    exact (described.trans (finishGathering_posts _) finish.session fun _ h => finish.ours ▸ h).then
      rfl rfl rfl
  | some server => exact described.then rfl rfl rfl

theorem handleStun_posts (a : Agent) (datagram : Bytes) : Posts a (a.handleStun datagram) := by
  unfold handleStun
  split
  · exact .silent rfl
  · split
    · exact .silent rfl
    · rename_i mapped _
      cases a.reflexiveCandidate mapped with
      | none => exact a.finishGathering_posts
      | some c =>
        have added : Posts a (a.addOurs c) := by
          refine ⟨_, rfl, fun m hm => ?_⟩
          rw [List.mem_singleton.1 hm]
          exact .of_candidate _ _ (by simp [addOurs, signal])
        have finish := finishGathering_keeps (a.addOurs c)
        exact added.trans (finishGathering_posts _) finish.session fun _ h => finish.ours ▸ h

theorem tickQuery_posts (a : Agent) (now : Nat) : Posts a (a.tickQuery now) := by
  unfold tickQuery
  split
  · exact .silent rfl
  · split
    · exact a.finishGathering_posts
    · split <;> exact .silent rfl

/-- **What an event posts is true of the agent after it.** -/
theorem step_posts (a : Agent) {e : Event} (h : e ≠ .takeSignals) : Posts a (a.step e) := by
  cases e with
  | start now addresses includeLoopback stunServer id =>
    by_cases hstate : a.state = .new
    · exact start_posts hstate ..
    · exact .silent (by simp [step, start, hstate])
  | signal kind data now id => exact .silent (applySignal_signals ..)
  | datagram source octets now id =>
    have handled : Posts a (a.handleDatagram source octets now).1 := by
      unfold handleDatagram
      split
      · exact a.handleStun_posts octets
      · exact .silent (a.handleBinding_listens ..).signals
      · exact .silent (a.handleKeepalive_listens ..).signals
      · split <;> exact .silent rfl
      · exact .silent rfl
    have keeps := updateState_keeps (a.handleDatagram source octets now).1 now id
    exact handled.then (updateState_signals ..) keeps.session keeps.ours
  | tick now checkId id =>
    have checks := tickChecks_keeps (a.tickQuery now) now checkId
    have path := tickKeepalive_keeps ((a.tickQuery now).tickChecks now checkId) now
    have keeps := updateState_keeps (((a.tickQuery now).tickChecks now checkId).tickKeepalive now)
      now id
    have kept := (checks.trans path).trans keeps
    refine (a.tickQuery_posts now).then ?_ kept.session kept.ours
    have listens := (tickChecks_listens (a.tickQuery now) now checkId).trans
      (tickKeepalive_listens _ now)
    exact (updateState_signals ..).trans listens.signals
  | touch now => exact .silent rfl
  | setControlling controlling =>
    refine .silent ?_
    simp only [step, setControlling]
    split <;> rfl
  | takeDatagrams => exact .silent rfl
  | takeSignals => exact absurd rfl h

end Agent
end Parley
