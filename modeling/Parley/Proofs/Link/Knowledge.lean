import Parley.Proofs.Link.Lifecycle
/-!
What an agent knows of the two sides.

An agent that has not started has no candidates, and from then on none is forgotten (`Persists`).
What it takes for a candidate of the peer's it has been told of, in a description or a notice, or it
is where a check has come from (`Told`).
-/
namespace Parley
namespace Agent

/-! ### Before the start -/

/-- An agent that has not started has no candidates, and nothing is asked of a server. -/
def Blank (a : Agent) : Prop := a.state = .new → a.ours = [] ∧ a.query = none

theorem new_of_step {a : Agent} (ha : a.Grounded) {e : Event} (h : (a.step e).state = .new) :
    a.state = .new := by
  have moved := (step_moves ha e).2.1
  rw [h] at moved
  cases hstate : a.state <;> simp [hstate, AgentState.successors] at moved ⊢

theorem handleDatagram_blank {a : Agent} (hours : a.ours = []) (hquery : a.query = none)
    (source : SocketAddress) (octets : Bytes) (now : Nat) :
    (a.handleDatagram source octets now).1.ours = [] ∧
      (a.handleDatagram source octets now).1.query = none := by
  have listens : Listens a (a.handleDatagram source octets now).1 := by
    unfold handleDatagram
    split
    · simp only [handleStun, hquery]
      exact .refl a
    · exact a.handleBinding_listens ..
    · exact a.handleKeepalive_listens ..
    · split
      · exact ⟨rfl, rfl, rfl, rfl⟩
      · exact .refl a
    · exact .refl a
  exact ⟨listens.ours.trans hours, listens.query.trans hquery⟩

theorem step_blank {a : Agent} (ha : a.Grounded) (h : a.Blank) (e : Event) : (a.step e).Blank := by
  intro hafter
  have hstate := new_of_step ha hafter
  obtain ⟨hours, hquery⟩ := h hstate
  cases e with
  | start now addresses includeLoopback stunServer id =>
    have learns := start_learns hstate now addresses includeLoopback stunServer id
    exact absurd (learns.state.symm.trans hafter) (by simp)
  | signal kind data now id =>
    rcases a.applySignal_cases kind data now id with ⟨b, received, applied⟩ | ⟨_, -, applied⟩
    · simp only [step, applied]
      have hb : b.state = .new := received.learns.state.trans hstate
      rw [updateState_rests (by simp [hb]) (by simp [hb])]
      exact ⟨received.listens.ours.trans hours, received.listens.query.trans hquery⟩
    · simp only [step, applied]
      exact ⟨hours, hquery⟩
  | datagram source octets now id =>
    have handled := handleDatagram_blank hours hquery source octets now
    have hb := (a.handleDatagram_learns source octets now).state.trans hstate
    simp only [step, onDatagram]
    rwa [updateState_rests (by simp [hb]) (by simp [hb])]
  | tick now checkId id =>
    have unasked : a.tickQuery now = a := by simp [tickQuery, hquery]
    have listens := (a.tickChecks_listens now checkId).trans (tickKeepalive_listens _ now)
    have idle : ((a.tickChecks now checkId).tickKeepalive now).state ≠ .checking ∧
        ((a.tickChecks now checkId).tickKeepalive now).state ≠ .connected := by
      have before := (a.tickChecks_learns now checkId).state.trans hstate
      rcases tickKeepalive_cases (a.tickChecks now checkId) now with
        kept | ⟨k, k', -, -, -, hlost⟩
      · rw [kept.state, before]
        decide
      · rw [hlost]
        exact ⟨by simp, by simp⟩
    simp only [step, tick, unasked]
    rw [updateState_rests idle.1 idle.2]
    exact ⟨listens.ours.trans hours, listens.query.trans hquery⟩
  | setControlling controlling =>
    simp only [step, setControlling]
    split <;> exact ⟨hours, hquery⟩
  | touch | takeDatagrams | takeSignals => exact ⟨hours, hquery⟩

theorem Reachable.blank {a : Agent} (h : a.Reachable) : a.Blank := by
  have both : a.Grounded ∧ a.Blank :=
    h.induct (P := fun a => a.Grounded ∧ a.Blank)
      (fun peer controlling session now => ⟨new_grounded .., fun _ => ⟨rfl, rfl⟩⟩)
      fun a e ha => ⟨(step_moves ha.1 e).1, step_blank ha.1 ha.2 e⟩
  exact both.2

/-- An agent has a candidate of the version of an address. -/
def Covers (a : Agent) (address : SocketAddress) : Prop :=
  ∃ c ∈ a.ours, c.address.isV4 = address.isV4

theorem Covers.mono {a b : Agent} {address : SocketAddress} (h : a.Covers address)
    (hours : a.ours ⊆ b.ours) : b.Covers address := by
  obtain ⟨c, hc, hv⟩ := h
  exact ⟨c, hours hc, hv⟩

theorem Covers.congr {a : Agent} {address address' : SocketAddress} (h : a.Covers address)
    (hv : address'.isV4 = address.isV4) : a.Covers address' := by
  obtain ⟨c, hc, hv'⟩ := h
  exact ⟨c, hc, hv'.trans hv.symm⟩

/-- An agent with a candidate has started. -/
theorem Covers.started {a : Agent} {address : SocketAddress} (h : a.Covers address)
    (ha : a.Blank) : a.state ≠ .new := by
  intro hstate
  obtain ⟨c, hc, -⟩ := h
  rw [(ha hstate).1] at hc
  cases hc

/-! ### What lasts -/

/-- Two states of an agent of which the second one has the role and the session of the first one,
and knows as much or more. -/
structure Persists (a b : Agent) : Prop where
  controlling : b.controlling = a.controlling
  session : b.session = a.session
  ours : a.ours ⊆ b.ours
  theirs : a.theirs ⊆ b.theirs

theorem Learns.persists {a b c : Agent} (h : Learns a b) (h' : Keeps b c) : Persists a c :=
  ⟨h'.controlling.trans h.controlling, h'.session.trans h.session, h'.ours ▸ h.ours,
    h'.theirs ▸ h.theirs⟩

/-- **Nothing is forgotten**, and the role stays unless it is set. -/
theorem step_persists {a : Agent} (ha : a.Blank) {e : Event}
    (he : ∀ controlling, e ≠ .setControlling controlling) : Persists a (a.step e) := by
  cases e with
  | start now addresses includeLoopback stunServer id =>
    by_cases hnew : a.state = .new
    · have learns := start_learns hnew now addresses includeLoopback stunServer id
      refine ⟨learns.controlling, learns.session, ?_, learns.theirs⟩
      rw [(ha hnew).1]
      exact List.nil_subset _
    · simp only [step, start, if_neg hnew]
      exact (Learns.refl a).persists (.refl a)
  | signal kind data now id =>
    rcases a.applySignal_cases kind data now id with ⟨b, received, applied⟩ | ⟨_, -, applied⟩
    · simp only [step, applied]
      have learns := (a.touch_learns now).trans received.learns
      exact learns.persists (b.updateState_keeps now id)
    · simp only [step, applied]
      exact (a.touch_learns now).persists (.refl _)
  | datagram source octets now id =>
    exact (a.handleDatagram_learns source octets now).persists (updateState_keeps _ now id)
  | tick now checkId id => exact (Learns.refl a).persists (a.tick_keeps now checkId id)
  | touch now => exact (a.touch_learns now).persists (.refl _)
  | setControlling controlling => exact absurd rfl (he controlling)
  | takeDatagrams | takeSignals => exact ⟨rfl, rfl, fun _ h => h, fun _ h => h⟩

/-- Whom an agent negotiates with, and in which session, is settled when it is made. -/
theorem step_identity (a : Agent) (e : Event) :
    (a.step e).peer = a.peer ∧ (a.step e).session = a.session := by
  cases e with
  | start now addresses includeLoopback stunServer id =>
    by_cases hnew : a.state = .new
    · have learns := start_learns hnew now addresses includeLoopback stunServer id
      exact ⟨learns.peer, learns.session⟩
    · rw [step, start, if_neg hnew]
      exact ⟨rfl, rfl⟩
  | signal kind data now id =>
    rcases a.applySignal_cases kind data now id with ⟨b, received, applied⟩ | ⟨_, -, applied⟩
    · simp only [step, applied]
      have learns := (a.touch_learns now).trans received.learns
      have keeps := b.updateState_keeps now id
      exact ⟨keeps.peer.trans learns.peer, keeps.session.trans learns.session⟩
    · simp only [step, applied]
      exact ⟨rfl, rfl⟩
  | datagram source octets now id =>
    have learns := a.handleDatagram_learns source octets now
    have keeps := (a.handleDatagram source octets now).1.updateState_keeps now id
    exact ⟨keeps.peer.trans learns.peer, keeps.session.trans learns.session⟩
  | tick now checkId id =>
    have keeps := a.tick_keeps now checkId id
    exact ⟨keeps.peer, keeps.session⟩
  | setControlling controlling =>
    rw [step, setControlling]
    split <;> exact ⟨rfl, rfl⟩
  | touch | takeDatagrams | takeSignals => exact ⟨rfl, rfl⟩

theorem run_identity (a : Agent) (es : List Event) :
    (a.run es).peer = a.peer ∧ (a.run es).session = a.session := by
  induction es generalizing a with
  | nil => exact ⟨rfl, rfl⟩
  | cons e es ih =>
    obtain ⟨peer, session⟩ := a.step_identity e
    exact ⟨(ih _).1.trans peer, (ih _).2.trans session⟩

/-- The role of an agent that has started stays. -/
theorem step_role {a : Agent} (ha : a.Blank) {e : Event} (h : (a.step e).state ≠ .new) :
    (a.step e).controlling = a.controlling := by
  by_cases he : ∃ controlling, e = .setControlling controlling
  · obtain ⟨controlling, rfl⟩ := he
    rw [step, setControlling] at h ⊢
    split
    · rename_i hnew
      rw [if_pos hnew] at h
      exact absurd hnew.1 h
    · rfl
  · exact (step_persists ha (not_exists.1 he)).controlling

/-! ### What is told -/

/-- How an event brings a candidate of the peer's. -/
inductive Told : Event → Candidate → Prop
  | described {data now id d c} : Description.ofPayload? data = some d → c ∈ d.candidates →
      Told (.signal .agentLocalDescription data now id) c
  | noticed {data now id n} : CandidateNotice.ofPayload? data = some n →
      Told (.signal .agentCandidate data now id) n.candidate
  | checked {e source r c} : e.request? = some (source, r) → c.address = source → Told e c

theorem mem_addTheirs {a : Agent} {c d : Candidate} (h : d ∈ (a.addTheirs c).theirs) :
    d ∈ a.theirs ∨ d = c := by
  unfold addTheirs at h
  split at h
  · exact .inl h
  · simp only at h
    split at h <;> simpa using h

theorem mem_foldl_addTheirs {cs : List Candidate} {a : Agent} {d : Candidate}
    (h : d ∈ (cs.foldl addTheirs a).theirs) : d ∈ a.theirs ∨ d ∈ cs := by
  induction cs generalizing a with
  | nil => exact .inl h
  | cons c cs ih =>
    rcases ih h with h | h
    · rcases mem_addTheirs h with h | rfl
      · exact .inl h
      · exact .inr (List.mem_cons_self ..)
    · exact .inr (List.mem_cons_of_mem _ h)

theorem Received.theirs {a b : Agent} {kind : MessageKind} {data : String}
    (h : Received a kind data b) {c : Candidate} (hc : c ∈ b.theirs) (now : Nat)
    (id : TransactionId) : c ∈ a.theirs ∨ Told (.signal kind data now id) c := by
  cases h with
  | description hkind hd =>
    rename_i d
    have adopted : (a.adopt d.session).theirs = a.theirs := by
      unfold adopt
      split <;> rfl
    subst hkind
    exact (mem_foldl_addTheirs hc).imp (fun h => adopted ▸ h) fun h => .described hd h
  | candidate hkind hn hs =>
    rename_i n b
    have taken : b.theirs = a.theirs := by rw [takeSession_eq_none hs]
    subst hkind
    rcases mem_addTheirs hc with h | rfl
    · exact .inl (taken ▸ h)
    · exact .inr (.noticed hn)
  | ping => exact .inl hc
  | gatheringDone _ _ _ hs =>
    rw [takeSession_eq_none hs] at hc
    exact .inl hc

theorem handleRequest_theirs {a : Agent} {source : SocketAddress} {r : BindingRequest}
    {c : Candidate} (h : c ∈ (a.handleRequest source r).theirs) :
    c ∈ a.theirs ∨ c.address = source := by
  have learned : ∀ (b : Agent), c ∈ (b.learnTheirs source r.priority).theirs →
      c ∈ b.theirs ∨ c.address = source := by
    intro b h
    unfold learnTheirs at h
    split at h
    · exact .inl h
    · split at h
      · exact .inl h
      · rcases List.mem_append.1 h with h | h
        · exact .inl h
        · rw [List.mem_singleton.1 h]
          exact .inr rfl
  have answered : ∀ (b : Agent), (b.answerCheck source r.useCandidate).theirs = b.theirs := by
    intro b
    unfold answerCheck
    split <;> rfl
  unfold handleRequest at h
  simp only at h
  split at h
  · exact .inl h
  · rw [answered] at h
    exact learned (a.queue source (BindingMessage.response (.accept r.id source)).encode) h

theorem handleDatagram_theirs {a : Agent} {source : SocketAddress} {octets : Bytes} {now : Nat}
    {c : Candidate} (h : c ∈ (a.handleDatagram source octets now).1.theirs)
    (id : TransactionId) : c ∈ a.theirs ∨ Told (.datagram source octets now id) c := by
  have stun : (a.handleStun octets).theirs = a.theirs := by
    have finish : ∀ a : Agent, a.finishGathering.theirs = a.theirs :=
      fun a => a.finishGathering_keeps.theirs
    unfold handleStun
    split
    · rfl
    · split
      · rfl
      · rename_i mapped _
        cases a.reflexiveCandidate mapped <;> exact finish _
  unfold handleDatagram at h
  split at h
  · exact .inl (stun ▸ h)
  · unfold handleBinding at h
    split at h
    · rename_i r hdecode
      have hr : Event.request? (.datagram source octets now id) = some (source, r) := by
        simp [Event.request?, requestIn?, hdecode]
      exact (handleRequest_theirs h).imp_right (.checked hr)
    · exact .inl h
    · exact .inl h
  · refine .inl ?_
    unfold handleKeepalive at h
    split at h <;> exact h
  · split at h <;> exact .inl h
  · exact .inl h

/-- **A candidate of the peer's has been told of.** -/
theorem step_theirs (a : Agent) {e : Event} {c : Candidate} (h : c ∈ (a.step e).theirs) :
    c ∈ a.theirs ∨ Told e c := by
  cases e with
  | start now addresses includeLoopback stunServer id =>
    refine .inl ?_
    by_cases hnew : a.state = .new
    · have kept : (a.start now addresses includeLoopback stunServer id).theirs = a.theirs := by
        unfold start
        rw [if_pos hnew]
        cases stunServer with
        | none => exact (finishGathering_keeps _).theirs
        | some server => rfl
      exact kept ▸ h
    · simpa only [step, start, if_neg hnew] using h
  | signal kind data now id =>
    rcases a.applySignal_cases kind data now id with ⟨b, received, applied⟩ | ⟨_, -, applied⟩
    · simp only [step, applied] at h
      rw [(b.updateState_keeps now id).theirs] at h
      exact received.theirs h now id
    · simp only [step, applied] at h
      exact .inl h
  | datagram source octets now id =>
    simp only [step, onDatagram] at h
    rw [(updateState_keeps _ now id).theirs] at h
    exact handleDatagram_theirs h id
  | tick now checkId id =>
    exact .inl ((a.tick_keeps now checkId id).theirs ▸ h)
  | setControlling controlling =>
    refine .inl ?_
    simp only [step, setControlling] at h
    split at h <;> exact h
  | touch | takeDatagrams | takeSignals => exact .inl h

end Agent
end Parley
