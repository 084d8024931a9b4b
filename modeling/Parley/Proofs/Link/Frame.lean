import Parley.Link.Agent
import Parley.Proofs.Link.Keepalive
/-!
What the operations of an agent leave as it is.

The operations that follow the checks keep what is known of the two sides (`Keeps`). Those that take
what has arrived keep how far the agent has come, and add to what is known (`Learns`); what it has
found and nominated stays as well (`Abides`). A message is taken (`Received`) or refused
(`Refused`), and `applySignal_cases` is all that it may do.
-/
namespace Parley

namespace Agent

/-- Two states of an agent that agree on who the sides are, what is known of them, and since when
the negotiation runs. Only a start, a message or a new candidate changes any of it. -/
structure Keeps (a b : Agent) : Prop where
  peer : b.peer = a.peer
  controlling : b.controlling = a.controlling
  session : b.session = a.session
  remoteSession : b.remoteSession = a.remoteSession
  remoteGathered : b.remoteGathered = a.remoteGathered
  ours : b.ours = a.ours
  theirs : b.theirs = a.theirs
  startedAt : b.startedAt = a.startedAt

theorem Keeps.refl (a : Agent) : Keeps a a := ⟨rfl, rfl, rfl, rfl, rfl, rfl, rfl, rfl⟩

theorem Keeps.trans {a b c : Agent} (h : Keeps a b) (h' : Keeps b c) : Keeps a c :=
  ⟨h'.peer.trans h.peer, h'.controlling.trans h.controlling, h'.session.trans h.session,
    h'.remoteSession.trans h.remoteSession, h'.remoteGathered.trans h.remoteGathered,
    h'.ours.trans h.ours, h'.theirs.trans h.theirs, h'.startedAt.trans h.startedAt⟩

theorem selectBest_keeps (a : Agent) (now : Nat) : Keeps a (a.selectBest now) := by
  unfold selectBest
  split <;> exact ⟨rfl, rfl, rfl, rfl, rfl, rfl, rfl, rfl⟩

theorem withdrawNomination_keeps (a : Agent) : Keeps a a.withdrawNomination := by
  unfold withdrawNomination
  split <;> exact ⟨rfl, rfl, rfl, rfl, rfl, rfl, rfl, rfl⟩

theorem nominate_keeps (a : Agent) (now : Nat) (id : TransactionId) :
    Keeps a (a.nominate now id) := by
  unfold nominate
  repeat' split
  all_goals exact ⟨rfl, rfl, rfl, rfl, rfl, rfl, rfl, rfl⟩

theorem complete_keeps (a : Agent) (now : Nat) : Keeps a (a.complete now) := by
  unfold complete
  split <;> exact ⟨rfl, rfl, rfl, rfl, rfl, rfl, rfl, rfl⟩

theorem settle_keeps (a : Agent) (now : Nat) (id : TransactionId) : Keeps a (a.settle now id) :=
  (a.withdrawNomination_keeps.trans (nominate_keeps _ now id)).trans (complete_keeps _ now)

theorem updateState_keeps (a : Agent) (now : Nat) (id : TransactionId) :
    Keeps a (a.updateState now id) := by
  unfold updateState
  split
  · split
    · have connect : Keeps a { a with firstSuccess := some now, state := .connected } :=
        ⟨rfl, rfl, rfl, rfl, rfl, rfl, rfl, rfl⟩
      exact (connect.trans (selectBest_keeps _ now)).trans (settle_keeps _ now id)
    · split <;> exact ⟨rfl, rfl, rfl, rfl, rfl, rfl, rfl, rfl⟩
  · split
    · exact ⟨rfl, rfl, rfl, rfl, rfl, rfl, rfl, rfl⟩
    · exact (a.selectBest_keeps now).trans (settle_keeps _ now id)
  · exact .refl a

theorem finishGathering_keeps (a : Agent) : Keeps a a.finishGathering := by
  unfold finishGathering
  split <;> exact ⟨rfl, rfl, rfl, rfl, rfl, rfl, rfl, rfl⟩

theorem tickQuery_keeps (a : Agent) (now : Nat) : Keeps a (a.tickQuery now) := by
  unfold tickQuery
  split
  · exact .refl a
  · split
    · exact a.finishGathering_keeps
    · split <;> exact ⟨rfl, rfl, rfl, rfl, rfl, rfl, rfl, rfl⟩

/-- While the agent searches, a tick sends what the check list has to send. -/
theorem tickChecks_of_active {a : Agent}
    (h : a.state = .checking ∨ a.state = .connected ∨ a.state = .completed) (now : Nat)
    (id : TransactionId) : a.tickChecks now id =
      match (a.checks.handleTimeouts now).nextRequest now id with
      | (checks, some check) => { a with checks }.queueRequest check.destination check.request
      | (checks, none) => { a with checks } := by
  unfold tickChecks
  split
  · rfl
  · rfl
  · rfl
  · rename_i hchecking hconnected hcompleted
    rcases h with h | h | h
    · exact absurd h hchecking
    · exact absurd h hconnected
    · exact absurd h hcompleted

theorem tickChecks_of_inactive {a : Agent}
    (h : ¬(a.state = .checking ∨ a.state = .connected ∨ a.state = .completed)) (now : Nat)
    (id : TransactionId) : a.tickChecks now id = a := by
  unfold tickChecks
  split
  · exact absurd (.inl ‹_›) h
  · exact absurd (.inr (.inl ‹_›)) h
  · exact absurd (.inr (.inr ‹_›)) h
  · rfl

theorem tickChecks_keeps (a : Agent) (now : Nat) (id : TransactionId) :
    Keeps a (a.tickChecks now id) := by
  unfold tickChecks
  repeat' split
  all_goals exact ⟨rfl, rfl, rfl, rfl, rfl, rfl, rfl, rfl⟩

theorem tickKeepalive_keeps (a : Agent) (now : Nat) : Keeps a (a.tickKeepalive now) := by
  unfold tickKeepalive
  repeat' split
  all_goals exact ⟨rfl, rfl, rfl, rfl, rfl, rfl, rfl, rfl⟩

theorem tick_keeps (a : Agent) (now : Nat) (checkId nominationId : TransactionId) :
    Keeps a (a.tick now checkId nominationId) :=
  ((a.tickQuery_keeps now).trans ((tickChecks_keeps _ now checkId).trans
    (tickKeepalive_keeps _ now))).trans (updateState_keeps _ now nominationId)

/-- Two states of an agent of which the second one knows as much or more of the two sides, and is
the same in how far it has come. -/
structure Learns (a b : Agent) : Prop where
  peer : b.peer = a.peer
  controlling : b.controlling = a.controlling
  session : b.session = a.session
  state : b.state = a.state
  startedAt : b.startedAt = a.startedAt
  selected : b.selected = a.selected
  path : b.keepalive.map Keepalive.path = a.keepalive.map Keepalive.path
  ours : a.ours ⊆ b.ours
  theirs : a.theirs ⊆ b.theirs

theorem Learns.refl (a : Agent) : Learns a a :=
  ⟨rfl, rfl, rfl, rfl, rfl, rfl, rfl, fun _ h => h, fun _ h => h⟩

theorem Learns.trans {a b c : Agent} (h : Learns a b) (h' : Learns b c) : Learns a c :=
  ⟨h'.peer.trans h.peer, h'.controlling.trans h.controlling, h'.session.trans h.session,
    h'.state.trans h.state, h'.startedAt.trans h.startedAt, h'.selected.trans h.selected,
    h'.path.trans h.path, fun _ hc => h'.ours (h.ours hc),
    fun _ hc => h'.theirs (h.theirs hc)⟩

theorem finishGathering_learns (a : Agent) : Learns a a.finishGathering := by
  unfold finishGathering
  split
  · exact .refl a
  · exact ⟨rfl, rfl, rfl, rfl, rfl, rfl, rfl, fun _ h => h, fun _ h => h⟩

theorem withdrawNomination_learns (a : Agent) : Learns a a.withdrawNomination := by
  unfold withdrawNomination
  split <;> exact ⟨rfl, rfl, rfl, rfl, rfl, rfl, rfl, fun _ h => h, fun _ h => h⟩

theorem nominate_learns (a : Agent) (now : Nat) (id : TransactionId) :
    Learns a (a.nominate now id) := by
  unfold nominate
  repeat' split
  all_goals exact ⟨rfl, rfl, rfl, rfl, rfl, rfl, rfl, fun _ h => h, fun _ h => h⟩

theorem tickQuery_learns (a : Agent) (now : Nat) : Learns a (a.tickQuery now) := by
  unfold tickQuery
  split
  · exact .refl a
  · split
    · exact a.finishGathering_learns
    · split <;> exact ⟨rfl, rfl, rfl, rfl, rfl, rfl, rfl, fun _ h => h, fun _ h => h⟩

theorem tickChecks_learns (a : Agent) (now : Nat) (id : TransactionId) :
    Learns a (a.tickChecks now id) := by
  unfold tickChecks
  repeat' split
  all_goals exact ⟨rfl, rfl, rfl, rfl, rfl, rfl, rfl, fun _ h => h, fun _ h => h⟩

/-- Keeping a path alive changes nothing else, unless it loses the path just now. -/
theorem tickKeepalive_cases (a : Agent) (now : Nat) :
    Learns a (a.tickKeepalive now) ∨ ∃ k k', a.keepalive = some k ∧ k.lost = false ∧
      k'.path = (k.remote, true) ∧ a.tickKeepalive now =
        { a with keepalive := some k', state := .disconnected, selected := none } := by
  unfold tickKeepalive
  split
  · exact .inl (.refl a)
  · rename_i k hk
    obtain ⟨hpath, hflag⟩ := k.path_checkTimeout now
    split
    · rename_i k' h
      rw [h] at hpath hflag
      exact .inr ⟨k, k', hk, hflag rfl, by simpa using hpath, rfl⟩
    · rename_i k' h
      rw [h, Bool.or_false] at hpath
      have polled := k'.path_poll now
      left
      split
      all_goals
        rename_i hpoll
        rw [hpoll, hpath] at polled
        refine ⟨rfl, rfl, rfl, rfl, rfl, rfl, ?_, fun _ h => h, fun _ h => h⟩
        rw [hk]
        exact congrArg some polled

/-- Starting sets the clock and gathers; everything else it does adds to that. -/
theorem start_learns {a : Agent} (h : a.state = .new) (now : Nat) (addresses : List SocketAddress)
    (includeLoopback : Bool) (stunServer : Option SocketAddress) (id : TransactionId) :
    Learns { a with
        state := .checking
        startedAt := some now
        ours := Candidate.gather addresses includeLoopback }
      (a.start now addresses includeLoopback stunServer id) := by
  unfold start
  rw [if_pos h]
  cases stunServer with
  | none =>
    have finish := finishGathering_learns ({ a with
      state := .checking
      startedAt := some now
      ours := Candidate.gather addresses includeLoopback
      checks := a.checks.start now }.signal .agentLocalDescription
        (Description.payload ⟨a.session, Candidate.gather addresses includeLoopback⟩))
    exact ⟨finish.peer, finish.controlling, finish.session, finish.state, finish.startedAt,
      finish.selected, finish.path, finish.ours, finish.theirs⟩
  | some server => exact ⟨rfl, rfl, rfl, rfl, rfl, rfl, rfl, fun _ h => h, fun _ h => h⟩

theorem handleStun_learns (a : Agent) (datagram : Bytes) : Learns a (a.handleStun datagram) := by
  unfold handleStun
  split
  · exact .refl a
  · split
    · exact .refl a
    · rename_i mapped _
      cases a.reflexiveCandidate mapped with
      | none => exact a.finishGathering_learns
      | some c =>
        have added : Learns a (a.addOurs c) :=
          ⟨rfl, rfl, rfl, rfl, rfl, rfl, rfl, List.subset_append_left .., fun _ h => h⟩
        exact added.trans (finishGathering_learns _)

theorem addTheirs_learns (a : Agent) (c : Candidate) : Learns a (a.addTheirs c) := by
  unfold addTheirs
  split
  · exact .refl a
  · simp only
    split <;> exact ⟨rfl, rfl, rfl, rfl, rfl, rfl, rfl, fun _ h => h, List.subset_append_left ..⟩

theorem foldl_addTheirs_learns (cs : List Candidate) (a : Agent) :
    Learns a (cs.foldl addTheirs a) := by
  induction cs generalizing a with
  | nil => exact .refl a
  | cons c cs ih => exact (a.addTheirs_learns c).trans (ih _)

theorem learnTheirs_learns (a : Agent) (source : SocketAddress) (priority : UInt32) :
    Learns a (a.learnTheirs source priority) := by
  unfold learnTheirs
  split
  · exact .refl a
  · split
    · exact .refl a
    · exact ⟨rfl, rfl, rfl, rfl, rfl, rfl, rfl, fun _ h => h, List.subset_append_left ..⟩

theorem answerCheck_learns (a : Agent) (source : SocketAddress) (useCandidate : Bool) :
    Learns a (a.answerCheck source useCandidate) := by
  unfold answerCheck
  split
  · exact .refl a
  · exact ⟨rfl, rfl, rfl, rfl, rfl, rfl, rfl, fun _ h => h, fun _ h => h⟩

theorem handleRequest_learns (a : Agent) (source : SocketAddress) (r : BindingRequest) :
    Learns a (a.handleRequest source r) := by
  have queued : Learns a (a.queue source (BindingMessage.response (.accept r.id source)).encode) :=
    ⟨rfl, rfl, rfl, rfl, rfl, rfl, rfl, fun _ h => h, fun _ h => h⟩
  unfold handleRequest
  simp only
  split
  · exact queued
  · exact queued.trans ((learnTheirs_learns _ source r.priority).trans (answerCheck_learns _ ..))

theorem handleBinding_learns (a : Agent) (source : SocketAddress) (datagram : Bytes) :
    Learns a (a.handleBinding source datagram) := by
  unfold handleBinding
  split
  · exact a.handleRequest_learns source _
  · exact ⟨rfl, rfl, rfl, rfl, rfl, rfl, rfl, fun _ h => h, fun _ h => h⟩
  · exact .refl a

@[simp] theorem selectBest_checks (a : Agent) (now : Nat) :
    (a.selectBest now).checks = a.checks := by
  unfold selectBest
  split <;> rfl

@[simp] theorem selectBest_datagrams (a : Agent) (now : Nat) :
    (a.selectBest now).datagrams = a.datagrams := by
  unfold selectBest
  split <;> rfl

@[simp] theorem withdrawNomination_checks (a : Agent) :
    a.withdrawNomination.checks = a.checks := by
  unfold withdrawNomination
  split <;> rfl

@[simp] theorem withdrawNomination_datagrams (a : Agent) :
    a.withdrawNomination.datagrams = a.datagrams := by
  unfold withdrawNomination
  split <;> rfl

@[simp] theorem complete_checks (a : Agent) (now : Nat) : (a.complete now).checks = a.checks := by
  unfold complete
  split <;> rfl

@[simp] theorem complete_datagrams (a : Agent) (now : Nat) :
    (a.complete now).datagrams = a.datagrams := by
  unfold complete
  split <;> rfl

@[simp] theorem finishGathering_checks (a : Agent) : a.finishGathering.checks = a.checks := by
  unfold finishGathering
  split <;> rfl

@[simp] theorem finishGathering_datagrams (a : Agent) :
    a.finishGathering.datagrams = a.datagrams := by
  unfold finishGathering
  split <;> rfl

theorem handleKeepalive_learns (a : Agent) (source : SocketAddress) (isResponse : Bool)
    (sequence : UInt32) (now : Nat) :
    Learns a (a.handleKeepalive source isResponse sequence now) := by
  unfold handleKeepalive
  split
  · refine ⟨rfl, rfl, rfl, rfl, rfl, rfl, ?_, fun _ h => h, fun _ h => h⟩
    cases a.keepalive with
    | none => rfl
    | some k => simp [Keepalive.path_recordResponse]
  · exact ⟨rfl, rfl, rfl, rfl, rfl, rfl, rfl, fun _ h => h, fun _ h => h⟩

theorem handleDatagram_learns (a : Agent) (source : SocketAddress) (octets : Bytes) (now : Nat) :
    Learns a (a.handleDatagram source octets now).1 := by
  unfold handleDatagram
  split
  · exact a.handleStun_learns octets
  · exact a.handleBinding_learns source octets
  · exact a.handleKeepalive_learns ..
  · split
    · exact ⟨rfl, rfl, rfl, rfl, rfl, rfl, rfl, fun _ h => h, fun _ h => h⟩
    · exact .refl a
  · exact .refl a

/-! ### Following the checks -/

theorem selectBest_state (a : Agent) (now : Nat) : (a.selectBest now).state = a.state := by
  unfold selectBest
  split <;> rfl

/-- How an agent may move on: a path has been found, or none can be; the paths have failed, or one
of those that work is settled on; and otherwise it stays as it is. -/
inductive Follows (a : Agent) (now : Nat) (id : TransactionId) : Agent → Prop
  | connects : a.state = .checking → a.checks.hasSucceeded = true → Follows a now id
      (({ a with firstSuccess := some now, state := .connected }.selectBest now).settle now id)
  | exhausts : a.state = .checking → a.checks.hasSucceeded = false → a.isExhausted now = true →
      Follows a now id { a with state := .failed, query := none }
  | searches : a.state = .checking → a.checks.hasSucceeded = false → a.isExhausted now = false →
      Follows a now id a
  | collapses : a.state = .connected → a.checks.hasSucceeded = false →
      a.checks.isComplete = true →
      Follows a now id { a with state := .failed, selected := none, keepalive := none }
  | settles : a.state = .connected → (a.checks.hasSucceeded = false → a.checks.isComplete = false) →
      Follows a now id ((a.selectBest now).settle now id)
  | rests : a.state ≠ .checking → a.state ≠ .connected → Follows a now id a

theorem updateState_follows (a : Agent) (now : Nat) (id : TransactionId) :
    Follows a now id (a.updateState now id) := by
  unfold updateState
  split
  · rename_i hstate
    cases hworks : a.checks.hasSucceeded
    · cases hexhausted : a.isExhausted now
      · exact .searches hstate hworks hexhausted
      · exact .exhausts hstate hworks hexhausted
    · exact .connects hstate hworks
  · rename_i hstate
    split
    · rename_i hover
      simp only [Bool.and_eq_true, Bool.not_eq_true'] at hover
      exact .collapses hstate hover.1 hover.2
    · rename_i hover
      exact .settles hstate (by simpa using hover)
  · rename_i hchecking hconnected
    exact .rests hchecking hconnected

theorem updateState_rests {a : Agent} (hchecking : a.state ≠ .checking)
    (hconnected : a.state ≠ .connected) (now : Nat) (id : TransactionId) :
    a.updateState now id = a := by
  unfold updateState
  split
  · exact absurd ‹_› hchecking
  · exact absurd ‹_› hconnected
  · rfl

/-! ### Messages -/

theorem adopt_checks (a : Agent) (session : UInt64) :
    (a.adopt session).checks = a.checks ∧ (a.adopt session).datagrams = a.datagrams := by
  unfold adopt
  split <;> exact ⟨rfl, rfl⟩

theorem adopt_learns (a : Agent) (session : UInt64) : Learns a (a.adopt session) := by
  unfold adopt
  split
  · exact .refl a
  · exact ⟨rfl, rfl, rfl, rfl, rfl, rfl, rfl, fun _ h => h, fun _ h => h⟩

/-- Taking up a session, or finding it taken up. -/
theorem takeSession_eq_none {a b : Agent} {session : UInt64}
    (h : a.takeSession session = (b, none)) : b = { a with remoteSession := some session } := by
  unfold takeSession at h
  split at h
  · cases h
    rfl
  · rename_i known hknown
    split at h
    · rename_i heq
      cases h
      rw [← heq, ← hknown]
    · cases h

theorem takeSession_of_known {a : Agent} {session : UInt64} (h : a.remoteSession = some session) :
    a.takeSession session = (a, none) := by
  simp [takeSession, h]

/-- A session is refused only because another one is known, and then nothing is changed. -/
theorem takeSession_eq_some {a b : Agent} {session : UInt64} {e : NegotiationError}
    (h : a.takeSession session = (b, some e)) :
    b = a ∧ e = .staleSession session ∧
      ∃ known, a.remoteSession = some known ∧ known ≠ session := by
  unfold takeSession at h
  split at h
  · cases h
  · rename_i known hknown
    split at h
    · cases h
    · rename_i other
      cases h
      exact ⟨rfl, rfl, known, hknown, other⟩

theorem takeSession_learns {a b : Agent} {session : UInt64}
    (h : a.takeSession session = (b, none)) : Learns a b := by
  rw [takeSession_eq_none h]
  exact ⟨rfl, rfl, rfl, rfl, rfl, rfl, rfl, fun _ h => h, fun _ h => h⟩

/-- What a message that is taken does: it is a description, a candidate, the end of the gathering or
a ping. -/
inductive Received (a : Agent) (kind : MessageKind) (data : String) : Agent → Prop
  | description {d} : kind = .agentLocalDescription → Description.ofPayload? data = some d →
      Received a kind data (d.candidates.foldl addTheirs (a.adopt d.session))
  | candidate {n b} : kind = .agentCandidate → CandidateNotice.ofPayload? data = some n →
      a.takeSession n.session = (b, none) → Received a kind data (b.addTheirs n.candidate)
  | ping : kind = .agentGatheringDone → Message.isPing kind data = true → Received a kind data a
  | gatheringDone {g b} : kind = .agentGatheringDone → Message.isPing kind data = false →
      GatheringDone.ofPayload? data = some g → a.takeSession g.session = (b, none) →
      Received a kind data { b with remoteGathered := true }

/-- A payload that is no record of its kind. A ping is not read as one. -/
inductive Malformed (data : String) : MessageKind → Prop
  | description : Description.ofPayload? data = none → Malformed data .agentLocalDescription
  | candidate : CandidateNotice.ofPayload? data = none → Malformed data .agentCandidate
  | gatheringDone : Message.isPing .agentGatheringDone data = false →
      GatheringDone.ofPayload? data = none → Malformed data .agentGatheringDone

/-- A payload that names a session in which it has its place. -/
inductive Names (data : String) : MessageKind → UInt64 → Prop
  | candidate {n} : CandidateNotice.ofPayload? data = some n →
      Names data .agentCandidate n.session
  | gatheringDone {g} : GatheringDone.ofPayload? data = some g →
      Names data .agentGatheringDone g.session

/-- Why a message is refused. -/
inductive Refused (a : Agent) (kind : MessageKind) (data : String) : NegotiationError → Prop
  | malformed : Malformed data kind → Refused a kind data (.malformed kind)
  | stale {known session} : Names data kind session → a.remoteSession = some known →
      known ≠ session → Refused a kind data (.staleSession session)
  | foreign : kind ∉ [.agentLocalDescription, .agentCandidate, .agentGatheringDone] →
      Refused a kind data (.notNegotiation kind)

/-- A message is taken, and the state follows; or it is refused, and all that is noted is that the
peer has been heard of. -/
theorem applySignal_cases (a : Agent) (kind : MessageKind) (data : String) (now : Nat)
    (id : TransactionId) :
    (∃ b, Received (a.touch now) kind data b ∧
      a.applySignal kind data now id = (b.updateState now id, none)) ∨
    ∃ e, Refused a kind data e ∧ a.applySignal kind data now id = (a.touch now, some e) := by
  unfold applySignal
  dsimp only
  split
  · split
    · rename_i hd
      exact .inr ⟨_, .malformed (.description hd), rfl⟩
    · rename_i d hd
      exact .inl ⟨_, .description rfl hd, rfl⟩
  · split
    · rename_i hn
      exact .inr ⟨_, .malformed (.candidate hn), rfl⟩
    · rename_i n hn
      split
      · rename_i hs
        obtain ⟨rfl, rfl, session, hsession, other⟩ := takeSession_eq_some hs
        exact .inr ⟨_, .stale (.candidate hn) hsession other, rfl⟩
      · rename_i hs
        exact .inl ⟨_, .candidate rfl hn hs, rfl⟩
  · split
    · rename_i hping
      exact .inl ⟨_, .ping rfl hping, rfl⟩
    · rename_i hping
      have hping : Message.isPing .agentGatheringDone data = false := by simpa using hping
      split
      · rename_i hg
        exact .inr ⟨_, .malformed (.gatheringDone hping hg), rfl⟩
      · rename_i g hg
        split
        · rename_i hs
          obtain ⟨rfl, rfl, session, hsession, other⟩ := takeSession_eq_some hs
          exact .inr ⟨_, .stale (.gatheringDone hg) hsession other, rfl⟩
        · rename_i hs
          exact .inl ⟨_, .gatheringDone rfl hping hg hs, rfl⟩
  · rename_i hdescription hcandidate hgatheringDone
    refine .inr ⟨_, .foreign ?_, rfl⟩
    simpa using ⟨hdescription, hcandidate, hgatheringDone⟩

theorem applySignal_of_received {a b : Agent} {kind : MessageKind} {data : String} {now : Nat}
    (h : Received (a.touch now) kind data b) (id : TransactionId) :
    a.applySignal kind data now id = (b.updateState now id, none) := by
  cases h with
  | description hkind hd => simp [applySignal, hkind, hd]
  | candidate hkind hn hs => simp [applySignal, hkind, hn, hs]
  | ping hkind hping =>
    subst hkind
    simp [applySignal, hping]
  | gatheringDone hkind hping hg hs =>
    subst hkind
    simp [applySignal, hping, hg, hs]

theorem Received.learns {a b : Agent} {kind : MessageKind} {data : String}
    (h : Received a kind data b) : Learns a b := by
  cases h with
  | description => exact (adopt_learns ..).trans (foldl_addTheirs_learns ..)
  | candidate _ _ hs => exact (takeSession_learns hs).trans (addTheirs_learns ..)
  | ping => exact .refl a
  | gatheringDone _ _ _ hs =>
    rw [takeSession_eq_none hs]
    exact ⟨rfl, rfl, rfl, rfl, rfl, rfl, rfl, fun _ h => h, fun _ h => h⟩

/-- Two states of an agent that agree on what it has to say of itself. What it is told changes none
of it. -/
structure Listens (a b : Agent) : Prop where
  ours : b.ours = a.ours
  gathered : b.gathered = a.gathered
  query : b.query = a.query
  signals : b.signals = a.signals

theorem Listens.refl (a : Agent) : Listens a a := ⟨rfl, rfl, rfl, rfl⟩

theorem Listens.trans {a b c : Agent} (h : Listens a b) (h' : Listens b c) : Listens a c :=
  ⟨h'.ours.trans h.ours, h'.gathered.trans h.gathered, h'.query.trans h.query,
    h'.signals.trans h.signals⟩

theorem addTheirs_listens (a : Agent) (c : Candidate) : Listens a (a.addTheirs c) := by
  unfold addTheirs
  split
  · exact .refl a
  · simp only
    split <;> exact ⟨rfl, rfl, rfl, rfl⟩

theorem foldl_addTheirs_listens (cs : List Candidate) (a : Agent) :
    Listens a (cs.foldl addTheirs a) := by
  induction cs generalizing a with
  | nil => exact .refl a
  | cons c cs ih => exact (a.addTheirs_listens c).trans (ih _)

theorem adopt_listens (a : Agent) (session : UInt64) : Listens a (a.adopt session) := by
  unfold adopt
  split <;> exact ⟨rfl, rfl, rfl, rfl⟩

theorem takeSession_listens {a b : Agent} {session : UInt64}
    (h : a.takeSession session = (b, none)) : Listens a b := by
  rw [takeSession_eq_none h]
  exact ⟨rfl, rfl, rfl, rfl⟩

theorem Received.listens {a b : Agent} {kind : MessageKind} {data : String}
    (h : Received a kind data b) : Listens a b := by
  cases h with
  | description => exact (adopt_listens ..).trans (foldl_addTheirs_listens ..)
  | candidate _ _ hs => exact (takeSession_listens hs).trans (addTheirs_listens ..)
  | ping => exact .refl a
  | gatheringDone _ _ _ hs => exact (takeSession_listens hs).trans ⟨rfl, rfl, rfl, rfl⟩

theorem learnTheirs_listens (a : Agent) (source : SocketAddress) (priority : UInt32) :
    Listens a (a.learnTheirs source priority) := by
  unfold learnTheirs
  repeat' split
  all_goals exact ⟨rfl, rfl, rfl, rfl⟩

theorem answerCheck_listens (a : Agent) (source : SocketAddress) (useCandidate : Bool) :
    Listens a (a.answerCheck source useCandidate) := by
  unfold answerCheck
  split <;> exact ⟨rfl, rfl, rfl, rfl⟩

theorem handleRequest_listens (a : Agent) (source : SocketAddress) (r : BindingRequest) :
    Listens a (a.handleRequest source r) := by
  have queued : Listens a (a.queue source (BindingMessage.response (.accept r.id source)).encode) :=
    ⟨rfl, rfl, rfl, rfl⟩
  unfold handleRequest
  simp only
  split
  · exact queued
  · exact queued.trans ((learnTheirs_listens ..).trans (answerCheck_listens ..))

theorem handleBinding_listens (a : Agent) (source : SocketAddress) (octets : Bytes) :
    Listens a (a.handleBinding source octets) := by
  unfold handleBinding
  split
  · exact a.handleRequest_listens source _
  · exact ⟨rfl, rfl, rfl, rfl⟩
  · exact .refl a

theorem handleKeepalive_listens (a : Agent) (source : SocketAddress) (isResponse : Bool)
    (sequence : UInt32) (now : Nat) :
    Listens a (a.handleKeepalive source isResponse sequence now) := by
  unfold handleKeepalive
  split <;> exact ⟨rfl, rfl, rfl, rfl⟩

theorem tickChecks_listens (a : Agent) (now : Nat) (id : TransactionId) :
    Listens a (a.tickChecks now id) := by
  unfold tickChecks
  repeat' split
  all_goals exact ⟨rfl, rfl, rfl, rfl⟩

theorem tickKeepalive_listens (a : Agent) (now : Nat) : Listens a (a.tickKeepalive now) := by
  unfold tickKeepalive
  repeat' split
  all_goals exact ⟨rfl, rfl, rfl, rfl⟩

/-! ### What following the checks alone changes -/

/-- Two states of an agent that agree on how far it has come with settling on a path: since when one
works, and whether a nomination is out. -/
structure Abides (a b : Agent) : Prop where
  firstSuccess : b.firstSuccess = a.firstSuccess
  nominationSent : b.nominationSent = a.nominationSent

theorem Abides.refl (a : Agent) : Abides a a := ⟨rfl, rfl⟩

theorem Abides.trans {a b c : Agent} (h : Abides a b) (h' : Abides b c) : Abides a c :=
  ⟨h'.firstSuccess.trans h.firstSuccess, h'.nominationSent.trans h.nominationSent⟩

theorem finishGathering_abides (a : Agent) : Abides a a.finishGathering := by
  unfold finishGathering
  split <;> exact ⟨rfl, rfl⟩

theorem handleStun_abides (a : Agent) (datagram : Bytes) : Abides a (a.handleStun datagram) := by
  unfold handleStun
  split
  · exact .refl a
  · split
    · exact .refl a
    · rename_i mapped _
      cases a.reflexiveCandidate mapped with
      | none => exact a.finishGathering_abides
      | some c =>
        have added : Abides a (a.addOurs c) := ⟨rfl, rfl⟩
        exact added.trans (finishGathering_abides _)

theorem foldl_addTheirs_abides (cs : List Candidate) (a : Agent) :
    Abides a (cs.foldl addTheirs a) := by
  induction cs generalizing a with
  | nil => exact .refl a
  | cons c cs ih =>
    have added : Abides a (a.addTheirs c) := by
      unfold addTheirs
      split
      · exact .refl a
      · simp only
        split <;> exact ⟨rfl, rfl⟩
    exact added.trans (ih _)

theorem Received.abides {a b : Agent} {kind : MessageKind} {data : String}
    (h : Received a kind data b) : Abides a b := by
  cases h with
  | description =>
    rename_i d _ _
    have adopted : Abides a (a.adopt d.session) := by
      unfold adopt
      split <;> exact ⟨rfl, rfl⟩
    exact adopted.trans (foldl_addTheirs_abides ..)
  | candidate _ _ hs =>
    rename_i n b _ _
    have taken : Abides a b := by
      rw [takeSession_eq_none hs]
      exact ⟨rfl, rfl⟩
    exact taken.trans (foldl_addTheirs_abides [n.candidate] b)
  | ping => exact .refl a
  | gatheringDone _ _ _ hs =>
    rw [takeSession_eq_none hs]
    exact ⟨rfl, rfl⟩

theorem handleRequest_abides (a : Agent) (source : SocketAddress) (r : BindingRequest) :
    Abides a (a.handleRequest source r) := by
  unfold handleRequest learnTheirs answerCheck
  simp only
  repeat' split
  all_goals exact ⟨rfl, rfl⟩

theorem handleDatagram_abides (a : Agent) (source : SocketAddress) (octets : Bytes) (now : Nat) :
    Abides a (a.handleDatagram source octets now).1 := by
  unfold handleDatagram
  split
  · exact a.handleStun_abides octets
  · unfold handleBinding
    split
    · exact a.handleRequest_abides source _
    · exact ⟨rfl, rfl⟩
    · exact .refl a
  · unfold handleKeepalive
    split <;> exact ⟨rfl, rfl⟩
  · split <;> exact ⟨rfl, rfl⟩
  · exact .refl a

theorem tickQuery_abides (a : Agent) (now : Nat) : Abides a (a.tickQuery now) := by
  unfold tickQuery
  split
  · exact .refl a
  · split
    · exact a.finishGathering_abides
    · split <;> exact ⟨rfl, rfl⟩

theorem tickChecks_abides (a : Agent) (now : Nat) (id : TransactionId) :
    Abides a (a.tickChecks now id) := by
  unfold tickChecks
  repeat' split
  all_goals exact ⟨rfl, rfl⟩

theorem tickKeepalive_abides (a : Agent) (now : Nat) : Abides a (a.tickKeepalive now) := by
  unfold tickKeepalive
  repeat' split
  all_goals exact ⟨rfl, rfl⟩

end Agent
end Parley
