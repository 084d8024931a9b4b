import Parley.Proofs.Link.Posting
import Parley.Proofs.Link.Single
/-!
Agents that have been told of each other.

A `Party` is a new agent that starts at one address of its own and is handed what the other side has
posted, some of it before it starts and the rest after. However the two are ordered, it then waits
to check the one pair that the two addresses form (`Party.stands`).
-/
namespace Parley

namespace CheckList

/-- One candidate of each side makes one pair, which is the next to be checked. -/
theorem addPairs_single {l : CheckList} (h : l.pairs = []) (near far : Candidate)
    (hversion : near.address.isV4 = far.address.isV4) : l.addPairs [near] [far] =
      { l with pairs := [{ Pair.new near far l.controlling with state := .waiting }] } := by
  simp [addPairs, h, combinations, hversion, offer, sortPairs, insertPair, activeFoundations,
    Pair.new, unfreeze]

theorem addPairs_nil {l : CheckList} (h : l.pairs = []) (ours : List Candidate) :
    l.addPairs ours [] = l := by
  obtain ⟨pairs, started, controlling, lastCheck⟩ := l
  cases h
  simp [addPairs, combinations, sortPairs, unfreeze]

end CheckList

namespace Agent

/-- A message that an agent is handed, with the time and an identifier. -/
def hear (m : Message × Nat × TransactionId) : Event := .signal m.1.kind m.1.data m.2.1 m.2.2

/-- A new agent, where and how it starts, and the messages that it is handed before and after. -/
structure Party where
  peer : PeerId
  controlling : Bool
  session : UInt64
  created : Nat
  home : SocketAddress
  includeLoopback : Bool
  startId : TransactionId
  before : List (Message × Nat × TransactionId)
  after : List (Message × Nat × TransactionId)

/-- The agent of a party that starts at `t₀`, without a STUN server. -/
def Party.agent (t₀ : Nat) (P : Party) : Agent :=
  (new P.peer P.controlling P.session P.created).run
    (P.before.map hear ++ .start t₀ [P.home] P.includeLoopback none P.startId :: P.after.map hear)

/-- What a party tells the other side: its one candidate, and that there will be no more. -/
def Party.announcement (P : Party) : List Message :=
  [⟨P.peer, .agentLocalDescription, Description.payload ⟨P.session, [.host P.home]⟩⟩,
    ⟨P.peer, .agentGatheringDone, GatheringDone.payload ⟨P.session⟩⟩]

/-! ### What is posted -/

theorem hears_signals (hs : List (Message × Nat × TransactionId)) (a : Agent) :
    (a.run (hs.map hear)).signals = a.signals := by
  induction hs generalizing a with
  | nil => rfl
  | cons m hs ih => exact (ih _).trans (applySignal_signals ..)

/-- An agent that has not started, and has not posted anything. -/
structure Fresh (P : Party) (a : Agent) : Prop where
  peer : a.peer = P.peer
  controlling : a.controlling = P.controlling
  session : a.session = P.session
  state : a.state = .new
  gathered : a.gathered = false

theorem Fresh.hears {P : Party} {a : Agent} (h : Fresh P a)
    (hs : List (Message × Nat × TransactionId)) : Fresh P (a.run (hs.map hear)) := by
  induction hs generalizing a with
  | nil => exact h
  | cons m hs ih =>
    apply ih
    show Fresh P (a.applySignal m.1.kind m.1.data m.2.1 m.2.2).1
    rcases a.applySignal_cases m.1.kind m.1.data m.2.1 m.2.2 with
      ⟨b, received, applied⟩ | ⟨_, -, applied⟩ <;> rw [applied]
    · have learns := received.learns
      have rest : b.updateState m.2.1 m.2.2 = b := by
        simp [updateState, learns.state, touch, h.state]
      rw [rest]
      exact ⟨learns.peer.trans h.peer, learns.controlling.trans h.controlling,
        learns.session.trans h.session, learns.state.trans h.state,
        received.listens.gathered.trans h.gathered⟩
    · exact ⟨h.peer, h.controlling, h.session, h.state, h.gathered⟩

theorem Party.fresh (P : Party) :
    Fresh P ((new P.peer P.controlling P.session P.created).run (P.before.map hear)) :=
  Fresh.hears ⟨rfl, rfl, rfl, rfl, rfl⟩ P.before

/-- What a party has posted does not depend on what it is handed. -/
theorem Party.signals_agent {P : Party} (t₀ : Nat)
    (h : Candidate.gather [P.home] P.includeLoopback = [.host P.home]) :
    (P.agent t₀).signals = P.announcement := by
  have fresh := P.fresh
  have silent : Agent.signals _ = [] :=
    hears_signals P.before (new P.peer P.controlling P.session P.created)
  unfold Party.agent
  rw [run_append]
  generalize (new P.peer P.controlling P.session P.created).run (P.before.map hear) = a at *
  refine (hears_signals P.after _).trans ?_
  simp [step, start, fresh.state, h, finishGathering, signal, fresh.gathered, fresh.peer,
    fresh.session, silent, Party.announcement]

/-! ### What is heard -/

/-- A description is always taken. -/
theorem received_description (a : Agent) (d : Description) :
    Received a .agentLocalDescription d.payload
      ((d.candidates.map Candidate.withoutFlow).foldl addTheirs (a.adopt d.session)) :=
  .description rfl (Description.ofPayload?_payload d)

/-- One more candidate of the session is taken. -/
theorem received_candidate {a : Agent} {n : CandidateNotice}
    (h : a.remoteSession = some n.session) :
    Received a .agentCandidate n.payload (a.addTheirs n.candidate.withoutFlow) :=
  .candidate rfl (CandidateNotice.ofPayload?_payload n) (takeSession_of_known h)

/-- The end of the session's gathering is taken. -/
theorem received_gatheringDone {a : Agent} {session : UInt64}
    (h : a.remoteSession = some session) :
    Received a .agentGatheringDone (GatheringDone.payload ⟨session⟩)
      { a with remoteGathered := true } :=
  .gatheringDone rfl (GatheringDone.isPing_payload ⟨session⟩ _)
    (GatheringDone.ofPayload?_payload ⟨session⟩) (takeSession_of_known h)

theorem hear_description (a : Agent) (peer : PeerId) (d : Description) (now : Nat)
    (id : TransactionId) :
    a.step (hear (⟨peer, .agentLocalDescription, d.payload⟩, now, id)) =
      ((d.candidates.map Candidate.withoutFlow).foldl addTheirs
        ((a.touch now).adopt d.session)).updateState now id := by
  simp only [step, hear, applySignal_of_received (received_description (a.touch now) d)]

theorem hear_gatheringDone {a : Agent} {session : UInt64} (h : a.remoteSession = some session)
    (peer : PeerId) (now : Nat) (id : TransactionId) :
    a.step (hear (⟨peer, .agentGatheringDone, GatheringDone.payload ⟨session⟩⟩, now, id)) =
      { a.touch now with remoteGathered := true }.updateState now id := by
  have received : Received (a.touch now) .agentGatheringDone (GatheringDone.payload ⟨session⟩)
      { a.touch now with remoteGathered := true } := received_gatheringDone h
  simp only [step, hear, applySignal_of_received received]

/-- An agent that knows the other side's session, waits to check its one pair and has sent
nothing. -/
structure Waits (far : SocketAddress) (t₀ : Nat) (session : UInt64) (controlling : Bool)
    (a : Agent) : Prop where
  stands : Stands far t₀ ⟨controlling, .waiting, false⟩ a
  silent : a.datagrams = []
  session : a.remoteSession = some session

section Meeting
variable {far home : SocketAddress} {t₀ : Nat} {session : UInt64} {controlling : Bool}

/-- An agent as it is made, but for what it has been told of the other side. -/
structure Unstarted (controlling : Bool) (theirs : List Candidate) (a : Agent) : Prop where
  state : a.state = .new
  role : a.controlling = controlling
  checks : a.checks = CheckList.new controlling
  theirs : a.theirs = theirs
  gathered : a.gathered = false
  keepalive : a.keepalive = none
  nominationSent : a.nominationSent = false
  datagrams : a.datagrams = []

theorem Unstarted.start_eq {theirs : List Candidate} {a : Agent}
    (h : Unstarted controlling theirs a) {includeLoopback : Bool}
    (hgather : Candidate.gather [home] includeLoopback = [.host home]) (t₀ : Nat)
    (id : TransactionId) : ∃ signals, a.start t₀ [home] includeLoopback none id =
      { a with
        state := .checking
        startedAt := some t₀
        ours := [.host home]
        checks := ((CheckList.new controlling).start t₀).addPairs [.host home] theirs
        gathered := true
        query := none
        signals } :=
  ⟨(a.start t₀ [home] includeLoopback none id).signals, by
    simp [start, h.state, hgather, finishGathering, h.gathered, signal, h.checks, h.theirs]⟩

/-- The check list of a side that knows the one address of the other. -/
def oneCheck (controlling : Bool) (home far : SocketAddress) (t₀ : Nat) : CheckList where
  pairs := [{ Pair.new (.host home) (.host far) controlling with state := .waiting }]
  started := some t₀
  controlling
  lastCheck := none

theorem stands_waiting {a : Agent} (hchecks : a.checks = oneCheck controlling home far t₀)
    (hstate : a.state = .checking) (hrole : a.controlling = controlling)
    (hstarted : a.startedAt = some t₀) (hquery : a.query = none) (hkeep : a.keepalive = none)
    (hsent : a.nominationSent = false) : Stands far t₀ ⟨controlling, .waiting, false⟩ a where
  pair := by
    refine ⟨{ Pair.new (.host home) (.host far) controlling with state := .waiting }, ?_, rfl, rfl,
      nofun⟩
    refine ⟨by rw [hchecks, oneCheck], rfl, hstarted, by rw [hchecks]; rfl, hquery, nofun, ?_⟩
    simp [hkeep]
  role := hrole
  state := hstate
  nominated := hsent
  idle := fun _ => by rw [hchecks]; rfl
  selected := nofun
  legal := trivial

theorem Unstarted.start {a : Agent} (h : Unstarted controlling [.host far] a)
    (hsession : a.remoteSession = some session) (hversion : home.isV4 = far.isV4)
    {includeLoopback : Bool} (hgather : Candidate.gather [home] includeLoopback = [.host home])
    (id : TransactionId) :
    Waits far t₀ session controlling (a.step (.start t₀ [home] includeLoopback none id)) := by
  obtain ⟨signals, hstart⟩ := h.start_eq hgather t₀ id
  have paired := CheckList.addPairs_single (l := (CheckList.new controlling).start t₀) rfl
    (.host home) (.host far) hversion
  rw [step, hstart]
  exact ⟨stands_waiting paired rfl h.role rfl rfl h.keepalive h.nominationSent,
    h.datagrams, hsession⟩

/-- The description of the other side, to an agent that has started. -/
theorem Unstarted.start_hears {a : Agent} (h : Unstarted controlling [] a) (session : UInt64)
    (hsession : a.remoteSession = none) (hversion : home.isV4 = far.isV4)
    {includeLoopback : Bool} (hgather : Candidate.gather [home] includeLoopback = [.host home])
    (startId : TransactionId) (hfar : far.withoutFlow = far) (peer : PeerId) {now : Nat}
    (hnow : t₀ ≤ now ∧ now ≤ t₀ + 4000) (id : TransactionId) :
    Waits far t₀ session controlling
      ((a.step (.start t₀ [home] includeLoopback none startId)).step
        (hear (⟨peer, .agentLocalDescription, Description.payload ⟨session, [.host far]⟩⟩,
          now, id))) := by
  obtain ⟨signals, hstart⟩ := h.start_eq hgather t₀ startId
  have unpaired : ((CheckList.new controlling).start t₀).addPairs [.host home] [] =
      (CheckList.new controlling).start t₀ := CheckList.addPairs_nil rfl _
  have paired := CheckList.addPairs_single (l := (CheckList.new controlling).start t₀) rfl
    (.host home) (.host far) hversion
  have read : Candidate.withoutFlow (.host far) = .host far := by
    simp [Candidate.withoutFlow, Candidate.host, Candidate.new, hfar]
  rw [hear_description, step, hstart]
  generalize hb : ([Candidate.host far].map Candidate.withoutFlow).foldl addTheirs _ = b
  have told : b.checks = oneCheck controlling home far t₀ ∧ b.state = .checking ∧
      b.controlling = controlling ∧ b.startedAt = some t₀ ∧ b.query = none ∧ b.keepalive = none ∧
      b.nominationSent = false ∧ b.datagrams = [] ∧ b.remoteSession = some session := by
    rw [← hb]
    simp [read, addTheirs, adopt, touch, hsession, h.theirs, h.role, h.keepalive, h.nominationSent,
      h.datagrams, unpaired, paired]
    rfl
  obtain ⟨hchecks, hstate, hrole, hstarted, hquery, hkeep, hsent, hsilent, hsession⟩ := told
  have stands := stands_waiting hchecks hstate hrole hstarted hquery hkeep hsent
  obtain ⟨stays, silent⟩ := stands.updateState hnow id
  exact ⟨stays, silent.trans hsilent, (updateState_keeps b now id).remoteSession.trans hsession⟩

/-- The end of the other side's gathering, to an agent that has started. -/
theorem Waits.hears {a : Agent} (h : Waits far t₀ session controlling a) (peer : PeerId) {now : Nat}
    (hnow : t₀ ≤ now ∧ now ≤ t₀ + 4000) (id : TransactionId) :
    Waits far t₀ session controlling
      (a.step (hear (⟨peer, .agentGatheringDone, GatheringDone.payload ⟨session⟩⟩, now, id))) := by
  rw [hear_gatheringDone h.session]
  have stands := h.stands
  obtain ⟨p, single, rest⟩ := stands.pair
  have told : Stands far t₀ ⟨controlling, .waiting, false⟩
      { a.touch now with remoteGathered := true } :=
    ⟨⟨p, ⟨single.pairs, single.remote, single.started, single.clock, single.query, single.timely,
      single.quiet⟩, rest⟩, stands.role, stands.state, stands.nominated, stands.idle,
      stands.selected, stands.legal⟩
  obtain ⟨stays, silent⟩ := told.updateState hnow id
  exact ⟨stays, silent.trans h.silent, (updateState_keeps _ now id).remoteSession.trans h.session⟩

/-- The description of the other side, to an agent that has not started. -/
theorem Unstarted.hears_description {a : Agent} (h : Unstarted controlling [] a) (session : UInt64)
    (hsession : a.remoteSession = none) (hfar : far.withoutFlow = far) (peer : PeerId) (now : Nat)
    (id : TransactionId) :
    let b := a.step
      (hear (⟨peer, .agentLocalDescription, Description.payload ⟨session, [.host far]⟩⟩, now, id))
    Unstarted controlling [.host far] b ∧ b.remoteSession = some session := by
  have read : Candidate.withoutFlow (.host far) = .host far := by
    simp [Candidate.withoutFlow, Candidate.host, Candidate.new, hfar]
  intro b
  have told : b = { a with
      lastActivity := now
      remoteSession := some session
      remoteGathered := false
      theirs := [.host far] } := by
    show a.step _ = _
    rw [hear_description]
    simp [read, addTheirs, adopt, touch, hsession, h.theirs, h.state, updateState]
  rw [told]
  exact ⟨⟨h.state, h.role, h.checks, rfl, h.gathered, h.keepalive, h.nominationSent, h.datagrams⟩,
    rfl⟩

/-- The end of the other side's gathering, to an agent that has not started. -/
theorem Unstarted.hears_gatheringDone {theirs : List Candidate} {a : Agent}
    (h : Unstarted controlling theirs a) (hsession : a.remoteSession = some session) (peer : PeerId)
    (now : Nat) (id : TransactionId) :
    let b := a.step (hear (⟨peer, .agentGatheringDone, GatheringDone.payload ⟨session⟩⟩, now, id))
    Unstarted controlling theirs b ∧ b.remoteSession = some session := by
  intro b
  have told : b = { a.touch now with remoteGathered := true } := by
    show a.step _ = _
    rw [hear_gatheringDone hsession]
    simp [updateState, touch, h.state]
  rw [told]
  exact ⟨⟨h.state, h.role, h.checks, h.theirs, h.gathered, h.keepalive, h.nominationSent,
    h.datagrams⟩, hsession⟩

/-- **Two ends that have been told of each other are ready**, whenever each of them was told. -/
theorem Party.stands (P Q : Party) {t₀ : Nat} (hversion : P.home.isV4 = Q.home.isV4)
    (hgather : Candidate.gather [P.home] P.includeLoopback = [.host P.home])
    (hfar : Q.home.withoutFlow = Q.home)
    (hheard : (P.before ++ P.after).map (·.1) = Q.announcement)
    (hafter : ∀ m ∈ P.after, t₀ ≤ m.2.1 ∧ m.2.1 ≤ t₀ + 4000) :
    Waits Q.home t₀ Q.session P.controlling (P.agent t₀) := by
  have made : Unstarted P.controlling [] (new P.peer P.controlling P.session P.created) :=
    ⟨rfl, rfl, rfl, rfl, rfl, rfl, rfl, rfl⟩
  obtain ⟨⟨m₁, now₁, id₁⟩, rest, hrest, rfl, hlast⟩ := List.map_eq_cons_iff.1 hheard
  obtain ⟨⟨m₂, now₂, id₂⟩, none', hnone, rfl, hnil⟩ := List.map_eq_cons_iff.1 hlast
  rw [List.map_eq_nil_iff.1 hnil] at hnone
  subst hnone
  simp only [Party.agent, run, List.foldl_append, List.foldl_cons, List.foldl_map]
  -- The description and the end of the gathering come before the start or after it.
  rcases hbefore : P.before with _ | ⟨first, _ | ⟨second, more⟩⟩
  · rw [hbefore, List.nil_append] at hrest
    rw [hrest] at hafter ⊢
    simp only [List.foldl_cons, List.foldl_nil]
    have described := made.start_hears Q.session rfl hversion hgather P.startId hfar Q.peer
      (hafter _ (List.mem_cons_self ..)) id₁
    exact described.hears Q.peer (hafter _ (List.mem_cons_of_mem _ (List.mem_cons_self ..))) id₂
  · rw [hbefore, List.cons_append, List.nil_append] at hrest
    obtain ⟨hfirst, hlater⟩ := List.cons.inj hrest
    rw [hlater] at hafter ⊢
    rw [hfirst]
    simp only [List.foldl_cons, List.foldl_nil]
    obtain ⟨told, hsession⟩ :=
      made.hears_description Q.session rfl hfar Q.peer now₁ id₁
    exact (told.start hsession hversion hgather P.startId).hears Q.peer
      (hafter _ (List.mem_cons_self ..)) id₂
  · rw [hbefore, List.cons_append, List.cons_append] at hrest
    obtain ⟨hfirst, hlater⟩ := List.cons.inj hrest
    obtain ⟨hsecond, hlater⟩ := List.cons.inj hlater
    obtain ⟨hmore, hnone⟩ := List.append_eq_nil_iff.1 hlater
    rw [hfirst, hsecond, hmore, hnone]
    simp only [List.foldl_cons, List.foldl_nil]
    obtain ⟨told, hsession⟩ :=
      made.hears_description Q.session rfl hfar Q.peer now₁ id₁
    obtain ⟨told, hsession⟩ := told.hears_gatheringDone hsession Q.peer now₂ id₂
    exact told.start hsession hversion hgather P.startId

end Meeting
end Agent
end Parley
