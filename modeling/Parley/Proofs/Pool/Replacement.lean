import Parley.Proofs.Pool.Run
/-!
When a pool replaces an agent.

A message that shows an agent to be out of date has it dropped before a new one is created, so the
one agent that is held behind a negotiation has either just begun or goes on from where it stood
(`Renewed`). `replaces_outdated` says which of the two it is, for each message that may start an
agent, and that no other peer's agent is touched.
-/
namespace Parley

/-- The candidates of a description, each address as it is named first. -/
def Description.distinct (d : Description) : List Candidate :=
  d.candidates.eraseDupsBy (·.address == ·.address)

namespace Agent

/-! ### What an agent is told -/

theorem addTheirs_theirs (a : Agent) (c : Candidate) : (a.addTheirs c).theirs =
    if a.theirs.any (·.address == c.address) then a.theirs else a.theirs ++ [c] := by
  unfold addTheirs
  split
  · rfl
  · simp only
    split <;> rfl

theorem addTheirs_remoteSession (a : Agent) (c : Candidate) :
    (a.addTheirs c).remoteSession = a.remoteSession := by
  unfold addTheirs
  split
  · rfl
  · simp only
    split <;> rfl

theorem foldl_addTheirs_remoteSession (cs : List Candidate) (a : Agent) :
    (cs.foldl addTheirs a).remoteSession = a.remoteSession := by
  induction cs generalizing a with
  | nil => rfl
  | cons c cs ih => exact (ih _).trans (a.addTheirs_remoteSession c)

/-- Adding candidates one by one leaves out the addresses that are known. -/
theorem foldl_addTheirs_theirs (cs : List Candidate) (a : Agent) :
    (cs.foldl addTheirs a).theirs =
      List.eraseDupsBy.loop (·.address == ·.address) cs a.theirs.reverse := by
  induction cs generalizing a with
  | nil => exact (List.reverse_reverse _).symm
  | cons c cs ih =>
    have known : (a.theirs.reverse.any fun d => c.address == d.address) =
        a.theirs.any (·.address == c.address) := by
      rw [List.any_reverse]
      exact congrArg (List.any _) (funext fun d => Bool.beq_comm ..)
    rw [List.foldl_cons, ih, addTheirs_theirs, List.eraseDupsBy.loop, known]
    cases a.theirs.any (·.address == c.address) with
    | true => rfl
    | false =>
      rw [if_neg Bool.false_ne_true, List.reverse_append]
      rfl

theorem applySignal_description {data : String} {d : Description}
    (h : Description.ofPayload? data = some d) (a : Agent) (now : Nat) (id : TransactionId) :
    (a.applySignal .agentLocalDescription data now id).1 =
      (d.candidates.foldl addTheirs ((a.touch now).adopt d.session)).updateState now id := by
  simp [applySignal, h]

theorem applySignal_malformed {data : String} (h : Description.ofPayload? data = none) (a : Agent)
    (now : Nat) (id : TransactionId) :
    (a.applySignal .agentLocalDescription data now id).1 = a.touch now := by
  simp [applySignal, h]

theorem kind_of_isPing {kind : MessageKind} {data : String} (h : Message.isPing kind data = true) :
    kind = .agentGatheringDone := by
  rw [Message.isPing, Bool.and_eq_true, beq_iff_eq] at h
  exact h.1

theorem applySignal_ping {kind : MessageKind} {data : String}
    (h : Message.isPing kind data = true) (a : Agent) (now : Nat) (id : TransactionId) :
    (a.applySignal kind data now id).1 = (a.touch now).updateState now id := by
  obtain rfl := kind_of_isPing h
  simp [applySignal, h]

/-- A description is taken up by any agent. -/
theorem applySignal_remoteSession {data : String} {d : Description}
    (h : Description.ofPayload? data = some d) (a : Agent) (now : Nat) (id : TransactionId) :
    (a.applySignal .agentLocalDescription data now id).1.remoteSession = some d.session := by
  rw [applySignal_description h, (updateState_keeps ..).remoteSession,
    foldl_addTheirs_remoteSession, adopt]
  split
  · assumption
  · rfl

/-- Starting leaves what is known of the peer. -/
theorem start_remote (a : Agent) (now : Nat) (addresses : List SocketAddress)
    (includeLoopback : Bool) (stunServer : Option SocketAddress) (id : TransactionId) :
    (a.start now addresses includeLoopback stunServer id).remoteSession = a.remoteSession ∧
      (a.start now addresses includeLoopback stunServer id).theirs = a.theirs := by
  unfold start
  split
  · cases stunServer with
    | some server => exact ⟨rfl, rfl⟩
    | none =>
      have keeps := finishGathering_keeps ({ a with
        state := .checking
        startedAt := some now
        ours := Candidate.gather addresses includeLoopback
        checks := a.checks.start now }.signal .agentLocalDescription
          (Description.payload ⟨a.session, Candidate.gather addresses includeLoopback⟩))
      exact ⟨keeps.remoteSession, keeps.theirs⟩
  · exact ⟨rfl, rfl⟩

theorem start_started (a : Agent) (now : Nat) (addresses : List SocketAddress)
    (includeLoopback : Bool) (stunServer : Option SocketAddress) (id : TransactionId) :
    (a.start now addresses includeLoopback stunServer id).state ≠ .new := by
  by_cases h : a.state = .new
  · rw [(start_learns h now addresses includeLoopback stunServer id).state]
    exact AgentState.noConfusion
  · rw [start, if_neg h]
    exact h

/-- An agent that has not started, and has been told nothing but the description, if there is
one. -/
structure Informed (told : Option Description) (a : Agent) : Prop where
  state : a.state = .new
  remoteSession : a.remoteSession = told.map (·.session)
  theirs : a.theirs = told.elim [] (·.distinct)

theorem new_informed (peer : PeerId) (controlling : Bool) (session : UInt64) (now : Nat) :
    Informed none (new peer controlling session now) := ⟨rfl, rfl, rfl⟩

theorem Informed.touch {told : Option Description} {a : Agent} (h : Informed told a) (now : Nat) :
    Informed told (a.touch now) := ⟨h.state, h.remoteSession, h.theirs⟩

/-- As long as an agent has not started, its state does not follow. -/
theorem Informed.updateState {told : Option Description} {a : Agent} (h : Informed told a) (now : Nat)
    (id : TransactionId) : Informed told (a.updateState now id) := by
  rw [updateState_rests (by rw [h.state]; decide) (by rw [h.state]; decide)]
  exact h

theorem Informed.hears {a : Agent} (h : Informed none a) (d : Description) (now : Nat) :
    Informed (some d) (d.candidates.foldl addTheirs ((a.touch now).adopt d.session)) := by
  have taken : (a.touch now).adopt d.session =
      { a.touch now with remoteSession := some d.session, remoteGathered := false } :=
    if_neg (by rw [(h.touch now).remoteSession]; nofun)
  refine ⟨?_, ?_, ?_⟩
  · rw [(foldl_addTheirs_learns ..).state, taken]
    exact h.state
  · rw [foldl_addTheirs_remoteSession, taken]
    rfl
  · rw [foldl_addTheirs_theirs, taken]
    show List.eraseDupsBy.loop _ _ a.theirs.reverse = _
    rw [h.theirs]
    rfl

theorem Informed.start {told : Option Description} {a : Agent} (h : Informed told a) (now : Nat)
    (addresses : List SocketAddress) (includeLoopback : Bool) (stunServer : Option SocketAddress)
    (id : TransactionId) :
    (a.start now addresses includeLoopback stunServer id).state = .checking ∧
      (a.start now addresses includeLoopback stunServer id).startedAt = some now := by
  have learns := start_learns h.state now addresses includeLoopback stunServer id
  exact ⟨learns.state, learns.startedAt⟩

/-- An agent at the end of the line. -/
def Finished (a : Agent) : Prop := a.state = .failed ∨ a.state = .disconnected

/-- An agent that a description of the session does not concern any more: it is finished, or has
come to a path with another session of the peer's. -/
def OutOfDate (session : UInt64) (a : Agent) : Prop :=
  Finished a ∨ (a.state = .connected ∨ a.state = .completed) ∧
    ∃ known, a.remoteSession = some known ∧ known ≠ session

theorem isTerminal_iff (a : Agent) : a.state.isTerminal = true ↔ Finished a := by
  unfold Finished
  cases a.state <;> simp [AgentState.isTerminal]

theorem shouldReplace_iff (a : Agent) (session : UInt64) :
    a.shouldReplace session = true ↔ OutOfDate session a := by
  unfold shouldReplace OutOfDate Finished
  cases a.state <;> cases a.remoteSession <;> simp

end Agent

/-- An agent that has gone on from where it stood: the socket and the session are as they were. -/
structure Slot.Continues (s s' : Slot) : Prop where
  port : s'.port = s.port
  session : s'.agent.session = s.agent.session
  run : ∃ es, s'.agent = s.agent.run es

theorem Slot.continues_run (s : Slot) (es : List Agent.Event) : s.Continues (s.run es) :=
  ⟨rfl, (s.agent.run_identity es).2, es, rfl⟩

/-- Whatever agent hears a description and then starts has taken it up and has started. -/
theorem Slot.run_description (s : Slot) {data : String} {d : Description}
    (described : Description.ofPayload? data = some d) (p : Pool) (o : Occasion)
    (id : TransactionId) :
    (s.run [.signal .agentLocalDescription data o.now id, p.startEvent o s, .takeDatagrams,
        .takeSignals]).agent.remoteSession = some d.session ∧
      (s.run [.signal .agentLocalDescription data o.now id, p.startEvent o s, .takeDatagrams,
        .takeSignals]).agent.state ≠ .new := by
  have session := s.agent.applySignal_remoteSession described o.now id
  have ran : (s.run [.signal .agentLocalDescription data o.now id, p.startEvent o s,
      .takeDatagrams, .takeSignals]).agent =
        ((s.agent.applySignal .agentLocalDescription data o.now id).1.step
          (p.startEvent o s)).clearDatagrams.clearSignals := rfl
  rw [ran]
  generalize (s.agent.applySignal .agentLocalDescription data o.now id).1 = a at session
  exact ⟨(a.start_remote ..).1.trans session, a.start_started _ _ _ _ _⟩

namespace Pool

/-- An agent that has been created for the peer just now and started, and knows of the peer what
the description told, if there was one. -/
structure Begun (p : Pool) (peer : PeerId) (o : Occasion) (told : Option Description) (s : Slot) :
    Prop where
  port : s.port = (o.supply peer).port
  session : s.agent.session = (o.supply peer).session
  run : ∃ es, s.agent =
    (Agent.new peer (p.controls peer) (o.supply peer).session o.now).run es
  state : s.agent.state = .checking
  startedAt : s.agent.startedAt = some o.now
  remoteSession : s.agent.remoteSession = told.map (·.session)
  theirs : s.agent.theirs = told.elim [] (·.distinct)

/-- `s'` takes the place of the agent that the pool holds for the peer: one that is stale, or none,
gives way to one that has just begun, and any other goes on. The two cannot be taken for each other,
unless a session is handed out twice. -/
def Renewed (p : Pool) (peer : PeerId) (o : Occasion) (stale : Agent → Prop)
    (told : Option Description) (s' : Slot) : Prop :=
  match p.held peer with
  | [] => p.Begun peer o told s'
  | s :: _ => (stale s.agent → p.Begun peer o told s') ∧ (¬stale s.agent → s.Continues s') ∧
    ((o.supply peer).session ≠ s.agent.session → (s.Continues s' ↔ ¬stale s.agent))

/-- The agent that hears a message: the one that is held, unless the condition has it dropped. -/
def chosen (p : Pool) (peer : PeerId) (o : Occasion) (condition : Agent → Bool) : Slot :=
  match p.held peer with
  | [] => p.fresh peer o
  | s :: _ => if condition s.agent then p.fresh peer o else s

theorem removeIf_fresh (p : Pool) (peer : PeerId) (condition : Agent → Bool) (o : Occasion) :
    (p.removeIf peer condition).fresh peer o = p.fresh peer o := by
  unfold removeIf
  split
  · split <;> rfl
  · rfl

theorem removeIf_admits {p : Pool} {peer : PeerId} (h : p.Admits peer)
    (condition : Agent → Bool) : (p.removeIf peer condition).Admits peer := by
  unfold removeIf
  split
  · split
    · exact ⟨h.running, h.notServer, h.notLocal⟩
    · exact h
  · exact h

/-- The chosen agent is the one that works, and nothing else changes. -/
theorem work_chosen {p : Pool} (h : p.Distinct) {peer : PeerId} (admits : p.Admits peer)
    (o : Occasion) (condition : Agent → Bool) :
    ∃ q, (p.removeIf peer condition).ensure peer o = .ok q ∧
      ∀ g : Slot → List Agent.Event,
        (q.work peer fun s => s.run (g s)).1.held peer =
          [(p.chosen peer o condition).run
            (g (p.chosen peer o condition) ++ [.takeDatagrams, .takeSignals])] ∧
        ∀ other, other ≠ peer →
          (q.work peer fun s => s.run (g s)).1.held other = p.held other := by
  have removed := h.removeIf peer condition
  obtain ⟨q, ok⟩ := (removeIf_admits admits condition).ensure o
  have held : q.held peer = [p.chosen peer o condition] := by
    rw [held_ensure ok, removeIf_fresh, held_removeIf h, if_pos rfl, chosen]
    rcases h.cases peer with none | ⟨s, one⟩
    · simp [none]
    · by_cases hs : condition s.agent <;> simp [one, hs]
  -- What happens to the other peers is nothing, at each of the three steps.
  refine ⟨q, ok, fun g => ⟨?_, fun other hother => ?_⟩⟩
  · rw [held_work (removed.ensure ok) (Slot.peer_run_of g), if_pos rfl, held,
      List.map_singleton, Slot.run_run]
  · rw [held_work (removed.ensure ok) (Slot.peer_run_of g), if_neg hother,
      held_ensure ok, if_neg fun hboth => hother hboth.1, held_removeIf h, if_neg hother]

/-- What is started, before it has started, has begun. -/
theorem begun_of_informed (p q : Pool) {peer : PeerId} {o : Occasion} {told : Option Description}
    {es : List Agent.Event} (h : Agent.Informed told ((p.fresh peer o).agent.run es)) (s : Slot) :
    p.Begun peer o told
      ((p.fresh peer o).run (es ++ [q.startEvent o s, .takeDatagrams, .takeSignals])) := by
  have ran : ((p.fresh peer o).run (es ++ [q.startEvent o s, .takeDatagrams, .takeSignals])).agent =
      ((((p.fresh peer o).agent.run es).step (q.startEvent o s)).step .takeDatagrams).step
        .takeSignals := Agent.run_append ..
  have started := h.start o.now (localAddresses o.interfaces s.port q.includeLoopback)
    q.includeLoopback o.stunServer (o.supply s.peer).queryId
  have remote := ((p.fresh peer o).agent.run es).start_remote o.now
    (localAddresses o.interfaces s.port q.includeLoopback) q.includeLoopback o.stunServer
    (o.supply s.peer).queryId
  refine ⟨rfl, ?_, ⟨_, rfl⟩, ?_, ?_, ?_, ?_⟩
  · exact (Agent.run_identity ..).2
  · rw [ran]
    exact started.1
  · rw [ran]
    exact started.2
  · rw [ran]
    exact remote.1.trans h.remoteSession
  · rw [ran]
    exact remote.2.trans h.theirs

theorem renewed_run {p : Pool} {peer : PeerId} {o : Occasion} {condition : Agent → Bool}
    {stale : Agent → Prop} {told : Option Description} {f : Slot → List Agent.Event}
    (drops : ∀ a, condition a = true ↔ stale a)
    (begun : p.Begun peer o told ((p.fresh peer o).run (f (p.fresh peer o)))) :
    p.Renewed peer o stale told
      ((p.chosen peer o condition).run (f (p.chosen peer o condition))) := by
  unfold Renewed
  cases hheld : p.held peer with
  | nil =>
    have chosen : p.chosen peer o condition = p.fresh peer o := by rw [chosen, hheld]
    rw [chosen]
    exact begun
  | cons s rest =>
    have chosen : p.chosen peer o condition =
        if condition s.agent then p.fresh peer o else s := by rw [chosen, hheld]
    rw [chosen]
    by_cases hs : stale s.agent
    · rw [if_pos ((drops s.agent).2 hs)]
      refine ⟨fun _ => begun, fun goes => absurd hs goes, fun differs => ?_⟩
      refine iff_of_false (fun goes => differs ?_) fun goes => goes hs
      exact begun.session.symm.trans goes.session
    · rw [if_neg fun hc => hs ((drops s.agent).1 hc)]
      have goes := s.continues_run (f s)
      exact ⟨fun stale => absurd stale hs, fun _ => goes, fun _ => iff_of_true goes hs⟩

theorem outdates_description (data : String) (a : Agent) :
    outdates .agentLocalDescription data a =
      match Description.ofPayload? data with
      | some d => a.shouldReplace d.session
      | none => false := by
  have noPing : ¬Message.isPing .agentLocalDescription data = true :=
    fun ping => MessageKind.noConfusion (Agent.kind_of_isPing ping)
  exact (if_neg noPing).trans (if_pos rfl)

theorem starts_description (data : String) : starts .agentLocalDescription data = true := by
  rw [starts, beq_self_eq_true, Bool.or_true]

/-- A message after which the agent starts, unless it has started already. -/
theorem negotiate_starting {p : Pool} (h : p.Distinct) {peer : PeerId} (admits : p.Admits peer)
    {kind : MessageKind} {data : String} (starting : starts kind data = true) (o : Occasion)
    {stale : Agent → Prop} (drops : ∀ a, outdates kind data a = true ↔ stale a)
    {told : Option Description}
    (informed : ∀ a, Agent.Informed none a →
      Agent.Informed told (a.applySignal kind data o.now (o.supply peer).nominationId).1) :
    ∃ q s, (p.negotiate peer kind data o).1.held peer =
        [Slot.run s [.signal kind data o.now (o.supply peer).nominationId, startEvent q o s,
          .takeDatagrams, .takeSignals]] ∧
      p.Renewed peer o stale told
        (s.run [.signal kind data o.now (o.supply peer).nominationId, startEvent q o s,
          .takeDatagrams, .takeSignals]) := by
  obtain ⟨q, ok, work⟩ := work_chosen h admits o (outdates kind data)
  have heard : ∀ s, q.hearing peer kind data o s =
      [.signal kind data o.now (o.supply peer).nominationId, q.startEvent o s] := by
    intro s
    rw [hearing, if_pos starting]
  have held := (work (q.hearing peer kind data o)).1
  rw [heard] at held
  refine ⟨q, p.chosen peer o (outdates kind data), ?_, ?_⟩
  · rw [negotiate_of_ok ok]
    exact held
  · have first : Agent.Informed told ((p.fresh peer o).agent.run
        [.signal kind data o.now (o.supply peer).nominationId]) := informed _ (Agent.new_informed ..)
    exact renewed_run (f := fun s => [.signal kind data o.now (o.supply peer).nominationId,
      q.startEvent o s, .takeDatagrams, .takeSignals]) drops (p.begun_of_informed q first _)

theorem negotiate_others {p : Pool} (h : p.Distinct) {peer : PeerId} (admits : p.Admits peer)
    (kind : MessageKind) (data : String) (o : Occasion) {other : PeerId} (different : other ≠ peer) :
    (p.negotiate peer kind data o).1.held other = p.held other := by
  obtain ⟨q, ok, work⟩ := work_chosen h admits o (outdates kind data)
  rw [negotiate_of_ok ok]
  exact (work (q.hearing peer kind data o)).2 other different

theorem ping_others {p : Pool} (h : p.Distinct) {peer : PeerId} (admits : p.Admits peer)
    (o : Occasion) {other : PeerId} (different : other ≠ peer) :
    (p.ping peer o).1.held other = p.held other := by
  obtain ⟨q, ok, work⟩ := work_chosen h admits o (·.state.isTerminal)
  rw [ping_of_ok ok]
  exact (work fun s => [q.startEvent o s]).2 other different

theorem ping_held {p : Pool} (h : p.Distinct) {peer : PeerId} (admits : p.Admits peer)
    (o : Occasion) : ∃ s', (p.ping peer o).1.held peer = [s'] ∧
      p.Renewed peer o Agent.Finished none s' := by
  obtain ⟨q, ok, work⟩ := work_chosen h admits o (·.state.isTerminal)
  rw [ping_of_ok ok]
  refine ⟨_, (work fun s => [q.startEvent o s]).1, ?_⟩
  have first : Agent.Informed none ((p.fresh peer o).agent.run []) := Agent.new_informed ..
  exact renewed_run (f := fun s => [q.startEvent o s, .takeDatagrams, .takeSignals])
    Agent.isTerminal_iff (p.begun_of_informed q first _)

/-- How a pool replaces the agent of a peer. A description replaces one that is finished, or that
has come to a path with another session of the peer's; a ping, either way, one that is finished; and
a payload that is no description, none. No message touches the agents of other peers. -/
structure Replaces (p : Pool) (peer : PeerId) (o : Occasion) : Prop where
  description : ∀ data d, Description.ofPayload? data = some d →
    ∃ s', (p.negotiate peer .agentLocalDescription data o).1.held peer = [s'] ∧
      s'.agent.remoteSession = some d.session ∧ s'.agent.state ≠ .new ∧
      p.Renewed peer o (Agent.OutOfDate d.session) (some d) s'
  malformed : ∀ data, Description.ofPayload? data = none →
    ∃ s', (p.negotiate peer .agentLocalDescription data o).1.held peer = [s'] ∧
      p.Renewed peer o (fun _ => False) none s'
  inboundPing : ∀ kind data, Message.isPing kind data = true →
    ∃ s', (p.negotiate peer kind data o).1.held peer = [s'] ∧
      p.Renewed peer o Agent.Finished none s'
  ping : ∃ s', (p.ping peer o).1.held peer = [s'] ∧ p.Renewed peer o Agent.Finished none s'
  others : ∀ other, other ≠ peer →
    (∀ kind data, (p.negotiate peer kind data o).1.held other = p.held other) ∧
      (p.ping peer o).1.held other = p.held other

/-- **A running pool replaces the agents that are out of date, and no others.** -/
theorem replaces_outdated {p : Pool} (reachable : p.Reachable) {peer : PeerId}
    (admits : p.Admits peer) (o : Occasion) : p.Replaces peer o := by
  have h := reachable.distinct
  refine ⟨?_, ?_, ?_, ping_held h admits o, fun other different =>
    ⟨fun kind data => negotiate_others h admits kind data o different,
      ping_others h admits o different⟩⟩
  · intro data d described
    have drops (a : Agent) : outdates .agentLocalDescription data a = true ↔
        Agent.OutOfDate d.session a := by
      rw [outdates_description, described]
      exact a.shouldReplace_iff d.session
    obtain ⟨q, s, held, renewed⟩ :=
      negotiate_starting h admits (starts_description data) o drops fun a ha => by
        rw [Agent.applySignal_description described]
        exact (ha.hears d o.now).updateState ..
    obtain ⟨session, started⟩ := s.run_description described q o (o.supply peer).nominationId
    exact ⟨_, held, session, started, renewed⟩
  · intro data malformed
    have drops (a : Agent) : outdates .agentLocalDescription data a = true ↔ False := by
      rw [outdates_description, malformed]
      exact iff_of_false Bool.false_ne_true id
    obtain ⟨q, s, held, renewed⟩ :=
      negotiate_starting h admits (starts_description data) o drops fun a ha => by
        rw [Agent.applySignal_malformed malformed]
        exact ha.touch o.now
    exact ⟨_, held, renewed⟩
  · intro kind data ping
    have drops (a : Agent) : outdates kind data a = true ↔ a.Finished := by
      rw [outdates, if_pos ping]
      exact a.isTerminal_iff
    have starting : starts kind data = true := by rw [starts, ping, Bool.true_or]
    obtain ⟨q, s, held, renewed⟩ := negotiate_starting h admits starting o drops fun a ha => by
      rw [Agent.applySignal_ping ping]
      exact (ha.touch o.now).updateState ..
    exact ⟨_, held, renewed⟩

/-- The time, and numbers that are told by it. -/
def quietOccasion (now : Nat) : Occasion :=
  ⟨now, [], none, fun _ => ⟨UInt64.ofNat now, 4000, ⟨List.replicate 12 1, rfl⟩,
    ⟨List.replicate 12 2, rfl⟩, ⟨List.replicate 12 3, rfl⟩⟩⟩

/-- A pool that has pinged a peer, and found no way to it in time. -/
def afterFailure : Pool :=
  (new false).run [.ping (.filled 1) (quietOccasion 0), .tick (.filled 1) (quietOccasion 10000)]

theorem replaces_outdated_after_failure :
    afterFailure.Reachable ∧ afterFailure.Admits (.filled 1) ∧
      afterFailure.Replaces (.filled 1) (quietOccasion 20000) ∧
      (afterFailure.held (.filled 1)).map (fun s => (s.agent.session, s.agent.state)) =
        [(0, .failed)] ∧
      ((afterFailure.ping (.filled 1) (quietOccasion 20000)).1.held (.filled 1)).map
        (fun s => (s.agent.session, s.agent.state)) = [(20000, .checking)] := by
  have reachable : afterFailure.Reachable := ⟨false, _, rfl⟩
  have admits : afterFailure.Admits (.filled 1) :=
    ⟨by decide +kernel, by decide +kernel, by decide +kernel⟩
  exact ⟨reachable, admits, replaces_outdated reachable admits (quietOccasion 20000),
    by decide +kernel, by decide +kernel⟩

end Pool
end Parley
