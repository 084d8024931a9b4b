import Parley.Proofs.Link.Unfold
/-!
The states through which an agent goes.

`Grounded` is what the state says of the rest of the agent: an address is selected just while the
state is usable, it is the one that is kept alive, and a lost path is one that was in use. A step
between states is possible only from what the state says, so `lifecycle` follows from it.
-/
namespace Parley

/-- The states that may follow a state. -/
def AgentState.successors : AgentState → List AgentState
  | .new => [.new, .checking]
  | .checking => [.checking, .connected, .completed, .failed]
  | .connected => [.connected, .completed, .failed, .disconnected]
  | .completed => [.completed, .disconnected]
  | .failed => [.failed]
  | .disconnected => [.disconnected]

theorem AgentState.mem_successors (state : AgentState) : state ∈ state.successors := by
  cases state <;> decide

namespace Agent

/-- There is no path yet, or none any more. -/
def Pathless (a : Agent) : Prop := a.selected = none ∧ a.keepalive.map Keepalive.path = none

/-- Game data goes to the address that is kept alive. -/
def OnPath (a : Agent) : Prop :=
  ∃ address, a.selected = some address ∧ a.keepalive.map Keepalive.path = some (address, false)

/-- The path has been lost. -/
def OffPath (a : Agent) : Prop :=
  a.selected = none ∧ ∃ address, a.keepalive.map Keepalive.path = some (address, true)

/-- What the state of an agent says of its path. -/
def PathAgrees (a : Agent) : Prop :=
  match a.state with
  | .new | .checking | .failed => a.Pathless
  | .connected | .completed => a.OnPath
  | .disconnected => a.OffPath

/-- An agent whose path is as its state says, and which knows when it has started. -/
structure Grounded (a : Agent) : Prop where
  path : a.PathAgrees
  started : a.state ≠ .new → ∃ t, a.startedAt = some t

theorem new_grounded (peer : PeerId) (controlling : Bool) (session : UInt64) (now : Nat) :
    Grounded (new peer controlling session now) :=
  ⟨⟨rfl, rfl⟩, fun h => absurd rfl h⟩

theorem Learns.grounded {a b : Agent} (h : Learns a b) (ha : a.Grounded) : b.Grounded := by
  refine ⟨?_, ?_⟩
  · have agrees := ha.path
    unfold PathAgrees Pathless OnPath OffPath at agrees ⊢
    rwa [h.state, h.selected, h.path]
  · rw [h.state, h.startedAt]
    exact ha.started

/-! ### Selecting a path -/

theorem select_onPath {a : Agent} (h : a.Pathless ∨ a.OnPath) (address : SocketAddress)
    (now : Nat) : (a.select address now).OnPath := by
  refine ⟨address, rfl, ?_⟩
  rcases h with ⟨-, hk⟩ | ⟨old, -, hk⟩
  · simp only [select, Option.map_eq_none_iff.1 hk]
    rfl
  · obtain ⟨k, hkeep, hpath⟩ := Option.map_eq_some_iff.1 hk
    simp only [select, hkeep, Option.map_some, Keepalive.path_setRemote]
    rw [(Prod.mk.inj hpath).2]

/-- When some path works, one is selected. -/
theorem selectBest_onPath {a : Agent} (h : a.Pathless ∧ a.checks.hasSucceeded = true ∨ a.OnPath)
    (now : Nat) : (a.selectBest now).OnPath := by
  unfold selectBest
  split
  · exact select_onPath (h.imp_left And.left) ..
  · rename_i hnone
    rcases h with ⟨-, hworks⟩ | h
    · obtain ⟨i, hbest⟩ := CheckList.bestSucceeded_isSome hworks
      obtain ⟨p, hp, -⟩ := CheckList.bestSucceeded_eq_some hbest
      rw [hbest, Option.bind_some, hp] at hnone
      cases hnone
    · exact h

theorem settle_state (a : Agent) (now : Nat) (id : TransactionId) :
    (a.settle now id).state = a.state ∨ (a.settle now id).state = .completed := by
  have before := a.withdrawNomination_learns.trans (nominate_learns _ now id)
  unfold settle complete
  split
  · exact .inr rfl
  · exact .inl before.state

theorem settle_onPath {a : Agent} (h : a.OnPath) (now : Nat) (id : TransactionId) :
    (a.settle now id).OnPath := by
  have before := a.withdrawNomination_learns.trans (nominate_learns _ now id)
  have path : (a.withdrawNomination.nominate now id).OnPath := by
    unfold OnPath
    rwa [before.selected, before.path]
  unfold settle complete
  split
  · exact select_onPath (a := { a.withdrawNomination.nominate now id with state := .completed })
      (.inr path) ..
  · exact path

theorem grounded_of_usable {a b : Agent} (keeps : Keeps a b) (ha : a.Grounded)
    (hstate : a.state ≠ .new) (path : b.OnPath)
    (usable : b.state = .connected ∨ b.state = .completed) : b.Grounded := by
  refine ⟨?_, fun _ => ?_⟩
  · unfold PathAgrees
    rcases usable with h | h <;> rw [h] <;> exact path
  · rw [keeps.startedAt]
    exact ha.started hstate

/-! ### The operations -/

/-- Following the checks is a step of the state machine, and none that starts an agent. -/
theorem updateState_moves {a : Agent} (ha : a.Grounded) (now : Nat) (id : TransactionId) :
    (a.updateState now id).Grounded ∧ (a.updateState now id).state ∈ a.state.successors ∧
      (a.state = .new → (a.updateState now id).state = .new) := by
  have keeps := a.updateState_keeps now id
  have agrees := ha.path
  unfold PathAgrees at agrees
  have follows := updateState_follows a now id
  generalize a.updateState now id = b at keeps follows ⊢
  cases follows with
  | connects hstate hworks =>
    simp only [hstate] at agrees
    have path := selectBest_onPath (a := { a with firstSuccess := some now, state := .connected })
      (.inl ⟨agrees, hworks⟩) now
    have hsettled := settle_state
      ({ a with firstSuccess := some now, state := .connected }.selectBest now) now id
    rw [selectBest_state] at hsettled
    refine ⟨grounded_of_usable keeps ha (by simp [hstate]) (settle_onPath path now id) hsettled, ?_,
      by simp [hstate]⟩
    rcases hsettled with h | h <;> simp [h, hstate, AgentState.successors]
  | exhausts hstate =>
    simp only [hstate] at agrees ⊢
    exact ⟨⟨agrees, fun _ => ha.started (by simp [hstate])⟩, by decide, by simp⟩
  | searches hstate => exact ⟨ha, a.state.mem_successors, fun h => h⟩
  | collapses hstate =>
    simp only [hstate]
    exact ⟨⟨⟨rfl, rfl⟩, fun _ => ha.started (by simp [hstate])⟩, by decide, by simp⟩
  | settles hstate =>
    simp only [hstate] at agrees
    have path := settle_onPath (selectBest_onPath (.inr agrees) now) now id
    have hsettled := settle_state (a.selectBest now) now id
    rw [selectBest_state, hstate] at hsettled
    refine ⟨grounded_of_usable keeps ha (by simp [hstate]) path hsettled, ?_, by simp [hstate]⟩
    rcases hsettled with h | h <;> simp [h, hstate, AgentState.successors]
  | rests => exact ⟨ha, a.state.mem_successors, fun h => h⟩

theorem connected_or_completed {state : AgentState} :
    state.isUsable = true ↔ state = .connected ∨ state = .completed := by
  cases state <;> decide

theorem started_of_usable {a : Agent} (h : a.state.isUsable = true) : a.state ≠ .new := by
  intro hnew
  rw [hnew] at h
  cases h

/-- Only a path that is in use is lost. -/
theorem usable_of_alive {a : Agent} (ha : a.Grounded) {k : Keepalive} (hk : a.keepalive = some k)
    (hlost : k.lost = false) : a.state.isUsable = true := by
  have agrees := ha.path
  unfold PathAgrees Pathless OffPath at agrees
  cases hstate : a.state <;> simp [hstate, hk, Keepalive.path, hlost] at agrees <;> rfl

theorem tickKeepalive_moves {a : Agent} (ha : a.Grounded) (now : Nat) :
    (a.tickKeepalive now).Grounded ∧ ((a.tickKeepalive now).state = a.state ∨
      a.state.isUsable = true ∧ (a.tickKeepalive now).state = .disconnected) := by
  rcases a.tickKeepalive_cases now with h | ⟨k, k', hk, hlost, hpath, heq⟩
  · exact ⟨h.grounded ha, .inl h.state⟩
  · have usable := usable_of_alive ha hk hlost
    rw [heq]
    refine ⟨⟨⟨rfl, k.remote, congrArg some hpath⟩, fun _ => ha.started ?_⟩, .inr ⟨usable, rfl⟩⟩
    intro hnew
    rw [hnew] at usable
    cases usable

/-- A step of the state machine, which starts only by `start`. -/
def Moves (a : Agent) (e : Event) : Prop :=
  (a.step e).Grounded ∧ (a.step e).state ∈ a.state.successors ∧
    (a.state = .new → (a.step e).state = .checking → ∃ now addresses includeLoopback stunServer id,
      e = .start now addresses includeLoopback stunServer id)

/-- An event that only adds to what is known before the state follows. -/
theorem moves_of_learns {a b : Agent} {e : Event} {now : Nat} {id : TransactionId}
    (ha : a.Grounded) (h : Learns a b) (hstep : a.step e = b.updateState now id) : Moves a e := by
  obtain ⟨hb, hstate, hnew⟩ := updateState_moves (h.grounded ha) now id
  rw [h.state] at hstate hnew
  refine ⟨hstep ▸ hb, hstep ▸ hstate, fun ha hc => ?_⟩
  rw [hstep, hnew ha] at hc
  cases hc

theorem moves_of_still {a : Agent} {e : Event} (ha : a.Grounded) (h : Learns a (a.step e)) :
    Moves a e := by
  refine ⟨h.grounded ha, h.state ▸ a.state.mem_successors, fun ha hc => ?_⟩
  rw [h.state, ha] at hc
  cases hc

theorem touch_learns (a : Agent) (now : Nat) : Learns a (a.touch now) :=
  ⟨rfl, rfl, rfl, rfl, rfl, rfl, rfl, fun _ h => h, fun _ h => h⟩

theorem tick_moves {a : Agent} (ha : a.Grounded) (now : Nat) (checkId id : TransactionId) :
    Moves a (.tick now checkId id) := by
  have first := (a.tickQuery_learns now).trans (tickChecks_learns _ now checkId)
  obtain ⟨hkept, hstate⟩ := tickKeepalive_moves (first.grounded ha) now
  have hmoves := updateState_moves hkept now id
  change (a.step (.tick now checkId id)).Grounded ∧ _ at hmoves
  obtain ⟨hgrounded, hmoved, hnew⟩ := hmoves
  rw [first.state] at hstate
  rcases hstate with hstate | ⟨usable, hlost⟩
  · rw [hstate] at hmoved hnew
    refine ⟨hgrounded, hmoved, fun ha hc => ?_⟩
    rw [show (a.step (.tick now checkId id)).state = .new from hnew ha] at hc
    cases hc
  · rw [hlost] at hmoved
    have hmoved : (a.step (.tick now checkId id)).state = .disconnected :=
      List.mem_singleton.1 hmoved
    refine ⟨hgrounded, ?_, fun ha => ?_⟩
    · rw [hmoved]
      rcases connected_or_completed.1 usable with h | h <;> rw [h] <;> decide
    · rw [ha] at usable
      cases usable

theorem start_moves {a : Agent} (ha : a.Grounded) (now : Nat) (addresses : List SocketAddress)
    (includeLoopback : Bool) (stunServer : Option SocketAddress) (id : TransactionId) :
    Moves a (.start now addresses includeLoopback stunServer id) := by
  unfold Moves step
  by_cases h : a.state = .new
  · have learns := start_learns h now addresses includeLoopback stunServer id
    have agrees := ha.path
    unfold PathAgrees at agrees
    simp only [h] at agrees
    refine ⟨learns.grounded ⟨agrees, fun _ => ⟨now, rfl⟩⟩, ?_, fun _ _ => ⟨_, _, _, _, _, rfl⟩⟩
    rw [learns.state, h]
    exact List.mem_cons_of_mem _ (List.mem_singleton.2 rfl)
  · simp only [start, if_neg h]
    exact ⟨ha, a.state.mem_successors, fun hnew => absurd hnew h⟩

theorem step_moves {a : Agent} (ha : a.Grounded) (e : Event) : Moves a e := by
  cases e with
  | start => exact start_moves ha ..
  | signal kind data now id =>
    rcases a.applySignal_cases kind data now id with ⟨b, received, applied⟩ | ⟨_, -, applied⟩
    · have hstep : a.step (.signal kind data now id) = b.updateState now id :=
        congrArg Prod.fst applied
      exact moves_of_learns ha ((a.touch_learns now).trans received.learns) hstep
    · refine moves_of_still ha ?_
      simp only [step, applied]
      exact a.touch_learns now
  | datagram source octets now id =>
    exact moves_of_learns ha (a.handleDatagram_learns source octets now) rfl
  | tick => exact tick_moves ha ..
  | touch now => exact moves_of_still ha (a.touch_learns now)
  | setControlling controlling =>
    have same : (a.setControlling controlling).state = a.state ∧
        (a.setControlling controlling).Grounded := by
      unfold setControlling
      split
      · exact ⟨rfl, ha.path, ha.started⟩
      · exact ⟨rfl, ha⟩
    refine ⟨same.2, same.1 ▸ a.state.mem_successors, fun ha hc => ?_⟩
    rw [show (a.step (.setControlling controlling)).state = a.state from same.1, ha] at hc
    cases hc
  | takeDatagrams | takeSignals =>
    exact moves_of_still ha
      ⟨rfl, rfl, rfl, rfl, rfl, rfl, rfl, fun _ h => h, fun _ h => h⟩

theorem Reachable.grounded {a : Agent} (h : a.Reachable) : a.Grounded :=
  h.induct new_grounded fun _ e ha => (step_moves ha e).1

/-! ### The negotiation ends -/

/-- A tick that finds the time over finds a path or fails. -/
theorem tick_leaves_checking {a : Agent} (ha : a.Grounded) (hstate : a.state = .checking)
    {started now : Nat} (hstarted : a.startedAt = some started)
    (hover : started + negotiationTimeout ≤ now) (checkId id : TransactionId) :
    (a.tick now checkId id).state ≠ .checking := by
  have first := (a.tickQuery_learns now).trans (tickChecks_learns _ now checkId)
  unfold tick
  generalize (a.tickQuery now).tickChecks now checkId = b at first
  have hb := (first.grounded ha).path
  unfold PathAgrees at hb
  rw [first.state, hstate] at hb
  have still : b.tickKeepalive now = b := by
    unfold tickKeepalive
    rw [Option.map_eq_none_iff.1 hb.2]
  have exhausted : b.isExhausted now = true := by
    unfold isExhausted
    rw [first.startedAt, hstarted]
    simp
    omega
  rw [still]
  have follows := updateState_follows b now id
  generalize b.updateState now id = c at follows
  cases follows with
  | connects hb hworks =>
    have hsettled := settle_state
      ({ b with firstSuccess := some now, state := .connected }.selectBest now) now id
    rw [selectBest_state] at hsettled
    rcases hsettled with h | h <;> simp [h]
  | exhausts => simp
  | searches _ _ hfresh =>
    rw [exhausted] at hfresh
    cases hfresh
  | collapses hb | settles hb =>
    rw [first.state, hstate] at hb
    cases hb
  | rests hb =>
    rw [first.state] at hb
    exact absurd hstate hb

/-! ### A connection that lasts -/

/-- While an agent is connected, some path works or is still being checked. -/
def Viable (a : Agent) : Prop :=
  a.state = .connected → a.checks.hasSucceeded = false → a.checks.isComplete = false

/-- A pair that is nominated is checked again, which leaves the list open. -/
theorem nominate_open {l : CheckList} (h : l.hasSucceeded = false → l.isComplete = false)
    (i now : Nat) (id : TransactionId) (hworks : (l.nominate i now id).1.hasSucceeded = false) :
    (l.nominate i now id).1.isComplete = false := by
  rcases CheckList.nominate_cases l i now id with hnone | ⟨p, hp, -, hsome⟩
  · rw [hnone] at hworks ⊢
    exact h hworks
  · have under : ({ p with nominated := true }.startCheck now id).1 ∈
        (l.nominate i now id).1.pairs := by
      rw [hsome]
      exact List.mem_set (List.getElem?_eq_some_iff.1 hp).1 _
    simp only [CheckList.isComplete, Bool.and_eq_false_iff, List.all_eq_false]
    exact .inr ⟨_, under, by simp [CheckList.isSettled, Pair.startCheck]⟩

theorem settle_open {a : Agent} (h : a.checks.hasSucceeded = false → a.checks.isComplete = false)
    (now : Nat) (id : TransactionId) (hworks : (a.settle now id).checks.hasSucceeded = false) :
    (a.settle now id).checks.isComplete = false := by
  rcases settle_settles a now id with h' | ⟨-, i, h'⟩
  · rw [h'.checks] at hworks ⊢
    exact h hworks
  · rw [h'.checks] at hworks ⊢
    exact nominate_open h i now id hworks

theorem updateState_viable (a : Agent) (now : Nat) (id : TransactionId) :
    (a.updateState now id).Viable := by
  have follows := updateState_follows a now id
  generalize a.updateState now id = b at follows ⊢
  intro hb
  cases follows with
  | connects _ hworks =>
    refine settle_open (fun h => ?_) now id
    rw [selectBest_checks] at h
    rw [show a.checks.hasSucceeded = false from h] at hworks
    cases hworks
  | settles _ hopen =>
    refine settle_open (fun h => ?_) now id
    rw [selectBest_checks] at h ⊢
    exact hopen h
  | exhausts | collapses => cases hb
  | searches h => simp [h] at hb
  | rests _ h => exact absurd hb h

theorem step_viable {a : Agent} (h : a.Viable) (e : Event) : (a.step e).Viable := by
  cases e with
  | start now addresses includeLoopback stunServer id =>
    by_cases hnew : a.state = .new
    · intro hstate
      have learns := start_learns hnew now addresses includeLoopback stunServer id
      exact absurd (learns.state.symm.trans hstate) (by simp)
    · simpa only [step, start, if_neg hnew] using h
  | signal kind data now id =>
    rcases a.applySignal_cases kind data now id with ⟨b, received, applied⟩ | ⟨_, -, applied⟩
    · simpa only [step, applied] using updateState_viable b now id
    · simp only [step, applied]
      exact h
  | datagram source octets now id => exact updateState_viable _ now id
  | tick now checkId id => exact updateState_viable _ now id
  | setControlling controlling =>
    unfold step setControlling
    by_cases hnew : a.state = .new ∧ a.controlling ≠ controlling
    · intro hstate
      simp [hnew] at hstate
    · simpa only [if_neg hnew] using h
  | touch | takeDatagrams | takeSignals => exact h

theorem Reachable.viable {a : Agent} (h : a.Reachable) : a.Viable :=
  h.induct (P := Viable) (fun _ _ _ _ h => nomatch h) fun _ e ha => step_viable ha e

/-- A usable agent whose checks stay as they are stays usable. -/
theorem updateState_usable {a : Agent} (h : a.Viable) (hstate : a.state.isUsable = true) (now : Nat)
    (id : TransactionId) : (a.updateState now id).state.isUsable = true := by
  have follows := updateState_follows a now id
  generalize a.updateState now id = b at follows ⊢
  cases follows with
  | connects h | exhausts h | searches h =>
    rw [h] at hstate
    cases hstate
  | collapses hconnected hworks hcomplete =>
    rw [h hconnected hworks] at hcomplete
    cases hcomplete
  | settles hconnected =>
    have settled := settle_state (a.selectBest now) now id
    rw [selectBest_state, hconnected] at settled
    exact connected_or_completed.2 settled
  | rests => exact hstate

/-! ### The end of the line -/

theorem terminal_of_mem {s t : AgentState} (hs : s.isTerminal = true) (h : t ∈ s.successors) :
    t = s := by
  cases s <;> simp [AgentState.isTerminal, AgentState.successors] at hs h <;> exact h

theorem run_grounded {a : Agent} (ha : a.Grounded) (es : List Event) : (a.run es).Grounded := by
  induction es generalizing a with
  | nil => exact ha
  | cons e es ih => exact ih (step_moves ha e).1

theorem run_terminal {a : Agent} (ha : a.Grounded) (hend : a.state.isTerminal = true)
    (es : List Event) : (a.run es).state = a.state := by
  induction es generalizing a with
  | nil => rfl
  | cons e es ih =>
    have stays := terminal_of_mem hend (step_moves ha e).2.1
    exact (ih (step_moves ha e).1 (by rwa [stays])).trans stays

/-- An agent at the end of the line has no path, and carries no game data either way. -/
theorem Grounded.silent {a : Agent} (ha : a.Grounded) (hend : a.state.isTerminal = true) :
    a.selected = none ∧ (∀ payload, a.prepareSend payload = .error (.noRoute a.peer)) ∧
      ∀ source octets now id, (a.onDatagram source octets now id).2 = none := by
  have unusable : a.state.isUsable = false := by
    cases hstate : a.state <;> simp [hstate, AgentState.isTerminal] at hend <;> rfl
  refine ⟨?_, fun payload => ?_, fun source octets now id => ?_⟩
  · have agrees := ha.path
    unfold PathAgrees Pathless OffPath at agrees
    cases hstate : a.state <;> simp [hstate, AgentState.isTerminal] at hend <;>
      simp only [hstate] at agrees <;> exact agrees.1
  · simp [prepareSend, unusable]
  · have refused : a.accepts source = false := by simp [accepts, unusable]
    unfold onDatagram handleDatagram
    cases Datagram.classify octets <;> simp [refused]

/-- **An agent moves only along its states**: it starts by `start` alone, has left the search by the
first tick that finds its time over, and when it has failed or lost its path it stays so, without a
path and without game data. -/
theorem lifecycle {a : Agent} (h : a.Reachable) :
    (∀ e, (a.step e).state ∈ a.state.successors ∧
      (a.state = .new → (a.step e).state = .checking →
        ∃ now addresses includeLoopback stunServer id,
          e = .start now addresses includeLoopback stunServer id)) ∧
    (a.state = .checking → ∃ started, a.startedAt = some started ∧
      ∀ now checkId id, started + negotiationTimeout ≤ now →
        (a.tick now checkId id).state ≠ .checking) ∧
    (a.state.isTerminal = true → ∀ es, (a.run es).state = a.state ∧ (a.run es).selected = none ∧
      (∀ payload, (a.run es).prepareSend payload = .error (.noRoute (a.run es).peer)) ∧
      ∀ source octets now id, ((a.run es).onDatagram source octets now id).2 = none) := by
  have ha := h.grounded
  refine ⟨fun e => (step_moves ha e).2, fun hstate => ?_, fun hend es => ?_⟩
  · obtain ⟨started, hstarted⟩ := ha.started (by simp [hstate])
    exact ⟨started, hstarted, fun now checkId id hover =>
      tick_leaves_checking ha hstate hstarted hover checkId id⟩
  · have hstate := run_terminal ha hend es
    exact ⟨hstate, (run_grounded ha es).silent (by rwa [hstate])⟩

/-- An agent without addresses fails when its time is over. -/
theorem lifecycle_without_addresses :
    let peer : PeerId := ⟨List.replicate 16 0, rfl⟩
    let id : TransactionId := ⟨List.replicate 12 0, rfl⟩
    let a := (new peer true 7 0).run [.start 0 [] false none id, .tick 10000 id id]
    a.state = .failed ∧ ∀ es, (a.run es).state = .failed ∧ (a.run es).selected = none :=
  ⟨by decide +kernel, fun es =>
    have stays := (lifecycle ⟨_, _, _, _, _, rfl⟩).2.2 (by decide +kernel) es
    ⟨stays.1.trans (by decide +kernel), stays.2.1⟩⟩

end Agent
end Parley
