import Parley.Proofs.Link.Frame
import Parley.Proofs.Link.Run
/-!
When an agent has last heard of its peer.

A message, a packet of game data and a note of its owner count, at the time at which they come;
nothing else does, and nothing makes an agent forget (`step_lastActivity`). So an agent that has
heard of its peer since some time goes on having done so, as long as time does not run backwards.
-/
namespace Parley
namespace Agent

/-- When an event happens. What an owner does without looking at the time has none. -/
def Event.now? : Event → Option Nat
  | .start now .. | .signal _ _ now _ | .datagram _ _ now _ | .tick now _ _ | .touch now => some now
  | .setControlling _ | .takeDatagrams | .takeSignals => none

/-! ### Operations that hear nothing -/

theorem finishGathering_lastActivity (a : Agent) :
    a.finishGathering.lastActivity = a.lastActivity := by
  unfold finishGathering
  split <;> rfl

theorem start_lastActivity (a : Agent) (now : Nat) (addresses : List SocketAddress)
    (includeLoopback : Bool) (stunServer : Option SocketAddress) (id : TransactionId) :
    (a.start now addresses includeLoopback stunServer id).lastActivity = a.lastActivity := by
  unfold start
  split
  · cases stunServer with
    | some => rfl
    | none => exact finishGathering_lastActivity _
  · rfl

theorem updateState_lastActivity (a : Agent) (now : Nat) (id : TransactionId) :
    (a.updateState now id).lastActivity = a.lastActivity := by
  have best (a : Agent) : (a.selectBest now).lastActivity = a.lastActivity := by
    unfold selectBest
    split <;> rfl
  have settled (a : Agent) : (a.settle now id).lastActivity = a.lastActivity := by
    have withdrawn : a.withdrawNomination.lastActivity = a.lastActivity := by
      unfold withdrawNomination
      split <;> rfl
    rw [← withdrawn]
    unfold settle complete nominate
    repeat' split
    all_goals rfl
  have follows := updateState_follows a now id
  generalize a.updateState now id = b at follows ⊢
  cases follows with
  | connects => exact (settled _).trans (best _)
  | settles => exact (settled _).trans (best _)
  | exhausts | searches | collapses | rests => rfl

theorem addTheirs_lastActivity (a : Agent) (c : Candidate) :
    (a.addTheirs c).lastActivity = a.lastActivity := by
  unfold addTheirs
  split
  · rfl
  · simp only
    split <;> rfl

theorem foldl_addTheirs_lastActivity (cs : List Candidate) (a : Agent) :
    (cs.foldl addTheirs a).lastActivity = a.lastActivity := by
  induction cs generalizing a with
  | nil => rfl
  | cons c cs ih => exact (ih _).trans (a.addTheirs_lastActivity c)

theorem Received.lastActivity {a b : Agent} {kind : MessageKind} {data : String}
    (h : Received a kind data b) : b.lastActivity = a.lastActivity := by
  cases h with
  | @description d =>
    have adopted : (a.adopt d.session).lastActivity = a.lastActivity := by
      unfold adopt
      split <;> rfl
    exact (foldl_addTheirs_lastActivity ..).trans adopted
  | candidate _ _ taken =>
    rw [takeSession_eq_none taken]
    exact addTheirs_lastActivity ..
  | ping => rfl
  | gatheringDone _ _ _ taken => rw [takeSession_eq_none taken]

theorem tick_lastActivity (a : Agent) (now : Nat) (checkId id : TransactionId) :
    (a.tick now checkId id).lastActivity = a.lastActivity := by
  have query : (a.tickQuery now).lastActivity = a.lastActivity := by
    unfold tickQuery
    split
    · rfl
    · split
      · exact a.finishGathering_lastActivity
      · split <;> rfl
  have checks (a : Agent) : (a.tickChecks now checkId).lastActivity = a.lastActivity := by
    unfold tickChecks
    repeat' split
    all_goals rfl
  have path (a : Agent) : (a.tickKeepalive now).lastActivity = a.lastActivity := by
    unfold tickKeepalive
    repeat' split
    all_goals rfl
  exact (updateState_lastActivity ..).trans ((path _).trans ((checks _).trans query))

/-! ### Datagrams -/

theorem handleStun_lastActivity (a : Agent) (datagram : Bytes) :
    (a.handleStun datagram).lastActivity = a.lastActivity := by
  unfold handleStun
  split
  · rfl
  · split
    · rfl
    · rename_i mapped _
      cases a.reflexiveCandidate mapped with
      | none => exact a.finishGathering_lastActivity
      | some c => exact finishGathering_lastActivity (a.addOurs c)

theorem handleBinding_lastActivity (a : Agent) (source : SocketAddress) (datagram : Bytes) :
    (a.handleBinding source datagram).lastActivity = a.lastActivity := by
  unfold handleBinding
  split
  · unfold handleRequest learnTheirs answerCheck
    simp only
    repeat' split
    all_goals rfl
  · rfl
  · rfl

/-- Of all that arrives at its socket only game data shows an agent that its peer is there. -/
theorem handleDatagram_lastActivity (a : Agent) (source : SocketAddress) (octets : Bytes)
    (now : Nat) : (a.handleDatagram source octets now).1.lastActivity = a.lastActivity ∨
      (a.handleDatagram source octets now).1.lastActivity = now := by
  unfold handleDatagram
  cases Datagram.classify octets with
  | stun => exact .inl (a.handleStun_lastActivity octets)
  | binding => exact .inl (a.handleBinding_lastActivity source octets)
  | keepalive =>
    left
    simp only [handleKeepalive]
    split <;> rfl
  | data =>
    simp only
    split
    · exact .inr rfl
    · exact .inl rfl
  | unknown => exact .inl rfl

/-! ### Runs -/

/-- **An agent notes the time of an event, or goes by what it has noted before.** -/
theorem step_lastActivity (a : Agent) (e : Event) :
    (a.step e).lastActivity = a.lastActivity ∨ e.now? = some (a.step e).lastActivity := by
  cases e with
  | start => exact .inl (a.start_lastActivity ..)
  | signal kind data now id =>
    right
    refine congrArg some (Eq.symm ?_)
    rcases a.applySignal_cases kind data now id with ⟨b, received, applied⟩ | ⟨_, -, applied⟩
    · simp only [step, applied]
      exact (updateState_lastActivity ..).trans received.lastActivity
    · simp only [step, applied]
      rfl
  | datagram source octets now id =>
    have followed := updateState_lastActivity (a.handleDatagram source octets now).1 now id
    refine (a.handleDatagram_lastActivity source octets now).imp followed.trans fun heard => ?_
    exact congrArg some (followed.trans heard).symm
  | tick => exact .inl (a.tick_lastActivity ..)
  | touch => exact .inr rfl
  | setControlling =>
    left
    simp only [step, setControlling]
    split <;> rfl
  | takeDatagrams | takeSignals => exact .inl rfl

/-- Who has heard of the peer since some time still has after a run that comes later. -/
theorem run_heard {a : Agent} {t : Nat} (heard : t ≤ a.lastActivity) {es : List Event}
    (later : ∀ e ∈ es, ∀ now, e.now? = some now → t ≤ now) : t ≤ (a.run es).lastActivity := by
  induction es generalizing a with
  | nil => exact heard
  | cons e es ih =>
    refine ih ?_ fun f hf => later f (List.mem_cons_of_mem _ hf)
    rcases a.step_lastActivity e with same | now
    · rwa [same]
    · exact later e List.mem_cons_self _ now

end Agent
end Parley
