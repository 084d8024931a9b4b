import Parley.Proofs.Link.CheckList.Single
import Parley.Proofs.Link.Effect
import Parley.Proofs.Link.Standing
/-!
An agent whose peer has one address.

`Stands` ties an agent to its standing, and `Stands.tick` and `Stands.message` say that in the first
four seconds the agent does what `Moves` allows: until then no check runs out of time and no
keepalive is due.
-/
namespace Parley

/-- The bookkeeping of a path that has been in use since `t₀` or later and has not been checked. -/
structure Keepalive.Quiet (peer : SocketAddress) (t₀ : Nat) (k : Keepalive) : Prop where
  remote : k.remote = peer
  outstanding : k.outstanding = none
  lost : k.lost = false
  sent : t₀ ≤ k.lastSent

namespace Agent

/-- An agent that has been at work since `t₀` and whose check list is the one pair `p`. -/
structure Single (peer : SocketAddress) (t₀ : Nat) (p : Pair) (a : Agent) : Prop where
  pairs : a.checks.pairs = [p]
  remote : p.remote = peer
  started : a.startedAt = some t₀
  clock : a.checks.started.isSome = true
  query : a.query = none
  timely : p.state = .inProgress → p.Timely t₀
  quiet : ∀ k, a.keepalive = some k → k.Quiet peer t₀

section Follow
variable {peer : SocketAddress} {t₀ now : Nat} {p : Pair} {a : Agent} (id : TransactionId)

theorem Single.select (h : Single peer t₀ p a) (hnow : t₀ ≤ now) :
    Single peer t₀ p (a.select peer now) := by
  refine ⟨h.pairs, h.remote, h.started, h.clock, h.query, h.timely, fun k hk => ?_⟩
  unfold Agent.select at hk
  cases hkeep : a.keepalive with
  | none =>
    simp only [hkeep, Option.some.injEq] at hk
    rw [← hk]
    exact ⟨rfl, rfl, rfl, hnow⟩
  | some k' =>
    simp only [hkeep, Option.some.injEq] at hk
    have quiet := h.quiet k' hkeep
    rw [← hk, Keepalive.setRemote, if_pos quiet.remote]
    exact quiet

/-- The agent with another state of the pair, and whatever it has sent. -/
theorem Single.replaced (h : Single peer t₀ p a) {q : Pair} (hremote : q.remote = p.remote)
    (htimely : q.state = .inProgress → q.Timely t₀) (lastCheck : Option Nat)
    (nominationSent : Bool) (datagrams : List (SocketAddress × Bytes)) :
    Single peer t₀ q { a with
      checks := { a.checks with pairs := [q], lastCheck }
      nominationSent
      datagrams } :=
  ⟨rfl, hremote.trans h.remote, h.started, h.clock, h.query, htimely, h.quiet⟩

theorem selectBest_single (h : Single peer t₀ p a) (now : Nat) :
    a.selectBest now = if p.state = .succeeded then a.select peer now else a := by
  by_cases hp : p.state = .succeeded
  · simp [selectBest, CheckList.bestSucceeded_single h.pairs, hp, h.pairs, h.remote]
  · simp [selectBest, CheckList.bestSucceeded_single h.pairs, hp]

theorem complete_single (h : Single peer t₀ p a) (now : Nat) :
    a.complete now = if p.nominated && p.state == .succeeded then
      { a with state := .completed }.select peer now else a := by
  unfold complete
  rw [CheckList.nominatedPair_single h.pairs]
  by_cases hp : p.nominated && p.state == .succeeded
  · simp only [hp, if_true, h.remote]
  · simp only [hp, Bool.false_eq_true, if_false]

/-- While the check is under way an agent that has begun to search goes on. -/
theorem updateState_searches (h : Single peer t₀ p a) (hstate : a.state = .checking)
    (hp : p.state = .waiting ∨ p.state = .inProgress) (hnow : now ≤ t₀ + 4000) :
    a.updateState now id = a := by
  have works : a.checks.hasSucceeded = false := by
    rw [CheckList.hasSucceeded_single h.pairs]
    rcases hp with hp | hp <;> rw [hp] <;> rfl
  have ended : a.checks.isComplete = false := by
    rw [CheckList.isComplete_single h.pairs, CheckList.isSettled]
    rcases hp with hp | hp <;> rw [hp] <;> rfl
  have exhausted : a.isExhausted now = false := by
    have early : ¬negotiationTimeout ≤ now - t₀ := by
      unfold negotiationTimeout
      omega
    simp [isExhausted, h.started, early, h.pairs, ended]
  simp [updateState, hstate, works, exhausted]

/-- While a nomination is under way a connected agent waits for its answer. -/
theorem updateState_awaits (h : Single peer t₀ p a) (hstate : a.state = .connected)
    (hp : p.state = .inProgress) (hmarked : p.nominated = true) (hsent : a.nominationSent = true) :
    a.updateState now id = a := by
  have works : a.checks.hasSucceeded = false := by
    rw [CheckList.hasSucceeded_single h.pairs, hp]
    rfl
  have ended : a.checks.isComplete = false := by
    rw [CheckList.isComplete_single h.pairs, CheckList.isSettled, hp]
    rfl
  have best : a.selectBest now = a := by rw [selectBest_single h, hp, if_neg (by decide)]
  have pending : a.withdrawNomination = a := by
    simp [withdrawNomination, CheckList.nominationPending_single h.pairs, hp, hmarked]
  have silent : a.nominate now id = a := by simp [nominate, mayNominate, hsent]
  have unsettled : a.complete now = a := by rw [complete_single h, hp, if_neg (by simp)]
  simp [updateState, hstate, works, ended, best, settle, pending, silent, unsettled]

/-- An agent that has no nomination to make settles on its path as soon as the pair is marked. -/
theorem settle_completes (h : Single peer t₀ p a) (hp : p.state = .succeeded)
    (hsent : a.nominationSent = a.controlling)
    (hmarked : a.controlling = true → p.nominated = true) : a.settle now id =
      if p.nominated then { a with state := .completed }.select peer now else a := by
  have kept : a.withdrawNomination = a := by
    unfold withdrawNomination
    rw [CheckList.nominatedPair_single h.pairs, hsent]
    cases hcontrolling : a.controlling
    · simp
    · simp [hmarked hcontrolling, hp]
  have silent : a.nominate now id = a := by simp [nominate, mayNominate, hsent]
  rw [settle, kept, silent, complete_single h, hp]
  simp

/-- The controlling side nominates the pair at once: no other check can do better. -/
theorem settle_nominates (h : Single peer t₀ p a) (hp : p.state = .succeeded)
    (hcontrolling : a.controlling = true) (hsent : a.nominationSent = false) :
    a.settle now id =
      { a with
        checks :=
          { a.checks with pairs := [({ p with nominated := true }.startCheck now id).1] }
        nominationSent := true }.queueRequest peer ({ p with nominated := true }.request id) := by
  have kept : a.withdrawNomination = a := by simp [withdrawNomination, hsent]
  have ended : a.checks.isComplete = true := by
    rw [CheckList.isComplete_single h.pairs, CheckList.isSettled, hp]
    rfl
  have may : a.mayNominate now = true := by simp [mayNominate, hcontrolling, hsent, ended]
  have best : a.checks.bestSucceeded = some 0 := by
    rw [CheckList.bestSucceeded_single h.pairs, if_pos hp]
  rw [settle, kept, nominate, if_pos may, best]
  simp only [CheckList.nominate_single h.pairs hp, h.remote]
  simp [complete, CheckList.nominatedPair, queueRequest, queue, Pair.startCheck]

end Follow

/-- An agent that stands where `s` says. -/
structure Stands (peer : SocketAddress) (t₀ : Nat) (s : Standing) (a : Agent) : Prop where
  pair : ∃ p, Single peer t₀ p a ∧ p.state = s.stage.check ∧ p.nominated = s.marked ∧
    ∀ id, s.stage.pending = some id → p.transaction = some id
  role : a.controlling = s.controlling
  state : a.state = s.stage.state
  nominated : a.nominationSent = s.hasNominated
  idle : s.stage = .waiting → a.checks.lastCheck = none
  selected : s.stage.state.isUsable = true → a.selected = some peer
  legal : s.Legal

section Steps
variable {peer : SocketAddress} {t₀ now : Nat} {s : Standing} {p : Pair} {a : Agent}
  {controlling : Bool}

theorem Stands.queued (h : Stands peer t₀ s a) (ds : List (SocketAddress × Bytes)) :
    Stands peer t₀ s { a with datagrams := ds } := by
  obtain ⟨p, single, rest⟩ := h.pair
  exact ⟨⟨p, ⟨single.pairs, single.remote, single.started, single.clock, single.query,
    single.timely, single.quiet⟩, rest⟩, h.role, h.state, h.nominated, h.idle, h.selected, h.legal⟩

/-- A connected agent whose pair works, and that has no nomination to make, completes when the pair
is marked. -/
theorem settle_stands (h : Single peer t₀ p a) (hp : p.state = .succeeded)
    (hstate : a.state = .connected) (hselected : a.selected = some peer)
    (hrole : a.controlling = controlling) (hsent : a.nominationSent = controlling)
    (hmarked : controlling = true → p.nominated = true) (hnow : t₀ ≤ now) (id : TransactionId) :
    Stands peer t₀ ⟨controlling, if p.nominated then .completed else .connected, p.nominated⟩
        (a.settle now id) ∧ (a.settle now id).datagrams = a.datagrams := by
  rw [settle_completes id h hp (hsent.trans hrole.symm) (hrole ▸ hmarked)]
  cases hnominated : p.nominated
  · have controlled : controlling = false := by
      cases controlling
      · rfl
      · rw [hmarked rfl] at hnominated
        cases hnominated
    subst controlled
    exact ⟨⟨⟨p, h, hp, hnominated, nofun⟩, hrole, hstate, hsent, nofun, fun _ => hselected,
      ⟨rfl, rfl⟩⟩, rfl⟩
  · have complete : Single peer t₀ p { a with state := .completed } :=
      ⟨h.pairs, h.remote, h.started, h.clock, h.query, h.timely, h.quiet⟩
    exact ⟨⟨⟨p, complete.select hnow, hp, hnominated, nofun⟩, hrole, rfl, hsent, nofun,
      fun _ => rfl, rfl⟩, rfl⟩

/-- Selecting the path that works, and then settling. -/
theorem selectBest_settle_stands (h : Single peer t₀ p a) (hp : p.state = .succeeded)
    (hstate : a.state = .connected) (hrole : a.controlling = controlling)
    (hsent : a.nominationSent = controlling) (hmarked : controlling = true → p.nominated = true)
    (hnow : t₀ ≤ now) (id : TransactionId) :
    Stands peer t₀ ⟨controlling, if p.nominated then .completed else .connected, p.nominated⟩
        ((a.selectBest now).settle now id) ∧
      ((a.selectBest now).settle now id).datagrams = a.datagrams := by
  rw [selectBest_single h, if_pos hp]
  exact settle_stands (h.select hnow) hp hstate rfl hrole hsent hmarked hnow id

/-- A connected agent follows its pair. -/
theorem updateState_settles_single (h : Single peer t₀ p a) (hp : p.state = .succeeded)
    (hstate : a.state = .connected) (hrole : a.controlling = controlling)
    (hsent : a.nominationSent = controlling) (hmarked : controlling = true → p.nominated = true)
    (hnow : t₀ ≤ now) (id : TransactionId) :
    Stands peer t₀ ⟨controlling, if p.nominated then .completed else .connected, p.nominated⟩
        (a.updateState now id) ∧ (a.updateState now id).datagrams = a.datagrams := by
  have works : a.checks.hasSucceeded = true := by
    rw [CheckList.hasSucceeded_single h.pairs, hp]
    rfl
  have follow : a.updateState now id = (a.selectBest now).settle now id := by
    simp [updateState, hstate, works]
  rw [follow]
  exact selectBest_settle_stands h hp hstate hrole hsent hmarked hnow id

/-- An agent that stands somewhere stays there, as long as nothing arrives. -/
theorem Stands.updateState (h : Stands peer t₀ s a) (hnow : t₀ ≤ now ∧ now ≤ t₀ + 4000)
    (id : TransactionId) : Stands peer t₀ s (a.updateState now id) ∧
      (a.updateState now id).datagrams = a.datagrams := by
  obtain ⟨p, single, hcheck, hmarked, -⟩ := h.pair
  obtain ⟨controlling, stage, marked⟩ := s
  cases stage with
  | waiting =>
    rw [updateState_searches id single h.state (.inl hcheck) hnow.2]
    exact ⟨h, rfl⟩
  | checking t =>
    rw [updateState_searches id single h.state (.inr hcheck) hnow.2]
    exact ⟨h, rfl⟩
  | nominating t =>
    have legal := h.legal
    rw [updateState_awaits id single h.state hcheck (hmarked.trans legal.2)
      (h.nominated.trans legal.1)]
    exact ⟨h, rfl⟩
  | connected =>
    obtain ⟨rfl, rfl⟩ : controlling = false ∧ marked = false := h.legal
    have stays := updateState_settles_single single hcheck h.state h.role h.nominated nofun
      hnow.1 id
    have unmarked : p.nominated = false := hmarked
    rwa [unmarked] at stays
  | completed =>
    have rest : a.updateState now id = a := by simp [Agent.updateState, h.state, Stage.state]
    rw [rest]
    exact ⟨h, rfl⟩

/-! ### Ticks -/

theorem tickKeepalive_single (h : Single peer t₀ p a) (hnow : now ≤ t₀ + 4000) :
    a.tickKeepalive now = a := by
  cases hkeep : a.keepalive with
  | none => simp [tickKeepalive, hkeep]
  | some k =>
    have quiet := h.quiet k hkeep
    have timeout : k.checkTimeout now = (k, false) := by
      simp [Keepalive.checkTimeout, quiet.lost, quiet.outstanding]
    have early : now - k.lastSent < Keepalive.interval := by
      have := quiet.sent
      unfold Keepalive.interval
      omega
    have poll : k.poll now = (k, none) := by simp [Keepalive.poll, early]
    simp only [tickKeepalive, hkeep, timeout, poll]
    rw [← hkeep]

/-- Sending what the check list has to send leaves the agent at its standing, or begins the
check. -/
theorem Stands.tickChecks (h : Stands peer t₀ s a) (hnow : t₀ ≤ now ∧ now ≤ t₀ + 4000)
    (id : TransactionId) : ∃ s' out, s.Moves peer (.tick id) s' out ∧
      Stands peer t₀ s' (a.tickChecks now id) ∧ (a.tickChecks now id).datagrams =
        a.datagrams ++ out.map fun m => (peer, m.encode) := by
  obtain ⟨p, single, hcheck, hmarked, hpending⟩ := h.pair
  have ontime : p.isTimedOut now = false := by
    by_cases hp : p.state = .inProgress
    · exact (single.timely hp).not_timedOut hnow.2
    · simp [Pair.isTimedOut, hp]
  have kept : a.checks.handleTimeouts now = a.checks :=
    CheckList.handleTimeouts_single single.pairs ontime
  have active : a.state = .checking ∨ a.state = .connected ∨ a.state = .completed := by
    rw [h.state]
    cases s.stage <;> simp [Stage.state]
  have next := tickChecks_of_active active now id
  rw [kept] at next
  by_cases hstage : s.stage = .waiting
  · have hwaiting : p.state = .waiting := by rw [hcheck, hstage, Stage.check]
    have may : a.checks.mayCheck now = true := by
      simp [CheckList.mayCheck, single.clock, h.idle hstage]
    rw [CheckList.nextRequest_waiting single.pairs hwaiting may] at next
    refine ⟨{ s with stage := .checking id }, [.request (p.request id)],
      .starts (r := p.request id) hstage hmarked, ?_, ?_⟩
    · have begun := single.replaced (q := (p.startCheck now id).1) rfl
        (fun _ => .startCheck hnow.1 p id) (some now) a.nominationSent
      rw [next]
      refine ⟨⟨_, begun _, rfl, hmarked, fun _ h => h⟩, h.role, ?_, ?_, fun hs => ?_, fun hs => ?_,
        trivial⟩
      · exact h.state.trans (by rw [hstage]; rfl)
      · exact h.nominated.trans (by rw [Standing.hasNominated, hstage]; rfl)
      · cases hs
      · cases hs
    · simp [next, queueRequest, queue, single.remote]
  · have started : p.state ≠ .waiting ∧ p.state ≠ .frozen := by
      rw [hcheck]
      cases hs : s.stage <;> simp [Stage.check, hs] at hstage ⊢
    rcases CheckList.nextRequest_started single.pairs started now id with
      hnone | ⟨t, due, ht, hnext⟩
    · refine ⟨s, [], .rests hstage, ?_, ?_⟩ <;> rw [next, hnone]
      · exact h
      · simp
    · rw [hnext] at next
      have busy : p.state = .inProgress := by
        simp only [Pair.needsRetransmit, Bool.and_eq_true, beq_iff_eq] at due
        exact due.1.1
      have pending := (Stage.pending_of_busy hcheck hpending busy).trans ht
      refine ⟨s, [.request (p.request t)], .repeats pending hmarked, ?_, ?_⟩
      · have again := single.replaced
          (q := { p with sends := p.sends + 1, lastSent := some now }) rfl
          (fun hp => (single.timely hp).resend due) (some now) a.nominationSent
        rw [next]
        exact ⟨⟨_, again _, hcheck, hmarked, hpending⟩, h.role, h.state, h.nominated,
          fun hs => absurd hs hstage, h.selected, h.legal⟩
      · simp [next, queueRequest, queue, single.remote]

/-- **A tick is a move.** -/
theorem Stands.tick (h : Stands peer t₀ s a) (hnow : t₀ ≤ now ∧ now ≤ t₀ + 4000)
    (checkId id : TransactionId) : ∃ s' out, s.Moves peer (.tick checkId) s' out ∧
      Stands peer t₀ s' (a.tick now checkId id) ∧ (a.tick now checkId id).datagrams =
        a.datagrams ++ out.map fun m => (peer, m.encode) := by
  obtain ⟨p, single, -⟩ := h.pair
  have unasked : a.tickQuery now = a := by simp [tickQuery, single.query]
  obtain ⟨s', out, moves, stands, sent⟩ := h.tickChecks hnow checkId
  obtain ⟨p', single', -⟩ := stands.pair
  obtain ⟨stays, silent⟩ := stands.updateState hnow id
  unfold Agent.tick
  rw [unasked, tickKeepalive_single single' hnow.2]
  exact ⟨s', out, moves, stays, silent.trans sent⟩

/-! ### Messages -/

/-- A check from the peer is answered, and marks the pair when it nominates it. -/
theorem handleRequest_single (h : Single peer t₀ p a)
    (hp : p.state ≠ .frozen ∧ p.state ≠ .failed)
    (hstate : a.state ≠ .new ∧ a.state.isTerminal = false)
    (r : BindingRequest) : a.handleRequest peer r =
      { a with
        checks :=
          if r.useCandidate && !a.controlling then
            { a.checks with pairs := [{ p with nominated := true }] }
          else a.checks
        datagrams :=
          a.datagrams ++ [(peer, (BindingMessage.response (.accept r.id peer)).encode)] } := by
  have found := CheckList.findByRemote_single h.pairs
  rw [h.remote] at found
  have marked := CheckList.markNominated_single h.pairs
  simp [handleRequest, hstate, learnTheirs, answerCheck, queue, found,
    CheckList.trigger_single h.pairs hp, marked]

theorem Stands.request (h : Stands peer t₀ s a) (hnow : t₀ ≤ now ∧ now ≤ t₀ + 4000)
    (r : BindingRequest) (id : TransactionId) :
    Stands peer t₀ (s.mark r.useCandidate)
        (a.onDatagram peer (BindingMessage.request r).encode now id).1 ∧
      (a.onDatagram peer (BindingMessage.request r).encode now id).1.datagrams =
        a.datagrams ++ [(peer, (BindingMessage.response (.accept r.id peer)).encode)] := by
  obtain ⟨p, single, hcheck, hmarked, hpending⟩ := h.pair
  have busy : p.state ≠ .frozen ∧ p.state ≠ .failed := by
    rw [hcheck]
    cases s.stage <;> simp [Stage.check]
  have active : a.state ≠ .new ∧ a.state.isTerminal = false := by
    rw [h.state]
    cases s.stage <;> simp [Stage.state, AgentState.isTerminal]
  have handled := handleRequest_single single busy active r
  rw [onDatagram_request (BindingMessage.decode_encode_request r), handled]
  have role := h.role
  by_cases hmark : (r.useCandidate && !a.controlling) = true
  · rw [if_pos hmark]
    have marked := single.replaced (q := { p with nominated := true }) rfl
      (fun hp => ⟨(single.timely hp).first, (single.timely hp).last, (single.timely hp).sends⟩)
      a.checks.lastCheck a.nominationSent
      (a.datagrams ++ [(peer, (BindingMessage.response (.accept r.id peer)).encode)])
    have marks : (r.useCandidate && !s.controlling) = true := by rwa [role] at hmark
    by_cases hstage : s.stage = .connected
    · have hcontrolling : s.controlling = false := by
        simpa using (Bool.and_eq_true_iff.1 marks).2
      have sent : a.nominationSent = s.controlling := by
        rw [h.nominated, Standing.hasNominated, hstage, hcontrolling]
      have settled := updateState_settles_single marked (by rw [hcheck, hstage, Stage.check])
        (h.state.trans (by rw [hstage, Stage.state])) role sent (fun _ => rfl) hnow.1 id
      have target : s.mark r.useCandidate = ⟨s.controlling, .completed, true⟩ := by
        simp [Standing.mark, marks, hstage]
      rw [target]
      exact settled
    · have target : s.mark r.useCandidate = { s with marked := true } := by
        simp [Standing.mark, marks, hstage]
      have legal := h.legal.mark r.useCandidate
      rw [target] at legal ⊢
      have stands : Stands peer t₀ { s with marked := true } _ :=
        ⟨⟨_, marked, hcheck, rfl, hpending⟩, role, h.state, h.nominated, h.idle, h.selected, legal⟩
      exact stands.updateState hnow id
  · rw [if_neg hmark]
    have target : s.mark r.useCandidate = s := by
      rw [role] at hmark
      rw [Standing.mark, if_neg hmark]
    rw [target]
    exact (h.queued _).updateState hnow id

/-- The first answer that a side gets connects it, and the controlling side nominates. -/
theorem connects_stands (h : Single peer t₀ p a) (hp : p.state = .succeeded)
    (hstate : a.state = .checking) (hsent : a.nominationSent = false) (hnow : t₀ ≤ now)
    (id : TransactionId) :
    (a.controlling = false →
      Stands peer t₀ ⟨false, if p.nominated then .completed else .connected, p.nominated⟩
          (a.updateState now id) ∧ (a.updateState now id).datagrams = a.datagrams) ∧
    (a.controlling = true → ∃ q, q.id = id ∧ q.useCandidate = true ∧
      Stands peer t₀ ⟨true, .nominating id, true⟩ (a.updateState now id) ∧
        (a.updateState now id).datagrams =
          a.datagrams ++ [(peer, (BindingMessage.request q).encode)]) := by
  have works : a.checks.hasSucceeded = true := by
    rw [CheckList.hasSucceeded_single h.pairs, hp]
    rfl
  have follow : a.updateState now id =
      ({ a with firstSuccess := some now, state := .connected }.selectBest now).settle now id := by
    simp [updateState, hstate, works]
  have connected : Single peer t₀ p { a with firstSuccess := some now, state := .connected } :=
    ⟨h.pairs, h.remote, h.started, h.clock, h.query, h.timely, h.quiet⟩
  rw [follow]
  constructor
  · intro hcontrolling
    exact selectBest_settle_stands connected hp rfl hcontrolling hsent nofun hnow id
  · intro hcontrolling
    rw [selectBest_single connected, if_pos hp]
    have chosen := connected.select hnow
    rw [settle_nominates id chosen hp hcontrolling hsent]
    have nominated := chosen.replaced (q := ({ p with nominated := true }.startCheck now id).1) rfl
      (fun _ => .startCheck hnow _ id) a.checks.lastCheck true
    refine ⟨{ p with nominated := true }.request id, rfl, rfl, ?_, rfl⟩
    exact ⟨⟨_, nominated _, rfl, rfl, fun _ h => h⟩, hcontrolling, rfl, rfl, nofun,
      fun _ => rfl, ⟨rfl, rfl⟩⟩

/-- The answer that a side waits for. -/
theorem Stands.answered (h : Stands peer t₀ s a) (single : Single peer t₀ p a)
    (hmarked : p.nominated = s.marked) (hnow : t₀ ≤ now) {r : BindingResponse}
    (hawaits : s.stage.pending = some r.id) (id : TransactionId) {b : Agent}
    (hb : b = { a with checks := { a.checks with pairs := [{ p with state := .succeeded }] } }) :
    ∃ s' out, s.Moves peer (.message (.response r) id) s' out ∧
      Stands peer t₀ s' (b.updateState now id) ∧
      (b.updateState now id).datagrams = a.datagrams ++ out.map fun m => (peer, m.encode) := by
  subst hb
  have worked := single.replaced (q := { p with state := .succeeded }) rfl (fun hp => by cases hp)
    a.checks.lastCheck a.nominationSent a.datagrams
  cases hs : s.stage with
  | checking t =>
    rw [hs] at hawaits
    obtain rfl : t = r.id := Option.some.inj hawaits
    obtain ⟨controlled, controlling⟩ := connects_stands worked rfl
      (h.state.trans (by rw [hs]; rfl))
      (h.nominated.trans (by rw [Standing.hasNominated, hs])) hnow id
    cases hrole : s.controlling
    · have moved := controlled (h.role.trans hrole)
      refine ⟨_, [], .works hs hrole, ?_, ?_⟩
      · rw [← hmarked, hrole]
        exact moved.1
      · simpa using moved.2
    · obtain ⟨q, hq, huse, stands, sent⟩ := controlling (h.role.trans hrole)
      subst hq
      refine ⟨_, [.request q], .nominates hs hrole huse, ?_, sent⟩
      rw [hrole]
      exact stands
  | nominating t =>
    rw [hs] at hawaits
    obtain rfl : t = r.id := Option.some.inj hawaits
    have legal := h.legal
    rw [Standing.Legal, hs] at legal
    have nominated : p.nominated = true := hmarked.trans legal.2
    obtain ⟨stands, silent⟩ := updateState_settles_single worked rfl
      (h.state.trans (by rw [hs]; rfl)) h.role
      (h.nominated.trans (by rw [Standing.hasNominated, hs])) (fun _ => nominated) hnow id
    refine ⟨_, [], .confirms hs, ?_, by simpa using silent⟩
    rw [legal.2, ← nominated]
    rwa [if_pos nominated] at stands
  | waiting | connected | completed =>
    rw [hs] at hawaits
    cases hawaits

theorem Stands.response (h : Stands peer t₀ s a) (hnow : t₀ ≤ now ∧ now ≤ t₀ + 4000)
    {r : BindingResponse} (hr : r.success = true) (id : TransactionId) :
    ∃ s' out, s.Moves peer (.message (.response r) id) s' out ∧
      Stands peer t₀ s' (a.onDatagram peer (BindingMessage.response r).encode now id).1 ∧
      (a.onDatagram peer (BindingMessage.response r).encode now id).1.datagrams =
        a.datagrams ++ out.map fun m => (peer, m.encode) := by
  obtain ⟨p, single, hcheck, hmarked, hpending⟩ := h.pair
  -- What is read is the answer with a plain address in it.
  obtain ⟨r', hid, hsuccess, read⟩ : ∃ r', r'.id = r.id ∧ r'.success = true ∧
      BindingMessage.decode (BindingMessage.response r).encode = .ok (.response r') :=
    ⟨_, rfl, hr, BindingMessage.decode_encode (.response r)⟩
  rw [onDatagram_response read]
  by_cases hawaits : s.stage.pending = some r.id
  · have awaited : p.awaits r'.id = true := by
      have busy : p.state = .inProgress := by
        rw [hcheck]
        cases hs : s.stage <;> simp [Stage.pending, Stage.check, hs] at hawaits ⊢
      simp [Pair.awaits, busy, hid, hpending r.id hawaits]
    refine h.answered single hmarked hnow.1 hawaits id ?_
    rw [handleResponse, CheckList.handleResponse_awaited single.pairs awaited hsuccess]
  · have ignored : p.awaits r'.id = false := by
      by_contra hawaited
      simp only [Pair.awaits, Bool.not_eq_false, Bool.and_eq_true, beq_iff_eq, hid] at hawaited
      exact hawaits ((Stage.pending_of_busy hcheck hpending hawaited.1).trans hawaited.2)
    obtain ⟨stays, silent⟩ := h.updateState hnow id
    rw [handleResponse, CheckList.handleResponse_other single.pairs ignored]
    exact ⟨s, [], .passes hawaits, stays, by simpa using silent⟩

/-- **A binding message is a move**, when it comes from the peer. -/
theorem Stands.message (h : Stands peer t₀ s a) (hnow : t₀ ≤ now ∧ now ≤ t₀ + 4000)
    {m : BindingMessage} (hm : ∀ r, m = .response r → r.success = true) (id : TransactionId) :
    ∃ s' out, s.Moves peer (.message m id) s' out ∧
      Stands peer t₀ s' (a.onDatagram peer m.encode now id).1 ∧
      (a.onDatagram peer m.encode now id).1.datagrams =
        a.datagrams ++ out.map fun m => (peer, m.encode) := by
  cases m with
  | request r =>
    obtain ⟨stands, sent⟩ := h.request hnow r id
    exact ⟨_, _, .checked, stands, sent⟩
  | response r => exact h.response hnow (hm r rfl) id

end Steps
end Agent
end Parley
