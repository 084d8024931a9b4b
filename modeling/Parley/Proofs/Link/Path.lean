import Parley.Proofs.Link.Lifecycle
/-!
The path of a usable agent, and the pair on which a completed one has settled.

What an agent keeps of its path stands in four places: its state, the selected address, the
keepalive and the pairs of the check list. `path_agrees` says that they tell the same at any time.
The first three go together already (`Grounded`). A pair that works and is nominated leaves the list
or changes only when the list begins anew or a pair is nominated again (`act_settled`), and neither
happens to an agent that has completed.
-/
namespace Parley
open CheckList (Action)

namespace CheckList

/-- An action that leaves alone what works: it neither begins the list anew nor checks a pair again
that works. -/
def Action.Spares : Action → Prop
  | .reset _ | .nominate .. => False
  | _ => True

theorem Action.Spares.goes {x : Action} (hx : x.Spares) (controlling : Bool) :
    x ≠ .reset controlling := by
  rintro rfl
  exact hx

/-- A pair that works stays as it is, but for a mark. -/
theorem Evolves.spared {l : CheckList} {x : Action} {p q : Pair} (h : Evolves l x p q)
    (hx : x.Spares) (hstate : p.state = .succeeded) : Stays x p q := by
  cases h with
  | same => exact .inl rfl
  | marked => exact .inr ⟨⟨_, rfl⟩, rfl⟩
  | unfrozen h | released _ h => simp [hstate] at h
  | improved _ _ _ _ h | triggered h | started h => simp [hstate] at h
  | resent h => simp [Pair.needsRetransmit, hstate] at h
  | answered h => simp [Pair.awaits, hstate] at h
  | expired h => simp [Pair.isTimedOut, hstate] at h
  | nominated => exact hx.elim

/-- A nominated pair that works does not change any more. -/
theorem act_settled {l : CheckList} {x : Action} (hx : x.Spares) {p : Pair} (hp : p ∈ l.pairs)
    (hnominated : p.nominated = true) (hstate : p.state = .succeeded) : p ∈ (l.act x).pairs := by
  obtain ⟨q, hq, hev⟩ := act_evolves hx.goes hp
  rcases hev.spared hx hstate with rfl | ⟨-, rfl⟩
  · exact hq
  · rwa [← hnominated] at hq

theorem acts_settled {l : CheckList} {xs : List Action} (hxs : ∀ x ∈ xs, x.Spares) {p : Pair}
    (hp : p ∈ l.pairs) (hnominated : p.nominated = true) (hstate : p.state = .succeeded) :
    p ∈ (l.acts xs).pairs := by
  induction xs generalizing l with
  | nil => exact hp
  | cons x xs ih =>
    exact ih (fun y hy => hxs y (List.mem_cons_of_mem _ hy))
      (act_settled (hxs x (List.mem_cons_self ..)) hp hnominated hstate)

end CheckList

namespace Agent

/-! ### What an event brings -/

theorem PairsOf.spares {b : Agent} {x : Action} (h : PairsOf b x) : x.Spares := by
  obtain ⟨_, _, rfl, -, -⟩ := h
  trivial

/-- What an event permits a started agent leaves alone what works. -/
theorem Permits.spares {a b : Agent} {e : Event} {x : Action} (h : Permits a b e x)
    (ha : a.state ≠ .new) : x.Spares := by
  cases h with
  | reset hnew => exact absurd hnew ha
  | pair h => exact h.spares
  | check _ h => cases h <;> trivial
  | start | answer | expire | send => trivial

/-- From `a` to `b` an agent has taken what an event brings, by which it has not settled on anything
yet: its checks have been acted upon by `xs`, which the event permits, and otherwise it has learned
something, or has lost its path. -/
structure Brings (a : Agent) (e : Event) (b : Agent) (xs : List Action) : Prop where
  checks : b.checks = a.checks.acts xs
  permits : ∀ x ∈ xs, Permits a b e x
  answered : ∀ r, .answer r ∈ xs → xs = [.answer r]
  controlling : b.controlling = a.controlling
  abides : Abides a b
  learns : Learns a b ∨ b.state = .disconnected

theorem Brings.still {a b : Agent} {e : Event} (hchecks : b.checks = a.checks) (abides : Abides a b)
    (learns : Learns a b) : Brings a e b [] :=
  ⟨hchecks, by simp, by simp, learns.controlling, abides, .inl learns⟩

theorem tick_brings (a : Agent) (now : Nat) (checkId id : TransactionId) :
    ∃ xs, Brings a (.tick now checkId id)
      (((a.tickQuery now).tickChecks now checkId).tickKeepalive now) xs := by
  have before := (a.tickQuery_learns now).trans (tickChecks_learns _ now checkId)
  have keeps := ((a.tickQuery_keeps now).trans (tickChecks_keeps _ now checkId)).trans
    (tickKeepalive_keeps _ now)
  have abides := ((a.tickQuery_abides now).trans (tickChecks_abides _ now checkId)).trans
    (tickKeepalive_abides _ now)
  have learns : Learns a (((a.tickQuery now).tickChecks now checkId).tickKeepalive now) ∨
      (((a.tickQuery now).tickChecks now checkId).tickKeepalive now).state = .disconnected := by
    rcases tickKeepalive_cases ((a.tickQuery now).tickChecks now checkId) now with
      h | ⟨_, _, -, -, -, h⟩
    · exact .inl (before.trans h)
    · exact .inr (by rw [h])
  rcases tickChecks_effect (a.tickQuery now) now checkId with checks | checks
  · have whole := (a.tickQuery_effect now).trans (checks.trans (tickKeepalive_effect _ now))
    exact ⟨_, whole.checks, by simp, by simp, keeps.controlling, abides, learns⟩
  · have whole := (a.tickQuery_effect now).trans (checks.trans (tickKeepalive_effect _ now))
    refine ⟨_, whole.checks, ?_, by simp, keeps.controlling, abides, learns⟩
    intro x hx
    simp only [List.nil_append, List.append_nil, List.mem_cons, List.not_mem_nil, or_false] at hx
    rcases hx with rfl | rfl
    · exact .expire
    · exact .send

/-- An event brings something to a started agent, and then the state may follow. -/
theorem step_brings {a : Agent} (ha : a.state ≠ .new) (e : Event) :
    ∃ b xs, Brings a e b xs ∧ (a.step e = b ∨ ∃ now id, a.step e = b.updateState now id) := by
  cases e with
  | start now addresses includeLoopback stunServer id =>
    exact ⟨a, [], .still rfl (.refl a) (.refl a), .inl (by simp only [step, start, if_neg ha])⟩
  | signal kind data now id =>
    have touched : Abides a (a.touch now) := ⟨rfl, rfl⟩
    rcases a.applySignal_cases kind data now id with ⟨b, received, applied⟩ | ⟨_, -, applied⟩
    · have learns := (a.touch_learns now).trans received.learns
      obtain ⟨xs, hxs, hpairs⟩ := received.effect
      exact ⟨b, xs, ⟨hxs.checks, fun x hx => .pair (hpairs x hx),
        answered_of_quiet fun x hx => (hpairs x hx).quiet, learns.controlling,
        touched.trans received.abides, .inl learns⟩, .inr ⟨now, id, congrArg Prod.fst applied⟩⟩
    · exact ⟨a.touch now, [], .still rfl touched (a.touch_learns now),
        .inl (congrArg Prod.fst applied)⟩
  | datagram source octets now id =>
    obtain ⟨xs, hxs, permits, hquiet⟩ := a.handleDatagram_effect source octets now id
    have learns := a.handleDatagram_learns source octets now
    refine ⟨_, xs, ⟨hxs.checks, permits, ?_, learns.controlling,
      a.handleDatagram_abides source octets now, .inl learns⟩, .inr ⟨now, id, rfl⟩⟩
    rcases hquiet with quiet | ⟨r, rfl⟩
    · exact answered_of_quiet quiet
    · intro s hs
      rw [List.mem_singleton.1 hs]
  | tick now checkId id =>
    obtain ⟨xs, brings⟩ := a.tick_brings now checkId id
    exact ⟨_, xs, brings, .inr ⟨now, id, rfl⟩⟩
  | touch now => exact ⟨a.touch now, [], .still rfl ⟨rfl, rfl⟩ (a.touch_learns now), .inl rfl⟩
  | setControlling controlling =>
    have hnew : ¬(a.state = .new ∧ a.controlling ≠ controlling) := fun h => ha h.1
    exact ⟨a, [], .still rfl (.refl a) (.refl a),
      .inl (by simp only [step, setControlling, if_neg hnew])⟩
  | takeDatagrams =>
    exact ⟨a.clearDatagrams, [], .still rfl ⟨rfl, rfl⟩
      ⟨rfl, rfl, rfl, rfl, rfl, rfl, rfl, fun _ h => h, fun _ h => h⟩, .inl rfl⟩
  | takeSignals =>
    exact ⟨a.clearSignals, [], .still rfl ⟨rfl, rfl⟩
      ⟨rfl, rfl, rfl, rfl, rfl, rfl, rfl, fun _ h => h, fun _ h => h⟩, .inl rfl⟩

/-! ### Settling -/

/-- The agent has settled on a pair: it works, it is nominated, and game data goes to its address. -/
structure Settled (a : Agent) (p : Pair) : Prop where
  mem : p ∈ a.checks.pairs
  nominated : p.nominated = true
  works : p.state = .succeeded
  selected : a.selected = some p.remote

theorem Brings.settled {a b : Agent} {e : Event} {xs : List Action} (h : Brings a e b xs)
    {p : Pair} (hnew : a.state ≠ .new) (ha : a.Settled p) (hb : b.state ≠ .disconnected) :
    b.Settled p := by
  have learns := h.learns.resolve_right hb
  refine ⟨?_, ha.nominated, ha.works, learns.selected.trans ha.selected⟩
  rw [h.checks]
  exact CheckList.acts_settled (fun x hx => (h.permits x hx).spares hnew) ha.mem ha.nominated
    ha.works

/-- An agent completes by settling on a pair. -/
theorem settle_settled {a : Agent} {now : Nat} {id : TransactionId} (ha : a.state ≠ .completed)
    (h : (a.settle now id).state = .completed) : ∃ p, (a.settle now id).Settled p := by
  have before := a.withdrawNomination_learns.trans (nominate_learns _ now id)
  unfold settle complete at h ⊢
  split at h
  · rename_i p hp
    obtain ⟨hmem, hnominated, hworks⟩ := CheckList.nominatedPair_eq_some hp
    exact ⟨p, hmem, hnominated, hworks, rfl⟩
  · exact absurd (before.state.symm.trans h) ha

theorem updateState_settled {a : Agent} {now : Nat} {id : TransactionId}
    (ha : a.state ≠ .completed) (h : (a.updateState now id).state = .completed) :
    ∃ p, (a.updateState now id).Settled p := by
  have follows := updateState_follows a now id
  generalize a.updateState now id = b at h follows ⊢
  cases follows with
  | connects => exact settle_settled (by simp [selectBest_state]) h
  | settles hstate => exact settle_settled (by simp [selectBest_state, hstate]) h
  | collapses | exhausts => cases h
  | searches | rests => exact absurd h ha

/-- What an agent has settled on stays as long as it is completed. -/
theorem step_settled {a : Agent} (ha : a.state = .completed) {p : Pair} (h : a.Settled p)
    (e : Event) : (a.step e).state = .disconnected ∨
      (a.step e).state = .completed ∧ (a.step e).Settled p := by
  have hnew : a.state ≠ .new := by simp [ha]
  obtain ⟨b, xs, brings, hstep⟩ := step_brings hnew e
  have stays : a.step e = b := by
    rcases hstep with hstep | ⟨now, id, hstep⟩
    · exact hstep
    · rw [hstep]
      have hb : b.state = .completed ∨ b.state = .disconnected :=
        brings.learns.imp_left fun learns => learns.state.trans ha
      exact updateState_rests (by rcases hb with hb | hb <;> simp [hb])
        (by rcases hb with hb | hb <;> simp [hb]) now id
  rw [stays]
  rcases brings.learns with learns | lost
  · have hb := learns.state.trans ha
    exact .inr ⟨hb, brings.settled hnew h (by simp [hb])⟩
  · exact .inl lost

theorem run_settled {a : Agent} (ha : a.Grounded) (hstate : a.state = .completed) {p : Pair}
    (h : a.Settled p) (es : List Event) : (a.run es).state = .disconnected ∨
      (a.run es).state = .completed ∧ (a.run es).Settled p := by
  induction es generalizing a with
  | nil => exact .inr ⟨hstate, h⟩
  | cons e es ih =>
    have hstep := (step_moves ha e).1
    rcases step_settled hstate h e with lost | ⟨hstate, h⟩
    · exact .inl ((run_terminal hstep (by simp [lost, AgentState.isTerminal]) es).trans lost)
    · exact ih hstep hstate h

/-- An agent that has completed has settled on a pair. -/
theorem Reachable.settled {a : Agent} (h : a.Reachable) (ha : a.state = .completed) :
    ∃ p, a.Settled p := by
  refine (h.induct (P := fun a => a.Grounded ∧ (a.state = .completed → ∃ p, a.Settled p))
    (fun _ _ _ _ => ⟨new_grounded .., nofun⟩) fun a e ⟨ha, hsettled⟩ => ?_).2 ha
  refine ⟨(step_moves ha e).1, fun hstate => ?_⟩
  by_cases hdone : a.state = .completed
  · obtain ⟨p, hp⟩ := hsettled hdone
    rcases step_settled hdone hp e with lost | ⟨-, hp⟩
    · rw [lost] at hstate
      cases hstate
    · exact ⟨p, hp⟩
  · by_cases hnew : a.state = .new
    · have moved := (step_moves ha e).2.1
      simp [hnew, hstate, AgentState.successors] at moved
    · obtain ⟨b, xs, brings, hstep⟩ := step_brings hnew e
      have hb : b.state ≠ .completed := by
        rcases brings.learns with learns | lost
        · rwa [learns.state]
        · simp [lost]
      rcases hstep with hstep | ⟨now, id, hstep⟩
      · exact absurd (hstep ▸ hstate) hb
      · rw [hstep] at hstate ⊢
        exact updateState_settled hb hstate

/-! ### The path -/

/-- An agent has a selected address just while its state is usable. -/
theorem Grounded.usable_iff {a : Agent} (ha : a.Grounded) :
    a.state.isUsable = true ↔ a.selected.isSome = true := by
  have agrees := ha.path
  unfold PathAgrees Pathless OnPath OffPath at agrees
  cases hstate : a.state <;> simp only [hstate] at agrees
  case connected | completed =>
    obtain ⟨address, hselected, -⟩ := agrees
    simp [AgentState.isUsable, hselected]
  all_goals simp [AgentState.isUsable, agrees.1]

theorem Grounded.started_of_selected {a : Agent} (ha : a.Grounded) {address : SocketAddress}
    (h : a.selected = some address) : a.state ≠ .new :=
  started_of_usable (ha.usable_iff.2 (by simp [h]))

/-- What is selected is kept alive, and payloads go there. -/
theorem Grounded.carries {a : Agent} (ha : a.Grounded) {address : SocketAddress}
    (h : a.selected = some address) :
    (∃ k, a.keepalive = some k ∧ k.lost = false ∧ k.remote = address) ∧
      ∀ payload, payload.length ≤ Datagram.maxPayload →
        a.prepareSend payload = .ok (address, Datagram.ofPayload payload) := by
  have usable := ha.usable_iff.2 (by simp [h])
  refine ⟨?_, fun payload hlength => ?_⟩
  · have agrees := ha.path
    unfold PathAgrees at agrees
    have path : a.OnPath := by
      rcases connected_or_completed.1 usable with hstate | hstate <;> rwa [hstate] at agrees
    obtain ⟨address', hselected, hkeepalive⟩ := path
    obtain ⟨k, hk, hpath⟩ := Option.map_eq_some_iff.1 hkeepalive
    obtain ⟨hremote, hlost⟩ := Prod.mk.inj hpath
    rw [h] at hselected
    exact ⟨k, hk, hlost, hremote.trans (Option.some.inj hselected).symm⟩
  · simp [prepareSend, usable, h, Nat.not_lt.2 hlength]

/-- **State, selected path, keepalive and checks agree.** An agent is usable just while an address
is selected; that address is kept alive and takes every payload that fits into a datagram. An agent
that has completed has settled on a pair that works and is nominated, and keeps to that pair until
it has lost the path. -/
theorem path_agrees {a : Agent} (h : a.Reachable) :
    (a.state = .connected ∨ a.state = .completed ↔ a.selected.isSome = true) ∧
    (∀ address, a.selected = some address →
      (∃ k, a.keepalive = some k ∧ k.lost = false ∧ k.remote = address) ∧
      ∀ payload, payload.length ≤ 65506 →
        a.prepareSend payload = .ok (address, Datagram.ofPayload payload)) ∧
    (a.state = .completed → ∃ p, ∀ es, (a.run es).state = .disconnected ∨
      (a.run es).state = .completed ∧ p ∈ (a.run es).checks.pairs ∧ p.nominated = true ∧
        p.state = .succeeded ∧ (a.run es).selected = some p.remote) := by
  refine ⟨connected_or_completed.symm.trans h.grounded.usable_iff,
    fun address => h.grounded.carries, fun hstate => ?_⟩
  obtain ⟨p, hp⟩ := h.settled hstate
  refine ⟨p, fun es => (run_settled h.grounded hstate hp es).imp_right fun ⟨hstate, hp⟩ => ?_⟩
  exact ⟨hstate, hp.mem, hp.nominated, hp.works, hp.selected⟩

/-- An agent that is nominated, checks back and is answered sends there until it has lost the
path. -/
theorem path_agrees_after_nomination :
    let peer : PeerId := ⟨List.replicate 16 0, rfl⟩
    let id : UInt8 → TransactionId := fun n => ⟨List.replicate 12 n, List.length_replicate⟩
    let near : SocketAddress := .v4 ⟨10, 0, 0, 1⟩ 5000
    let far : SocketAddress := .v4 ⟨10, 0, 0, 2⟩ 6000
    let a := (new peer false 7 0).run [
      .start 0 [near] false none (id 0),
      .datagram far (BindingMessage.request ⟨id 1, 0, true⟩).encode 10 (id 2),
      .tick 20 (id 3) (id 4),
      .datagram far (BindingMessage.response ⟨id 3, true, none⟩).encode 30 (id 5)]
    a.state = .completed ∧
      a.prepareSend [1, 2, 3] = .ok (far, Datagram.ofPayload [1, 2, 3]) ∧
      ∀ es, (a.run es).state ≠ .disconnected → (a.run es).selected = some far := by
  intro peer id near far a
  have reachable : a.Reachable := ⟨_, _, _, _, _, rfl⟩
  have hstate : a.state = .completed := by decide +kernel
  have hselected : a.selected = some far := by decide +kernel
  clear_value a
  obtain ⟨-, sends, stays⟩ := path_agrees reachable
  obtain ⟨p, hp⟩ := stays hstate
  have hfar : some p.remote = some far := by
    rcases hp [] with lost | ⟨-, -, -, -, h⟩
    · exact absurd (lost.symm.trans hstate) (by decide)
    · exact h.symm.trans hselected
  refine ⟨hstate, (sends far hselected).2 _ (by decide), fun es hes => ?_⟩
  obtain ⟨-, -, -, -, h⟩ := (hp es).resolve_left hes
  exact h.trans hfar

end Agent
end Parley
