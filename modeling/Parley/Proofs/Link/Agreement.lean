import Parley.Proofs.Link.Nomination
import Mathlib.Tactic.IntervalCases
/-!
What the two sides agree on when a nomination is confirmed.

Every answer on the network is to a check that has arrived (`Confirming.answered`), and an identifier
tells whether its check nominates. So a controlling agent that has completed has had a nominating
check of its own arrive at the other side, `completed_arrival`: there it has been noted, unless the
other agent had come to its end.
-/
namespace Parley
namespace Network
open Agent (Event)

/-- A check of the controlling side that arrives at the other one in the course of a run. -/
structure Arrival (P : Side → Origin) (ms : List Move) where
  before : List Move
  index : Nat
  source : SocketAddress
  now : Nat
  id : TransactionId
  after : List Move
  destination : SocketAddress
  octets : Bytes
  request : BindingRequest
  split : ms = before ++ .deliver .controlled index source now id :: after
  packet : (((begin P).run before).sent .controlling)[index]? = some (destination, octets)
  version : source.isV4 = destination.isV4
  decoded : BindingMessage.decode octets = .ok (.request request)

namespace Arrival
variable {P : Side → Origin} {ms : List Move}

/-- The network when the check arrives. -/
def network (x : Arrival P ms) : Network := (begin P).run x.before

/-- The network when it has been taken. -/
def next (x : Arrival P ms) : Network :=
  x.network.step (.deliver .controlled x.index x.source x.now x.id)

/-- The check has been noted: the agent goes on, and has nominated the pair with the address from
which it comes. -/
def Noted (x : Arrival P ms) : Prop :=
  (x.network.agent .controlled).state ∈ [.checking, .connected, .completed] ∧
    ∃ p ∈ (x.next.agent .controlled).checks.pairs, p.remote = x.source ∧ p.nominated = true

/-- The check has been answered, and that is all: the agent had come to its end. -/
def Dismissed (x : Arrival P ms) : Prop :=
  (x.network.agent .controlled).state ∈ [.failed, .disconnected] ∧
    x.next.agent .controlled = x.network.agent .controlled

/-- The check has been answered with success. -/
def Answered (x : Arrival P ms) : Prop :=
  (x.source, ⟨x.request.id, true, some x.source.plain⟩) ∈ answersIn (x.next.sent .controlled)

/-- The arrival in a run that goes on. -/
def later (x : Arrival P ms) (m : Move) : Arrival P (ms ++ [m]) :=
  { x with
    after := x.after ++ [m]
    split := (congrArg (· ++ [m]) x.split).trans (by simp) }

end Arrival

/-! ### Identifiers that come back -/

variable {P : Side → Origin} {ms : List Move}

/-- A check with the identifier has arrived in the course of a run. -/
def Handed (P : Side → Origin) (ms : List Move) (id : TransactionId) : Prop :=
  ∃ x : Arrival P ms, x.request.id = id

theorem Handed.later {id : TransactionId} (h : Handed P ms id) (m : Move) :
    Handed P (ms ++ [m]) id := by
  obtain ⟨x, hid⟩ := h
  exact ⟨x.later m, hid⟩

/-- Only a delivery hands in a check. -/
theorem arrival_of_request {m : Move} {e : Event} (hside : m.side = .controlled)
    (he : ((begin P).run ms).event? m = some e) {source : SocketAddress} {r : BindingRequest}
    (hr : e.request? = some (source, r)) :
    ∃ x : Arrival P (ms ++ [m]), x.source = source ∧ x.request = r := by
  cases m with
  | start | tick | touch =>
    cases he
    cases hr
  | relay side now id =>
    obtain ⟨m, -, rfl⟩ := Option.map_eq_some_iff.1 he
    cases hr
  | stray side source octets now id =>
    obtain ⟨htag, rfl⟩ := event?_stray he
    rw [Event.request?, requestIn?_eq_none htag] at hr
    cases hr
  | deliver side index source now id =>
    cases hside
    obtain ⟨destination, octets, hpacket, hv, rfl⟩ := event?_deliver he
    obtain ⟨hsource, hdecode⟩ := requestIn?_eq_some hr
    exact ⟨⟨ms, index, source, now, id, [], destination, octets, r, rfl, hpacket, hv, hdecode⟩,
      hsource.symm, rfl⟩

theorem handed_of_request {m : Move} {e : Event} (hside : m.side = .controlled)
    (he : ((begin P).run ms).event? m = some e) {source : SocketAddress} {r : BindingRequest}
    (hr : e.request? = some (source, r)) : Handed P (ms ++ [m]) r.id := by
  obtain ⟨x, -, hrequest⟩ := arrival_of_request hside he hr
  exact ⟨x, congrArg _ hrequest⟩

/-- What the controlling side knows of its nominations after a run is so. -/
structure Confirming (P : Side → Origin) (ms : List Move) : Prop where
  nominating : (((begin P).run ms).agent .controlling).checks.Nominating (Handed P ms)
    (ms.flatMap Move.ids) (requestsIn (((begin P).run ms).sent .controlling))
  answered : ∀ d r, (d, r) ∈ answersIn (((begin P).run ms).sent .controlled) → Handed P ms r.id
  completed : (((begin P).run ms).agent .controlling).state = .completed →
    ∃ q ∈ requestsIn (((begin P).run ms).sent .controlling), q.2.useCandidate = true ∧
      Handed P ms q.2.id

theorem Confirming.idle (h : Confirming P ms) {m : Move}
    (hstep : ((begin P).run ms).step m = (begin P).run ms) : Confirming P (ms ++ [m]) where
  nominating := by
    rw [run_concat, hstep]
    exact h.nominating.mono (fun _ hid => hid.later m) (by simp)
  answered := fun d r hr => by
    rw [run_concat, hstep] at hr
    exact (h.answered d r hr).later m
  completed := fun hdone => by
    rw [run_concat, hstep] at hdone ⊢
    obtain ⟨q, hq, huse, hid⟩ := h.completed hdone
    exact ⟨q, hq, huse, hid.later m⟩

/-- A turn of the controlling side, which nominates only with what is handed in. -/
theorem Shares.nominating_turn {w w' : Network} {e : Event} (h : w.Shares)
    (turn : w.Turn .controlling e w') {C : TransactionId → Prop} {used : List TransactionId}
    (nominating : (w.agent .controlling).checks.Nominating C used
      (requestsIn (w.sent .controlling)))
    (fresh : (used ++ e.ids).Nodup)
    (answered : ∀ d r, (d, r) ∈ answersIn (w.sent .controlled) → C r.id) :
    ((w.agent .controlling).step e).checks.Nominating C (used ++ e.ids)
      (requestsIn (w'.sent .controlling)) := by
  obtain ⟨xs, ys, unfolds⟩ := Agent.step_unfolds (w.agent .controlling) e
  have ids := unfolds.ids.append_left used
  have unmarked : ∀ x ∈ xs ++ ys, ∀ i, x ≠ .mark i := by
    intro x hx i
    rcases List.mem_append.1 hx with hx | hx
    · exact (unfolds.permits x hx).unmarked (h.role .controlling) i
    · obtain ⟨_, _, _, rfl⟩ := unfolds.nomination hx
      simp
  have awaited : ∀ r, .answer r ∈ xs ++ ys → C r.id := by
    intro r hr
    rcases List.mem_append.1 hr with hr | hr
    · obtain ⟨source, hanswer⟩ := (unfolds.permits _ hr).answer_handed
      obtain ⟨d, hd⟩ := turn.brings.answer source r hanswer
      exact answered d r hd
    · obtain ⟨_, _, _, heq⟩ := unfolds.nomination hr
      cases heq
  have after := nominating.acts unmarked (fresh.sublist ids) awaited
  rw [h.requests_turn turn, unfolds.requests, unfolds.checks, ← CheckList.acts_append,
    ← CheckList.requests_append]
  exact after.mono (fun _ hid => hid) ids.subset

theorem Confirming.controlling (h : Confirming P ms) {m : Move} {e : Event}
    (hids : ((ms ++ [m]).flatMap Move.ids).Nodup) (he : ((begin P).run ms).event? m = some e)
    (turn : ((begin P).run ms).Turn .controlling e (((begin P).run ms).step m)) :
    Confirming P (ms ++ [m]) := by
  have shares := run_shares P ms
  have all : (ms ++ [m]).flatMap Move.ids = ms.flatMap Move.ids ++ e.ids := by
    rw [event?_ids he]
    simp
  rw [all] at hids
  have nominating := shares.nominating_turn turn h.nominating hids h.answered
  have later := nominating.mono (fun _ hid => Handed.later hid m) fun _ hid => hid
  have unsent : (((begin P).run ms).step m).sent .controlled =
      ((begin P).run ms).sent .controlled := turn.unsent
  refine ⟨?_, fun d r hr => ?_, fun hdone => ?_⟩
  · rw [run_concat, turn.own, all]
    exact later
  · rw [run_concat, unsent] at hr
    exact (h.answered d r hr).later m
  · rw [run_concat, turn.own] at hdone
    rw [run_concat]
    obtain ⟨xs, ys, unfolds⟩ := Agent.step_unfolds (((begin P).run ms).agent .controlling) e
    rcases unfolds.completed hdone with hbefore | ⟨p, hp, hmark, hstate⟩
    · obtain ⟨q, hq, huse, hid⟩ := h.completed hbefore
      rw [shares.requests_turn turn]
      exact ⟨q, List.mem_append_left _ hq, huse, hid.later m⟩
    · exact later.confirmed p hp hstate hmark

/-- A turn of the controlled side. -/
theorem Confirming.controlled (h : Confirming P ms) {m : Move} {e : Event}
    (hside : m.side = .controlled) (he : ((begin P).run ms).event? m = some e)
    (turn : ((begin P).run ms).Turn .controlled e (((begin P).run ms).step m)) :
    Confirming P (ms ++ [m]) := by
  have agent : (((begin P).run ms).step m).agent .controlling =
      ((begin P).run ms).agent .controlling := turn.other
  have sent : (((begin P).run ms).step m).sent .controlling =
      ((begin P).run ms).sent .controlling := turn.unsent
  refine ⟨?_, fun d r hr => ?_, fun hdone => ?_⟩
  · rw [run_concat, agent, sent]
    exact h.nominating.mono (fun _ hid => hid.later m) (by simp)
  · rw [run_concat, (run_shares P ms).answers_turn turn] at hr
    rcases List.mem_append.1 hr with hr | hr
    · exact (h.answered d r hr).later m
    · obtain ⟨⟨source, q⟩, hq, heq⟩ := List.mem_map.1 hr
      cases heq
      exact handed_of_request hside he (Option.mem_toList.1 hq)
  · rw [run_concat, agent] at hdone
    rw [run_concat, sent]
    obtain ⟨q, hq, huse, hid⟩ := h.completed hdone
    exact ⟨q, hq, huse, hid.later m⟩

theorem confirming (P : Side → Origin) (ms : List Move) (hids : (ms.flatMap Move.ids).Nodup) :
    Confirming P ms := by
  induction ms using List.reverseRecOn with
  | nil =>
    refine ⟨⟨fun _ hq => ?_, fun _ hq => ?_, fun _ hp => ?_, fun _ hp => ?_⟩, fun _ _ hr => ?_,
      fun hdone => ?_⟩
    · exact absurd hq List.not_mem_nil
    · exact absurd hq List.not_mem_nil
    · exact absurd hp List.not_mem_nil
    · exact absurd hp List.not_mem_nil
    · exact absurd hr List.not_mem_nil
    · cases hdone
  | append_singleton ms m ih =>
    have before := ih (by
      rw [List.flatMap_append] at hids
      exact (List.nodup_append.1 hids).1)
    rcases step_cases ((begin P).run ms) m with ⟨-, hstep⟩ | ⟨e, he, turn⟩
    · exact before.idle hstep
    · cases hside : m.side with
      | controlling =>
        rw [hside] at turn
        exact before.controlling hids he turn
      | controlled =>
        rw [hside] at turn
        exact before.controlled hside he turn

/-! ### What has become of the check -/

namespace Arrival

theorem turn (x : Arrival P ms) :
    x.network.Turn .controlled (.datagram x.source x.octets x.now x.id) x.next := by
  have arrives : x.network.event? (.deliver .controlled x.index x.source x.now x.id) =
      some (.datagram x.source x.octets x.now x.id) := by
    have packet : (x.network.sent Side.controlled.other)[x.index]? =
        some (x.destination, x.octets) := x.packet
    simp [event?, packet, x.version]
  rcases step_cases x.network (.deliver .controlled x.index x.source x.now x.id) with
    ⟨hnone, -⟩ | ⟨e, he, turn⟩
  · rw [arrives] at hnone
    cases hnone
  · rw [arrives] at he
    cases he
    exact turn

theorem sent (x : Arrival P ms) :
    (x.destination, x.request) ∈ requestsIn (x.network.sent .controlling) :=
  mem_requestsIn.2 ⟨x.octets, List.mem_of_getElem? x.packet, x.decoded⟩

/-- The check is among those of the whole run. -/
theorem known (x : Arrival P ms) :
    (x.destination, x.request) ∈ requestsIn (((begin P).run ms).sent .controlling) := by
  obtain ⟨octets, hsent, hdecode⟩ := mem_requestsIn.1 x.sent
  refine mem_requestsIn.2 ⟨octets, ?_, hdecode⟩
  have later : (begin P).run ms = x.network.run
      (.deliver .controlled x.index x.source x.now x.id :: x.after) := by
    refine (congrArg (begin P).run x.split).trans ?_
    simp [run, network]
  rw [later]
  exact run_sent _ _ _ hsent

theorem answered (x : Arrival P ms) : x.Answered := by
  have request : Event.request? (.datagram x.source x.octets x.now x.id) =
      some (x.source, x.request) := by
    simp [Event.request?, requestIn?, x.decoded]
  rw [Answered, (run_shares P x.before).answers_turn x.turn, Event.answers, request]
  exact List.mem_append_right _ (List.mem_singleton.2 rfl)

/-- A nominating check that arrives is noted, unless the agent has come to its end. -/
theorem noted_or_dismissed (x : Arrival P ms) (huse : x.request.useCandidate = true) :
    x.Noted ∨ x.Dismissed := by
  have shares : x.network.Shares := run_shares P x.before
  obtain ⟨covers, started⟩ := shares.asked x.sent x.version .controlled
  cases hend : (x.network.agent .controlled).state.isTerminal
  · refine .inl ⟨?_, ?_⟩
    · cases hstate : (x.network.agent .controlled).state <;>
        simp_all [AgentState.isTerminal]
    · rw [x.turn.own]
      exact Agent.step_marks x.decoded huse (shares.role .controlled) started hend covers x.now x.id
  · refine .inr ⟨?_, ?_⟩
    · cases hstate : (x.network.agent .controlled).state <;>
        simp_all [AgentState.isTerminal]
    · rw [x.turn.own, Agent.step_of_terminal x.decoded hend]
      exact Agent.cleared (shares.datagrams .controlled) (shares.signals .controlled) _ _

end Arrival

/-- **A confirmed nomination has arrived.** When the controlling agent has completed, a nominating
check of its own has been answered by the other one, which had started: it has noted the nomination
if it went on, and had failed or lost its path otherwise. -/
theorem completed_arrival (P : Side → Origin) (ms : List Move)
    (hids : (ms.flatMap Move.ids).Nodup)
    (hdone : (((begin P).run ms).agent .controlling).state = .completed) :
    ∃ x : Arrival P ms, x.request.useCandidate = true ∧ x.Answered ∧ (x.Noted ∨ x.Dismissed) := by
  have confirms := confirming P ms hids
  obtain ⟨q, hq, huse, x, hid⟩ := confirms.completed hdone
  have nominates : x.request.useCandidate = true :=
    (confirms.nominating.agree _ x.known q hq hid).trans huse
  exact ⟨x, nominates, x.answered, x.noted_or_dismissed nominates⟩

/-- One check, its answer, and the nomination, with both agents under way. -/
theorem completed_arrival_noted :
    let id : UInt8 → TransactionId := fun n => ⟨List.replicate 12 n, List.length_replicate⟩
    let near : SocketAddress := .v4 ⟨192, 168, 1, 10⟩ 4000
    let far : SocketAddress := .v4 ⟨192, 168, 1, 20⟩ 5000
    let P : Side → Origin := fun side =>
      if side.controls then ⟨⟨List.replicate 16 2, rfl⟩, 7, 0⟩
      else ⟨⟨List.replicate 16 1, rfl⟩, 8, 0⟩
    let ms : List Move := [.start .controlled 0 [far] false none (id 1),
      .start .controlling 0 [near] false none (id 2),
      .relay .controlling 10 (id 3), .relay .controlling 10 (id 4),
      .tick .controlling 20 (id 5) (id 6), .deliver .controlled 0 near 30 (id 7),
      .deliver .controlling 0 far 40 (id 8), .deliver .controlled 1 near 50 (id 9),
      .deliver .controlling 1 far 60 (id 10)]
    (((begin P).run ms).agent .controlling).state = .completed ∧
      ∃ x : Arrival P ms, x.request.useCandidate = true ∧ x.Answered ∧ (x.Noted ∨ x.Dismissed) := by
  intro id near far P ms
  have done : (((begin P).run ms).agent .controlling).state = .completed := by decide +kernel
  have fresh : (ms.flatMap Move.ids).Nodup := by decide +kernel
  exact ⟨done, completed_arrival P ms fresh done⟩

/-- Where a check that arrives stands in the run. -/
theorem Arrival.position (x : Arrival P ms) : x.before = ms.take x.before.length ∧
    ms[x.before.length]? = some (.deliver .controlled x.index x.source x.now x.id) := by
  constructor
  · exact ((congrArg (List.take x.before.length) x.split).trans (List.take_left ..)).symm
  · exact (congrArg (·[x.before.length]?) x.split).trans (by simp)

/-- The controlled agent may have run out of time before the other one starts. It still answers, and
the other one completes on a nomination that has not been noted. -/
theorem completed_beside_failed :
    let id : UInt8 → TransactionId := fun n => ⟨List.replicate 12 n, List.length_replicate⟩
    let near : SocketAddress := .v4 ⟨192, 168, 1, 10⟩ 4000
    let far : SocketAddress := .v4 ⟨192, 168, 1, 20⟩ 5000
    let P : Side → Origin := fun side =>
      if side.controls then ⟨⟨List.replicate 16 2, rfl⟩, 7, 0⟩
      else ⟨⟨List.replicate 16 1, rfl⟩, 8, 0⟩
    let ms : List Move := [.start .controlled 0 [far] false none (id 1),
      .start .controlling 9000 [near] false none (id 2),
      .relay .controlling 9000 (id 3), .relay .controlling 9000 (id 4),
      .tick .controlled 10000 (id 5) (id 6), .tick .controlling 10000 (id 7) (id 8),
      .deliver .controlled 0 near 10010 (id 9), .deliver .controlling 0 far 10020 (id 10),
      .deliver .controlled 1 near 10030 (id 11), .deliver .controlling 1 far 10040 (id 12)]
    (ms.flatMap Move.ids).Nodup ∧
      (((begin P).run ms).agent .controlling).state = .completed ∧
      ∀ x : Arrival P ms, ¬x.Noted := by
  intro id near far P ms
  have fresh : (ms.flatMap Move.ids).Nodup := by decide +kernel
  have done : (((begin P).run ms).agent .controlling).state = .completed := by decide +kernel
  have failed : ∀ k ∈ [6, 8], (((begin P).run (ms.take k)).agent .controlled).state = .failed := by
    decide +kernel
  refine ⟨fresh, done, fun x noted => ?_⟩
  obtain ⟨hbefore, hdeliver⟩ := x.position
  have late : x.before.length ∈ [6, 8] := by
    have hlt : x.before.length < 10 := (List.getElem?_eq_some_iff.1 hdeliver).1
    generalize x.before.length = k at hdeliver hlt
    interval_cases k <;> simp [ms] at hdeliver ⊢
  have state := noted.1
  rw [Arrival.network, hbefore, failed _ late] at state
  simp at state

end Network
end Parley
