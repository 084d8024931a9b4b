import Parley.Proofs.Link.Agreement
import Parley.Proofs.Link.Demultiplexing
/-!
Whether two agents that have completed hear each other.

Each side may be reached at several addresses, and what it sends to an address always comes from the
same one of its own (`Terrain`). The controlled agent has settled where a nominating check has come
from (`settled_arrival`), and the controlling one where it has sent one. `completed_talk` says when
these are the two ends of one path: when none has arrived along another one by then, and the
controlled side answers along the path on which it is checked. Neither goes without saying. A
nomination that is withdrawn may have been taken by the other side, and nobody looks where an answer
comes from; then two agents have completed apart from each other (`completed_apart`).
-/
namespace Parley

/-- Where each side can be reached, and from which of its addresses it reaches another one. -/
structure Terrain where
  addresses : Side → List SocketAddress
  route : Side → SocketAddress → SocketAddress
  own : ∀ side destination, route side destination ∈ addresses side

namespace Agent

/-! ### Game data -/

/-- The address is the selected one, or a check of it has succeeded. -/
def Trusts (a : Agent) (address : SocketAddress) : Prop :=
  a.selected = some address ∨ ∃ p ∈ a.checks.pairs, p.state = .succeeded ∧ p.remote = address

/-- A usable agent takes game data just from where it trusts. -/
theorem onDatagram_ofPayload {a : Agent} (h : a.state.isUsable = true) (source : SocketAddress)
    (payload : Bytes) (now : Nat) (id : TransactionId) :
    (a.onDatagram source (Datagram.ofPayload payload) now id).2 = some payload ↔
      a.Trusts source := by
  have guarded : a.accepts source = true ↔ a.Trusts source := by
    simp [accepts, h, isVerifiedPath, CheckList.isVerified, Trusts]
  rw [← guarded, onDatagram_data]
  simp

end Agent

namespace Network
variable {P : Side → Origin} {ms : List Move}

/-! ### Agents in the course of a run -/

theorem run_append (w : Network) (ms ns : List Move) : w.run (ms ++ ns) = (w.run ms).run ns :=
  List.foldl_append

/-- What a run of the network is to one of its agents. -/
theorem run_agent (w : Network) (ms : List Move) (side : Side) :
    ∃ es, (w.run ms).agent side = (w.agent side).run es := by
  induction ms generalizing w with
  | nil => exact ⟨[], rfl⟩
  | cons m ms ih =>
    have first : ∀ side, ∃ es, (w.step m).agent side = (w.agent side).run es := by
      rcases step_cases w m with ⟨-, hstep⟩ | ⟨e, -, turn⟩
      · rw [hstep]
        exact fun _ => ⟨[], rfl⟩
      · exact m.side.both ⟨[e, .takeDatagrams, .takeSignals], turn.own⟩ ⟨[], turn.other⟩
    obtain ⟨es, hes⟩ := first side
    obtain ⟨fs, hfs⟩ := ih (w.step m)
    exact ⟨es ++ fs, by rw [Agent.run_append, ← hes, ← hfs]; rfl⟩

/-- An agent that has completed has settled on a pair, and keeps to it until it is disconnected for
good. -/
theorem Shares.lost_or_settled {w : Network} (h : w.Shares) {side : Side}
    (hdone : (w.agent side).state = .completed) : ∃ p, (w.agent side).Settled p ∧
      ∀ ms, (∀ ns, ((w.run (ms ++ ns)).agent side).state = .disconnected) ∨
        ((w.run ms).agent side).state = .completed ∧ ((w.run ms).agent side).Settled p := by
  have grounded := (h.reachable side).grounded
  obtain ⟨p, hp⟩ := (h.reachable side).settled hdone
  refine ⟨p, hp, fun ms => ?_⟩
  obtain ⟨es, hes⟩ := run_agent w ms side
  rw [hes]
  refine (Agent.run_settled grounded hdone hp es).imp_left fun lost ns => ?_
  obtain ⟨fs, hfs⟩ := run_agent (w.run ms) ns side
  have remains := Agent.run_terminal (Agent.run_grounded grounded es)
    (by simp [lost, AgentState.isTerminal]) fs
  rw [run_append, hfs, hes, remains, lost]

/-- It keeps to the pair as long as it is completed. -/
theorem Shares.settled {w : Network} (h : w.Shares) {side : Side}
    (hdone : (w.agent side).state = .completed) : ∃ p, (w.agent side).Settled p ∧
      ∀ later, ((w.run later).agent side).state = .completed →
        ((w.run later).agent side).Settled p := by
  obtain ⟨p, hp, hkeeps⟩ := h.lost_or_settled hdone
  refine ⟨p, hp, fun later hlater => ?_⟩
  rcases hkeeps later with lost | ⟨-, hp⟩
  · have gone := lost []
    rw [List.append_nil, hlater] at gone
    cases gone
  · exact hp

/-- An agent that has been completed and is so again has been so all the time. -/
theorem Shares.stays_completed {w : Network} (h : w.Shares) {side : Side}
    (hdone : (w.agent side).state = .completed) (ms ns : List Move)
    (hagain : ((w.run (ms ++ ns)).agent side).state = .completed) :
    ((w.run ms).agent side).state = .completed := by
  obtain ⟨p, -, hkeeps⟩ := h.lost_or_settled hdone
  rcases hkeeps ms with lost | ⟨hstate, -⟩
  · rw [lost ns] at hagain
    cases hagain
  · exact hstate

/-- **What the controlled side has nominated** is where a nominating check has come from. -/
theorem nominated_arrival (P : Side → Origin) (ms : List Move) (address : SocketAddress)
    (h : (((begin P).run ms).agent .controlled).Nominated address) :
    ∃ x : Arrival P ms, x.request.useCandidate = true ∧ x.source = address := by
  induction ms using List.reverseRecOn with
  | nil =>
    obtain ⟨p, hp, -⟩ := h
    exact absurd hp List.not_mem_nil
  | append_singleton ms m ih =>
    have before : (((begin P).run ms).agent .controlled).Nominated address →
        ∃ x : Arrival P (ms ++ [m]), x.request.useCandidate = true ∧ x.source = address := by
      intro h
      obtain ⟨x, huse, hsource⟩ := ih h
      exact ⟨x.later m, huse, hsource⟩
    rw [run_concat] at h
    rcases step_cases ((begin P).run ms) m with ⟨-, hstep⟩ | ⟨e, he, turn⟩
    · rw [hstep] at h
      exact before h
    · cases hside : m.side with
      | controlling =>
        rw [hside] at turn
        have other : (((begin P).run ms).step m).agent .controlled =
            ((begin P).run ms).agent .controlled := turn.other
        rw [other] at h
        exact before h
      | controlled =>
        rw [hside] at turn
        rw [turn.own] at h
        rcases Agent.step_nominated ((run_shares P ms).role .controlled) h with
          hbefore | ⟨r, hr, huse⟩
        · exact before hbefore
        · obtain ⟨x, hsource, hrequest⟩ := arrival_of_request hside he hr
          exact ⟨x, hrequest ▸ huse, hsource⟩

/-- **Where the controlled side has settled**, a nominating check has come from before. -/
theorem settled_arrival (P : Side → Origin) (ms : List Move) {q : Pair}
    (hdone : (((begin P).run ms).agent .controlled).state = .completed)
    (hq : (((begin P).run ms).agent .controlled).Settled q) :
    ∃ x : Arrival P ms, x.request.useCandidate = true ∧ x.source = q.remote ∧
      (x.network.agent .controlled).state ≠ .completed := by
  induction ms using List.reverseRecOn generalizing q with
  | nil => cases hdone
  | append_singleton ms m ih =>
    by_cases hbefore : (((begin P).run ms).agent .controlled).state = .completed
    · obtain ⟨p, hp, hlater⟩ := (run_shares P ms).settled hbefore
      obtain ⟨x, huse, hsource, hfirst⟩ := ih hbefore hp
      rw [run_concat] at hdone hq
      have same : p.remote = q.remote :=
        Option.some.inj ((hlater [m] hdone).selected.symm.trans hq.selected)
      exact ⟨x.later m, huse, hsource.trans same, hfirst⟩
    · -- It has just completed, and had not done so when the check arrived.
      obtain ⟨x, huse, hsource⟩ := nominated_arrival P _ q.remote ⟨q, hq.mem, hq.nominated, rfl⟩
      refine ⟨x, huse, hsource, fun hfirst => hbefore ?_⟩
      have split := congrArg List.dropLast x.split
      rw [List.dropLast_concat, List.dropLast_append_cons] at split
      rw [split, List.append_assoc, run_append] at hdone
      rw [split, run_append]
      exact (run_shares P x.before).stays_completed hfirst _ [m] hdone

end Network

namespace Terrain
open Network (Move Origin Arrival begin)

/-! ### Runs of a terrain -/

/-- Whether a move is one of the terrain: a datagram arrives at the side that has its destination,
and comes from the address from which its sender reaches that. -/
def allows (T : Terrain) (w : Network) : Move → Bool
  | .deliver side index source _ _ => (w.sent side.other)[index]?.all fun (destination, _) =>
    decide (destination ∈ T.addresses side) && decide (source = T.route side.other destination)
  | _ => true

/-- Whether moves are ones of the terrain, one after the other. -/
def carries (T : Terrain) (w : Network) : List Move → Bool
  | [] => true
  | m :: ms => T.allows w m && T.carries (w.step m) ms

variable {T : Terrain}

theorem carries_append (w : Network) (ms ns : List Move) :
    T.carries w (ms ++ ns) = (T.carries w ms && T.carries (w.run ms) ns) := by
  induction ms generalizing w with
  | nil => rfl
  | cons m ms ih =>
    rw [List.cons_append, carries, carries, ih, Bool.and_assoc]
    rfl

/-- A check that has arrived comes from where the controlling side reaches its destination. -/
theorem source_arrival {P : Side → Origin} {ms : List Move}
    (h : T.carries (begin P) ms = true) (x : Arrival P ms) :
    x.source = T.route .controlling x.destination := by
  rw [congrArg (T.carries (begin P)) x.split, carries_append, carries] at h
  simp only [Bool.and_eq_true] at h
  have allowed := h.2.1
  have packet : (((begin P).run x.before).sent Side.controlled.other)[x.index]? =
      some (x.destination, x.octets) := x.packet
  simp only [allows, packet, Option.all_some, Bool.and_eq_true, decide_eq_true_eq] at allowed
  exact allowed.2

/-! ### Talking -/

/-- What an agent makes of a payload in `w` is taken by the other one, when it arrives in `w'`. -/
def Heard (T : Terrain) (w : Network) (side : Side) (w' : Network) : Prop :=
  ∀ payload destination octets now id,
    (w.agent side).prepareSend payload = .ok (destination, octets) →
    ((w'.agent side.other).onDatagram (T.route side destination) octets now id).2 = some payload

/-- An agent is heard when the other one has selected where its datagrams come from. -/
theorem heard_of_selected {w w' : Network} {side : Side} {destination : SocketAddress}
    (hsends : (w.agent side).selected = some destination)
    (hdone : (w'.agent side.other).state = .completed)
    (htakes : (w'.agent side.other).selected = some (T.route side destination)) :
    T.Heard w side w' := by
  intro payload destination' octets now id hprepare
  obtain ⟨-, hselected, -, rfl⟩ := Agent.prepareSend_eq_ok.1 hprepare
  obtain rfl : destination = destination' := Option.some.inj (hsends.symm.trans hselected)
  exact (Agent.onDatagram_ofPayload (by rw [hdone]; rfl) ..).2 (.inl htakes)

/-- **When two agents that have completed hear each other.** A payload is taken just when it comes
from the selected address or from where a check of the receiver has succeeded. That is so for what
the controlling agent sends, unless the other one completed after a nominating check along another
path than that which the controlling agent has selected; and also for what the other agent sends, if
that comes from where the path leads. -/
theorem completed_talk (T : Terrain) (P : Side → Origin) (ms : List Move)
    (hcarries : T.carries (begin P) ms = true)
    (hdone : ∀ side, (((begin P).run ms).agent side).state = .completed) :
    let w := (begin P).run ms
    (∃ b, (w.agent .controlling).selected = some b ∧
      ((∀ x : Arrival P ms, x.request.useCandidate = true →
          (x.network.agent .controlled).state ≠ .completed →
          T.route .controlling x.destination = T.route .controlling b) →
        (w.agent .controlled).selected = some (T.route .controlling b) ∧
        (∀ later, ((w.run later).agent .controlled).state = .completed →
          T.Heard w .controlling (w.run later)) ∧
        (T.route .controlled (T.route .controlling b) = b →
          ∀ later, ((w.run later).agent .controlling).state = .completed →
            T.Heard w .controlled (w.run later)))) ∧
    ∀ side payload destination octets later now id,
      (w.agent side).prepareSend payload = .ok (destination, octets) →
      ((w.run later).agent side.other).state = .completed →
      ((((w.run later).agent side.other).onDatagram (T.route side destination) octets now id).2 =
          some payload ↔
        ((w.run later).agent side.other).Trusts (T.route side destination)) := by
  intro w
  have shares : w.Shares := Network.run_shares P ms
  obtain ⟨p, hp, hlater⟩ := shares.settled (hdone .controlling)
  obtain ⟨q, hq, hqlater⟩ := shares.settled (hdone .controlled)
  refine ⟨⟨p.remote, hp.selected, fun hpath => ?_⟩, ?_⟩
  · obtain ⟨x, huse, hsource, hfirst⟩ := Network.settled_arrival P ms (hdone .controlled) hq
    have same : q.remote = T.route .controlling p.remote := by
      rw [← hsource, source_arrival hcarries x, hpath x huse hfirst]
    refine ⟨same ▸ hq.selected, fun later hstate => ?_, fun hback later hstate => ?_⟩
    · exact heard_of_selected hp.selected hstate (same ▸ (hqlater later hstate).selected)
    · refine heard_of_selected hq.selected hstate ?_
      rw [same, hback]
      exact (hlater later hstate).selected
  · intro side payload destination octets later now id hprepare hstate
    obtain ⟨-, -, -, rfl⟩ := Agent.prepareSend_eq_ok.1 hprepare
    exact Agent.onDatagram_ofPayload (by rw [hstate]; rfl) ..

/-! ### Talking, and not -/

/-- Each side has two addresses. It reaches the first one of the other side from its own first one,
and all else from its second one. -/
def twofold (first second : Side → SocketAddress) : Terrain where
  addresses side := [first side, second side]
  route side destination := if destination = first side.other then first side else second side
  own side destination := by split <;> simp

/-- After a nomination that is answered at once, each agent hears the other one. -/
theorem completed_talk_after_nomination :
    let id : UInt8 → TransactionId := fun n => ⟨List.replicate 12 n, List.length_replicate⟩
    let near : Side → SocketAddress := fun side =>
      if side.controls then .v4 ⟨192, 168, 1, 10⟩ 4000 else .v4 ⟨192, 168, 1, 20⟩ 5000
    let far : Side → SocketAddress := fun side =>
      if side.controls then .v4 ⟨10, 0, 0, 10⟩ 4000 else .v4 ⟨10, 0, 0, 20⟩ 5000
    let P : Side → Origin := fun side =>
      if side.controls then ⟨⟨List.replicate 16 2, rfl⟩, 7, 0⟩
      else ⟨⟨List.replicate 16 1, rfl⟩, 8, 0⟩
    let ms : List Move := [
      .start .controlled 0 [near .controlled, far .controlled] false none (id 1),
      .start .controlling 0 [near .controlling, far .controlling] false none (id 2),
      .relay .controlling 10 (id 3), .relay .controlling 10 (id 4),
      .tick .controlling 20 (id 5) (id 6), .deliver .controlled 0 (near .controlling) 30 (id 7),
      .deliver .controlling 0 (near .controlled) 40 (id 8), .tick .controlled 50 (id 9) (id 10),
      .deliver .controlling 1 (near .controlled) 60 (id 11),
      .deliver .controlled 1 (near .controlling) 70 (id 12),
      .tick .controlling 140 (id 13) (id 14),
      .deliver .controlled 3 (near .controlling) 150 (id 15),
      .deliver .controlling 2 (near .controlled) 160 (id 16)]
    let w := (begin P).run ms
    (∀ side, (w.agent side).state = .completed) ∧ (twofold near far).Heard w .controlling w ∧
      (twofold near far).Heard w .controlled w := by
  intro id near far P ms w
  have carried : (twofold near far).carries (begin P) ms = true := by decide +kernel
  have done : (w.agent .controlling).state = .completed ∧
      (w.agent .controlled).state = .completed := by decide +kernel
  have selected : (w.agent .controlling).selected = some (near .controlled) := by decide +kernel
  have nominations : ∀ q ∈ requestsIn (w.sent .controlling), q.2.useCandidate = true →
      (twofold near far).route .controlling q.1 = near .controlling := by decide +kernel
  have path : (twofold near far).route .controlling (near .controlled) = near .controlling ∧
      (twofold near far).route .controlled (near .controlling) = near .controlled := by
    decide +kernel
  have both : ∀ side, (w.agent side).state = .completed := by
    intro side
    cases side with
    | controlling => exact done.1
    | controlled => exact done.2
  clear_value ms near far
  obtain ⟨⟨b, hb, talk⟩, -⟩ := completed_talk (twofold near far) P ms carried both
  obtain rfl : near .controlled = b := Option.some.inj (selected.symm.trans hb)
  obtain ⟨-, forth, back⟩ := talk fun x huse _ => (nominations _ x.known huse).trans path.1.symm
  exact ⟨both, forth [] done.2, back (path.1.symm ▸ path.2) [] done.1⟩

/-- Both agents have completed in a run of the terrain, each with the session of the other one, and
no identifier has been handed in twice. -/
structure Meets (T : Terrain) (P : Side → Origin) (ms : List Move) : Prop where
  carried : T.carries (begin P) ms = true
  fresh : (ms.flatMap Move.ids).Nodup
  completed : ∀ side, (((begin P).run ms).agent side).state = .completed
  sessions : ∀ side, (((begin P).run ms).agent side).remoteSession = some (P side.other).session

theorem not_heard {T : Terrain} {w w' : Network} {side : Side} {payload : Bytes}
    {destination : SocketAddress} (hdone : (w.agent side).state = .completed)
    (hsends : (w.agent side).selected = some destination)
    (hsize : payload.length ≤ Datagram.maxPayload) {now : Nat} {id : TransactionId}
    (hlost : ((w'.agent side.other).onDatagram (T.route side destination)
      (Datagram.ofPayload payload) now id).2 = none) : ¬T.Heard w side w' := by
  intro h
  have prepared := Agent.prepareSend_eq_ok.2 ⟨by rw [hdone]; rfl, hsends, hsize, rfl⟩
  have heard := h payload destination (Datagram.ofPayload payload) now id prepared
  rw [hlost] at heard
  cases heard

/-- Agents that have completed apart from each other. In the first run the answer to a nomination is
lost: the controlled agent settles on the path, the controlling one withdraws its nomination and
settles on another path, whose nominating check the other agent answers and leaves at that. Neither
takes what the other one sends. In the second run the controlled agent is checked at its first
address, and answers from its second one. -/
theorem completed_apart :
    let id : UInt8 → TransactionId := fun n => ⟨List.replicate 12 n, List.length_replicate⟩
    let first : Side → SocketAddress := fun side =>
      if side.controls then .v4 ⟨192, 168, 1, 10⟩ 4000 else .v4 ⟨192, 168, 1, 20⟩ 5000
    let second : Side → SocketAddress := fun side =>
      if side.controls then .v4 ⟨10, 0, 0, 10⟩ 4000 else .v4 ⟨10, 0, 0, 20⟩ 5000
    let P : Side → Origin := fun side =>
      if side.controls then ⟨⟨List.replicate 16 2, rfl⟩, 7, 0⟩
      else ⟨⟨List.replicate 16 1, rfl⟩, 8, 0⟩
    let withdrawn : List Move := [
      .start .controlled 0 [first .controlled, second .controlled] false none (id 1),
      .start .controlling 0 [first .controlling, second .controlling] false none (id 2),
      .relay .controlling 10 (id 3), .relay .controlling 10 (id 4),
      .relay .controlled 10 (id 5), .relay .controlled 10 (id 6),
      .tick .controlling 20 (id 7) (id 8), .deliver .controlled 0 (first .controlling) 30 (id 9),
      .deliver .controlling 0 (first .controlled) 40 (id 10), .tick .controlled 50 (id 11) (id 12),
      .deliver .controlling 1 (first .controlled) 60 (id 13),
      .deliver .controlled 1 (first .controlling) 70 (id 14),
      .tick .controlling 140 (id 15) (id 16),
      .deliver .controlled 3 (first .controlling) 150 (id 17),
      .deliver .controlled 2 (second .controlling) 160 (id 18),
      .deliver .controlling 3 (second .controlled) 170 (id 19),
      .tick .controlling 5140 (id 20) (id 21),
      .deliver .controlled 4 (second .controlling) 5150 (id 22),
      .deliver .controlling 4 (second .controlled) 5160 (id 23)]
    let crossed : Terrain := {
      addresses := fun side => if side.controls then [first side] else [first side, second side]
      route := fun side _ => if side.controls then first side else second side
      own := fun side _ => by cases side <;> simp [Side.controls] }
    let answered : List Move := [
      .start .controlled 0 [first .controlled, second .controlled] false none (id 1),
      .start .controlling 0 [first .controlling] false none (id 2),
      .relay .controlling 10 (id 3), .relay .controlling 10 (id 4),
      .relay .controlled 10 (id 5), .relay .controlled 10 (id 6),
      .tick .controlling 20 (id 7) (id 8), .deliver .controlled 0 (first .controlling) 30 (id 9),
      .deliver .controlling 0 (second .controlled) 40 (id 10), .tick .controlled 50 (id 11) (id 12),
      .deliver .controlling 1 (second .controlled) 60 (id 13),
      .deliver .controlled 1 (first .controlling) 70 (id 14),
      .tick .controlling 140 (id 15) (id 16),
      .deliver .controlled 3 (first .controlling) 150 (id 17),
      .deliver .controlling 2 (second .controlled) 160 (id 18)]
    let w := (begin P).run withdrawn
    let w' := (begin P).run answered
    (Meets (twofold first second) P withdrawn ∧
      (w.agent .controlling).selected = some (second .controlled) ∧
      (w.agent .controlled).selected = some (first .controlling) ∧
      ¬(twofold first second).Heard w .controlling w ∧
      ¬(twofold first second).Heard w .controlled w) ∧
    Meets crossed P answered ∧
      (w'.agent .controlling).selected = some (first .controlled) ∧
      (w'.agent .controlled).selected = some (first .controlling) ∧
      ¬crossed.Heard w' .controlled w' := by
  intro id first second P withdrawn crossed answered w w'
  have carried : (twofold first second).carries (begin P) withdrawn = true ∧
      crossed.carries (begin P) answered = true := by decide +kernel
  have fresh : (withdrawn.flatMap Move.ids).Nodup ∧ (answered.flatMap Move.ids).Nodup := by
    decide +kernel
  have settled : ((w.agent .controlling).state = .completed ∧
      (w.agent .controlling).remoteSession = some (P .controlled).session ∧
      (w.agent .controlling).selected = some (second .controlled)) ∧
      (w.agent .controlled).state = .completed ∧
      (w.agent .controlled).remoteSession = some (P .controlling).session ∧
      (w.agent .controlled).selected = some (first .controlling) := by decide +kernel
  have settled' : ((w'.agent .controlling).state = .completed ∧
      (w'.agent .controlling).remoteSession = some (P .controlled).session ∧
      (w'.agent .controlling).selected = some (first .controlled)) ∧
      (w'.agent .controlled).state = .completed ∧
      (w'.agent .controlled).remoteSession = some (P .controlling).session ∧
      (w'.agent .controlled).selected = some (first .controlling) := by decide +kernel
  have refused : ((w.agent .controlled).onDatagram
        ((twofold first second).route .controlling (second .controlled))
        (Datagram.ofPayload [0x78]) 5170 (id 24)).2 = none ∧
      ((w.agent .controlling).onDatagram
        ((twofold first second).route .controlled (first .controlling))
        (Datagram.ofPayload [0x79]) 5180 (id 25)).2 = none := by decide +kernel
  have refused' : ((w'.agent .controlling).onDatagram
      (crossed.route .controlled (first .controlling))
      (Datagram.ofPayload [0x79]) 180 (id 19)).2 = none := by decide +kernel
  have small : ∀ n : UInt8, [n].length ≤ Datagram.maxPayload :=
    fun _ => (by decide : 1 ≤ Datagram.maxPayload)
  clear_value withdrawn answered
  have meets : Meets (twofold first second) P withdrawn := {
    carried := carried.1
    fresh := fresh.1
    completed := fun side => by cases side; exacts [settled.1.1, settled.2.1]
    sessions := fun side => by cases side; exacts [settled.1.2.1, settled.2.2.1] }
  have meets' : Meets crossed P answered := {
    carried := carried.2
    fresh := fresh.2
    completed := fun side => by cases side; exacts [settled'.1.1, settled'.2.1]
    sessions := fun side => by cases side; exacts [settled'.1.2.1, settled'.2.2.1] }
  obtain ⟨⟨near, -, selects⟩, far, -, selects'⟩ := settled
  refine ⟨⟨meets, selects, selects', not_heard near selects (small _) refused.1,
    not_heard far selects' (small _) refused.2⟩, meets', settled'.1.2.2, settled'.2.2.2, ?_⟩
  exact not_heard settled'.2.1 settled'.2.2.2 (small _) refused'

end Terrain
end Parley
