import Parley.Proofs.Link.Nomination
import Parley.Proofs.Link.Pairing
import Parley.Proofs.Link.Path
/-!
What the controlled side says of nominations in its own checks.

The flag of a check is the mark of its pair, and the controlled side marks a pair when it takes a
check that nominates it. Its own checks of that pair then nominate it too, although only the
controlling side is to choose. The mark stays until a check of the pair runs out of time, so the
history of a run says of every check whether it has the flag (`echoes_iff_chosen`), and in
`nomination_echoed` one has it.
-/
namespace Parley
open CheckList (Action)

namespace CheckList

/-- A pair with the address is nominated. -/
def Marks (l : CheckList) (address : SocketAddress) : Prop :=
  ∃ p ∈ l.pairs, p.nominated = true ∧ p.remote = address

/-- Only a check that runs out of time takes the nomination of its pair with it. -/
theorem Evolves.leaves_nominated {l : CheckList} {x : Action} {p q : Pair} (h : Evolves l x p q)
    (hx : ∀ now, x ≠ .expire now) (hmark : p.nominated = true) : q.nominated = true := by
  cases h with
  | expired => exact absurd rfl (hx _)
  | triggered hidle => rcases hidle with hidle | hidle <;> simpa [Pair.trigger, hidle] using hmark
  | marked | nominated => rfl
  | _ => exact hmark

theorem Marks.acts {l : CheckList} {xs : List Action} {address : SocketAddress}
    (h : l.Marks address)
    (hxs : ∀ x ∈ xs, (∀ controlling, x ≠ .reset controlling) ∧ ∀ now, x ≠ .expire now) :
    (l.acts xs).Marks address := by
  induction xs generalizing l with
  | nil => exact h
  | cons x xs ih =>
    obtain ⟨p, hp, hmark, rfl⟩ := h
    obtain ⟨goes, keeps⟩ := hxs x (List.mem_cons_self ..)
    obtain ⟨q, hq, hev⟩ := act_evolves goes hp
    exact ih ⟨q, hq, hev.leaves_nominated keeps hmark, hev.remote⟩
      fun y hy => hxs y (List.mem_cons_of_mem _ hy)

theorem send_marks (l : CheckList) (now : Nat) (id : TransactionId) (address : SocketAddress) :
    (l.act (.send now id)).Marks address ↔ l.Marks address := by
  constructor
  · rintro ⟨q, hq, hmark, rfl⟩
    rcases act_nominated hq hmark with before | ⟨_, _, hx, -⟩ | ⟨_, _, _, hx⟩
    · exact before
    · cases hx
    · cases hx
  · intro h
    have acted : (l.acts [.send now id]).Marks address := h.acts (by simp)
    exact acted

/-- With one pair for an address there is one pair to be marked. -/
theorem eq_of_remote {l : CheckList} (single : l.remotes.Nodup) {p q : Pair} (hp : p ∈ l.pairs)
    (hq : q ∈ l.pairs) (h : p.remote = q.remote) : p = q :=
  List.inj_on_of_nodup_map single hp hq h

theorem expire_marks {l : CheckList} (single : l.remotes.Nodup) {now : Nat}
    {address : SocketAddress} : (l.act (.expire now)).Marks address ↔
      l.Marks address ∧ ¬∃ p ∈ l.pairs, p.remote = address ∧ p.isTimedOut now = true := by
  constructor
  · rintro ⟨q, hq, hmark, rfl⟩
    obtain ⟨p, hp, rfl⟩ := List.mem_map.1 hq
    unfold Pair.expire at hmark ⊢
    split at hmark
    · cases hmark
    · rename_i ontime
      rw [if_neg ontime]
      refine ⟨⟨p, hp, hmark, rfl⟩, ?_⟩
      rintro ⟨p', hp', hremote, timedOut⟩
      rw [eq_of_remote single hp' hp hremote] at timedOut
      exact ontime timedOut
  · rintro ⟨⟨p, hp, hmark, rfl⟩, ontime⟩
    have stays : p.expire now = p := if_neg fun timedOut => ontime ⟨p, hp, rfl, timedOut⟩
    exact ⟨p, List.mem_map.2 ⟨p, hp, stays⟩, hmark, rfl⟩

/-- A check has the flag just if its pair is marked. -/
theorem send_echoes {l : CheckList} (single : l.remotes.Nodup) {now : Nat} {id : TransactionId}
    {d : SocketAddress} {r : BindingRequest} (h : l.sends (.send now id) = some (d, r)) :
    r.useCandidate = true ↔ l.Marks d := by
  have sent : ∃ p ∈ l.pairs, d = p.remote ∧ r.useCandidate = p.nominated := by
    obtain ⟨p, hp, hd, ⟨_, _, -, rfl, -⟩ | ⟨_, _, t, -, -, -, rfl⟩ | ⟨_, _, _, hx, -⟩⟩ :=
      sends_eq_some h
    · exact ⟨p, hp, hd, rfl⟩
    · exact ⟨p, hp, hd, rfl⟩
    · cases hx
  obtain ⟨p, hp, rfl, hflag⟩ := sent
  rw [hflag]
  constructor
  · exact fun hmark => ⟨p, hp, hmark, rfl⟩
  · rintro ⟨q, hq, hmark, hremote⟩
    rwa [← eq_of_remote single hq hp hremote]

end CheckList

namespace Agent

/-- The agent takes a check from the address that nominates its pair. -/
structure Chooses (a : Agent) (address : SocketAddress) (e : Event) : Prop where
  nominating : ∃ r, e.request? = some (address, r) ∧ r.useCandidate = true
  active : a.Active
  covered : a.Covers address

/-- The check of the pair with the address runs out of time, and the agent sees it. -/
def Lapses (a : Agent) (address : SocketAddress) : Event → Prop
  | .tick now _ _ =>
    a.Active ∧ ∃ p ∈ a.checks.pairs, p.remote = address ∧ p.isTimedOut now = true
  | _ => False

/-- In the run the path to the address has been chosen, and no check of it has run out of time
since. -/
inductive Chosen (a : Agent) (address : SocketAddress) : List Event → Prop where
  | chooses {es e} (h : (a.run es).Chooses address e) : Chosen a address (es ++ [e])
  | lasts {es e} (h : Chosen a address es) (keeps : ¬(a.run es).Lapses address e) :
      Chosen a address (es ++ [e])

theorem chosen_concat {a : Agent} {address : SocketAddress} {es : List Event} {e : Event} :
    Chosen a address (es ++ [e]) ↔
      Chosen a address es ∧ ¬(a.run es).Lapses address e ∨ (a.run es).Chooses address e := by
  constructor
  · intro h
    generalize hlast : es ++ [e] = fs at h
    cases h with
    | chooses h =>
      obtain ⟨rfl, rfl⟩ := List.append_singleton_inj.1 hlast
      exact .inr h
    | lasts h keeps =>
      obtain ⟨rfl, rfl⟩ := List.append_singleton_inj.1 hlast
      exact .inl ⟨h, keeps⟩
  · rintro (⟨h, keeps⟩ | h)
    · exact .lasts h keeps
    · exact .chooses h

theorem active_iff {a : Agent} : a.Active ↔ a.state ≠ .new ∧ a.state.isTerminal = false := by
  unfold Active
  cases a.state <;> simp [AgentState.isTerminal]

/-! ### Each event -/

/-- The controlled side does on a tick what is scheduled, and nothing more. -/
theorem tick_scheduled {a : Agent} (hrole : a.controlling = false) (now : Nat)
    (checkId id : TransactionId) :
    Effect a (a.tick now checkId id) (a.scheduled now checkId) [] := by
  obtain ⟨ys, effect, rfl | ⟨hcontrolling, -⟩⟩ := a.tick_effect now checkId id
  · rwa [List.append_nil] at effect
  · cases hrole.symm.trans hcontrolling

section Controlled
variable {a : Agent} {address : SocketAddress} {e : Event}

theorem nominated_of_unpaired (h : a.checks.pairs = []) : ¬a.Nominated address := by
  rintro ⟨p, hp, -⟩
  rw [h] at hp
  cases hp

/-- An event other than a tick leaves every mark. -/
theorem step_leaves_nominated (hrole : a.controlling = false) (started : a.state ≠ .new)
    (untimed : ∀ now checkId id, e ≠ .tick now checkId id) (h : a.Nominated address) :
    (a.step e).Nominated address := by
  obtain ⟨xs, ys, unfolds⟩ := step_unfolds a e
  obtain rfl : ys = [] := by
    refine unfolds.nominates.resolve_right fun h => ?_
    cases hrole.symm.trans h.1
  have kept : (a.checks.acts xs).Marks address := by
    refine CheckList.Marks.acts h fun x hx => ⟨fun controlling => ?_, ?_⟩
    · exact ((unfolds.permits x hx).spares started).goes controlling
    · rintro now rfl
      cases unfolds.permits _ hx with
      | pair h =>
        obtain ⟨_, _, hx, -⟩ := h
        cases hx
      | check _ h => cases h
      | expire => exact untimed _ _ _ rfl
  rwa [Nominated, unfolds.checks]

theorem tick_nominated (single : a.checks.remotes.Nodup) (hrole : a.controlling = false) {now : Nat}
    {checkId id : TransactionId} : (a.step (.tick now checkId id)).Nominated address ↔
      a.Nominated address ∧ ¬a.Lapses address (.tick now checkId id) := by
  have checks : (a.step (.tick now checkId id)).checks = a.checks.acts (a.scheduled now checkId) :=
    (tick_scheduled hrole now checkId id).checks
  show (a.step _).checks.Marks address ↔ a.checks.Marks address ∧ _
  rw [checks, scheduled]
  by_cases active : a.Active
  · rw [if_pos active]
    simp only [CheckList.acts, List.foldl_cons, List.foldl_nil, CheckList.send_marks,
      CheckList.expire_marks single, Lapses, active, true_and]
  · rw [if_neg active]
    simp only [CheckList.acts, List.foldl_nil, Lapses, active, false_and, not_false_eq_true,
      and_true]

/-- A check that comes in nominates a pair when the agent is at work, and may have a pair for where
it comes from. -/
theorem chooses_of_nominated (ha : a.Reachable) (started : a.state ≠ .new) {r : BindingRequest}
    (hr : e.request? = some (address, r)) (huse : r.useCandidate = true)
    (h : (a.step e).Nominated address) : a.Nominated address ∨ a.Chooses address e := by
  cases e with
  | datagram source octets now id =>
    obtain ⟨rfl, hdecode⟩ := requestIn?_eq_some hr
    by_cases terminal : a.state.isTerminal = true
    · rw [step_of_terminal hdecode terminal] at h
      exact .inl h
    · obtain ⟨p, hp, -, hremote⟩ := h
      have covered := ((ha.step _).matched.paired _).1 (CheckList.mem_remotes.2 ⟨p, hp, hremote⟩)
      have same : (a.step (.datagram address octets now id)).ours = a.ours := by
        rw [step, onDatagram_request hdecode]
        exact ((a.handleRequest address r).updateState_keeps now id).ours.trans
          (a.handleRequest_listens address r).ours
      exact .inr ⟨⟨r, hr, huse⟩, active_iff.2 ⟨started, by simpa using terminal⟩,
        covered.2.mono fun _ hc => same ▸ hc⟩
  | _ => cases hr

theorem Chooses.nominated (h : a.Chooses address e) (hrole : a.controlling = false) :
    (a.step e).Nominated address := by
  obtain ⟨⟨r, hr, huse⟩, active, covered⟩ := h
  obtain ⟨started, goes⟩ := active_iff.1 active
  cases e with
  | datagram source octets now id =>
    obtain ⟨rfl, hdecode⟩ := requestIn?_eq_some hr
    obtain ⟨p, hp, hremote, hmark⟩ := step_marks hdecode huse hrole started goes covered now id
    exact ⟨p, hp, hmark, hremote⟩
  | _ => cases hr

/-- Nothing is nominated before the start, nor by it. -/
theorem unnominated_of_new (ha : a.Reachable) (hrole : (a.step e).controlling = false)
    (fresh : a.state = .new) : ¬a.Nominated address ∧ ¬(a.step e).Nominated address := by
  have before : ¬a.Nominated address := nominated_of_unpaired (ha.unpaired fresh)
  refine ⟨before, fun after => ?_⟩
  by_cases still : (a.step e).state = .new
  · exact nominated_of_unpaired ((ha.step e).unpaired still) after
  · obtain ⟨-, moved, starts⟩ := step_moves ha.grounded e
    simp only [fresh, AgentState.successors, List.mem_cons, List.not_mem_nil, or_false] at moved
    obtain ⟨now, addresses, includeLoopback, stunServer, id, rfl⟩ :=
      starts fresh (moved.resolve_left still)
    rw [step_role ha.blank still] at hrole
    rcases step_nominated hrole after with earlier | ⟨r, hr, -⟩
    · exact before earlier
    · cases hr

/-- **What is nominated on the controlled side**: what was, unless its check runs out of time, and
what a nominating check has chosen now. -/
theorem step_nominated_iff (ha : a.Reachable) (hrole : (a.step e).controlling = false) :
    (a.step e).Nominated address ↔
      a.Nominated address ∧ ¬a.Lapses address e ∨ a.Chooses address e := by
  by_cases fresh : a.state = .new
  · have new : ¬a.Nominated address ∧ ¬(a.step e).Nominated address :=
      unnominated_of_new ha hrole fresh
    obtain ⟨before, after⟩ := new
    refine iff_of_false after ?_
    rintro (⟨earlier, -⟩ | chooses)
    · exact before earlier
    · exact (active_iff.1 chooses.active).1 fresh
  · have started : (a.step e).state ≠ .new := fun h => fresh (new_of_step ha.grounded h)
    rw [step_role ha.blank started] at hrole
    by_cases timed : ∃ now checkId id, e = .tick now checkId id
    · obtain ⟨now, checkId, id, rfl⟩ := timed
      rw [tick_nominated ha.matched.single hrole]
      refine (or_iff_left ?_).symm
      rintro ⟨⟨r, hr, -⟩, -, -⟩
      cases hr
    · simp only [not_exists] at timed
      have untimed : ¬a.Lapses address e := by
        cases e with
        | tick => exact absurd rfl (timed _ _ _)
        | _ => exact id
      constructor
      · intro after
        rcases step_nominated hrole after with before | ⟨r, hr, huse⟩
        · exact .inl ⟨before, untimed⟩
        · exact (chooses_of_nominated ha fresh hr huse after).imp_left fun h => ⟨h, untimed⟩
      · rintro (⟨before, -⟩ | chooses)
        · exact step_leaves_nominated hrole fresh timed before
        · exact chooses.nominated hrole

end Controlled

/-! ### A run -/

theorem not_chosen_nil {a : Agent} {address : SocketAddress} : ¬Chosen a address [] := by
  intro h
  generalize hnil : ([] : List Event) = es at h
  cases h <;> simp at hnil

/-- Only an agent that has started has been told of a choice. -/
theorem Chosen.started {a : Agent} (ha : a.Reachable) {address : SocketAddress} {es : List Event}
    (h : Chosen a address es) : (a.run es).state ≠ .new := by
  have onward : ∀ es e, (a.run es).state ≠ .new → (a.run (es ++ [e])).state ≠ .new := by
    intro es e started still
    rw [run_concat] at still
    exact started (new_of_step (run_grounded ha.grounded es) still)
  induction h with
  | chooses h => exact onward _ _ (active_iff.1 h.active).1
  | lasts _ _ ih => exact onward _ _ ih

section Run
variable (peer : PeerId) (controlling : Bool) (session : UInt64) (created : Nat)
  (address : SocketAddress) (es : List Event)

/-- The pairs that a controlled agent has nominated are those that have been chosen. -/
theorem run_nominated_iff
    (hrole : ((new peer controlling session created).run es).controlling = false) :
    ((new peer controlling session created).run es).Nominated address ↔
      Chosen (new peer controlling session created) address es := by
  induction es using List.reverseRecOn with
  | nil => exact iff_of_false (nominated_of_unpaired rfl) not_chosen_nil
  | append_singleton es e ih =>
    have origin : (new peer controlling session created).Reachable := ⟨_, _, _, _, [], rfl⟩
    have before : ((new peer controlling session created).run es).Reachable := ⟨_, _, _, _, _, rfl⟩
    by_cases still : ((new peer controlling session created).run (es ++ [e])).state = .new
    · refine iff_of_false (nominated_of_unpaired ?_) fun h => h.started origin still
      exact Reachable.unpaired ⟨_, _, _, _, _, rfl⟩ still
    · rw [run_concat] at hrole still ⊢
      rw [step_nominated_iff before hrole, ih (step_role before.blank still ▸ hrole), chosen_concat]

end Run

/-- The controlled side sends checks on ticks only, those that are scheduled. -/
theorem sent_on_tick {a : Agent} (hrole : a.controlling = false) {e : Event}
    {q : SocketAddress × BindingRequest} (h : q ∈ requestsIn (a.sent e)) :
    ∃ now checkId id, e = .tick now checkId id ∧ a.Active ∧
      (a.checks.act (.expire now)).sends (.send now checkId) = some q := by
  by_cases timed : ∃ now checkId id, e = .tick now checkId id
  · obtain ⟨now, checkId, id, rfl⟩ := timed
    rw [(tick_scheduled hrole now checkId id).sent.1, scheduled] at h
    split at h
    · rename_i active
      exact ⟨now, checkId, id, rfl, active, by simpa [CheckList.requests, CheckList.sends] using h⟩
    · cases h
  · simp only [not_exists] at timed
    obtain ⟨xs, ys, unfolds⟩ := step_unfolds a e
    obtain rfl : ys = [] := by
      refine unfolds.nominates.resolve_right fun h => ?_
      cases hrole.symm.trans h.1
    have silent : ∀ x ∈ xs, ∀ l, CheckList.sends l x = none := by
      intro x hx l
      have permits := unfolds.permits x hx
      cases x with
      | send now id =>
        obtain ⟨nominationId, he⟩ := permits.on_tick
        exact absurd he (timed _ _ _)
      | nominate i now id => exact absurd rfl (permits.unsettled i now id)
      | _ => rfl
    rw [unfolds.requests, CheckList.requests_eq_nil silent] at h
    cases h

/-- **Which checks of the controlled side nominate.** A check that the controlled side sends, first
or again, has the flag just if the agent has taken a nominating check from where it goes to and no
check of that pair has run out of time since. -/
theorem echoes_iff_chosen (peer : PeerId) (controlling : Bool) (session : UInt64) (created : Nat)
    (es : List Event) (e : Event)
    (hrole : ((new peer controlling session created).run es).controlling = false)
    {destination : SocketAddress} {r : BindingRequest}
    (h : (destination, r) ∈ requestsIn (((new peer controlling session created).run es).sent e)) :
    r.useCandidate = true ↔
      Chosen (new peer controlling session created) destination (es ++ [e]) := by
  have before : ((new peer controlling session created).run es).Reachable := ⟨_, _, _, _, _, rfl⟩
  obtain ⟨now, checkId, id, rfl, active, hsends⟩ := sent_on_tick hrole h
  have started : (((new peer controlling session created).run es).step
      (.tick now checkId id)).state ≠ .new :=
    fun still => (active_iff.1 active).1 (new_of_step before.grounded still)
  have single : (((new peer controlling session created).run es).checks.act
      (.expire now)).remotes.Nodup := by
    rw [CheckList.act_remotes _ (x := .expire now) trivial]
    exact before.matched.single
  have checks := (tick_scheduled hrole now checkId id).checks
  rw [scheduled, if_pos active] at checks
  rw [CheckList.send_echoes single hsends, ← CheckList.send_marks _ now checkId,
    ← run_nominated_iff peer controlling session created destination _ ?_, run_concat]
  · show _ ↔ CheckList.Marks (Agent.tick _ now checkId id).checks destination
    rw [checks]
    rfl
  · rw [run_concat, step_role before.blank started]
    exact hrole

/-- The first check of a path that the other side has nominated has the flag, as the path has been
chosen. -/
theorem echoes_after_nomination :
    let peer : PeerId := ⟨List.replicate 16 0, rfl⟩
    let id : UInt8 → TransactionId := fun n => ⟨List.replicate 12 n, List.length_replicate⟩
    let near : SocketAddress := .v4 ⟨10, 0, 0, 1⟩ 5000
    let far : SocketAddress := .v4 ⟨10, 0, 0, 2⟩ 6000
    let es := [Event.start 0 [near] false none (id 0),
      .datagram far (BindingMessage.request ⟨id 1, 2, true⟩).encode 10 (id 2)]
    let e := Event.tick 20 (id 3) (id 4)
    ((new peer false 7 0).run es).controlling = false ∧
      (far, ⟨id 3, (Candidate.peerReflexive near).priority, true⟩) ∈
        requestsIn (((new peer false 7 0).run es).sent e) ∧
      Chosen (new peer false 7 0) far (es ++ [e]) :=
  let r : BindingRequest := ⟨⟨List.replicate 12 3, List.length_replicate⟩, 1862270975, true⟩
  ⟨by decide +kernel, by decide +kernel,
    (echoes_iff_chosen (r := r) _ _ _ _ _ _ (by decide +kernel) (by decide +kernel)).1 rfl⟩

/-- A controlled agent takes a nominating check, and nominates its pair back, with the first check
and with the same one sent again. -/
theorem nomination_echoed :
    let peer : PeerId := ⟨List.replicate 16 0, rfl⟩
    let id : UInt8 → TransactionId := fun n => ⟨List.replicate 12 n, List.length_replicate⟩
    let near : SocketAddress := .v4 ⟨10, 0, 0, 1⟩ 5000
    let far : SocketAddress := .v4 ⟨10, 0, 0, 2⟩ 6000
    let es := [Event.start 0 [near] false none (id 0),
      .datagram far (BindingMessage.request ⟨id 1, 2, true⟩).encode 10 (id 2),
      .tick 20 (id 3) (id 4), .tick 220 (id 5) (id 6)]
    ((new peer false 7 0).run es).controlling = false ∧
      requestsIn ((new peer false 7 0).outbox es) =
        [(far, ⟨id 3, (Candidate.peerReflexive near).priority, true⟩),
          (far, ⟨id 3, (Candidate.peerReflexive near).priority, true⟩)] := by
  decide +kernel

end Agent
end Parley
