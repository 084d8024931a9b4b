import Parley.Proofs.Link.CheckList.Refusal
import Parley.Proofs.Link.Nomination
import Parley.Proofs.Link.Pairing
import Parley.Proofs.Link.Path
/-!
What becomes of a nomination that fails.

A nominating check can fail in two ways, and the check list knows of them differently: when its time
runs out the nomination is withdrawn, and when an answer refuses it the nomination stays. The agent
takes it for lost in both cases and goes on to nominate another pair. `withdrawn_iff_unrefused` says
that the refusals are all there is to that: a run in which no nomination is refused never has a
failed pair that is nominated, nor a controlling side with two nominations, and one refusal is
enough to leave such a pair behind. `refused_nomination_stays` shows both.
-/
namespace Parley
open CheckList (Action)

namespace Agent

/-- The event is an answer that refuses a nomination of the agent's. -/
def Refuses (a : Agent) (e : Event) : Prop :=
  ∃ source r, e.answer? = some (source, r) ∧ a.checks.Refuses r

/-- No event of the run refuses a nomination. -/
def Unrefused (a : Agent) (es : List Event) : Prop :=
  ∀ before e after, es = before ++ e :: after → ¬(a.run before).Refuses e

theorem Unrefused.before {a : Agent} {es fs : List Event} (h : a.Unrefused (es ++ fs)) :
    a.Unrefused es := by
  rintro before e after rfl
  exact h before e (after ++ fs) (by simp)

/-- What an agent holds of its nominations, by its role. -/
structure Withdraws (a : Agent) : Prop where
  controlled : a.controlling = false → a.checks.Withdrawn
  controlling : a.controlling = true → a.checks.Exclusive a.nominationSent

theorem Withdraws.withdrawn {a : Agent} (h : a.Withdraws) : a.checks.Withdrawn := by
  cases hrole : a.controlling with
  | false => exact h.controlled hrole
  | true => exact (h.controlling hrole).withdrawn

theorem withdraws_of_unpaired {a : Agent} (h : a.checks.pairs = []) : a.Withdraws := by
  refine ⟨fun _ p hp => ?_, fun _ => ⟨fun p hp => ?_, by simp [h]⟩⟩
  · rw [h] at hp
    cases hp
  · rw [h] at hp
    cases hp

/-! ### Following the checks -/

section Settle
variable {a : Agent} (h : a.checks.Exclusive a.nominationSent)
include h

theorem selectBest_exclusive (now : Nat) :
    (a.selectBest now).checks.Exclusive (a.selectBest now).nominationSent := by
  unfold selectBest
  split <;> exact h

theorem withdrawNomination_exclusive :
    a.withdrawNomination.checks.Exclusive a.withdrawNomination.nominationSent := by
  unfold withdrawNomination
  split
  · rename_i hover
    simp only [Bool.and_eq_true, Bool.not_eq_true', Option.isNone_iff_eq_none] at hover
    exact h.withdraw hover.1.2 hover.2
  · exact h

theorem nominate_exclusive (now : Nat) (id : TransactionId) :
    (a.nominate now id).checks.Exclusive (a.nominate now id).nominationSent := by
  unfold nominate
  split
  · rename_i hmay
    simp only [mayNominate, Bool.and_eq_true, Bool.not_eq_true'] at hmay
    split
    · exact h
    · rename_i best _
      have unsent : a.checks.Exclusive false := hmay.1.2 ▸ h
      have nominated := unsent.nominate best now id
      split
      · rename_i hnominate
        rwa [hnominate] at nominated
      · exact h
  · exact h

theorem settle_exclusive (now : Nat) (id : TransactionId) :
    (a.settle now id).checks.Exclusive (a.settle now id).nominationSent := by
  have nominated := nominate_exclusive (withdrawNomination_exclusive h) now id
  unfold settle complete
  split <;> exact nominated

/-- Following the checks an agent nominates no pair beside another. -/
theorem updateState_exclusive (now : Nat) (id : TransactionId) :
    (a.updateState now id).checks.Exclusive (a.updateState now id).nominationSent := by
  have follows := updateState_follows a now id
  generalize a.updateState now id = b at follows ⊢
  cases follows with
  | connects =>
    have connected := selectBest_exclusive
      (a := { a with firstSuccess := some now, state := .connected }) h now
    exact settle_exclusive connected now id
  | settles => exact settle_exclusive (selectBest_exclusive h now) now id
  | exhausts | searches | collapses | rests => exact h

end Settle

/-! ### Every event -/

/-- What an event permits a started agent nominates nothing, on the controlling side or if the event
is no check. -/
theorem Permits.plain {a b : Agent} {e : Event} {x : Action} (h : Permits a b e x)
    (ha : a.state ≠ .new) (hquiet : a.controlling = true ∨ e.request? = none) : x.Plain := by
  cases x with
  | reset controlling => exact (h.spares ha).elim
  | nominate index now id => exact absurd rfl (h.unsettled index now id)
  | mark index =>
    rcases hquiet with hrole | hrequest
    · exact absurd rfl (h.unmarked hrole index)
    · cases h with
      | pair h =>
        obtain ⟨_, _, heq, -⟩ := h
        cases heq
      | check hr => simp [hr] at hrequest
  | _ => trivial

theorem learnTheirs_withdrawn {a : Agent} (h : a.checks.Withdrawn) (source : SocketAddress)
    (priority : UInt32) : (a.learnTheirs source priority).checks.Withdrawn := by
  unfold learnTheirs
  split
  · exact h
  · split
    · exact h
    · rename_i near _
      exact h.act (x := .learn near _) trivial nofun

/-- A check that comes in nominates at most a pair that is to be checked back. -/
theorem handleRequest_withdrawn {a : Agent} (h : a.checks.Withdrawn) (source : SocketAddress)
    (r : BindingRequest) : (a.handleRequest source r).checks.Withdrawn := by
  have queued : (a.queue source
      (BindingMessage.response (.accept r.id source)).encode).checks.Withdrawn := h
  unfold handleRequest
  simp only
  split
  · exact queued
  · have learned := learnTheirs_withdrawn queued source r.priority
    unfold answerCheck
    split
    · exact learned
    · rename_i index _
      simp only
      split
      · exact learned.noted index
      · exact learned.act (x := .trigger index) trivial nofun

theorem start_withdraws {a : Agent} (h : a.checks.pairs = []) (hnew : a.state = .new) (now : Nat)
    (addresses : List SocketAddress) (includeLoopback : Bool) (stunServer : Option SocketAddress)
    (id : TransactionId) : (a.start now addresses includeLoopback stunServer id).Withdraws := by
  have before := withdraws_of_unpaired h
  have checks := (start_effect hnew now addresses includeLoopback stunServer id).checks
  refine ⟨fun _ => ?_, fun _ => ?_⟩
  · rw [checks]
    exact before.withdrawn.acts (by simp [Action.Plain]) (by simp) (by simp)
  · have empty : a.checks.Exclusive
        (a.start now addresses includeLoopback stunServer id).nominationSent :=
      ⟨by simp [h], by simp [h]⟩
    rw [checks]
    exact empty.acts (by simp [Action.Plain]) (by simp) (by simp)

theorem Brings.unrefused {a b : Agent} {e : Event} {xs : List Action} (h : Brings a e b xs)
    (hr : ¬a.Refuses e) (r : BindingResponse) (hmem : .answer r ∈ xs) : ¬a.checks.Refuses r := by
  intro hrefuses
  obtain ⟨source, hanswer⟩ := (h.permits _ hmem).answer_handed
  exact hr ⟨source, r, hanswer, hrefuses⟩

theorem step_withdrawn {a : Agent} (hnew : a.state ≠ .new) (hrole : a.controlling = false)
    (h : a.checks.Withdrawn) {e : Event} (hr : ¬a.Refuses e) : (a.step e).checks.Withdrawn := by
  cases hrequest : e.request? with
  | none =>
    obtain ⟨b, xs, brings, hstep⟩ := step_brings hnew e
    have brought : b.checks.Withdrawn := by
      rw [brings.checks]
      exact h.acts (fun x hx => (brings.permits x hx).plain hnew (.inr hrequest)) brings.answered
        (brings.unrefused hr)
    rcases hstep with hstep | ⟨now, id, hstep⟩
    · rwa [hstep]
    · rwa [hstep, updateState_checks (brings.controlling.trans hrole)]
  | some q =>
    obtain ⟨source, r⟩ := q
    cases e with
    | datagram source' octets now id =>
      obtain ⟨rfl, hdecode⟩ := requestIn?_eq_some hrequest
      have taken : (a.handleRequest source r).controlling = false :=
        (a.handleRequest_learns source r).controlling.trans hrole
      rw [step, onDatagram_request hdecode, updateState_checks taken]
      exact handleRequest_withdrawn h source r
    | _ => cases hrequest

theorem step_exclusive {a : Agent} (hnew : a.state ≠ .new) (hrole : a.controlling = true)
    (h : a.checks.Exclusive a.nominationSent) {e : Event} (hr : ¬a.Refuses e) :
    (a.step e).checks.Exclusive (a.step e).nominationSent := by
  obtain ⟨b, xs, brings, hstep⟩ := step_brings hnew e
  have brought : b.checks.Exclusive b.nominationSent := by
    rw [brings.checks, brings.abides.nominationSent]
    exact h.acts (fun x hx => (brings.permits x hx).plain hnew (.inl hrole)) brings.answered
      (brings.unrefused hr)
  rcases hstep with hstep | ⟨now, id, hstep⟩
  · rwa [hstep]
  · rw [hstep]
    exact updateState_exclusive brought now id

/-- **An event withdraws the nominations that fail by it**, unless it refuses one. -/
theorem step_withdraws {a : Agent} (ha : a.Reachable) (h : a.Withdraws) {e : Event}
    (hr : ¬a.Refuses e) : (a.step e).Withdraws := by
  by_cases hstill : (a.step e).state = .new
  · exact withdraws_of_unpaired ((ha.step e).unpaired hstill)
  by_cases hnew : a.state = .new
  · obtain ⟨-, moved, starts⟩ := step_moves ha.grounded e
    simp only [hnew, AgentState.successors, List.mem_cons, List.not_mem_nil, or_false] at moved
    obtain ⟨now, addresses, includeLoopback, stunServer, id, rfl⟩ :=
      starts hnew (moved.resolve_left hstill)
    exact start_withdraws (ha.unpaired hnew) hnew ..
  · have role := step_role ha.blank hstill
    refine ⟨fun hrole => ?_, fun hrole => ?_⟩
    · exact step_withdrawn hnew (role ▸ hrole) (h.controlled (role ▸ hrole)) hr
    · exact step_exclusive hnew (role ▸ hrole) (h.controlling (role ▸ hrole)) hr

theorem run_withdraws (peer : PeerId) (controlling : Bool) (session : UInt64) (created : Nat)
    {es : List Event} (h : (new peer controlling session created).Unrefused es) :
    ((new peer controlling session created).run es).Withdraws := by
  induction es using List.reverseRecOn with
  | nil => exact withdraws_of_unpaired rfl
  | append_singleton es e ih =>
    rw [run_concat]
    exact step_withdraws ⟨_, _, _, _, _, rfl⟩ (ih h.before) (h es e [] rfl)

/-- A pair that has failed does not change when the state follows: what is nominated beside it
works. -/
theorem updateState_failed {a : Agent} {p : Pair} (hp : p ∈ a.checks.pairs)
    (hstate : p.state = .failed) (now : Nat) (id : TransactionId) :
    p ∈ (a.updateState now id).checks.pairs := by
  rcases updateState_settles a now id with settled | ⟨-, i, settled⟩
  · rw [settled.checks]
    exact hp
  · rw [settled.checks]
    obtain ⟨q, hq, hev⟩ := CheckList.act_evolves (x := .nominate i now id) nofun hp
    cases hev with
    | same => exact hq
    | nominated _ hworks => cases hstate.symm.trans hworks

theorem step_refused {a : Agent} {e : Event} (h : a.Refuses e) : ¬(a.step e).checks.Withdrawn := by
  obtain ⟨source, r, hanswer, hrefuses⟩ := h
  cases e with
  | datagram source' octets now id =>
    obtain ⟨-, hdecode⟩ := answerIn?_eq_some hanswer
    obtain ⟨p, hp, hstate, hmark⟩ := hrefuses.leaves
    intro withdrawn
    rw [step, onDatagram_response hdecode] at withdrawn
    have unmarked :=
      withdrawn p (updateState_failed (a := a.handleResponse r) hp hstate now id) hstate
    cases hmark.symm.trans unmarked
  | _ => cases hanswer

/-- **A failed nomination is withdrawn, unless it is refused.** In the course of a run no failed
pair is ever nominated just if no event has refused a nomination; and then a controlling agent has
nominated one pair at most. -/
theorem withdrawn_iff_unrefused (peer : PeerId) (controlling : Bool) (session : UInt64)
    (created : Nat) (es : List Event) :
    ((∀ before after, es = before ++ after →
        ∀ p ∈ ((new peer controlling session created).run before).checks.pairs,
          p.state = .failed → p.nominated = false) ↔
      (new peer controlling session created).Unrefused es) ∧
    ((new peer controlling session created).Unrefused es →
      ((new peer controlling session created).run es).controlling = true →
        ((new peer controlling session created).run es).checks.pairs.countP (·.nominated) ≤ 1) := by
  refine ⟨⟨fun withdrawn before e after hes hrefuses => ?_, ?_⟩, fun unrefused hrole => ?_⟩
  · refine step_refused hrefuses ?_
    rw [← run_concat]
    exact withdrawn (before ++ [e]) after (by simp [hes])
  · rintro unrefused before after rfl
    exact (run_withdraws peer controlling session created unrefused.before).withdrawn
  · have exclusive := (run_withdraws peer controlling session created unrefused).controlling hrole
    exact exclusive.single.trans (Bool.toNat_le _)

/-- An agent with two paths that work nominates the better one and is refused: the pair has failed
and stays nominated, and the agent nominates the other one beside it. -/
theorem refused_nomination_stays :
    let peer : PeerId := ⟨List.replicate 16 0, rfl⟩
    let id : UInt8 → TransactionId := fun n => ⟨List.replicate 12 n, List.length_replicate⟩
    let near : SocketAddress := .v4 ⟨10, 0, 0, 1⟩ 5000
    let far : SocketAddress := .v4 ⟨10, 0, 0, 2⟩ 6000
    let farther : SocketAddress := .v4 ⟨10, 0, 0, 3⟩ 6000
    let a := (new peer true 7 0).run [
      .start 0 [near] false none (id 0),
      .datagram far (BindingMessage.request ⟨id 1, 2, false⟩).encode 10 (id 2),
      .datagram farther (BindingMessage.request ⟨id 3, 1, false⟩).encode 10 (id 4),
      .tick 20 (id 5) (id 6),
      .tick 40 (id 7) (id 8),
      .datagram far (BindingMessage.response ⟨id 5, true, none⟩).encode 50 (id 9),
      .datagram farther (BindingMessage.response ⟨id 7, true, none⟩).encode 60 (id 10),
      .datagram far (BindingMessage.response ⟨id 10, false, none⟩).encode 70 (id 11)]
    a.controlling = true ∧
      (∃ p ∈ a.checks.pairs, p.remote = far ∧ p.state = .failed ∧ p.nominated = true) ∧
      (∃ p ∈ a.checks.pairs, p.remote = farther ∧ p.state = .inProgress ∧ p.nominated = true) ∧
      a.checks.pairs.countP (·.nominated) = 2 := by
  decide +kernel

end Agent
end Parley
