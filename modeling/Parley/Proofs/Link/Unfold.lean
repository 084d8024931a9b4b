import Parley.Proofs.Link.CheckList.Choice
import Parley.Proofs.Link.Effect
import Parley.Proofs.Link.Run
/-!
How an event unfolds.

An event brings something to the check list of an agent, and then the state follows the checks, at
which the controlling side may nominate a pair. `step_unfolds` says so of every event, with what the
event permits: an answer is taken only from the event that hands it in, a check starts only with an
identifier that the event hands in, and only the controlling side nominates. What holds of every run
of an agent is proved along it.
-/
namespace Parley
open CheckList (Action)

namespace Agent

namespace Event

/-- The check that an event hands in, and where it comes from. -/
def request? : Event → Option (SocketAddress × BindingRequest)
  | .datagram source octets _ _ => requestIn? (source, octets)
  | _ => none

/-- The answer that an event hands in, and where it comes from. -/
def answer? : Event → Option (SocketAddress × BindingResponse)
  | .datagram source octets _ _ => answerIn? (source, octets)
  | _ => none

/-- The answers that an event calls for. -/
def answers (e : Event) : List (SocketAddress × BindingResponse) :=
  e.request?.toList.map fun (source, r) => (source, ⟨r.id, true, some source.plain⟩)

/-- When the agent may nominate after an event, and the identifier for it. -/
def settles : Event → Option (Nat × TransactionId)
  | .signal _ _ now id | .datagram _ _ now id | .tick now _ id => some (now, id)
  | _ => none

end Event

/-- What an event that takes `a` to `b` may do to the check list. -/
inductive Permits (a b : Agent) : Event → Action → Prop
  | reset {controlling} : a.state = .new →
      Permits a b (.setControlling controlling) (.reset controlling)
  | start {now addresses includeLoopback stunServer id} : a.state = .new →
      Permits a b (.start now addresses includeLoopback stunServer id) (.start now)
  | pair {e x} : PairsOf b x → Permits a b e x
  | check {e source r x} : e.request? = some (source, r) → Checked a b source r x →
      Permits a b e x
  | answer {e source r} : e.answer? = some (source, r) → Permits a b e (.answer r)
  | expire {now checkId id} : Permits a b (.tick now checkId id) (.expire now)
  | send {now checkId id} : Permits a b (.tick now checkId id) (.send now checkId)

/-- An action that neither starts a check nor ends one with an answer. -/
def Quiet (x : Action) : Prop := x.ids = [] ∧ ∀ r, x ≠ .answer r

theorem PairsOf.quiet {b : Agent} {x : Action} (h : PairsOf b x) : Quiet x := by
  obtain ⟨_, _, rfl, -, -⟩ := h
  exact ⟨rfl, nofun⟩

theorem Checked.quiet {a b : Agent} {source : SocketAddress} {r : BindingRequest} {x : Action}
    (h : Checked a b source r x) : Quiet x := by
  cases h <;> exact ⟨rfl, nofun⟩

theorem ids_of_quiet {xs : List Action} (h : ∀ x ∈ xs, Quiet x) : xs.flatMap Action.ids = [] :=
  List.flatMap_eq_nil_iff.2 fun x hx => (h x hx).1

theorem answered_of_quiet {xs : List Action} (h : ∀ x ∈ xs, Quiet x) (r : BindingResponse)
    (hr : .answer r ∈ xs) : xs = [.answer r] := absurd rfl ((h _ hr).2 r)

theorem PairsOf.keeps {b c : Agent} {x : Action} (h : PairsOf b x) (hours : c.ours = b.ours)
    (htheirs : c.theirs = b.theirs) : PairsOf c x := by
  obtain ⟨ours, theirs, rfl, hnear, hfar⟩ := h
  exact ⟨ours, theirs, rfl, hours ▸ hnear, htheirs ▸ hfar⟩

theorem Checked.keeps {a b c : Agent} {source : SocketAddress} {r : BindingRequest} {x : Action}
    (h : Checked a b source r x) (hours : c.ours = b.ours) (htheirs : c.theirs = b.theirs) :
    Checked a c source r x := by
  cases h with
  | learn hnear hfar haddress hv => exact .learn (hours ▸ hnear) (htheirs ▸ hfar) haddress hv
  | trigger => exact .trigger
  | mark huse ha => exact .mark huse ha

theorem Permits.keeps {a b c : Agent} {e : Event} {x : Action} (h : Permits a b e x)
    (hours : c.ours = b.ours) (htheirs : c.theirs = b.theirs) : Permits a c e x := by
  cases h with
  | reset h => exact .reset h
  | start h => exact .start h
  | pair h => exact .pair (h.keeps hours htheirs)
  | check hr h => exact .check hr (h.keeps hours htheirs)
  | answer h => exact .answer h
  | expire => exact .expire
  | send => exact .send

/-- An answer is taken from the event that hands it in. -/
theorem Permits.answer_handed {a b : Agent} {e : Event} {r : BindingResponse}
    (h : Permits a b e (.answer r)) : ∃ source, e.answer? = some (source, r) := by
  cases h with
  | pair h => exact absurd rfl (h.quiet.2 r)
  | check _ h => exact absurd rfl (h.quiet.2 r)
  | answer h => exact ⟨_, h⟩

/-- Only a change of the role begins a list anew. -/
theorem Permits.on_reset {a b : Agent} {e : Event} {controlling : Bool}
    (h : Permits a b e (.reset controlling)) : e = .setControlling controlling := by
  cases h with
  | reset => rfl
  | pair h =>
    obtain ⟨_, _, h, -⟩ := h
    cases h
  | check _ h => cases h

/-- Checks are sent by ticks. -/
theorem Permits.on_tick {a b : Agent} {e : Event} {now : Nat} {id : TransactionId}
    (h : Permits a b e (.send now id)) : ∃ nominationId, e = .tick now id nominationId := by
  cases h with
  | pair h =>
    obtain ⟨_, _, h, -⟩ := h
    cases h
  | check _ h => cases h
  | send => exact ⟨_, rfl⟩

/-- What an event permits before the state follows nominates nothing. -/
theorem Permits.unsettled {a b : Agent} {e : Event} {x : Action} (h : Permits a b e x)
    (i now : Nat) (id : TransactionId) : x ≠ .nominate i now id := by
  rintro rfl
  cases h with
  | pair h =>
    obtain ⟨_, _, h, -⟩ := h
    cases h
  | check _ h => cases h

/-- The controlling side notes no nomination. -/
theorem Permits.unmarked {a b : Agent} {e : Event} {x : Action} (h : Permits a b e x)
    (ha : a.controlling = true) (i : Nat) : x ≠ .mark i := by
  rintro rfl
  cases h with
  | pair h =>
    obtain ⟨_, _, heq, -⟩ := h
    cases heq
  | check _ h =>
    cases h with
    | mark _ hcontrolled =>
      rw [ha] at hcontrolled
      cases hcontrolled

/-- How an event unfolds: it acts on the check list by `xs`, which it permits, and then the
controlling side may nominate a pair. What is selected is the address of a pair that works then or
worked before that, and an agent completes on a nominated pair that works. -/
structure Unfolds (a : Agent) (e : Event) (xs ys : List Action) : Prop where
  checks : (a.step e).checks = (a.checks.acts xs).acts ys
  requests : requestsIn (a.sent e) = a.checks.requests xs ++ (a.checks.acts xs).requests ys
  answers : answersIn (a.sent e) = e.answers
  permits : ∀ x ∈ xs, Permits a (a.step e) e x
  answered : ∀ r, .answer r ∈ xs → xs = [.answer r]
  nominates : ys = [] ∨ a.controlling = true ∧
    ∃ i now id, e.settles = some (now, id) ∧ ys = [.nominate i now id]
  ids : ((xs ++ ys).flatMap Action.ids).Sublist e.ids
  selected : ∀ address, (a.step e).selected = some address → a.selected = some address ∨
    ∃ p, (p ∈ (a.checks.acts xs).pairs ∨ p ∈ (a.step e).checks.pairs) ∧ p.state = .succeeded ∧
      p.remote = address
  completed : (a.step e).state = .completed → a.state = .completed ∨
    ∃ p ∈ (a.step e).checks.pairs, p.nominated = true ∧ p.state = .succeeded

theorem Unfolds.nomination {a : Agent} {e : Event} {xs ys : List Action} (h : Unfolds a e xs ys)
    {y : Action} (hy : y ∈ ys) : ∃ i now id, y = .nominate i now id := by
  rcases h.nominates with rfl | ⟨-, i, now, id, -, rfl⟩
  · cases hy
  · exact ⟨i, now, id, List.mem_singleton.1 hy⟩

theorem Unfolds.nomination_only {a : Agent} {e : Event} {xs ys : List Action}
    (h : Unfolds a e xs ys) {y : Action} (hy : y ∈ ys) :
    (∀ controlling, y ≠ .reset controlling) ∧ ∀ i, y ≠ .mark i := by
  obtain ⟨_, _, _, rfl⟩ := h.nomination hy
  exact ⟨nofun, nofun⟩

/-- The requests of a run and of an event that follows it. -/
theorem Unfolds.outbox {a : Agent} {es : List Event} {e : Event} {xs ys : List Action}
    (h : Unfolds (a.run es) e xs ys) : requestsIn (a.outbox (es ++ [e])) =
      requestsIn (a.outbox es) ++ (a.run es).checks.requests xs ++
        ((a.run es).checks.acts xs).requests ys := by
  rw [outbox_concat, requestsIn_append, h.requests, List.append_assoc]

/-! ### What follows from the checks -/

/-- The best pair that works is selected, if one does. -/
theorem selectBest_selects (a : Agent) (now : Nat) :
    a.checks.hasSucceeded = false ∧ a.selectBest now = a ∨
      ∃ p ∈ a.checks.pairs, p.state = .succeeded ∧ (a.selectBest now).selected = some p.remote := by
  unfold selectBest
  split
  · rename_i p hbest
    obtain ⟨i, hi, hp⟩ := Option.bind_eq_some_iff.1 hbest
    obtain ⟨q, hq, hstate⟩ := CheckList.bestSucceeded_eq_some hi
    rw [hp] at hq
    cases hq
    exact .inr ⟨p, List.mem_of_getElem? hp, hstate, rfl⟩
  · rename_i hnone
    refine .inl ⟨?_, rfl⟩
    by_contra hworks
    obtain ⟨i, hi⟩ := CheckList.bestSucceeded_isSome (by simpa using hworks)
    obtain ⟨p, hp, -⟩ := CheckList.bestSucceeded_eq_some hi
    simp [hi, hp] at hnone

theorem selectBest_selected {a : Agent} {now : Nat} {address : SocketAddress}
    (h : (a.selectBest now).selected = some address) : a.selected = some address ∨
      ∃ p ∈ a.checks.pairs, p.state = .succeeded ∧ p.remote = address := by
  rcases selectBest_selects a now with ⟨-, same⟩ | ⟨p, hp, hstate, hselected⟩
  · exact .inl (same ▸ h)
  · exact .inr ⟨p, hp, hstate, Option.some.inj (hselected.symm.trans h)⟩

/-- Settling selects the pair on which the agent completes, if it does. -/
theorem settle_selects (a : Agent) (now : Nat) (id : TransactionId) :
    (a.settle now id).selected = a.selected ∨ ∃ p ∈ (a.settle now id).checks.pairs,
      p.state = .succeeded ∧ (a.settle now id).selected = some p.remote := by
  have before := a.withdrawNomination_learns.trans (nominate_learns _ now id)
  unfold settle
  rw [complete_checks]
  unfold complete
  split
  · rename_i p hp
    obtain ⟨hmem, -, hstate⟩ := CheckList.nominatedPair_eq_some hp
    exact .inr ⟨p, hmem, hstate, rfl⟩
  · exact .inl before.selected

theorem settle_selected {a : Agent} {now : Nat} {id : TransactionId} {address : SocketAddress}
    (h : (a.settle now id).selected = some address) : a.selected = some address ∨
      ∃ p ∈ (a.settle now id).checks.pairs, p.state = .succeeded ∧ p.remote = address := by
  rcases settle_selects a now id with same | ⟨p, hp, hstate, hselected⟩
  · exact .inl (same ▸ h)
  · exact .inr ⟨p, hp, hstate, Option.some.inj (hselected.symm.trans h)⟩

theorem settle_completed {a : Agent} {now : Nat} {id : TransactionId}
    (h : (a.settle now id).state = .completed) : a.state = .completed ∨
      ∃ p ∈ (a.settle now id).checks.pairs, p.nominated = true ∧ p.state = .succeeded := by
  have before := a.withdrawNomination_learns.trans (nominate_learns _ now id)
  unfold settle at h ⊢
  rw [complete_checks]
  unfold complete at h
  split at h
  · rename_i p hp
    exact .inr ⟨p, CheckList.nominatedPair_eq_some hp⟩
  · exact .inl (before.state ▸ h)

theorem updateState_selected {a : Agent} {now : Nat} {id : TransactionId} {address : SocketAddress}
    (h : (a.updateState now id).selected = some address) : a.selected = some address ∨
      ∃ p, (p ∈ a.checks.pairs ∨ p ∈ (a.updateState now id).checks.pairs) ∧
        p.state = .succeeded ∧ p.remote = address := by
  have follows := updateState_follows a now id
  generalize a.updateState now id = b at h follows ⊢
  cases follows with
  | connects =>
    rcases settle_selected h with h | ⟨p, hp, hstate⟩
    · rcases selectBest_selected h with h | ⟨p, hp, hstate⟩
      · exact .inl h
      · exact .inr ⟨p, .inl hp, hstate⟩
    · exact .inr ⟨p, .inr hp, hstate⟩
  | settles =>
    rcases settle_selected h with h | ⟨p, hp, hstate⟩
    · rcases selectBest_selected h with h | ⟨p, hp, hstate⟩
      · exact .inl h
      · exact .inr ⟨p, .inl hp, hstate⟩
    · exact .inr ⟨p, .inr hp, hstate⟩
  | collapses => cases h
  | exhausts | searches | rests => exact .inl h

theorem updateState_completed {a : Agent} {now : Nat} {id : TransactionId}
    (h : (a.updateState now id).state = .completed) : a.state = .completed ∨
      ∃ p ∈ (a.updateState now id).checks.pairs, p.nominated = true ∧ p.state = .succeeded := by
  have follows := updateState_follows a now id
  generalize a.updateState now id = b at h follows ⊢
  cases follows with
  | connects =>
    refine .inr ((settle_completed h).resolve_left ?_)
    rw [selectBest_state]
    simp
  | settles hstate =>
    refine .inr ((settle_completed h).resolve_left ?_)
    rw [selectBest_state, hstate]
    simp
  | collapses | exhausts => cases h
  | searches | rests => exact .inl h

theorem Effect.sent {a : Agent} {e : Event} {xs : List Action}
    {answers : List (SocketAddress × BindingResponse)} (h : Effect a (a.step e) xs answers) :
    requestsIn (a.sent e) = a.checks.requests xs ∧ answersIn (a.sent e) = answers := by
  obtain ⟨ds, hds, hrequests, hanswers⟩ := h.queued
  have queued : a.sent e = ds := by rw [Agent.sent, hds, List.drop_left]
  rw [queued]
  exact ⟨hrequests, hanswers⟩

/-- An event on which the state does not follow the checks. -/
theorem unfolds_of_effect {a : Agent} {e : Event} {xs : List Action}
    (h : Effect a (a.step e) xs e.answers) (permits : ∀ x ∈ xs, Permits a (a.step e) e x)
    (answered : ∀ r, .answer r ∈ xs → xs = [.answer r])
    (ids : (xs.flatMap Action.ids).Sublist e.ids)
    (hselected : (a.step e).selected = a.selected)
    (hstate : (a.step e).state = .completed → a.state = .completed) : Unfolds a e xs [] where
  checks := h.checks
  requests := by rw [h.sent.1, CheckList.requests, List.append_nil]
  answers := h.sent.2
  permits := permits
  answered := answered
  nominates := .inl rfl
  ids := by rwa [List.append_nil]
  selected := fun _ h => .inl (hselected ▸ h)
  completed := fun h => .inl (hstate h)

/-- An event that takes the agent to `b`, from where the state follows the checks. -/
theorem unfolds_of_follows {a b : Agent} {e : Event} {xs : List Action} {now : Nat}
    {id : TransactionId} (hstep : a.step e = b.updateState now id)
    (hsettles : e.settles = some (now, id)) (h : Effect a b xs e.answers)
    (permits : ∀ x ∈ xs, Permits a b e x) (answered : ∀ r, .answer r ∈ xs → xs = [.answer r])
    (ids : (xs.flatMap Action.ids ++ [id]).Sublist e.ids)
    (hcontrolling : b.controlling = a.controlling)
    (hselected : ∀ address, b.selected = some address → a.selected = some address)
    (hstate : b.state = .completed → a.state = .completed) : ∃ ys, Unfolds a e xs ys := by
  have keeps := b.updateState_keeps now id
  have permitted : ∀ x ∈ xs, Permits a (a.step e) e x := by
    rw [hstep]
    exact fun x hx => (permits x hx).keeps keeps.ours keeps.theirs
  have selected : ∀ address, (a.step e).selected = some address → a.selected = some address ∨
      ∃ p, (p ∈ (a.checks.acts xs).pairs ∨ p ∈ (a.step e).checks.pairs) ∧ p.state = .succeeded ∧
        p.remote = address := by
    rw [hstep, ← h.checks]
    exact fun address ha => (updateState_selected ha).imp_left (hselected address)
  have completed : (a.step e).state = .completed → a.state = .completed ∨
      ∃ p ∈ (a.step e).checks.pairs, p.nominated = true ∧ p.state = .succeeded := by
    rw [hstep]
    exact fun ha => (updateState_completed ha).imp_left hstate
  have settles := b.updateState_settles now id
  rw [← hstep] at settles
  have whole : ∀ ys, Effect b (a.step e) ys [] → Effect a (a.step e) (xs ++ ys) e.answers := by
    intro ys hys
    simpa using h.trans hys
  rcases settles with settles | ⟨hb, i, settles⟩
  · refine ⟨[], settles.checks.trans h.checks, ?_, (whole _ settles).sent.2, permitted, answered,
      .inl rfl, ?_, selected, completed⟩
    · rw [(whole _ settles).sent.1, CheckList.requests_append]
    · rw [List.append_nil]
      exact (List.sublist_append_left ..).trans ids
  · refine ⟨[.nominate i now id], ?_, ?_, (whole _ settles).sent.2, permitted, answered,
      .inr ⟨hcontrolling ▸ hb, i, now, id, hsettles, rfl⟩, ?_, selected, completed⟩
    · rw [settles.checks, h.checks]
    · rw [(whole _ settles).sent.1, CheckList.requests_append]
    · simpa [Action.ids] using ids

/-! ### Every event -/

theorem request?_eq_none {source : SocketAddress} {octets : Bytes}
    (h : Datagram.classify octets ≠ .binding) : requestIn? (source, octets) = none := by
  simp only [requestIn?]
  split
  · rename_i hdecode
    exact absurd (classify_of_decode hdecode) h
  · rfl

/-- What a datagram brings before the state follows: an answer, or nothing that ends a check. -/
theorem handleDatagram_effect (a : Agent) (source : SocketAddress) (octets : Bytes) (now : Nat)
    (id : TransactionId) :
    ∃ xs, Effect a (a.handleDatagram source octets now).1 xs
        (Event.answers (.datagram source octets now id)) ∧
      (∀ x ∈ xs, Permits a (a.handleDatagram source octets now).1
        (.datagram source octets now id) x) ∧
      ((∀ x ∈ xs, Quiet x) ∨ ∃ r, xs = [.answer r]) := by
  have quiet : Datagram.classify octets ≠ .binding →
      Event.answers (.datagram source octets now id) = [] := by
    intro h
    simp [Event.answers, Event.request?, request?_eq_none h]
  cases hclass : Datagram.classify octets with
  | stun =>
    obtain ⟨xs, hxs, hpairs⟩ := a.handleStun_effect octets
    rw [quiet (by simp [hclass])]
    simp only [handleDatagram, hclass]
    have pairs : ∀ x ∈ xs, PairsOf (a.handleStun octets) x := by
      intro x hx
      obtain ⟨c, rfl, hc⟩ := hpairs x hx
      exact ⟨_, _, rfl, by simpa using hc, (a.handleStun_learns octets).theirs⟩
    exact ⟨xs, hxs, fun x hx => .pair (pairs x hx), .inl fun x hx => (pairs x hx).quiet⟩
  | binding =>
    simp only [handleDatagram, hclass, handleBinding]
    cases hdecode : BindingMessage.decode octets with
    | error e =>
      refine ⟨[], ?_, by simp, .inl (by simp)⟩
      simpa [Event.answers, Event.request?, requestIn?, hdecode] using Effect.refl a
    | ok m =>
      cases m with
      | request r =>
        have hr : Event.request? (.datagram source octets now id) = some (source, r) := by
          simp [Event.request?, requestIn?, hdecode]
        obtain ⟨xs, hxs, checked⟩ := a.handleRequest_effect source r
        exact ⟨xs, by simpa [Event.answers, hr] using hxs, fun x hx => .check hr (checked x hx),
          .inl fun x hx => (checked x hx).quiet⟩
      | response r =>
        have hr : Event.answer? (.datagram source octets now id) = some (source, r) := by
          simp [Event.answer?, answerIn?, hdecode]
        refine ⟨[.answer r], ?_, ?_, .inr ⟨r, rfl⟩⟩
        · simpa [Event.answers, Event.request?, requestIn?, hdecode] using a.handleResponse_effect r
        · intro x hx
          rw [List.mem_singleton.1 hx]
          exact .answer hr
  | keepalive isResponse sequence =>
    rw [quiet (by simp [hclass])]
    simp only [handleDatagram, hclass]
    exact ⟨[], a.handleKeepalive_effect source isResponse sequence now, by simp, .inl (by simp)⟩
  | data payload =>
    rw [quiet (by simp [hclass])]
    simp only [handleDatagram, hclass]
    split
    · exact ⟨[], .still rfl rfl, by simp, .inl (by simp)⟩
    · exact ⟨[], .refl a, by simp, .inl (by simp)⟩
  | unknown =>
    rw [quiet (by simp [hclass])]
    simp only [handleDatagram, hclass]
    exact ⟨[], .refl a, by simp, .inl (by simp)⟩

theorem start_unfolds (a : Agent) (now : Nat) (addresses : List SocketAddress)
    (includeLoopback : Bool) (stunServer : Option SocketAddress) (id : TransactionId) :
    ∃ xs ys, Unfolds a (.start now addresses includeLoopback stunServer id) xs ys := by
  by_cases h : a.state = .new
  · have learns := start_learns h now addresses includeLoopback stunServer id
    have quiet : ∀ x ∈ [Action.start now, .pair (Candidate.gather addresses includeLoopback)
        a.theirs], Quiet x := by
      simp [Quiet, Action.ids]
    refine ⟨_, [], unfolds_of_effect (start_effect h now addresses includeLoopback stunServer id)
      ?_ (answered_of_quiet quiet) ?_ learns.selected ?_⟩
    · intro x hx
      simp only [List.mem_cons, List.not_mem_nil, or_false] at hx
      rcases hx with rfl | rfl
      · exact .start h
      · exact .pair ⟨_, _, rfl, learns.ours, learns.theirs⟩
    · rw [ids_of_quiet quiet]
      exact List.nil_sublist _
    · exact fun hdone => absurd (learns.state.symm.trans hdone) (by simp)
  · have still : a.step (.start now addresses includeLoopback stunServer id) = a := by
      simp only [step, start, if_neg h]
    refine ⟨[], [], unfolds_of_effect ?_ (by simp) (by simp) (by simp) ?_ ?_⟩
    · rw [still]
      exact .refl a
    · rw [still]
    · rw [still]
      exact fun h => h

theorem signal_unfolds (a : Agent) (kind : MessageKind) (data : String) (now : Nat)
    (id : TransactionId) : ∃ xs ys, Unfolds a (.signal kind data now id) xs ys := by
  have touched : Effect a (a.touch now) [] [] := .still rfl rfl
  rcases a.applySignal_cases kind data now id with ⟨b, received, applied⟩ | ⟨_, -, applied⟩
  · obtain ⟨xs, hxs, hpairs⟩ := received.effect
    have learns := received.learns
    have quiet : ∀ x ∈ xs, Quiet x := fun x hx => (hpairs x hx).quiet
    have hstep : a.step (.signal kind data now id) = b.updateState now id :=
      congrArg Prod.fst applied
    refine ⟨xs, unfolds_of_follows hstep rfl (touched.trans hxs)
      (fun x hx => .pair (hpairs x hx)) (answered_of_quiet quiet) ?_ learns.controlling ?_ ?_⟩
    · simp [ids_of_quiet quiet, Event.ids]
    · exact fun _ ha => learns.selected.symm.trans ha
    · exact fun ha => learns.state.symm.trans ha
  · have hstep : a.step (.signal kind data now id) = a.touch now := congrArg Prod.fst applied
    refine ⟨[], [], unfolds_of_effect ?_ (by simp) (by simp) (by simp) ?_ ?_⟩
    · rw [hstep]
      exact touched
    · rw [hstep]
      rfl
    · rw [hstep]
      exact fun h => h

theorem datagram_unfolds (a : Agent) (source : SocketAddress) (octets : Bytes) (now : Nat)
    (id : TransactionId) : ∃ xs ys, Unfolds a (.datagram source octets now id) xs ys := by
  obtain ⟨xs, hxs, permits, hquiet⟩ := a.handleDatagram_effect source octets now id
  have learns := a.handleDatagram_learns source octets now
  have hstep : a.step (.datagram source octets now id) =
      (a.handleDatagram source octets now).1.updateState now id := rfl
  refine ⟨xs, unfolds_of_follows hstep rfl hxs permits ?_ ?_ learns.controlling ?_ ?_⟩
  · rcases hquiet with quiet | ⟨r, rfl⟩
    · exact answered_of_quiet quiet
    · intro s hs
      rw [List.mem_singleton.1 hs]
  · rcases hquiet with quiet | ⟨r, rfl⟩
    · simp [ids_of_quiet quiet, Event.ids]
    · simp [Action.ids, Event.ids]
  · exact fun _ ha => learns.selected.symm.trans ha
  · exact fun ha => learns.state.symm.trans ha

theorem tick_unfolds (a : Agent) (now : Nat) (checkId id : TransactionId) :
    ∃ xs ys, Unfolds a (.tick now checkId id) xs ys := by
  have before := (a.tickQuery_learns now).trans (tickChecks_learns _ now checkId)
  have keeps := ((a.tickQuery_keeps now).trans (tickChecks_keeps _ now checkId)).trans
    (tickKeepalive_keeps _ now)
  have kept : (∀ address, (((a.tickQuery now).tickChecks now checkId).tickKeepalive now).selected =
      some address → a.selected = some address) ∧
      ((((a.tickQuery now).tickChecks now checkId).tickKeepalive now).state = .completed →
        a.state = .completed) := by
    rcases tickKeepalive_cases ((a.tickQuery now).tickChecks now checkId) now with
      h | ⟨k, k', -, -, -, h⟩
    · have learns := before.trans h
      exact ⟨fun _ ha => learns.selected.symm.trans ha, fun ha => learns.state.symm.trans ha⟩
    · rw [h]
      exact ⟨nofun, nofun⟩
  rcases tickChecks_effect (a.tickQuery now) now checkId with checks | checks
  · refine ⟨_, unfolds_of_follows rfl rfl
      ((a.tickQuery_effect now).trans (checks.trans (tickKeepalive_effect _ now)))
      (by simp) (by simp) (by simp [Event.ids]) keeps.controlling kept.1 kept.2⟩
  · refine ⟨_, unfolds_of_follows rfl rfl
      ((a.tickQuery_effect now).trans (checks.trans (tickKeepalive_effect _ now)))
      ?_ (by simp) (by simp [Event.ids, Action.ids]) keeps.controlling kept.1 kept.2⟩
    intro x hx
    simp only [List.nil_append, List.append_nil, List.mem_cons, List.not_mem_nil, or_false] at hx
    rcases hx with rfl | rfl
    · exact .expire
    · exact .send

theorem setControlling_unfolds (a : Agent) (controlling : Bool) :
    ∃ xs ys, Unfolds a (.setControlling controlling) xs ys := by
  by_cases h : a.state = .new ∧ a.controlling ≠ controlling
  · have hstep : a.step (.setControlling controlling) =
        { a with controlling, checks := CheckList.new controlling } := by
      simp only [step, setControlling, if_pos h]
    refine ⟨[.reset controlling], [],
      unfolds_of_effect ?_ ?_ (by simp) (by simp [Action.ids]) ?_ ?_⟩
    · rw [hstep]
      exact .act (fun _ => rfl) rfl rfl
    · intro x hx
      rw [List.mem_singleton.1 hx]
      exact .reset h.1
    · rw [hstep]
    · rw [hstep]
      exact fun h => h
  · have hstep : a.step (.setControlling controlling) = a := by
      simp only [step, setControlling, if_neg h]
    refine ⟨[], [], unfolds_of_effect ?_ (by simp) (by simp) (by simp) ?_ ?_⟩
    · rw [hstep]
      exact .refl a
    · rw [hstep]
    · rw [hstep]
      exact fun h => h

/-- **How every event unfolds**: it acts on the checks by actions that it permits, may nominate, and
queues just the requests of these and the answers to what it hands in. -/
theorem step_unfolds (a : Agent) (e : Event) : ∃ xs ys, Unfolds a e xs ys := by
  have still : Effect a (a.step e) [] e.answers → (a.step e).selected = a.selected →
      ((a.step e).state = .completed → a.state = .completed) → ∃ xs ys, Unfolds a e xs ys :=
    fun h hselected hstate =>
      ⟨[], [], unfolds_of_effect h (by simp) (by simp) (by simp) hselected hstate⟩
  cases e with
  | start => exact start_unfolds ..
  | signal => exact signal_unfolds ..
  | datagram => exact datagram_unfolds ..
  | tick => exact tick_unfolds ..
  | setControlling => exact setControlling_unfolds ..
  | touch | takeSignals => exact still (.still rfl rfl) rfl fun h => h
  | takeDatagrams =>
    have silent : a.sent .takeDatagrams = [] := by simp [sent, step, clearDatagrams]
    refine ⟨[], [], rfl, ?_, ?_, by simp, by simp, .inl rfl, by simp, fun _ h => .inl h,
      fun h => .inl h⟩
    · rw [silent]
      rfl
    · rw [silent]
      rfl

end Agent
end Parley
