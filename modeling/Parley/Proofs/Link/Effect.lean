import Parley.Proofs.Link.Frame
import Parley.Proofs.Link.Traffic
/-!
What the operations of an agent do to its check list, and the binding messages that they queue.

`Effect` says that an agent acts on its check list by some actions, queues the requests that these
send and the given answers, and nothing else that is a binding message. Every operation has such an
effect, and effects compose.
-/
namespace Parley

open CheckList (Action)

namespace Agent

/-- From `a` to `b` an agent has acted on its check list by `xs` and queued the requests that these
send and the answers `answers`. -/
structure Effect (a b : Agent) (xs : List Action)
    (answers : List (SocketAddress × BindingResponse)) : Prop where
  checks : b.checks = a.checks.acts xs
  queued : ∃ ds, b.datagrams = a.datagrams ++ ds ∧ requestsIn ds = a.checks.requests xs ∧
    answersIn ds = answers

theorem Effect.trans {a b c : Agent} {xs ys : List Action}
    {rs ss : List (SocketAddress × BindingResponse)} (h : Effect a b xs rs)
    (h' : Effect b c ys ss) : Effect a c (xs ++ ys) (rs ++ ss) := by
  obtain ⟨ds, hds, hreq, hans⟩ := h.queued
  obtain ⟨es, hes, hreq', hans'⟩ := h'.queued
  refine ⟨?_, ds ++ es, ?_, ?_, ?_⟩
  · rw [h'.checks, h.checks, CheckList.acts_append]
  · rw [hes, hds, List.append_assoc]
  · rw [requestsIn_append, CheckList.requests_append, ← h.checks, hreq, hreq']
  · rw [answersIn_append, hans, hans']

/-- Neither the check list nor the queue has changed. -/
theorem Effect.still {a b : Agent} (hc : b.checks = a.checks) (hd : b.datagrams = a.datagrams) :
    Effect a b [] [] := ⟨hc, [], by simpa using hd, rfl, rfl⟩

theorem Effect.refl (a : Agent) : Effect a a [] [] := .still rfl rfl

/-- An action that sends nothing. -/
theorem Effect.act {a b : Agent} {x : Action} (hx : ∀ l, CheckList.sends l x = none)
    (hc : b.checks = a.checks.act x) (hd : b.datagrams = a.datagrams) : Effect a b [x] [] :=
  ⟨hc, [], by simpa using hd, (CheckList.requests_eq_nil (by simpa using hx)).symm, rfl⟩

/-- A datagram that is no binding message. -/
theorem Effect.other {a b : Agent} {d : SocketAddress} {octets : Bytes}
    (h : octets.head? ≠ some BindingMessage.tag) (hc : b.checks = a.checks)
    (hd : b.datagrams = a.datagrams ++ [(d, octets)]) : Effect a b [] [] :=
  ⟨hc, [(d, octets)], hd, by simp [requestsIn, requestIn?_eq_none h, CheckList.requests],
    by simp [answersIn, answerIn?_eq_none h]⟩

/-! ### What the operations do -/

/-- What settling does to the check list: nothing, or the controlling side nominates a pair. -/
def Settles (a b : Agent) (now : Nat) (id : TransactionId) : Prop :=
  Effect a b [] [] ∨ a.controlling = true ∧ ∃ i, Effect a b [.nominate i now id] []

theorem nominate_settles (a : Agent) (now : Nat) (id : TransactionId) :
    Settles a (a.nominate now id) now id := by
  unfold nominate
  split
  · rename_i hmay
    have hcontrolling : a.controlling = true := by
      simp only [mayNominate, Bool.and_eq_true] at hmay
      exact hmay.1.1
    split
    · exact .inl (.refl a)
    · rename_i best hbest
      split
      · rename_i checks request destination hnominate
        refine .inr ⟨hcontrolling, best, ?_,
          [(destination, (BindingMessage.request request).encode)], rfl, ?_, ?_⟩
        · simp [CheckList.acts, CheckList.act, hnominate, queueRequest, queue]
        · simp [requestsIn, CheckList.requests, CheckList.sends, hnominate]
        · simp [answersIn]
      · exact .inl (.refl a)
  · exact .inl (.refl a)

theorem Settles.framed {a b c d : Agent} {now : Nat} {id : TransactionId} (h : Settles b c now id)
    (hcontrolling : b.controlling = a.controlling) (first : Effect a b [] [])
    (last : Effect c d [] []) : Settles a d now id := by
  rcases h with h | ⟨hb, i, h⟩
  · exact .inl ((first.trans h).trans last)
  · exact .inr ⟨hcontrolling ▸ hb, i, (first.trans h).trans last⟩

theorem settle_settles (a : Agent) (now : Nat) (id : TransactionId) :
    Settles a (a.settle now id) now id :=
  (nominate_settles a.withdrawNomination now id).framed a.withdrawNomination_keeps.controlling
    (.still a.withdrawNomination_checks a.withdrawNomination_datagrams)
    (.still (complete_checks _ now) (complete_datagrams _ now))

theorem updateState_settles (a : Agent) (now : Nat) (id : TransactionId) :
    Settles a (a.updateState now id) now id := by
  unfold updateState
  split
  · split
    · refine (settle_settles _ now id).framed ?_ (.still ?_ ?_) (.refl _)
      · rw [(selectBest_keeps _ now).controlling]
      · rw [selectBest_checks]
      · rw [selectBest_datagrams]
    · split
      · exact .inl (.still rfl rfl)
      · exact .inl (.refl a)
  · split
    · exact .inl (.still rfl rfl)
    · exact (settle_settles _ now id).framed (a.selectBest_keeps now).controlling
        (.still (a.selectBest_checks now) (a.selectBest_datagrams now)) (.refl _)
  · exact .inl (.refl a)

theorem finishGathering_effect (a : Agent) : Effect a a.finishGathering [] [] :=
  .still a.finishGathering_checks a.finishGathering_datagrams

theorem start_effect {a : Agent} (h : a.state = .new) (now : Nat) (addresses : List SocketAddress)
    (includeLoopback : Bool) (stunServer : Option SocketAddress) (id : TransactionId) :
    Effect a (a.start now addresses includeLoopback stunServer id)
      [.start now, .pair (Candidate.gather addresses includeLoopback) a.theirs] [] := by
  unfold start
  rw [if_pos h]
  cases stunServer with
  | none =>
    refine ⟨?_, [], ?_, rfl, rfl⟩
    · simp only [finishGathering_checks, (finishGathering_keeps _).ours,
        (finishGathering_keeps _).theirs]
      rfl
    · simp [signal]
  | some server =>
    refine ⟨rfl, [(server, Stun.request id)], rfl, ?_, ?_⟩
    · simp [requestsIn, requestIn?_eq_none (stunRequest_head id), CheckList.requests,
        CheckList.sends]
    · simp [answersIn, answerIn?_eq_none (stunRequest_head id)]

theorem handleStun_effect (a : Agent) (datagram : Bytes) :
    ∃ xs, Effect a (a.handleStun datagram) xs [] ∧ ∀ x ∈ xs, ∃ c,
      x = .pair [c] a.theirs ∧ c ∈ (a.handleStun datagram).ours := by
  unfold handleStun
  split
  · exact ⟨[], .refl a, by simp⟩
  · split
    · exact ⟨[], .refl a, by simp⟩
    · rename_i mapped _
      cases a.reflexiveCandidate mapped with
      | none => exact ⟨[], a.finishGathering_effect, by simp⟩
      | some c =>
        have added : Effect a (a.addOurs c) [.pair [c] a.theirs] [] :=
          .act (fun _ => rfl) rfl rfl
        refine ⟨[.pair [c] a.theirs], added.trans (finishGathering_effect _), ?_⟩
        intro x hx
        refine ⟨c, List.mem_singleton.1 hx, ?_⟩
        rw [(finishGathering_keeps _).ours]
        simp [addOurs, signal]

theorem addTheirs_effect (a : Agent) (c : Candidate) :
    ∃ xs, Effect a (a.addTheirs c) xs [] ∧ ∀ x ∈ xs,
      x = .pair a.ours [c] ∧ c ∈ (a.addTheirs c).theirs := by
  unfold addTheirs
  split
  · exact ⟨[], .refl a, by simp⟩
  · simp only
    split
    · exact ⟨[], .still rfl rfl, by simp⟩
    · exact ⟨[.pair a.ours [c]], .act (fun _ => rfl) rfl rfl, by simp⟩

/-- Pairs formed from candidates that `b` knows. -/
def PairsOf (b : Agent) (x : Action) : Prop :=
  ∃ ours theirs, x = .pair ours theirs ∧ ours ⊆ b.ours ∧ theirs ⊆ b.theirs

theorem foldl_addTheirs_effect (cs : List Candidate) (a : Agent) :
    ∃ xs, Effect a (cs.foldl addTheirs a) xs [] ∧ ∀ x ∈ xs, PairsOf (cs.foldl addTheirs a) x := by
  induction cs generalizing a with
  | nil => exact ⟨[], .refl a, by simp⟩
  | cons c cs ih =>
    obtain ⟨xs, hxs, first⟩ := a.addTheirs_effect c
    obtain ⟨ys, hys, rest⟩ := ih (a.addTheirs c)
    have known := foldl_addTheirs_learns cs (a.addTheirs c)
    refine ⟨xs ++ ys, hxs.trans hys, fun x hx => ?_⟩
    rcases List.mem_append.1 hx with hx | hx
    · obtain ⟨rfl, hc⟩ := first x hx
      refine ⟨_, _, rfl, fun _ h => known.ours ((a.addTheirs_learns c).ours h), ?_⟩
      intro d hd
      rw [List.mem_singleton.1 hd]
      exact known.theirs hc
    · exact rest x hx

theorem Received.effect {a b : Agent} {kind : MessageKind} {data : String}
    (h : Received a kind data b) : ∃ xs, Effect a b xs [] ∧ ∀ x ∈ xs, PairsOf b x := by
  cases h with
  | description =>
    rename_i d _ _
    obtain ⟨xs, hxs, hpairs⟩ := foldl_addTheirs_effect d.candidates (a.adopt d.session)
    obtain ⟨hchecks, hdatagrams⟩ := a.adopt_checks d.session
    exact ⟨xs, (Effect.still hchecks hdatagrams).trans hxs, hpairs⟩
  | candidate _ _ hs =>
    rename_i n b _ _
    obtain ⟨xs, hxs, hpairs⟩ := foldl_addTheirs_effect [n.candidate] b
    have taken : Effect a b [] [] := by
      rw [takeSession_eq_none hs]
      exact .still rfl rfl
    exact ⟨xs, taken.trans hxs, hpairs⟩
  | ping => exact ⟨[], .refl a, by simp⟩
  | gatheringDone _ _ _ hs =>
    rw [takeSession_eq_none hs]
    exact ⟨[], .still rfl rfl, by simp⟩

/-- What a check from `source` does to the check list: the answering side may learn of the address,
schedules a check back, and notes a nomination. -/
inductive Checked (a b : Agent) (source : SocketAddress) (r : BindingRequest) : Action → Prop
  | learn {near far} : near ∈ b.ours → far ∈ b.theirs → far.address = source →
      near.address.isV4 = source.isV4 → Checked a b source r (.learn near far)
  | trigger {i} : Checked a b source r (.trigger i)
  | mark {i} : r.useCandidate = true → a.controlling = false → Checked a b source r (.mark i)

theorem learnTheirs_effect (a : Agent) (source : SocketAddress) (r : BindingRequest) :
    ∃ xs, Effect a (a.learnTheirs source r.priority) xs [] ∧
      ∀ x ∈ xs, Checked a (a.learnTheirs source r.priority) source r x := by
  unfold learnTheirs
  split
  · exact ⟨[], .refl a, by simp⟩
  · split
    · exact ⟨[], .refl a, by simp⟩
    · rename_i near hnear
      refine ⟨[.learn near _], .act (fun _ => rfl) rfl rfl, ?_⟩
      intro x hx
      rw [List.mem_singleton.1 hx]
      have same := List.find?_some hnear
      exact .learn (List.mem_of_find?_eq_some hnear) (by simp) rfl (by simpa using same)

theorem answerCheck_effect (a : Agent) (source : SocketAddress) (r : BindingRequest) :
    ∃ xs, Effect a (a.answerCheck source r.useCandidate) xs [] ∧
      ∀ x ∈ xs, Checked a (a.answerCheck source r.useCandidate) source r x := by
  unfold answerCheck
  split
  · exact ⟨[], .refl a, by simp⟩
  · rename_i index _
    simp only
    split
    · rename_i huse
      simp only [Bool.and_eq_true, Bool.not_eq_true'] at huse
      refine ⟨[.trigger index, .mark index], ⟨rfl, [], by simp, rfl, rfl⟩, ?_⟩
      intro x hx
      simp only [List.mem_cons, List.not_mem_nil, or_false] at hx
      rcases hx with rfl | rfl
      · exact .trigger
      · exact .mark huse.1 huse.2
    · exact ⟨[.trigger index], .act (fun _ => rfl) rfl rfl, by simpa using .trigger⟩

theorem Checked.weaken {a a' b b' : Agent} {source : SocketAddress} {r : BindingRequest}
    {x : Action} (h : Checked a' b source r x) (hcontrolling : a'.controlling = a.controlling)
    (hb : Learns b b') : Checked a b' source r x := by
  cases h with
  | learn hnear hfar haddress hv => exact .learn (hb.ours hnear) (hb.theirs hfar) haddress hv
  | trigger => exact .trigger
  | mark huse ha => exact .mark huse (hcontrolling ▸ ha)

/-- A check is answered first of all; what else it does depends on how far the agent has come. -/
theorem handleRequest_effect (a : Agent) (source : SocketAddress) (r : BindingRequest) :
    ∃ xs, Effect a (a.handleRequest source r) xs [(source, ⟨r.id, true, some source.plain⟩)] ∧
      ∀ x ∈ xs, Checked a (a.handleRequest source r) source r x := by
  have answered : Effect a (a.queue source (BindingMessage.response (.accept r.id source)).encode)
      [] [(source, ⟨r.id, true, some source.plain⟩)] := by
    refine ⟨rfl, _, rfl, ?_, ?_⟩
    · simp [requestsIn, CheckList.requests]
    · simp [answersIn, BindingResponse.accept]
  unfold handleRequest
  simp only
  split
  · exact ⟨[], answered, by simp⟩
  · obtain ⟨xs, hxs, learned⟩ := learnTheirs_effect
      (a.queue source (BindingMessage.response (.accept r.id source)).encode) source r
    obtain ⟨ys, hys, checked⟩ := answerCheck_effect
      (learnTheirs (a.queue source (BindingMessage.response (.accept r.id source)).encode) source
        r.priority) source r
    refine ⟨xs ++ ys, answered.trans (hxs.trans hys), fun x hx => ?_⟩
    rcases List.mem_append.1 hx with hx | hx
    · exact (learned x hx).weaken rfl (answerCheck_learns ..)
    · exact (checked x hx).weaken (learnTheirs_learns ..).controlling (.refl _)

theorem handleResponse_effect (a : Agent) (r : BindingResponse) :
    Effect a (a.handleResponse r) [.answer r] [] := .act (fun _ => rfl) rfl rfl

theorem handleKeepalive_effect (a : Agent) (source : SocketAddress) (isResponse : Bool)
    (sequence : UInt32) (now : Nat) :
    Effect a (a.handleKeepalive source isResponse sequence now) [] [] := by
  unfold handleKeepalive
  split
  · exact .still rfl rfl
  · exact .other (keepaliveResponse_head sequence) rfl rfl

/-- A check that arrives is taken, and the state follows. -/
theorem onDatagram_request {octets : Bytes} {r : BindingRequest}
    (h : BindingMessage.decode octets = .ok (.request r)) (a : Agent) (source : SocketAddress)
    (now : Nat) (id : TransactionId) : (a.onDatagram source octets now id).1 =
      (a.handleRequest source r).updateState now id := by
  simp [onDatagram, handleDatagram, classify_of_decode h, handleBinding, h]

theorem onDatagram_response {octets : Bytes} {r : BindingResponse}
    (h : BindingMessage.decode octets = .ok (.response r)) (a : Agent) (source : SocketAddress)
    (now : Nat) (id : TransactionId) : (a.onDatagram source octets now id).1 =
      (a.handleResponse r).updateState now id := by
  simp [onDatagram, handleDatagram, classify_of_decode h, handleBinding, h]

theorem tickQuery_effect (a : Agent) (now : Nat) : Effect a (a.tickQuery now) [] [] := by
  unfold tickQuery
  split
  · exact .refl a
  · split
    · exact a.finishGathering_effect
    · split
      · exact .other (stunRequest_head _) rfl rfl
      · exact .refl a

/-- The agent works through its check list. -/
def Active (a : Agent) : Prop := a.state = .checking ∨ a.state = .connected ∨ a.state = .completed

instance (a : Agent) : Decidable a.Active := inferInstanceAs (Decidable (_ ∨ _))

/-- What a tick does to the check list: checks run out of time, and the next one is sent. -/
def scheduled (a : Agent) (now : Nat) (id : TransactionId) : List Action :=
  if a.Active then [.expire now, .send now id] else []

theorem tickChecks_scheduled (a : Agent) (now : Nat) (id : TransactionId) :
    Effect a (a.tickChecks now id) (a.scheduled now id) [] := by
  unfold scheduled
  split
  · rename_i active
    rw [tickChecks_of_active active]
    rcases hnext : (a.checks.handleTimeouts now).nextRequest now id with ⟨checks, check⟩
    cases check with
    | none =>
      refine ⟨?_, [], by simp, ?_, rfl⟩
      · simp [CheckList.acts, CheckList.act, hnext]
      · simp [requestsIn, CheckList.requests, CheckList.sends, CheckList.act, hnext]
    | some check =>
      refine ⟨?_, [(check.destination, (BindingMessage.request check.request).encode)], rfl, ?_, ?_⟩
      · simp [CheckList.acts, CheckList.act, hnext, queueRequest, queue]
      · simp [requestsIn, CheckList.requests, CheckList.sends, CheckList.act, hnext]
      · simp [answersIn]
  · rename_i inactive
    rw [tickChecks_of_inactive inactive]
    exact .refl a

theorem tickChecks_effect (a : Agent) (now : Nat) (id : TransactionId) :
    Effect a (a.tickChecks now id) [] [] ∨
      Effect a (a.tickChecks now id) [.expire now, .send now id] [] := by
  have scheduled := a.tickChecks_scheduled now id
  unfold Agent.scheduled at scheduled
  split at scheduled
  · exact .inr scheduled
  · exact .inl scheduled

theorem tickKeepalive_effect (a : Agent) (now : Nat) : Effect a (a.tickKeepalive now) [] [] := by
  unfold tickKeepalive
  split
  · exact .refl a
  · split
    · exact .still rfl rfl
    · split
      · rename_i hpoll
        unfold Keepalive.poll at hpoll
        split at hpoll
        · cases hpoll
        · cases hpoll
          exact .other (keepaliveRequest_head _) rfl rfl
      · exact .still rfl rfl

/-- A tick does what is scheduled, and then the controlling side may nominate a pair. -/
theorem tick_effect (a : Agent) (now : Nat) (checkId id : TransactionId) :
    ∃ ys, Effect a (a.tick now checkId id) (a.scheduled now checkId ++ ys) [] ∧
      (ys = [] ∨ a.controlling = true ∧ ∃ i, ys = [.nominate i now id]) := by
  have learns := a.tickQuery_learns now
  have keeps := (tickChecks_keeps (a.tickQuery now) now checkId).trans (tickKeepalive_keeps _ now)
  have same : (a.tickQuery now).scheduled now checkId = a.scheduled now checkId := by
    have active : (a.tickQuery now).Active ↔ a.Active := by
      unfold Active
      rw [learns.state]
    simp only [scheduled, active]
  have before : Effect a (((a.tickQuery now).tickChecks now checkId).tickKeepalive now)
      (a.scheduled now checkId) [] := by
    have checks := (a.tickQuery now).tickChecks_scheduled now checkId
    rw [same] at checks
    simpa using (a.tickQuery_effect now).trans (checks.trans (tickKeepalive_effect _ now))
  rcases updateState_settles (((a.tickQuery now).tickChecks now checkId).tickKeepalive now) now
    id with rests | ⟨hcontrolling, i, nominates⟩
  · exact ⟨[], before.trans rests, .inl rfl⟩
  · rw [keeps.controlling, learns.controlling] at hcontrolling
    exact ⟨_, before.trans nominates, .inr ⟨hcontrolling, i, rfl⟩⟩

end Agent
end Parley
