import Parley.Proofs.Link.Sharing
/-!
Nominations, at the two ends.

On the controlling side a request goes out again as it was, so that whether it nominates its pair can
be told from its identifier alone, and a nominated pair works only when that identifier has come back
(`Nominating`). On the other side a nominating check is noted if the agent still goes on, and just
answered if it has come to its end (`step_marks`, `step_of_terminal`).
-/
namespace Parley
open CheckList (Action)

namespace CheckList

/-- The list of a controlling side that has sent the requests `rs`, with identifiers among `used`.
Those with one identifier agree on whether they nominate, and agree on it with the check that is
under way; and of a nominated pair that works `C` holds for the identifier of such a request. -/
structure Nominating (C : TransactionId → Prop) (used : List TransactionId) (l : CheckList)
    (rs : List (SocketAddress × BindingRequest)) : Prop where
  known : ∀ q ∈ rs, q.2.id ∈ used
  agree : ∀ q ∈ rs, ∀ q' ∈ rs, q.2.id = q'.2.id → q.2.useCandidate = q'.2.useCandidate
  asked : ∀ p ∈ l.pairs, p.state = .inProgress →
    ∃ q ∈ rs, p.transaction = some q.2.id ∧ q.2.useCandidate = p.nominated
  confirmed : ∀ p ∈ l.pairs, p.state = .succeeded → p.nominated = true →
    ∃ q ∈ rs, q.2.useCandidate = true ∧ C q.2.id

theorem Nominating.mono {C D : TransactionId → Prop} {used used' : List TransactionId}
    {l : CheckList} {rs : List (SocketAddress × BindingRequest)} (h : Nominating C used l rs)
    (hcd : ∀ id, C id → D id) (hused : used ⊆ used') : Nominating D used' l rs where
  known := fun q hq => hused (h.known q hq)
  agree := h.agree
  asked := h.asked
  confirmed := fun p hp hstate hmark =>
    have ⟨q, hq, huse, hc⟩ := h.confirmed p hp hstate hmark
    ⟨q, hq, huse, hcd _ hc⟩

/-- A request that is sent begins a check, with a new identifier, or is that of a check under way. -/
theorem sends_known {l : CheckList} {x : Action} {d : SocketAddress} {r : BindingRequest}
    (h : l.sends x = some (d, r)) : r.id ∈ x.ids ∨ ∃ p ∈ l.pairs, p.state = .inProgress ∧
      p.transaction = some r.id ∧ r.useCandidate = p.nominated := by
  obtain ⟨p, hp, -, ⟨now, id, rfl, rfl, -⟩ | ⟨now, id, t, rfl, ht, due, rfl⟩ |
    ⟨i, now, id, rfl, -, rfl⟩⟩ := sends_eq_some h
  · exact .inl (List.mem_singleton.2 rfl)
  · simp only [Pair.needsRetransmit, Bool.and_eq_true, beq_iff_eq] at due
    exact .inr ⟨p, hp, due.1.1, ht, rfl⟩
  · exact .inl (List.mem_singleton.2 rfl)

section Act
variable {C : TransactionId → Prop} {used : List TransactionId} {l : CheckList}
  {rs : List (SocketAddress × BindingRequest)} {x : Action}

/-- A request that is sent agrees with those before it. -/
theorem Nominating.sends (h : Nominating C used l rs) (fresh : ∀ id ∈ x.ids, id ∉ used)
    {d : SocketAddress} {r : BindingRequest} (hr : l.sends x = some (d, r)) :
    r.id ∈ used ++ x.ids ∧ ∀ q ∈ rs, q.2.id = r.id → q.2.useCandidate = r.useCandidate := by
  rcases sends_known hr with hid | ⟨p, hp, hstate, ht, huse⟩
  · exact ⟨List.mem_append_right _ hid,
      fun q hq heq => absurd (heq ▸ h.known q hq) (fresh r.id hid)⟩
  · obtain ⟨q, hq, hid, hmark⟩ := h.asked p hp hstate
    have same : r.id = q.2.id := Option.some.inj (ht.symm.trans hid)
    refine ⟨List.mem_append_left _ (same ▸ h.known q hq), fun q' hq' heq => ?_⟩
    rw [huse, ← hmark]
    exact h.agree q' hq' q hq (heq.trans same)

/-- An action of the controlling side, which marks no pair. -/
theorem Nominating.act (h : Nominating C used l rs) (hmark : ∀ i, x ≠ .mark i)
    (fresh : ∀ id ∈ x.ids, id ∉ used) (answered : ∀ r, x = .answer r → C r.id) :
    Nominating C (used ++ x.ids) (l.act x) (rs ++ (l.sends x).toList) := by
  have stays : ∀ {p q}, Stays x p q → q = p := by
    rintro p q (rfl | ⟨⟨i, hi⟩, -⟩)
    · rfl
    · exact absurd hi (hmark i)
  have sent : ∀ q, q ∈ (l.sends x).toList → l.sends x = some q := fun q => Option.mem_toList.1
  refine ⟨fun q hq => ?_, fun q hq q' hq' heq => ?_, fun q hq hstate => ?_,
    fun q hq hstate hnominated => ?_⟩
  · rcases List.mem_append.1 hq with hq | hq
    · exact List.mem_append_left _ (h.known q hq)
    · exact (h.sends fresh (sent q hq)).1
  · rcases List.mem_append.1 hq with hq | hq <;> rcases List.mem_append.1 hq' with hq' | hq'
    · exact h.agree q hq q' hq' heq
    · exact (h.sends fresh (sent q' hq')).2 q hq heq
    · exact ((h.sends fresh (sent q hq)).2 q' hq' heq.symm).symm
    · obtain rfl : q = q' := Option.some.inj ((sent q hq).symm.trans (sent q' hq'))
      rfl
  · obtain ⟨p, hp, -, ⟨hbefore, hstays⟩ | ⟨r, hsends, ht, huse⟩⟩ := act_inProgress hq hstate
    · obtain rfl := stays hstays
      obtain ⟨r, hr, ht, huse⟩ := h.asked q hp hbefore
      exact ⟨r, List.mem_append_left _ hr, ht, huse⟩
    · exact ⟨_, List.mem_append_right _ (Option.mem_toList.2 hsends), ht, huse.symm⟩
  · obtain ⟨p, hp, -, ⟨hbefore, hstays⟩ | ⟨r, rfl, -, hawaits, rfl⟩⟩ := act_succeeded hq hstate
    · obtain rfl := stays hstays
      obtain ⟨r, hr, huse, hc⟩ := h.confirmed q hp hbefore hnominated
      exact ⟨r, List.mem_append_left _ hr, huse, hc⟩
    · -- The answer is for the request of the pair's check, which nominates it.
      simp only [Pair.awaits, Bool.and_eq_true, beq_iff_eq] at hawaits
      obtain ⟨s, hs, ht, huse⟩ := h.asked p hp hawaits.1
      have hid : r.id = s.2.id := Option.some.inj (hawaits.2.symm.trans ht)
      exact ⟨s, List.mem_append_left _ hs, huse.trans hnominated, hid ▸ answered r rfl⟩

/-- A series of actions, with identifiers of which none is used twice. -/
theorem Nominating.acts {xs : List Action} (h : Nominating C used l rs)
    (hmark : ∀ x ∈ xs, ∀ i, x ≠ .mark i) (fresh : (used ++ xs.flatMap Action.ids).Nodup)
    (answered : ∀ r, .answer r ∈ xs → C r.id) :
    Nominating C (used ++ xs.flatMap Action.ids) (l.acts xs) (rs ++ l.requests xs) := by
  induction xs generalizing used l rs with
  | nil => simpa [CheckList.acts, requests] using h
  | cons x xs ih =>
    rw [List.flatMap_cons, ← List.append_assoc] at fresh
    have unused : ∀ id ∈ x.ids, id ∉ used := by
      intro id hid hused
      have differ := (List.nodup_append.1 (List.nodup_append.1 fresh).1).2.2
      exact differ id hused id hid rfl
    have first := h.act (hmark x (List.mem_cons_self ..)) unused
      fun r hr => answered r (hr ▸ List.mem_cons_self ..)
    have rest := ih first (fun y hy => hmark y (List.mem_cons_of_mem _ hy)) fresh
      fun r hr => answered r (List.mem_cons_of_mem _ hr)
    rwa [List.append_assoc, List.append_assoc] at rest

end Act

/-- After actions that neither mark nor nominate a pair, a nominated pair is one that was. -/
theorem acts_nominated {l : CheckList} {xs : List Action}
    (h : ∀ x ∈ xs, (∀ i, x ≠ .mark i) ∧ ∀ i now id, x ≠ .nominate i now id) {q : Pair}
    (hq : q ∈ (l.acts xs).pairs) (hmark : q.nominated = true) :
    ∃ p ∈ l.pairs, p.nominated = true ∧ p.remote = q.remote := by
  induction xs generalizing l with
  | nil => exact ⟨q, hq, hmark, rfl⟩
  | cons x xs ih =>
    obtain ⟨p, hp, hbefore, hremote⟩ := ih (fun y hy => h y (List.mem_cons_of_mem _ hy)) hq
    obtain ⟨unmarked, unsettled⟩ := h x (List.mem_cons_self ..)
    rcases act_nominated hp hbefore with ⟨p', hp', hfirst, hremote'⟩ | ⟨i, _, hmarks, -⟩ |
      ⟨i, now, id, hnominates⟩
    · exact ⟨p', hp', hfirst, hremote'.trans hremote⟩
    · exact absurd hmarks (unmarked i)
    · exact absurd hnominates (unsettled i now id)

end CheckList

namespace Agent

/-! ### Taking a nominating check -/

/-- After a check from an address there is a pair for it, if there may be one. -/
theorem learnTheirs_finds {a : Agent} {source : SocketAddress} (h : a.Covers source)
    (priority : UInt32) :
    ∃ index, (a.learnTheirs source priority).checks.findByRemote source = some index := by
  unfold learnTheirs
  split
  · rename_i index hfound
    exact ⟨index, hfound⟩
  · rename_i hmissing
    split
    · rename_i hnone
      obtain ⟨c, hc, hv⟩ := h
      exact absurd (List.find?_eq_none.1 hnone c hc) (by simpa using hv)
    · rename_i near _
      have added : { Pair.new near { Candidate.peerReflexive source with priority }
          a.checks.controlling with state := .waiting } ∈ (a.checks.addPeerReflexive near
            { Candidate.peerReflexive source with priority }).pairs := by
        have missing : a.checks.findByRemote
            { Candidate.peerReflexive source with priority }.address = none := hmissing
        simp only [CheckList.addPeerReflexive, missing, (CheckList.sortPairs_perm _).mem_iff]
        exact List.mem_append_right _ (List.mem_singleton.2 rfl)
      exact CheckList.findByRemote_isSome added

theorem answerCheck_marks {a : Agent} {source : SocketAddress} {index : Nat}
    (h : a.checks.findByRemote source = some index) (hrole : a.controlling = false) :
    ∃ p ∈ (a.answerCheck source true).checks.pairs, p.remote = source ∧ p.nominated = true := by
  obtain ⟨p, hp, hremote⟩ := CheckList.findByRemote_eq_some h
  refine ⟨{ p.trigger with nominated := true }, ?_, p.trigger_remote.trans hremote, rfl⟩
  simp only [answerCheck, h, hrole, Bool.not_false, Bool.and_true, if_true,
    CheckList.markNominated, CheckList.trigger, CheckList.modify]
  refine List.mem_of_getElem? (i := index) ?_
  simp [List.getElem?_modify_eq, hp]

theorem updateState_checks {a : Agent} (h : a.controlling = false) (now : Nat)
    (id : TransactionId) : (a.updateState now id).checks = a.checks := by
  rcases updateState_settles a now id with settled | ⟨hcontrolling, -⟩
  · exact settled.checks
  · rw [h] at hcontrolling
    cases hcontrolling

/-- **A nominating check is noted** by a controlled agent that goes on, if it can have a pair for
where the check comes from. -/
theorem step_marks {a : Agent} {octets : Bytes} {r : BindingRequest} {source : SocketAddress}
    (h : BindingMessage.decode octets = .ok (.request r)) (huse : r.useCandidate = true)
    (hrole : a.controlling = false) (hstarted : a.state ≠ .new) (hgoes : a.state.isTerminal = false)
    (hcovers : a.Covers source) (now : Nat) (id : TransactionId) :
    ∃ p ∈ (a.step (.datagram source octets now id)).checks.pairs,
      p.remote = source ∧ p.nominated = true := by
  have role : (a.handleRequest source r).controlling = false :=
    (a.handleRequest_learns source r).controlling.trans hrole
  rw [step, onDatagram_request h, updateState_checks role]
  have goes : ¬(a.state = .new ∨ a.state.isTerminal = true) := by simp [hstarted, hgoes]
  have handled : a.handleRequest source r =
      ((a.queue source (BindingMessage.response (.accept r.id source)).encode).learnTheirs source
        r.priority).answerCheck source r.useCandidate := if_neg goes
  have known : (a.queue source (BindingMessage.response (.accept r.id source)).encode).Covers
      source := hcovers
  obtain ⟨index, hfound⟩ := learnTheirs_finds known r.priority
  rw [handled, huse]
  exact answerCheck_marks hfound ((learnTheirs_learns ..).controlling.trans hrole)

/-- The agent has nominated a pair with an address. -/
def Nominated (a : Agent) (address : SocketAddress) : Prop :=
  ∃ p ∈ a.checks.pairs, p.nominated = true ∧ p.remote = address

theorem learnTheirs_nominated {a : Agent} {source address : SocketAddress} {priority : UInt32}
    (h : (a.learnTheirs source priority).Nominated address) : a.Nominated address := by
  unfold learnTheirs at h
  split at h
  · exact h
  · split at h
    · exact h
    · rename_i near _
      obtain ⟨p, hp, hmark, rfl⟩ := h
      rcases CheckList.act_nominated (x := .learn near _) hp hmark with hbefore | ⟨_, _, hx, -⟩ |
        ⟨_, _, _, hx⟩
      · exact hbefore
      · cases hx
      · cases hx

theorem answerCheck_nominated {a : Agent} {source address : SocketAddress} {useCandidate : Bool}
    (h : (a.answerCheck source useCandidate).Nominated address) :
    a.Nominated address ∨ useCandidate = true ∧ source = address := by
  unfold answerCheck at h
  split at h
  · exact .inl h
  · rename_i index hfound
    have triggered : ∀ p ∈ (a.checks.trigger index).pairs, p.nominated = true →
        a.Nominated p.remote := by
      intro p hp hmark
      rcases CheckList.act_nominated (x := .trigger index) hp hmark with hbefore | ⟨_, _, hx, -⟩ |
        ⟨_, _, _, hx⟩
      · exact hbefore
      · cases hx
      · cases hx
    simp only at h
    split at h
    · rename_i huse
      simp only [Bool.and_eq_true] at huse
      obtain ⟨p, hp, hmark, rfl⟩ := h
      rcases CheckList.act_nominated (x := .mark index) hp hmark with ⟨q, hq, hbefore, hremote⟩ |
        ⟨i, q, hx, hi, hremote⟩ | ⟨_, _, _, hx⟩
      · exact .inl (hremote ▸ triggered q hq hbefore)
      · -- The pair that is marked is the one that was found for where the check comes from.
        cases hx
        obtain ⟨p', hp', hsource⟩ := CheckList.findByRemote_eq_some hfound
        have same : q = p'.trigger := by
          simpa [CheckList.trigger, CheckList.modify, List.getElem?_modify_eq, hp'] using hi.symm
        refine .inr ⟨huse.1, ?_⟩
        rw [← hremote, same, p'.trigger_remote, hsource]
      · cases hx
    · obtain ⟨p, hp, hmark, rfl⟩ := h
      exact .inl (triggered p hp hmark)

/-- A check makes the agent nominate at most where it comes from. -/
theorem handleRequest_nominated {a : Agent} {source address : SocketAddress} {r : BindingRequest}
    (h : (a.handleRequest source r).Nominated address) :
    a.Nominated address ∨ r.useCandidate = true ∧ source = address := by
  unfold handleRequest at h
  simp only at h
  split at h
  · exact .inl h
  · exact (answerCheck_nominated h).imp_left fun hlearned =>
      learnTheirs_nominated (a := a.queue source _) hlearned

/-- **What a controlled agent nominates** is where a nominating check comes from. -/
theorem step_nominated {a : Agent} (hrole : a.controlling = false) {e : Event}
    {address : SocketAddress} (h : (a.step e).Nominated address) : a.Nominated address ∨
      ∃ r, e.request? = some (address, r) ∧ r.useCandidate = true := by
  cases hr : e.request? with
  | some q =>
    obtain ⟨source, r⟩ := q
    cases e with
    | datagram source' octets now id =>
      obtain ⟨rfl, hdecode⟩ := requestIn?_eq_some hr
      have role : (a.handleRequest source r).controlling = false :=
        (a.handleRequest_learns source r).controlling.trans hrole
      rw [Nominated, step, onDatagram_request hdecode, updateState_checks role] at h
      rcases handleRequest_nominated h with hbefore | ⟨huse, rfl⟩
      · exact .inl hbefore
      · exact .inr ⟨r, rfl, huse⟩
    | _ => cases hr
  | none =>
    left
    obtain ⟨xs, ys, unfolds⟩ := step_unfolds a e
    have quiet : ys = [] := by
      rcases unfolds.nominates with hnone | ⟨hcontrolling, -⟩
      · exact hnone
      · rw [hrole] at hcontrolling
        cases hcontrolling
    have unmarked : ∀ x ∈ xs, (∀ i, x ≠ .mark i) ∧ ∀ i now id, x ≠ .nominate i now id := by
      intro x hx
      cases unfolds.permits x hx with
      | pair hpair =>
        obtain ⟨_, _, rfl, -⟩ := hpair
        simp
      | check hrequest => simp [hr] at hrequest
      | _ => simp
    rw [Nominated, unfolds.checks, quiet] at h
    obtain ⟨p, hp, hmark, rfl⟩ := h
    exact CheckList.acts_nominated unmarked hp hmark

/-- Queueing a datagram leaves nothing behind once it is taken. -/
theorem cleared {a : Agent} (hdatagrams : a.datagrams = []) (hsignals : a.signals = [])
    (destination : SocketAddress) (octets : Bytes) :
    (a.queue destination octets).clearDatagrams.clearSignals = a := by
  cases a
  simp_all [queue, clearDatagrams, clearSignals]

/-- An agent at its end does nothing about a check but answer it. -/
theorem step_of_terminal {a : Agent} {octets : Bytes} {r : BindingRequest}
    (h : BindingMessage.decode octets = .ok (.request r)) (hend : a.state.isTerminal = true)
    (source : SocketAddress) (now : Nat) (id : TransactionId) :
    a.step (.datagram source octets now id) =
      a.queue source (BindingMessage.response (.accept r.id source)).encode := by
  have handled : a.handleRequest source r =
      a.queue source (BindingMessage.response (.accept r.id source)).encode := if_pos (.inr hend)
  rw [step, onDatagram_request h, handled]
  refine updateState_rests ?_ ?_ now id <;> intro hstate
  · rw [show a.state = .checking from hstate] at hend
    cases hend
  · rw [show a.state = .connected from hstate] at hend
    cases hend

end Agent
end Parley
