import Parley.Proofs.Link.CheckList.Form
import Mathlib.Algebra.GroupWithZero.Nat
import Mathlib.Algebra.Order.BigOperators.Group.List
import Mathlib.Algebra.Order.Group.Nat
import Mathlib.Data.List.Induction
/-!
Checking a peer that never answers.

A `Round` is one turn of the clock: the checks whose time is over are given up, and the next request
is asked for. `checking_exhausts` says where rounds that are `pace` apart lead while nothing else
happens: every pair is sent at least one request, in all there are at most five for each pair, a
check is under way after every round until all are over, and with `n` pairs all have failed after
`250 n + 1` rounds.

Two measures carry this. A request takes one from what may still be sent (`budget`). And the number
of pairs whose check has not begun (`idle`) falls at the latest when nothing is under way, which is
so 250 rounds after it fell last, because a check is over after five seconds.
-/
namespace Parley
namespace Pair

/-- Whether the check of a pair has not begun. -/
def isIdle (p : Pair) : Bool := p.state == .frozen || p.state == .waiting

/-- How many requests may still be sent for a pair, as long as its check does not begin anew. -/
def budget (p : Pair) : Nat :=
  match p.state with
  | .frozen | .waiting => maxSends
  | .inProgress => maxSends - p.sends
  | .succeeded | .failed => 0

theorem isIdle_iff {p : Pair} : p.isIdle = true ↔ p.state = .frozen ∨ p.state = .waiting := by
  simp [isIdle]

theorem budget_idle {p : Pair} (h : p.isIdle = true) : p.budget = maxSends := by
  rcases isIdle_iff.1 h with h | h <;> simp [budget, h]

theorem inProgress_of_timedOut {p : Pair} {now : Nat} (h : p.isTimedOut now = true) :
    p.state = .inProgress := by
  simp only [isTimedOut, Bool.and_eq_true, beq_iff_eq] at h
  exact h.1

/-- A check is over after `checkTimeout`. -/
theorem timedOut_of_first {p : Pair} {first now : Nat} (hstate : p.state = .inProgress)
    (hfirst : p.firstSent = some first) (hnow : first + checkTimeout ≤ now) :
    p.isTimedOut now = true := by
  have late : checkTimeout ≤ now - first := by omega
  simp [isTimedOut, hstate, hfirst, late]

/-- Giving up a check begins none. -/
theorem isIdle_expire (p : Pair) (now : Nat) : (p.expire now).isIdle = p.isIdle := by
  unfold expire
  split
  · rename_i h
    rw [isIdle, isIdle, inProgress_of_timedOut h]
    rfl
  · rfl

/-- A check that is still under way has not been given up. -/
theorem expire_live {p : Pair} {now : Nat} (h : (p.expire now).state = .inProgress) :
    p.isTimedOut now = false ∧ p.expire now = p := by
  unfold expire at h ⊢
  by_cases late : p.isTimedOut now = true
  · rw [if_pos late] at h
    cases h
  · exact ⟨Bool.eq_false_iff.2 late, if_neg late⟩

theorem budget_expire (p : Pair) (now : Nat) : (p.expire now).budget ≤ p.budget := by
  unfold expire
  split
  · exact Nat.zero_le _
  · exact Nat.le_refl _

end Pair

namespace CheckList

/-! ### Turns -/

section Turn
variable {pairs : List Pair} {now : Nat} {id : TransactionId} {p q : Pair} {r : BindingRequest}

theorem Turn.inProgress (h : Turn pairs now id p q r) : q.state = .inProgress := by
  cases h with
  | resent due =>
    simp only [Pair.needsRetransmit, Bool.and_eq_true, beq_iff_eq] at due
    exact due.1.1
  | waiting | frozen => rfl

/-- Every request counts. -/
theorem Turn.budget (h : Turn pairs now id p q r) : q.budget + 1 ≤ p.budget := by
  cases h with
  | resent due =>
    simp only [Pair.needsRetransmit, Bool.and_eq_true, beq_iff_eq, decide_eq_true_eq] at due
    obtain ⟨⟨hstate, hsends⟩, -⟩ := due
    simp only [Pair.budget, hstate]
    omega
  | waiting hstate => simp [Pair.budget, Pair.startCheck, hstate, Pair.maxSends]
  | frozen hstate => simp [Pair.budget, Pair.startCheck, hstate, Pair.maxSends]

/-- A request begins the check of an idle pair, or it is sent again and the check goes on. -/
theorem Turn.begins (h : Turn pairs now id p q r) :
    p.isIdle = true ∨ p.state = .inProgress ∧ q.firstSent = p.firstSent := by
  cases h with
  | resent due =>
    simp only [Pair.needsRetransmit, Bool.and_eq_true, beq_iff_eq] at due
    exact .inr ⟨due.1.1, rfl⟩
  | waiting hstate => exact .inl (Pair.isIdle_iff.2 (.inr hstate))
  | frozen hstate => exact .inl (Pair.isIdle_iff.2 (.inl hstate))

end Turn

/-- No pair has its turn when none waits, and those that are held back are kept so by a check that
is under way. -/
theorem schedule_eq_none {pairs : List Pair} {now : Nat} {id : TransactionId}
    (h : schedule pairs now id = none) : (∀ p ∈ pairs, p.state ≠ .waiting) ∧
      ((∃ p ∈ pairs, p.state = .inProgress) ∨ ∀ p ∈ pairs, p.state ≠ .frozen) := by
  unfold schedule at h
  split at h
  · cases h
  · split at h
    · cases h
    · rename_i hwaiting
      have nobody := updateFirst_eq_none.1 hwaiting
      refine ⟨fun p hp => startIn_eq_none.1 (nobody p hp), ?_⟩
      split at h
      · rename_i hbusy
        obtain ⟨p, hp, hstate⟩ := List.any_eq_true.1 hbusy
        exact .inl ⟨p, hp, beq_iff_eq.1 hstate⟩
      · exact .inr fun p hp => startIn_eq_none.1 (updateFirst_eq_none.1 h p hp)

/-! ### Rounds -/

/-- One turn of the clock: the time, and the identifier of a check that begins in it. -/
structure Round where
  now : Nat
  id : TransactionId

/-- Gives up the checks whose time is over, and asks for the next request. -/
def round (l : CheckList) (r : Round) : CheckList × Option Check :=
  (l.handleTimeouts r.now).nextRequest r.now r.id

/-- The list after some rounds. -/
def rounds (l : CheckList) (rs : List Round) : CheckList := rs.foldl (fun l r => (l.round r).1) l

/-- The requests that some rounds send, in order. -/
def requested (l : CheckList) : List Round → List Check
  | [] => []
  | r :: rs => (l.round r).2.toList ++ (l.round r).1.requested rs

/-- Rounds in the order of their times, any two at least `pace` apart. -/
def Spaced (rs : List Round) : Prop := rs.Pairwise fun a b => a.now + pace ≤ b.now

/-- How many pairs there are whose check has not begun. -/
def idle (l : CheckList) : Nat := l.pairs.countP Pair.isIdle

/-- How many requests may still be sent. -/
def budget (l : CheckList) : Nat := (l.pairs.map Pair.budget).sum

theorem rounds_append (l : CheckList) (rs ss : List Round) :
    l.rounds (rs ++ ss) = (l.rounds rs).rounds ss := List.foldl_append

theorem rounds_concat (l : CheckList) (rs : List Round) (r : Round) :
    l.rounds (rs ++ [r]) = ((l.rounds rs).round r).1 := rounds_append l rs [r]

theorem requested_append (l : CheckList) (rs ss : List Round) :
    l.requested (rs ++ ss) = l.requested rs ++ (l.rounds rs).requested ss := by
  induction rs generalizing l with
  | nil => rfl
  | cons r rs ih =>
    rw [List.cons_append, requested, requested, ih, List.append_assoc]
    rfl

/-- A round is two actions. -/
theorem round_fst (l : CheckList) (r : Round) :
    (l.round r).1 = (l.act (.expire r.now)).act (.send r.now r.id) := rfl

theorem round_remotes (l : CheckList) (r : Round) : (l.round r).1.remotes = l.remotes := by
  rw [round_fst, act_remotes _ (x := .send r.now r.id) trivial,
    act_remotes _ (x := .expire r.now) trivial]

theorem rounds_remotes (l : CheckList) (rs : List Round) : (l.rounds rs).remotes = l.remotes := by
  induction rs generalizing l with
  | nil => rfl
  | cons r rs ih => exact (ih _).trans (l.round_remotes r)

/-- What a round comes to: a pair has its turn, or there is none to have it. -/
theorem round_cases {l : CheckList} {r : Round} (may : l.mayCheck r.now = true) :
    (∃ front p q back request, l.pairs.map (·.expire r.now) = front ++ p :: back ∧
      Turn (l.pairs.map (·.expire r.now)) r.now r.id p q request ∧
      l.round r = ({ l with pairs := front ++ q :: back, lastCheck := some r.now },
        some ⟨front.length, request, p.remote⟩)) ∨
    l.round r = (l.handleTimeouts r.now, none) ∧
      (∀ p ∈ l.pairs.map (·.expire r.now), p.state ≠ .waiting) ∧
      ((∃ p ∈ l.pairs.map (·.expire r.now), p.state = .inProgress) ∨
        ∀ p ∈ l.pairs.map (·.expire r.now), p.state ≠ .frozen) := by
  have may' : (l.handleTimeouts r.now).mayCheck r.now = true := may
  unfold round nextRequest
  rw [if_pos may']
  split
  · rename_i pairs i request d hnext
    obtain ⟨front, p, q, back, hl, rfl, rfl, rfl, turn⟩ := schedule_eq_some hnext
    exact .inl ⟨front, p, q, back, request, hl, turn, rfl⟩
  · rename_i hnone
    exact .inr ⟨rfl, schedule_eq_none hnone⟩

/-! ### Requests are few -/

theorem budget_middle (front back : List Pair) (p : Pair) :
    ((front ++ p :: back).map Pair.budget).sum =
      (front.map Pair.budget).sum + p.budget + (back.map Pair.budget).sum := by
  rw [List.map_append, List.map_cons, List.sum_append, List.sum_cons, Nat.add_assoc]

theorem budget_handleTimeouts (l : CheckList) (now : Nat) :
    (l.handleTimeouts now).budget ≤ l.budget := by
  simp only [budget, handleTimeouts, List.map_map]
  exact List.sum_le_sum fun p _ => p.budget_expire now

/-- A request that a round sends is one less to be sent. -/
theorem budget_round (l : CheckList) (r : Round) :
    (l.round r).1.budget + (l.round r).2.toList.length ≤ l.budget := by
  have expired := l.budget_handleTimeouts r.now
  rcases nextRequest_cases (l.handleTimeouts r.now) r.now r.id with
    h | ⟨front, p, q, back, request, hl, -, turn, h⟩
  · rw [round, h]
    exact expired
  · have spent := turn.budget
    rw [budget, hl, budget_middle] at expired
    rw [round, h]
    simp only [budget, budget_middle, Option.toList_some, List.length_singleton] at expired ⊢
    omega

theorem budget_rounds (l : CheckList) (rs : List Round) :
    (l.rounds rs).budget + (l.requested rs).length ≤ l.budget := by
  induction rs generalizing l with
  | nil => exact Nat.le_refl _
  | cons r rs ih =>
    have first := l.budget_round r
    have rest := ih (l.round r).1
    show ((l.round r).1.rounds rs).budget +
      ((l.round r).2.toList ++ (l.round r).1.requested rs).length ≤ l.budget
    rw [List.length_append]
    omega

/-! ### No pair is passed over -/

/-- A pair whose check has begun is one whose check had, or one that the round sends a request
for. -/
theorem round_begun {l : CheckList} {r : Round} {i : Nat} {q : Pair}
    (h : (l.round r).1.pairs[i]? = some q) (hq : q.isIdle = false) :
    (∃ p, l.pairs[i]? = some p ∧ p.isIdle = false ∧ p.remote = q.remote) ∨
      ∃ c, (l.round r).2 = some c ∧ c.index = i ∧ c.destination = q.remote := by
  -- Giving up checks leaves every pair where it is, as idle as it was.
  have back : ∀ p, (l.handleTimeouts r.now).pairs[i]? = some p → p.isIdle = false →
      ∃ p', l.pairs[i]? = some p' ∧ p'.isIdle = false ∧ p'.remote = p.remote := by
    intro p hp hidle
    obtain ⟨p', hp', rfl⟩ := Option.map_eq_some_iff.1 (List.getElem?_map .. ▸ hp)
    refine ⟨p', hp', p'.isIdle_expire r.now ▸ hidle, ?_⟩
    unfold Pair.expire
    split <;> rfl
  rcases nextRequest_cases (l.handleTimeouts r.now) r.now r.id with
    hnext | ⟨front, p, q', rest, request, hl, -, turn, hnext⟩
  · rw [round, hnext] at h
    exact .inl (back q h hq)
  · rw [round, hnext] at h ⊢
    have remote : q'.remote = p.remote := by cases turn <;> rfl
    by_cases hi : i = front.length
    · subst hi
      obtain rfl : q' = q := by simpa using h
      exact .inr ⟨_, rfl, rfl, remote.symm⟩
    · refine .inl (back q ?_ hq)
      rw [hl]
      by_cases hlt : i < front.length
      · rwa [List.getElem?_append_left hlt] at h ⊢
      · obtain ⟨j, hj⟩ : ∃ j, i = front.length + (j + 1) := ⟨i - front.length - 1, by omega⟩
        rw [hj, List.getElem?_append_right (by omega)] at h ⊢
        simpa using h

/-- A check that has begun was sent for. -/
theorem rounds_begun {l : CheckList} (idle : ∀ p ∈ l.pairs, p.isIdle = true) (rs : List Round)
    {i : Nat} {q : Pair} (h : (l.rounds rs).pairs[i]? = some q) (hq : q.isIdle = false) :
    ∃ c ∈ l.requested rs, c.index = i ∧ c.destination = q.remote := by
  induction rs using List.reverseRecOn generalizing q with
  | nil =>
    have still := idle q (List.mem_of_getElem? h)
    rw [hq] at still
    cases still
  | append_singleton rs r ih =>
    rw [rounds_concat] at h
    rw [requested_append]
    rcases round_begun h hq with ⟨p, hp, hbegun, hremote⟩ | ⟨c, hc, hindex, hdestination⟩
    · obtain ⟨c, hc, hindex, hdestination⟩ := ih hp hbegun
      exact ⟨c, List.mem_append_left _ hc, hindex, hdestination.trans hremote⟩
    · refine ⟨c, List.mem_append_right _ ?_, hindex, hdestination⟩
      simp [requested, hc]

/-! ### The search -/

/-- What holds of a list that rounds alone have worked on: it is started, no check has been
answered, and the times that it knows are those of the rounds. -/
structure Searching (l : CheckList) (rs : List Round) : Prop where
  started : l.started.isSome = true
  unanswered : ∀ p ∈ l.pairs, p.state ≠ .succeeded
  begun : ∀ p ∈ l.pairs, p.state = .inProgress → ∃ r ∈ rs, p.firstSent = some r.now
  paced : ∀ last, l.lastCheck = some last → ∃ r ∈ rs, last = r.now

/-- A list is started and nothing has been sent for it. -/
structure Unchecked (l : CheckList) : Prop where
  started : l.started.isSome = true
  idle : ∀ p ∈ l.pairs, p.isIdle = true
  unsent : l.lastCheck = none

theorem Unchecked.searching {l : CheckList} (h : Unchecked l) : Searching l [] := by
  refine ⟨h.started, fun p hp hstate => ?_, fun p hp hstate => ?_, fun last hlast => ?_⟩
  · simpa [Pair.isIdle, hstate] using h.idle p hp
  · simpa [Pair.isIdle, hstate] using h.idle p hp
  · rw [h.unsent] at hlast
    cases hlast

/-- Giving up checks leaves those that are under way as they were. -/
theorem Searching.expire {l : CheckList} {rs : List Round} (h : Searching l rs) (now : Nat) :
    Searching (l.handleTimeouts now) rs := by
  refine ⟨h.started, fun q hq => ?_, fun q hq hstate => ?_, h.paced⟩
  · obtain ⟨p, hp, rfl⟩ := List.mem_map.1 hq
    unfold Pair.expire
    split
    · exact nofun
    · exact h.unanswered p hp
  · obtain ⟨p, hp, rfl⟩ := List.mem_map.1 hq
    obtain ⟨-, same⟩ := Pair.expire_live hstate
    rw [same] at hstate ⊢
    exact h.begun p hp hstate

theorem Searching.round {l : CheckList} {rs : List Round} (h : Searching l rs) (r : Round) :
    Searching (l.round r).1 (rs ++ [r]) := by
  have expired := h.expire r.now
  have known : ∀ {P : Round → Prop}, (∃ s ∈ rs, P s) → ∃ s ∈ rs ++ [r], P s :=
    fun ⟨s, hs, hp⟩ => ⟨s, List.mem_append_left _ hs, hp⟩
  have now : r ∈ rs ++ [r] := List.mem_append_right _ (List.mem_singleton.2 rfl)
  rcases nextRequest_cases (l.handleTimeouts r.now) r.now r.id with
    hnext | ⟨front, p, q, back, request, hl, -, turn, hnext⟩
  · rw [CheckList.round, hnext]
    exact ⟨expired.started, expired.unanswered, fun p hp hs => known (expired.begun p hp hs),
      fun last hlast => known (expired.paced last hlast)⟩
  · rw [CheckList.round, hnext]
    have others : ∀ x ∈ front ++ q :: back, x = q ∨ x ∈ (l.handleTimeouts r.now).pairs := by
      intro x hx
      rw [hl]
      simp only [List.mem_append, List.mem_cons] at hx ⊢
      tauto
    have hp : p ∈ (l.handleTimeouts r.now).pairs := by simp [hl]
    refine ⟨expired.started, fun x hx => ?_, fun x hx hstate => ?_, fun last hlast => ?_⟩
    · rcases others x hx with rfl | hx
      · simp [turn.inProgress]
      · exact expired.unanswered x hx
    · rcases others x hx with rfl | hx
      · cases turn with
        | resent due =>
          simp only [Pair.needsRetransmit, Bool.and_eq_true, beq_iff_eq] at due
          exact known (expired.begun p hp due.1.1)
        | waiting | frozen => exact ⟨r, now, rfl⟩
      · exact known (expired.begun x hx hstate)
    · exact ⟨r, now, (Option.some.inj hlast).symm⟩

theorem Searching.rounds {l : CheckList} {rs : List Round} (h : Searching l rs) (ss : List Round) :
    Searching (l.rounds ss) (rs ++ ss) := by
  induction ss using List.reverseRecOn with
  | nil => rwa [List.append_nil]
  | append_singleton ss s ih =>
    rw [rounds_concat, ← List.append_assoc]
    exact ih.round s

/-- Rounds that are spaced are not held up. -/
theorem Searching.mayCheck {l : CheckList} {rs : List Round} {r : Round} (h : Searching l rs)
    (spaced : Spaced (rs ++ [r])) : l.mayCheck r.now = true := by
  unfold CheckList.mayCheck
  rw [h.started, Bool.true_and]
  cases hlast : l.lastCheck with
  | none => rfl
  | some last =>
    obtain ⟨s, hs, rfl⟩ := h.paced last hlast
    have apart := (List.pairwise_append.1 spaced).2.2 s hs r (List.mem_singleton.2 rfl)
    exact decide_eq_true (by omega)

/-- **After a round a check is under way, or all are over.** -/
theorem Searching.active {l : CheckList} {rs : List Round} {r : Round} (h : Searching l rs)
    (spaced : Spaced (rs ++ [r])) : (∃ p ∈ (l.round r).1.pairs, p.state = .inProgress) ∨
      ∀ p ∈ (l.round r).1.pairs, p.state = .failed := by
  have unanswered := (h.expire r.now).unanswered
  rcases round_cases (h.mayCheck spaced) with
    ⟨front, p, q, back, request, -, turn, hround⟩ | ⟨hround, nowaiting, hbusy⟩
  · rw [hround]
    exact .inl ⟨q, by simp, turn.inProgress⟩
  · rw [hround]
    by_cases busy : ∃ p ∈ l.pairs.map (·.expire r.now), p.state = .inProgress
    · exact .inl busy
    · refine .inr fun p hp => ?_
      have unfrozen := (hbusy.resolve_left busy) p hp
      have unwaiting := nowaiting p hp
      have unanswered := unanswered p hp
      have idle : p.state ≠ .inProgress := fun hstate => busy ⟨p, hp, hstate⟩
      cases hstate : p.state <;> simp_all

/-! ### The search ends -/

theorem idle_handleTimeouts (l : CheckList) (now : Nat) : (l.handleTimeouts now).idle = l.idle := by
  simp only [idle, handleTimeouts, List.countP_map]
  exact List.countP_congr fun p _ => by simp [p.isIdle_expire now]

/-- In a round the check of an idle pair begins, or those under way are among those that were. -/
theorem round_idle (l : CheckList) (r : Round) : (l.round r).1.idle < l.idle ∨
    (l.round r).1.idle = l.idle ∧ ∀ q ∈ (l.round r).1.pairs, q.state = .inProgress →
      ∃ p ∈ (l.handleTimeouts r.now).pairs, p.state = .inProgress ∧ q.firstSent = p.firstSent := by
  rw [← l.idle_handleTimeouts r.now]
  rcases nextRequest_cases (l.handleTimeouts r.now) r.now r.id with
    hnext | ⟨front, p, q, back, request, hl, -, turn, hnext⟩
  · rw [round, hnext]
    exact .inr ⟨rfl, fun q hq hstate => ⟨q, hq, hstate, rfl⟩⟩
  · have busy : ¬q.isIdle = true := by simp [Pair.isIdle, turn.inProgress]
    rw [round, hnext, idle, idle, hl, List.countP_append, List.countP_append,
      List.countP_cons_of_neg busy]
    rcases turn.begins with hidle | ⟨hstate, hfirst⟩
    · rw [List.countP_cons_of_pos hidle]
      left
      omega
    · have hp : ¬p.isIdle = true := by simp [Pair.isIdle, hstate]
      rw [List.countP_cons_of_neg hp]
      refine .inr ⟨rfl, fun x hx hx' => ?_⟩
      simp only [List.mem_append, List.mem_cons] at hx ⊢
      rcases hx with hx | rfl | hx
      · exact ⟨x, .inl hx, hx', rfl⟩
      · exact ⟨p, .inr (.inl rfl), hstate, hfirst⟩
      · exact ⟨x, .inr (.inr hx), hx', rfl⟩

theorem round_idle_le (l : CheckList) (r : Round) : (l.round r).1.idle ≤ l.idle := by
  rcases l.round_idle r with h | ⟨h, -⟩
  · exact Nat.le_of_lt h
  · exact Nat.le_of_eq h

theorem rounds_idle_le (l : CheckList) (rs : List Round) : (l.rounds rs).idle ≤ l.idle := by
  induction rs generalizing l with
  | nil => exact Nat.le_refl _
  | cons r rs ih => exact Nat.le_trans (ih _) (l.round_idle_le r)

/-- Where all checks have failed, nothing happens any more. -/
theorem rounds_failed {l : CheckList} (h : ∀ p ∈ l.pairs, p.state = .failed) (rs : List Round) :
    ∀ p ∈ (l.rounds rs).pairs, p.state = .failed := by
  induction rs generalizing l with
  | nil => exact h
  | cons r rs ih =>
    refine ih fun q (hq : q ∈ (l.round r).1.pairs) => ?_
    have still : ∀ p ∈ (l.handleTimeouts r.now).pairs, p.state = .failed := by
      intro p hp
      obtain ⟨p', hp', rfl⟩ := List.mem_map.1 hp
      unfold Pair.expire
      split
      · rfl
      · exact h p' hp'
    rcases nextRequest_cases (l.handleTimeouts r.now) r.now r.id with
      hnext | ⟨front, p, q', back, request, hl, -, turn, hnext⟩
    · rw [round, hnext] at hq
      exact still q hq
    · have failed := still p (by simp [hl])
      rcases turn.begins with hidle | ⟨hstate, -⟩
      · simp [Pair.isIdle, failed] at hidle
      · simp [failed] at hstate

/-- As long as no check begins, those under way are of the rounds before. -/
theorem Searching.earlier {l : CheckList} {rs : List Round} (h : Searching l rs)
    (ss : List Round) : (l.rounds ss).idle < l.idle ∨
      ∀ p ∈ (l.rounds ss).pairs, p.state = .inProgress → ∃ r ∈ rs, p.firstSent = some r.now := by
  induction ss using List.reverseRecOn with
  | nil => exact .inr h.begun
  | append_singleton ss s ih =>
    rw [rounds_concat]
    rcases ih with fewer | known
    · exact .inl (Nat.lt_of_le_of_lt ((l.rounds ss).round_idle_le s) fewer)
    · rcases (l.rounds ss).round_idle s with fewer | ⟨same, under⟩
      · exact .inl (Nat.lt_of_lt_of_le fewer (l.rounds_idle_le ss))
      · refine .inr fun q hq hstate => ?_
        obtain ⟨p, hp, hstate', hfirst⟩ := under q hq hstate
        obtain ⟨p', hp', rfl⟩ := List.mem_map.1 hp
        obtain ⟨-, live⟩ := Pair.expire_live hstate'
        rw [live] at hstate' hfirst
        obtain ⟨r, hr, hbegun⟩ := known p' hp' hstate'
        exact ⟨r, hr, hfirst.trans hbegun⟩

/-- The time between two spaced rounds grows with the rounds between them. -/
theorem Spaced.gap {rs ss : List Round} {a b : Round} (h : Spaced (rs ++ ss ++ [b]))
    (ha : a ∈ rs) : a.now + pace * (ss.length + 1) ≤ b.now := by
  induction ss using List.reverseRecOn generalizing b with
  | nil =>
    rw [List.append_nil] at h
    have apart := (List.pairwise_append.1 h).2.2 a ha b (List.mem_singleton.2 rfl)
    simpa using apart
  | append_singleton ss s ih =>
    rw [← List.append_assoc] at h
    have before := ih (List.pairwise_append.1 h).1
    have apart := (List.pairwise_append.1 h).2.2 s (by simp) b (List.mem_singleton.2 rfl)
    rw [List.length_append, List.length_singleton, Nat.mul_succ]
    omega

/-- **Within 250 rounds another check begins, or all are over.** If none begins before the last of
these rounds, those under way are five seconds old by then. -/
theorem Searching.drains {l : CheckList} {rs ss : List Round} {r : Round} (h : Searching l rs)
    (spaced : Spaced (rs ++ ss ++ [r])) (long : ss.length + 1 = 250 ∨ rs = []) :
    (l.rounds (ss ++ [r])).idle < l.idle ∨
      ∀ p ∈ (l.rounds (ss ++ [r])).pairs, p.state = .failed := by
  have searching := h.rounds ss
  rw [rounds_concat]
  rcases h.earlier ss with fewer | known
  · exact .inl (Nat.lt_of_le_of_lt ((l.rounds ss).round_idle_le r) fewer)
  · rcases (l.rounds ss).round_idle r with fewer | ⟨-, under⟩
    · exact .inl (Nat.lt_of_lt_of_le fewer (l.rounds_idle_le ss))
    · refine .inr ((searching.active spaced).resolve_left ?_)
      rintro ⟨q, hq, hstate⟩
      obtain ⟨p, hp, hstate', -⟩ := under q hq hstate
      obtain ⟨p', hp', rfl⟩ := List.mem_map.1 hp
      obtain ⟨live, same⟩ := Pair.expire_live hstate'
      rw [same] at hstate'
      obtain ⟨s, hs, hfirst⟩ := known p' hp' hstate'
      have gap := spaced.gap hs
      rcases long with long | rfl
      · rw [long] at gap
        rw [Pair.timedOut_of_first hstate' hfirst gap] at live
        cases live
      · cases hs

/-- The last `n + 1` of some rounds. -/
theorem exists_last_rounds (n : Nat) {rs : List Round} (h : n < rs.length) :
    ∃ as bs r, rs = as ++ (bs ++ [r]) ∧ bs.length = n := by
  have split := List.take_append_drop (rs.length - (n + 1)) rs
  have tail : rs.drop (rs.length - (n + 1)) ≠ [] := by
    rw [Ne, List.drop_eq_nil_iff]
    omega
  refine ⟨_, _, _, (List.dropLast_append_getLast tail).symm ▸ split.symm, ?_⟩
  rw [List.length_dropLast, List.length_drop]
  omega

/-- After `250 k + 1` rounds more than `k` checks have begun, or all are over. -/
theorem Unchecked.progress {l : CheckList} (h : Unchecked l) (k : Nat) {rs : List Round}
    (spaced : Spaced rs) (long : 250 * k + 1 ≤ rs.length) :
    (l.rounds rs).idle + k + 1 ≤ l.pairs.length ∨
      ∀ p ∈ (l.rounds rs).pairs, p.state = .failed := by
  induction k generalizing rs with
  | zero =>
    obtain ⟨r, ss, rfl⟩ : ∃ r ss, rs = [r] ++ ss := by
      cases rs with
      | nil => simp at long
      | cons r ss => exact ⟨r, ss, rfl⟩
    have first : (l.rounds ([] ++ [r])).idle < l.idle ∨
        ∀ p ∈ (l.rounds ([] ++ [r])).pairs, p.state = .failed :=
      h.searching.drains (List.pairwise_append.1 spaced).1 (.inr rfl)
    have all : l.idle ≤ l.pairs.length := List.countP_le_length
    rw [rounds_append]
    rcases first with fewer | failed
    · have later := (l.rounds [r]).rounds_idle_le ss
      rw [List.nil_append] at fewer
      exact .inl (by omega)
    · exact .inr (rounds_failed failed ss)
  | succ k ih =>
    obtain ⟨as, bs, r, rfl, hbs⟩ := exists_last_rounds 249 (show 249 < rs.length by omega)
    have before := ih (List.pairwise_append.1 spaced).1 (by
      simp only [List.length_append, List.length_singleton] at long
      omega)
    rw [rounds_append]
    rcases before with fewer | failed
    · have searching : Searching (l.rounds as) as := h.searching.rounds as
      rw [← List.append_assoc] at spaced
      rcases searching.drains spaced (.inl (congrArg (· + 1) hbs)) with fewer' | failed
      · exact .inl (by omega)
      · exact .inr failed
    · exact .inr (rounds_failed failed _)

/-! ### Lists that pairing has made -/

/-- A list that is made by pairing candidates and starting the clock, in any order. -/
inductive Built : CheckList → Prop
  | new (controlling : Bool) : Built (new controlling)
  | pair {l : CheckList} (ours theirs : List Candidate) : Built l → Built (l.addPairs ours theirs)
  | start {l : CheckList} (now : Nat) : Built l → Built (l.start now)

/-- Pairing begins no check. -/
theorem Built.unsent {l : CheckList} (h : Built l) :
    (∀ p ∈ l.pairs, p.isIdle = true) ∧ l.lastCheck = none := by
  induction h with
  | new controlling => exact ⟨List.forall_mem_nil _, rfl⟩
  | pair ours theirs _ ih =>
    refine ⟨fun q hq => ?_, ih.2⟩
    rcases act_pairs (x := .pair ours theirs) hq with ⟨p, hp, hev⟩ | hformed
    · have idle := ih.1 p hp
      cases hev with
      | same => exact idle
      | unfrozen => rfl
      | improved _ _ _ _ _ hnext =>
        refine Pair.isIdle_iff.2 ?_
        rcases hnext with rfl | ⟨-, rfl⟩
        · exact Pair.isIdle_iff.1 idle
        · exact .inr rfl
    · exact Pair.isIdle_iff.2 hformed.idle
  | start now _ ih =>
    unfold CheckList.start
    split <;> exact ih

theorem isComplete_of_failed {l : CheckList} (h : ∀ p ∈ l.pairs, p.state = .failed)
    (nonempty : l.pairs ≠ []) : l.isComplete = true := by
  simp only [isComplete, Bool.and_eq_true, Bool.not_eq_true', List.isEmpty_eq_false_iff,
    List.all_eq_true]
  exact ⟨nonempty, fun p hp => by simp [isSettled, h p hp]⟩

/-- **Checking ends, and no pair is passed over.** Let a started list be made by pairing, and let
rounds that are at least `pace` apart follow, without an answer. The pairs stay what they are. At
most five requests are sent for each pair, and at least one is sent for every pair. After every
round a check is under way or all are over, and after `250 n + 1` rounds all `n` pairs have
failed. -/
theorem checking_exhausts {l : CheckList} (built : Built l) (started : l.started.isSome = true)
    (nonempty : l.pairs ≠ []) {rs : List Round} (spaced : Spaced rs) :
    (l.rounds rs).pairs.map Pair.remote = l.pairs.map Pair.remote ∧
    (l.requested rs).length ≤ 5 * l.pairs.length ∧
    (rs ≠ [] → (∃ p ∈ (l.rounds rs).pairs, p.state = .inProgress) ∨
      (l.rounds rs).isComplete = true) ∧
    (250 * l.pairs.length + 1 ≤ rs.length →
      (∀ i p, l.pairs[i]? = some p →
        ∃ c ∈ l.requested rs, c.index = i ∧ c.destination = p.remote) ∧
      (l.rounds rs).isComplete = true ∧ ∀ p ∈ (l.rounds rs).pairs, p.state = .failed) := by
  have fresh : Unchecked l := ⟨started, built.unsent.1, built.unsent.2⟩
  have same : (l.rounds rs).pairs.map Pair.remote = l.pairs.map Pair.remote := l.rounds_remotes rs
  have kept : (l.rounds rs).pairs ≠ [] := by
    intro hnil
    rw [hnil] at same
    exact nonempty (List.map_eq_nil_iff.1 same.symm)
  refine ⟨same, ?_, fun hrs => ?_, fun long => ?_⟩
  · have all : l.budget = 5 * l.pairs.length := by
      have each : l.pairs.map Pair.budget = l.pairs.map fun _ => 5 :=
        List.map_congr_left fun p hp => Pair.budget_idle (fresh.idle p hp)
      rw [budget, each]
      simp [Nat.mul_comm]
    have spent := l.budget_rounds rs
    omega
  · obtain ⟨ss, r, rfl⟩ : ∃ ss r, rs = ss ++ [r] :=
      ⟨_, _, (List.dropLast_append_getLast hrs).symm⟩
    have active := (fresh.searching.rounds ss).active spaced
    rw [rounds_concat] at kept ⊢
    exact active.imp_right fun failed => isComplete_of_failed failed kept
  · have failed : ∀ p ∈ (l.rounds rs).pairs, p.state = .failed := by
      refine (fresh.progress l.pairs.length spaced long).resolve_left fun more => ?_
      omega
    refine ⟨fun i p hp => ?_, isComplete_of_failed failed kept, failed⟩
    have remote : ((l.rounds rs).pairs.map Pair.remote)[i]? = some p.remote := by
      rw [same, List.getElem?_map, hp]
      rfl
    rw [List.getElem?_map] at remote
    obtain ⟨q, hq, hremote⟩ := Option.map_eq_some_iff.1 remote
    have begun : q.isIdle = false := by
      simp [Pair.isIdle, failed q (List.mem_of_getElem? hq)]
    rw [← hremote]
    exact rounds_begun fresh.idle rs hq begun

/-- Two pairs of one foundation: the second is held back until the check of the first is over. -/
theorem checking_exhausts_one_foundation :
    let id : TransactionId := ⟨List.replicate 12 1, List.length_replicate⟩
    let near := Candidate.host (.v4 ⟨10, 0, 0, 1⟩ 5000)
    let far : UInt16 → Candidate := fun port => .host (.v4 ⟨10, 0, 0, 2⟩ port)
    let l := ((new true).addPairs [near] [far 5000, far 6000]).start 0
    let rs := (List.range 501).map fun k => Round.mk (20 * k) id
    l.pairs.map Pair.state = [.waiting, .frozen] ∧ Built l ∧ l.started.isSome = true ∧
      Spaced rs ∧ (l.requested rs).length ≤ 10 ∧ (∃ c ∈ l.requested rs, c.index = 1) ∧
      (l.rounds rs).isComplete = true := by
  intro id near far l rs
  have built : Built l := .start 0 (.pair _ _ (.new true))
  have states : l.pairs.map Pair.state = [.waiting, .frozen] := by decide +kernel
  have started : l.started.isSome = true := by decide +kernel
  clear_value l
  have two : l.pairs.length = 2 := by
    rw [← List.length_map Pair.state, states]
    rfl
  have spaced : Spaced rs := by
    refine List.pairwise_map.2 (List.pairwise_lt_range.imp fun {a b} h => ?_)
    show 20 * a + 20 ≤ 20 * b
    omega
  have nonempty : l.pairs ≠ [] := by
    intro hnil
    rw [hnil] at two
    cases two
  obtain ⟨-, few, -, finish⟩ := checking_exhausts built started nonempty spaced
  rw [two] at few finish
  obtain ⟨all, complete, -⟩ := finish (by simp [rs])
  have second : 1 < l.pairs.length := by omega
  obtain ⟨c, hc, hindex, -⟩ := all 1 _ (List.getElem?_eq_getElem second)
  exact ⟨states, built, started, spaced, few, ⟨c, hc, hindex⟩, complete⟩

end CheckList
end Parley
