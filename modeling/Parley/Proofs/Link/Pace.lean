import Parley.Proofs.Link.Activity
import Parley.Proofs.Link.Knowledge
import Parley.Proofs.Link.Unfold
/-!
How far apart the checks of an agent are.

What the check list has scheduled goes out at least `pace` after what it has scheduled before. A
nomination is not scheduled: it goes out as soon as the state calls for it, with any event, and the
schedule does not know of it either. So the checks of a run keep the pace just if its nominations
do (`paced_iff_nominations_apart`), and in `nomination_unpaced` one does not.
-/
namespace Parley
open CheckList (Action)

/-- A check that is queued, and where it goes. It nominates if the controlling side sends it with
the identifier that it was given for a nomination. -/
structure Post where
  now : Nat
  check : SocketAddress × BindingRequest
  nominates : Bool

/-- The second check goes out at least `pace` after the first. -/
def Post.Apart (x y : Post) : Prop := x.now + CheckList.pace ≤ y.now

instance (x y : Post) : Decidable (x.Apart y) := inferInstanceAs (Decidable (_ ≤ _))

/-- All that is scheduled is apart, and no later than the latest. -/
structure Paced (last : Option Nat) (log : List Post) : Prop where
  apart : log.Pairwise fun x y => x.nominates = false → y.nominates = false → x.Apart y
  latest : ∀ x ∈ log, x.nominates = false → ∃ t ∈ last, x.now ≤ t

theorem Paced.check {last : Option Nat} {log : List Post} (h : Paced last log) {y : Post}
    (apart : ∀ t ∈ last, t + CheckList.pace ≤ y.now) : Paced (some y.now) (log ++ [y]) := by
  have behind : ∀ x ∈ log, x.nominates = false → x.Apart y := by
    intro x hx scheduled
    obtain ⟨t, ht, hlast⟩ := h.latest x hx scheduled
    exact (Nat.add_le_add_right hlast _).trans (apart t ht)
  refine ⟨List.pairwise_append.2 ⟨h.apart, List.pairwise_singleton .., ?_⟩, ?_⟩
  · intro x hx z hz scheduled _
    rw [List.mem_singleton.1 hz]
    exact behind x hx scheduled
  · intro x hx scheduled
    rcases List.mem_append.1 hx with hx | hx
    · exact ⟨y.now, rfl, (Nat.le_add_right ..).trans (behind x hx scheduled)⟩
    · exact ⟨y.now, rfl, List.mem_singleton.1 hx ▸ Nat.le_refl _⟩

theorem Paced.nomination {last : Option Nat} {log : List Post} (h : Paced last log) {y : Post}
    (hy : y.nominates = true) : Paced last (log ++ [y]) := by
  refine ⟨List.pairwise_append.2 ⟨h.apart, List.pairwise_singleton .., ?_⟩, ?_⟩
  · intro x _ z hz _ scheduled
    rw [List.mem_singleton.1 hz, hy] at scheduled
    cases scheduled
  · intro x hx scheduled
    rcases List.mem_append.1 hx with hx | hx
    · exact h.latest x hx scheduled
    · rw [List.mem_singleton.1 hx, hy] at scheduled
      cases scheduled

namespace CheckList

/-- Only sending and beginning anew have to do with when the latest request was scheduled. -/
theorem act_lastCheck (l : CheckList) {x : Action} (hx : ∀ now id, x ≠ .send now id) :
    (l.act x).lastCheck = l.lastCheck ∨ ∃ controlling, x = .reset controlling := by
  cases x with
  | reset controlling => exact .inr ⟨controlling, rfl⟩
  | send now id => exact absurd rfl (hx now id)
  | start now =>
    left
    simp only [act, start]
    split <;> rfl
  | learn ours theirs =>
    left
    simp only [act, addPeerReflexive]
    split <;> rfl
  | answer r =>
    left
    simp only [act, handleResponse]
    split <;> rfl
  | nominate index now id =>
    left
    rcases nominate_cases l index now id with h | ⟨_, _, _, h⟩ <;> simp only [act, h]
  | pair | trigger | mark | expire => exact .inl rfl

/-- A list for which nothing has been scheduled. -/
theorem acts_unscheduled {l : CheckList} (h : l.lastCheck = none) {xs : List Action}
    (hxs : ∀ x ∈ xs, ∀ now id, x ≠ .send now id) : (l.acts xs).lastCheck = none := by
  induction xs generalizing l with
  | nil => exact h
  | cons x xs ih =>
    refine ih ?_ fun y hy => hxs y (List.mem_cons_of_mem _ hy)
    rcases l.act_lastCheck (hxs x (List.mem_cons_self ..)) with same | ⟨controlling, rfl⟩
    · exact same.trans h
    · rfl

/-- A request is scheduled no sooner than `pace` after the latest one. -/
theorem mayCheck_apart {l : CheckList} {now : Nat} (h : l.mayCheck now = true) :
    ∀ t ∈ l.lastCheck, t + pace ≤ now := by
  intro t ht
  have latest : l.lastCheck = some t := ht
  simp only [mayCheck, latest, Bool.and_eq_true, decide_eq_true_eq] at h
  have late := h.2
  unfold pace at late ⊢
  omega

/-- An action goes on with the list, what it schedules is noted with its time, and its nomination as
one. -/
structure Action.Noted (post : SocketAddress × BindingRequest → Post) (x : Action) : Prop where
  goes : ∀ controlling, x ≠ .reset controlling
  scheduled : ∀ now id, x = .send now id → ∀ q, (post q).now = now
  nomination : ∀ i now id, x = .nominate i now id → ∀ q, q.2.id = id → (post q).nominates = true

/-- **What an action sends keeps the pace**, unless it nominates. -/
theorem act_paced {l : CheckList} {log : List Post} (h : Paced l.lastCheck log)
    {post : SocketAddress × BindingRequest → Post} {x : Action} (hx : x.Noted post) :
    Paced (l.act x).lastCheck (log ++ (l.sends x).toList.map post) := by
  by_cases hsend : ∃ now id, x = .send now id
  · obtain ⟨now, id, rfl⟩ := hsend
    rcases nextRequest_cases l now id with hnone | ⟨front, p, q, back, r, -, may, -, hnext⟩
    · simpa [act, sends, hnone] using h
    · have noted := hx.scheduled now id rfl (p.remote, r)
      have sent := h.check (y := post (p.remote, r)) (noted ▸ mayCheck_apart may)
      rw [noted] at sent
      simpa [act, sends, hnext] using sent
  · simp only [not_exists] at hsend
    have goes : ¬∃ controlling, x = .reset controlling := not_exists.2 hx.goes
    rw [(l.act_lastCheck hsend).resolve_right goes]
    cases hsends : l.sends x with
    | none => simpa using h
    | some q =>
      obtain ⟨p, -, -, ⟨now, id, rfl, -⟩ | ⟨now, id, _, rfl, -⟩ | ⟨i, now, id, rfl, -, hr⟩⟩ :=
        sends_eq_some (d := q.1) (r := q.2) hsends
      · exact absurd rfl (hsend now id)
      · exact absurd rfl (hsend now id)
      · exact h.nomination (hx.nomination i now id rfl q (by rw [hr]; rfl))

theorem acts_paced {l : CheckList} {log : List Post} (h : Paced l.lastCheck log)
    {post : SocketAddress × BindingRequest → Post} {xs : List Action}
    (hxs : ∀ x ∈ xs, x.Noted post) :
    Paced (l.acts xs).lastCheck (log ++ (l.requests xs).map post) := by
  have sent : ∀ (l : CheckList) rs, ∀ x ∈ xs, Paced l.lastCheck (log ++ rs.map post) →
      Paced (l.act x).lastCheck (log ++ (rs ++ (l.sends x).toList).map post) := by
    intro l rs x hx hl
    rw [List.map_append, ← List.append_assoc]
    exact act_paced hl (hxs x hx)
  have start : Paced l.lastCheck (log ++ ([] : List (SocketAddress × BindingRequest)).map post) := by
    simpa using h
  simpa using acts_induct (I := fun l rs => Paced l.lastCheck (log ++ rs.map post)) sent start

end CheckList

namespace Agent

/-- The checks that an event makes the agent queue. -/
def posts (a : Agent) (e : Event) : List Post :=
  match e.now? with
  | some now => (requestsIn (a.sent e)).map fun q =>
    ⟨now, q, a.controlling && e.settles.any fun (_, id) => id = q.2.id⟩
  | none => []

/-- The checks that a run makes the agent queue, in order. -/
def log (a : Agent) : List Event → List Post
  | [] => []
  | e :: es => a.posts e ++ (a.step e).log es

theorem log_concat (a : Agent) (es : List Event) (e : Event) :
    a.log (es ++ [e]) = a.log es ++ (a.run es).posts e := by
  induction es generalizing a with
  | nil => simp [log]
  | cons f es ih =>
    rw [List.cons_append, log, log, ih, List.append_assoc]
    rfl

/-- An event without a time queues nothing. -/
theorem sent_of_untimed (a : Agent) {e : Event} (h : e.now? = none) : a.sent e = [] := by
  cases e with
  | setControlling controlling =>
    simp only [sent, step, setControlling]
    split <;> exact List.drop_length
  | takeDatagrams => simp [sent, step, clearDatagrams]
  | takeSignals => exact List.drop_length
  | _ => cases h

theorem posts_check (a : Agent) (e : Event) :
    (a.posts e).map Post.check = requestsIn (a.sent e) := by
  unfold posts
  split
  · simp [Function.comp_def]
  · rename_i untimed
    rw [a.sent_of_untimed untimed]
    rfl

theorem log_check (a : Agent) (es : List Event) :
    (a.log es).map Post.check = requestsIn (a.outbox es) := by
  induction es generalizing a with
  | nil => rfl
  | cons e es ih => rw [log, outbox, List.map_append, requestsIn_append, a.posts_check e, ih]

/-! ### Each event -/

/-- Before the start nothing is scheduled. -/
theorem Reachable.unscheduled {a : Agent} (h : a.Reachable) (fresh : a.state = .new) :
    a.checks.lastCheck = none := by
  revert fresh
  refine h.induct_along (P := fun a => a.state = .new → a.checks.lastCheck = none)
    (fun _ _ _ _ _ => rfl) fun a e ha ih still => ?_
  have fresh := new_of_step ha.grounded still
  by_cases timed : ∃ now checkId id, e = .tick now checkId id
  · obtain ⟨now, checkId, id, rfl⟩ := timed
    obtain ⟨ys, effect, nominates⟩ := a.tick_effect now checkId id
    rw [scheduled, if_neg (by simp [Active, fresh])] at effect
    rw [show (a.step (.tick now checkId id)).checks = _ from effect.checks]
    refine CheckList.acts_unscheduled (ih fresh) fun y hy _ _ sent => ?_
    rcases nominates with rfl | ⟨-, i, rfl⟩
    · cases hy
    · cases (List.mem_singleton.1 hy).symm.trans sent
  · simp only [not_exists] at timed
    obtain ⟨xs, ys, unfolds⟩ := step_unfolds a e
    rw [unfolds.checks]
    refine CheckList.acts_unscheduled (CheckList.acts_unscheduled (ih fresh) ?_) ?_
    · rintro x hx now id rfl
      obtain ⟨nominationId, he⟩ := (unfolds.permits _ hx).on_tick
      exact timed _ _ _ he
    · intro y hy _ _ sent
      obtain ⟨_, _, _, rfl⟩ := unfolds.nomination hy
      cases sent

theorem untimed_lastCheck {a : Agent} (ha : a.Reachable) {e : Event} (h : e.now? = none) :
    (a.step e).checks.lastCheck = a.checks.lastCheck := by
  cases e with
  | setControlling controlling =>
    simp only [step, setControlling]
    split
    · rename_i fresh
      exact (ha.unscheduled fresh.1).symm
    · rfl
  | takeDatagrams | takeSignals => rfl
  | _ => cases h

/-- **An event keeps the pace**, but for a nomination. -/
theorem step_paced {a : Agent} (ha : a.Reachable) {log : List Post}
    (h : Paced a.checks.lastCheck log) (e : Event) :
    Paced (a.step e).checks.lastCheck (log ++ a.posts e) := by
  unfold posts
  split
  · rename_i now timed
    obtain ⟨xs, ys, unfolds⟩ := step_unfolds a e
    rw [unfolds.checks, unfolds.requests, List.map_append, ← List.append_assoc]
    refine CheckList.acts_paced (CheckList.acts_paced h fun x hx => ?_) fun y hy => ?_
    · have permits := unfolds.permits x hx
      refine ⟨?_, ?_, fun i t id hx => absurd hx (permits.unsettled i t id)⟩
      · rintro controlling rfl
        rw [permits.on_reset] at timed
        cases timed
      · rintro t id rfl q
        obtain ⟨nominationId, rfl⟩ := permits.on_tick
        exact (Option.some.inj timed).symm
    · rcases unfolds.nominates with rfl | ⟨hcontrolling, i, t, id, settles, rfl⟩
      · cases hy
      · rw [List.mem_singleton.1 hy]
        refine ⟨nofun, nofun, ?_⟩
        rintro _ _ _ ⟨⟩ q same
        simp [hcontrolling, settles, same]
  · rename_i untimed
    rwa [List.append_nil, untimed_lastCheck ha untimed]

theorem run_paced (peer : PeerId) (controlling : Bool) (session : UInt64) (created : Nat)
    (es : List Event) : Paced ((new peer controlling session created).run es).checks.lastCheck
      ((new peer controlling session created).log es) := by
  induction es using List.reverseRecOn with
  | nil => exact ⟨.nil, List.forall_mem_nil _⟩
  | append_singleton es e ih =>
    rw [run_concat, log_concat]
    exact step_paced ⟨_, _, _, _, _, rfl⟩ ih e

/-- **Checks keep the pace if nominations do.** Any two checks that a run queues, first ones and
repeated ones alike, are `pace` apart, if neither is a nomination. So all of them are just if those
are of which one is a nomination. -/
theorem paced_iff_nominations_apart (peer : PeerId) (controlling : Bool) (session : UInt64)
    (created : Nat) (es : List Event) :
    let log := (new peer controlling session created).log es
    log.map Post.check = requestsIn ((new peer controlling session created).outbox es) ∧
      log.Pairwise (fun x y => x.nominates = false → y.nominates = false → x.Apart y) ∧
      (log.Pairwise Post.Apart ↔
        log.Pairwise fun x y => x.nominates = true ∨ y.nominates = true → x.Apart y) := by
  have scheduled := (run_paced peer controlling session created es).apart
  refine ⟨log_check .., scheduled, fun h => h.imp ?_, fun h => (scheduled.and h).imp ?_⟩
  · intro x y apart _
    exact apart
  · rintro x y ⟨scheduled, nomination⟩
    by_cases nominates : x.nominates = true ∨ y.nominates = true
    · exact nomination nominates
    · simp only [not_or, Bool.not_eq_true] at nominates
      exact scheduled nominates.1 nominates.2

/-- Time goes on, and a nomination goes out with the very tick that sends another check. -/
theorem nomination_unpaced :
    let peer : PeerId := ⟨List.replicate 16 0, rfl⟩
    let id : UInt8 → TransactionId := fun n => ⟨List.replicate 12 n, List.length_replicate⟩
    let near : SocketAddress := .v4 ⟨10, 0, 0, 1⟩ 5000
    let far : SocketAddress := .v4 ⟨10, 0, 0, 2⟩ 6000
    let farther : SocketAddress := .v4 ⟨10, 0, 0, 3⟩ 6000
    let es := [Event.start 0 [near] false none (id 0),
      .datagram far (BindingMessage.request ⟨id 1, 2, false⟩).encode 10 (id 2),
      .datagram farther (BindingMessage.request ⟨id 3, 1, false⟩).encode 10 (id 4),
      .tick 20 (id 5) (id 6),
      .datagram far (BindingMessage.response ⟨id 5, true, none⟩).encode 50 (id 7),
      .tick 150 (id 8) (id 9)]
    (es.filterMap Event.now?).Pairwise (· ≤ ·) ∧
      ((new peer true 7 0).log es).map (fun x => (x.now, x.check.1, x.nominates)) =
        [(20, far, false), (150, farther, false), (150, far, true)] ∧
      ¬((new peer true 7 0).log es).Pairwise Post.Apart := by
  decide +kernel

end Agent
end Parley
