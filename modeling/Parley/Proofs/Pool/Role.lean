import Parley.Proofs.Link.Pairing
import Parley.Proofs.PeerId
import Parley.Proofs.Pool.Outgoing
/-!
Which side controls a negotiation.

An agent that has not started has the role that goes with our identity and its peer's
(`Aligned`), whichever of the creation of the agent and the setting of the identity comes last. From
its start on the role stays for as long as the agent lasts, and at any time it is the role of its
checks. Since identities are ordered, two sides that have theirs from before the start take
different roles (`role_follows_identity`).
-/
namespace Parley

namespace Agent

/-- The role stays in a run that does not set it. -/
theorem Reachable.run_role {a : Agent} (ha : a.Reachable) {es : List Event}
    (unset : ∀ controlling, .setControlling controlling ∉ es) :
    (a.run es).controlling = a.controlling := by
  induction es generalizing a with
  | nil => rfl
  | cons e es ih =>
    have other : ∀ controlling, e ≠ .setControlling controlling :=
      fun controlling given => unset controlling (given ▸ List.mem_cons_self)
    have rest := ih (ha.step e) fun controlling h => unset controlling (List.mem_cons_of_mem _ h)
    exact rest.trans (step_persists ha.blank other).controlling

/-- And in any run, once the agent has started. -/
theorem Reachable.run_started_role {a : Agent} (ha : a.Reachable) (started : a.state ≠ .new)
    (es : List Event) : (a.run es).state ≠ .new ∧ (a.run es).controlling = a.controlling := by
  induction es generalizing a with
  | nil => exact ⟨started, rfl⟩
  | cons e es ih =>
    have onward : (a.step e).state ≠ .new := fun h => started (new_of_step ha.grounded h)
    obtain ⟨stays, role⟩ := ih (ha.step e) onward
    exact ⟨stays, role.trans (step_role ha.blank onward)⟩

/-- An agent that has not started takes the role that it is given. -/
theorem setControlling_role {a : Agent} {controlling : Bool}
    (new : (a.setControlling controlling).state = .new) :
    (a.setControlling controlling).controlling = controlling := by
  unfold setControlling at new ⊢
  split
  · rfl
  · rename_i kept
    rw [if_neg kept] at new
    exact not_not.1 fun differs => kept ⟨new, differs⟩

end Agent

namespace Pool

/-! ### Before the start -/

/-- The agents that have not started have the roles that go with our identity. -/
def Aligned (p : Pool) : Prop :=
  ∀ peer, ∀ s ∈ p.held peer, s.agent.state = .new → s.agent.controlling = p.controls peer

theorem new_aligned (includeLoopback : Bool) : (new includeLoopback).Aligned :=
  fun _ _ hs => nomatch hs

theorem controls_iff {p : Pool} {peer : PeerId} :
    p.controls peer = true ↔ ∃ own, p.localId = some own ∧ peer.bytes < own.bytes := by
  unfold controls
  cases p.localId with
  | none => simp
  | some own => simp [PeerId.isAbove_iff]

theorem controls_congr {p q : Pool} (same : q.localId = p.localId) (peer : PeerId) :
    q.controls peer = p.controls peer := by
  unfold controls
  rw [same]

/-- An event that does not set our identity assigns no role. -/
theorem Brings.unassigned {e : Event} {es : List Agent.Event} (brings : Brings e es)
    (unset : ∀ id, e ≠ .setLocalId id) (controlling : Bool) :
    .setControlling controlling ∉ es := fun assigned =>
  let ⟨id, given⟩ := brings.role controlling assigned
  unset id given

/-- Whether the identity or the agent comes first, the role goes with the identity. -/
theorem step_aligned {p : Pool} (h : p.Distinct) (grown : p.Grown) (aligned : p.Aligned)
    (e : Event) : (p.step e).Aligned := by
  intro peer s' hs' new
  by_cases given : ∃ id, e = .setLocalId id
  · obtain ⟨id, rfl⟩ := given
    rw [held_setLocalId] at hs'
    obtain ⟨s, hs, rfl⟩ := List.mem_map.1 hs'
    exact (Agent.setControlling_role new).trans (congrArg id.isAbove (peer_of_held hs))
  · have unset : ∀ id, e ≠ .setLocalId id := not_exists.1 given
    rw [controls_congr (p.step_localId unset)]
    cases step_fate h e peer with
    | missing _ after | dropped _ after =>
      rw [after] at hs'
      cases hs'
    | @goesOn s es one after brings =>
      rw [after, List.mem_singleton] at hs'
      subst hs'
      have hs : s ∈ p.held peer := one ▸ List.mem_singleton_self s
      have before : s.agent.state = .new := by
        by_contra started
        exact ((grown peer s hs).run_started_role started es).1 new
      have role := (grown peer s hs).run_role (brings.unassigned unset)
      exact role.trans (aligned peer s hs before)
    | created _ _ after brings =>
      rw [after, List.mem_singleton] at hs'
      subst hs'
      exact (p.fresh_reachable ..).run_role (brings.unassigned unset)

theorem Reachable.aligned {p : Pool} (h : p.Reachable) : p.Grown ∧ p.Aligned := by
  obtain ⟨includeLoopback, es, rfl⟩ := h
  have keeps {q : Pool} (distinct : q.Distinct) (holds : q.Grown ∧ q.Aligned) (e : Event) :
      (q.step e).Grown ∧ (q.step e).Aligned :=
    ⟨step_grown distinct holds.1 e, step_aligned distinct holds.1 holds.2 e⟩
  exact (new_distinct includeLoopback).run_keeps (P := fun q => q.Grown ∧ q.Aligned) keeps
    ⟨new_grown includeLoopback, new_aligned includeLoopback⟩ es

/-! ### After the start -/

/-- The roles of the agents of a pool. One that has started keeps its role for as long as it lasts,
and one that does not last is gone. -/
structure Ranks (p : Pool) : Prop where
  unstarted : ∀ s ∈ p.slots, s.agent.state = .new → (s.agent.controlling = true ↔
    ∃ own, p.localId = some own ∧ s.peer.bytes < own.bytes)
  checks : ∀ s ∈ p.slots, s.agent.checks.controlling = s.agent.controlling
  started : ∀ s ∈ p.slots, s.agent.state ≠ .new → ∀ es, p.Lasts s.peer es →
    ∃ s', (p.run es).held s.peer = [s'] ∧ s.Continues s' ∧
      s'.agent.controlling = s.agent.controlling
  ended : ∀ s ∈ p.slots, ∀ e, p.Ends s e → (p.step e).held s.peer = [] ∨
    ∃ o es, p.Admits s.peer ∧ (p.step e).held s.peer = [(p.fresh s.peer o).run es]

theorem Aligned.ranks {p : Pool} (aligned : p.Aligned) (h : p.Distinct) (grown : p.Grown) :
    p.Ranks where
  unstarted s hs new := by rw [aligned s.peer s (mem_held hs) new, controls_iff]
  checks s hs := (grown s.peer s (mem_held hs)).ordered.2
  started s hs started es lasts := by
    obtain ⟨xs, held⟩ := held_lasting h (h.held_of_mem (mem_held hs)) lasts
    have role := ((grown s.peer s (mem_held hs)).run_started_role started xs).2
    exact ⟨s.run xs, held, s.continues_run xs, role⟩
  ended s hs _ ends := held_ended h (h.held_of_mem (mem_held hs)) ends

/-! ### Two sides -/

/-- In a pool that is to go through a run our identity is known before the agent has started that
is held for a peer in the end, and does not change from then on. -/
structure Settled (p : Pool) (own peer : PeerId) (es : List Event) : Prop where
  known : p.localId = some own
  kept : ∀ id, .setLocalId id ∈ es → id = own
  early : ∀ s, p.held peer = [s] → p.Lasts peer es → s.agent.state = .new

theorem controls_of_known {p : Pool} {own : PeerId} (known : p.localId = some own)
    (peer : PeerId) : p.controls peer = own.isAbove peer := by
  unfold controls
  rw [known]

/-- An agent that an event leaves started has the role from before. -/
theorem step_role {p : Pool} (grown : p.Grown) {e : Event} {peer : PeerId} {s : Slot}
    {es : List Agent.Event} (one : p.held peer = [s]) (after : (p.step e).held peer = [s.run es])
    (brings : Brings e es) (started : (s.run es).agent.state ≠ .new) :
    (s.run es).agent.controlling = s.agent.controlling := by
  have reachable := grown peer s (one ▸ List.mem_singleton_self s)
  by_cases given : ∃ id, e = .setLocalId id
  · obtain ⟨id, rfl⟩ := given
    have set : s.run es = s.run [.setControlling (id.isAbove s.peer)] := by
      rw [held_setLocalId, one] at after
      exact (List.head_eq_of_cons_eq after).symm
    rw [set] at started ⊢
    have started : (s.agent.step (.setControlling (id.isAbove s.peer))).state ≠ .new := started
    exact Agent.step_role reachable.blank started
  · exact reachable.run_role (brings.unassigned (not_exists.1 given))

theorem role_of_lasting {p : Pool} (h : p.Distinct) (grown : p.Grown) (aligned : p.Aligned)
    {own peer : PeerId} {es : List Event} (known : p.localId = some own)
    (kept : ∀ id, .setLocalId id ∈ es → id = own)
    (role : ∀ s, p.held peer = [s] → p.Lasts peer es → s.agent.controlling = own.isAbove peer)
    {s : Slot} (held : (p.run es).held peer = [s]) : s.agent.controlling = own.isAbove peer := by
  induction es generalizing p with
  | nil => exact role s held (p.lasts_nil peer)
  | cons e es ih =>
    have known' : (p.step e).localId = some own := by
      by_cases given : ∃ id, e = .setLocalId id
      · obtain ⟨id, rfl⟩ := given
        exact congrArg some (kept id List.mem_cons_self)
      · exact (p.step_localId (not_exists.1 given)).trans known
    have aligned' := step_aligned h grown aligned e
    refine ih (step_distinct h e) (step_grown h grown e) aligned' known'
      (fun id hid => kept id (List.mem_cons_of_mem _ hid)) (fun t one lasts => ?_) held
    by_cases new : t.agent.state = .new
    · rw [aligned' peer t (one ▸ List.mem_singleton_self t) new, controls_of_known known']
    · cases step_fate h e peer with
      | missing _ after | dropped _ after =>
        rw [one] at after
        cases after
      | @goesOn u xs before after brings spared =>
        obtain rfl := List.head_eq_of_cons_eq (one.symm.trans after)
        have longer : p.Lasts peer (e :: es) := by
          refine lasts_cons.2 ⟨fun v hv => ?_, lasts⟩
          obtain rfl := List.head_eq_of_cons_eq (before.symm.trans hv)
          exact spared
        exact (step_role grown before after brings new).trans (role u before longer)
      | @created o xs _ now after brings =>
        obtain rfl := List.head_eq_of_cons_eq (one.symm.trans after)
        have unset : ∀ id, e ≠ .setLocalId id := by
          rintro id rfl
          cases now
        have given := (p.fresh_reachable peer o).run_role (brings.unassigned unset)
        exact given.trans (controls_of_known known peer)

/-- The agent that is held in the end has the role that goes with the identity. -/
theorem Settled.role {p : Pool} (h : p.Distinct) (grown : p.Grown) (aligned : p.Aligned)
    {own peer : PeerId} {es : List Event} (settled : p.Settled own peer es) {s : Slot}
    (held : (p.run es).held peer = [s]) : s.agent.controlling = own.isAbove peer := by
  refine role_of_lasting h grown aligned settled.known settled.kept (fun t one lasts => ?_) held
  have new := settled.early t one lasts
  rw [aligned peer t (one ▸ List.mem_singleton_self t) new, controls_of_known settled.known]

/-- **The role of an agent goes with our identity until the agent starts, and stays from then on;
of two sides that settle their identities first, exactly one controls.** -/
theorem role_follows_identity :
    (∀ p : Pool, p.Reachable → p.Ranks) ∧
      ∀ (p q : Pool) (a b : PeerId) (es fs : List Event) (s t : Slot), p.Reachable → q.Reachable →
        a ≠ b → p.Settled a b es → q.Settled b a fs → (p.run es).held b = [s] →
          (q.run fs).held a = [t] → s.agent.controlling = !t.agent.controlling := by
  constructor
  · intro p h
    obtain ⟨grown, aligned⟩ := h.aligned
    exact aligned.ranks h.distinct grown
  · intro p q a b es fs s t hp hq different settledA settledB heldA heldB
    obtain ⟨grownA, alignedA⟩ := hp.aligned
    obtain ⟨grownB, alignedB⟩ := hq.aligned
    rw [settledA.role hp.distinct grownA alignedA heldA,
      settledB.role hq.distinct grownB alignedB heldB]
    exact PeerId.isAbove_of_ne different

/-- A pool that knows who we are before it has any agent. -/
def informedFirst : Pool := (new false).run [.setLocalId (.filled 2)]

/-- A pool that has learned it with an agent there, which has not started. -/
def informedLate : Pool :=
  (new false).run [.ensure (.filled 2) (quietOccasion 0), .setLocalId (.filled 1)]

theorem role_follows_identity_of_pinging :
    informedFirst.Ranks ∧ informedLate.Ranks ∧
      informedFirst.Settled (.filled 2) (.filled 1) [.ping (.filled 1) (quietOccasion 5)] ∧
      informedLate.Settled (.filled 1) (.filled 2) [.ping (.filled 2) (quietOccasion 7)] ∧
      ∃ s t, (informedFirst.run [.ping (.filled 1) (quietOccasion 5)]).held (.filled 1) = [s] ∧
        (informedLate.run [.ping (.filled 2) (quietOccasion 7)]).held (.filled 2) = [t] ∧
        s.agent.controlling = true ∧ s.agent.controlling = !t.agent.controlling := by
  have reachableFirst : informedFirst.Reachable := ⟨false, _, rfl⟩
  have reachableLate : informedLate.Reachable := ⟨false, _, rfl⟩
  have settledFirst : informedFirst.Settled (.filled 2) (.filled 1)
      [.ping (.filled 1) (quietOccasion 5)] := by
    refine ⟨by decide +kernel, by simp, fun s held => ?_⟩
    have none : informedFirst.held (.filled 1) = [] := by decide +kernel
    rw [none] at held
    cases held
  have settledLate : informedLate.Settled (.filled 1) (.filled 2)
      [.ping (.filled 2) (quietOccasion 7)] := by
    refine ⟨by decide +kernel, by simp, fun s held _ => ?_⟩
    have new : ∀ s ∈ informedLate.held (.filled 2), s.agent.state = .new := by decide +kernel
    exact new s (held ▸ List.mem_singleton_self s)
  let first := informedFirst.run [.ping (.filled 1) (quietOccasion 5)]
  let late := informedLate.run [.ping (.filled 2) (quietOccasion 7)]
  obtain ⟨s, heldFirst⟩ : ∃ s, first.held (.filled 1) = [s] :=
    (reachableFirst.distinct.run _ |>.cases _).resolve_left (by decide +kernel)
  obtain ⟨t, heldLate⟩ : ∃ t, late.held (.filled 2) = [t] :=
    (reachableLate.distinct.run _ |>.cases _).resolve_left (by decide +kernel)
  have controls : ∀ s ∈ first.held (.filled 1), s.agent.controlling = true := by decide +kernel
  have opposed := role_follows_identity.2 informedFirst informedLate (.filled 2) (.filled 1) _ _ s t
    reachableFirst reachableLate (by decide) settledFirst settledLate heldFirst heldLate
  exact ⟨role_follows_identity.1 _ reachableFirst, role_follows_identity.1 _ reachableLate,
    settledFirst, settledLate, s, t, heldFirst, heldLate,
    controls s (heldFirst ▸ List.mem_singleton_self s), opposed⟩

end Pool
end Parley
