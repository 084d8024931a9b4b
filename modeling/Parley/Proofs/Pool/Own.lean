import Parley.Proofs.Pool.Fate
/-!
Agents for the server and for ourselves.

A pool creates no agent for the server or for ourselves. For the server that settles it, but the
identity that is given to us may be one for which there is an agent already. The agent stays then:
nothing replaces it, and it lasts until an event ends its time as it would any other's
(`own_agent_iff`).
-/
namespace Parley
namespace Pool

/-- The agent for ourselves is there until an event ends its time, and none is created. -/
theorem step_own {p : Pool} (h : p.Distinct) {own : PeerId} (known : p.localId = some own)
    (e : Event) :
    (p.step e).HasAgent own ↔ p.HasAgent own ∧ ∀ s, p.held own = [s] → ¬p.Ends s e := by
  rw [hasAgent_iff, hasAgent_iff]
  cases step_fate h e own with
  | missing before after => simp [before, after]
  | goesOn before after _ spared => simp [before, after, spared]
  | created admits => exact absurd known admits.notLocal
  | dropped before after discards => simp [before, after, discards.ends]

theorem run_own {p : Pool} (h : p.Distinct) {own : PeerId} (known : p.localId = some own)
    {es : List Event} (unset : ∀ id, .setLocalId id ∉ es) :
    (p.run es).HasAgent own ↔ p.HasAgent own ∧ p.Lasts own es := by
  induction es generalizing p with
  | nil => exact (and_iff_left (p.lasts_nil own)).symm
  | cons e es ih =>
    have first : ∀ id, e ≠ .setLocalId id := fun id given => unset id (given ▸ List.mem_cons_self)
    have rest := ih (step_distinct h e) ((p.step_localId first).trans known)
      fun id later => unset id (List.mem_cons_of_mem _ later)
    rw [lasts_cons, ← and_assoc, ← step_own h known]
    exact rest

/-- Being given an identity leaves every agent there. -/
theorem setLocalId_hasAgent (p : Pool) (id peer : PeerId) :
    (p.step (.setLocalId id)).HasAgent peer ↔ p.HasAgent peer := by
  rw [hasAgent_iff, hasAgent_iff, held_setLocalId, ne_eq, List.map_eq_nil_iff]

/-- An identity that we know has been given to us, and no other one since. -/
theorem exists_setting {p : Pool} (unknown : p.localId = none) {es : List Event} {own : PeerId}
    (known : (p.run es).localId = some own) :
    ∃ before after, es = before ++ .setLocalId own :: after ∧ ∀ id, .setLocalId id ∉ after := by
  induction es using List.reverseRecOn with
  | nil => cases unknown.symm.trans known
  | append_singleton es e ih =>
    rw [run_concat] at known
    by_cases given : ∃ id, e = .setLocalId id
    · obtain ⟨id, rfl⟩ := given
      cases known
      exact ⟨es, [], rfl, by simp⟩
    · have unset : ∀ id, e ≠ .setLocalId id := not_exists.1 given
      obtain ⟨before, after, rfl, later⟩ := ih ((step_localId _ unset).symm.trans known)
      refine ⟨before, after ++ [e], by simp, fun id => ?_⟩
      simp [later id, (unset id).symm]

/-- In a run of a pool there was an agent for the peer whose identity became ours when that was
given to us last, and no event since has ended its time. -/
def Overtaken (p : Pool) (own : PeerId) (es : List Event) : Prop :=
  ∃ before after, es = before ++ .setLocalId own :: after ∧ (∀ id, .setLocalId id ∉ after) ∧
    (p.run before).HasAgent own ∧ (p.run (before ++ [.setLocalId own])).Lasts own after

/-- **There is never an agent for the server, and one for ourselves exactly if it was there before
we were given its identity and has lasted.** -/
theorem own_agent_iff (includeLoopback : Bool) (es : List Event) :
    ¬((new includeLoopback).run es).HasAgent PeerId.server ∧
      ∀ own, (((new includeLoopback).run es).localId = some own ∧
        ((new includeLoopback).run es).HasAgent own) ↔ (new includeLoopback).Overtaken own es := by
  have empty := new_distinct includeLoopback
  have unserved : ¬(new includeLoopback).HasAgent PeerId.server := fun ⟨_, found⟩ => nomatch found
  refine ⟨run_unserved empty unserved es, fun own => ?_⟩
  -- From the moment at which the identity is given, the agent stays as long as it lasts.
  have since {before after : List Event} (unset : ∀ id, .setLocalId id ∉ after) :
      ((new includeLoopback).run (before ++ .setLocalId own :: after)).localId = some own ∧
        (((new includeLoopback).run (before ++ .setLocalId own :: after)).HasAgent own ↔
          ((new includeLoopback).run before).HasAgent own ∧
            ((new includeLoopback).run (before ++ [.setLocalId own])).Lasts own after) := by
    have split : (new includeLoopback).run (before ++ .setLocalId own :: after) =
        (((new includeLoopback).run before).step (.setLocalId own)).run after :=
      List.foldl_append
    rw [split, run_concat, run_localId unset,
      run_own (step_distinct (empty.run before) _) rfl unset, setLocalId_hasAgent]
    exact ⟨rfl, Iff.rfl⟩
  constructor
  · rintro ⟨known, has⟩
    obtain ⟨before, after, rfl, unset⟩ := exists_setting rfl known
    exact ⟨before, after, rfl, unset, (since unset).2.1 has⟩
  · rintro ⟨before, after, rfl, unset, was⟩
    exact ⟨(since unset).1, (since unset).2.2 was⟩

/-- A pool that has an agent for a peer whose identity is given to us. -/
def renamed : Pool :=
  (new false).run [.ensure (.filled 3) (quietOccasion 0), .setLocalId (.filled 3)]

theorem own_agent_stays :
    renamed.Reachable ∧ renamed.localId = some (.filled 3) ∧ renamed.HasAgent (.filled 3) :=
  ⟨⟨false, _, rfl⟩, by decide +kernel, Option.isSome_iff_exists.1 (by decide +kernel)⟩

end Pool
end Parley
