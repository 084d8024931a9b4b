import Parley.Proofs.Link.Traffic
/-!
No pair is held back without another one of its foundation that is not.

A pair is held back so that one of its foundation is checked first; were there no such pair, only
its own turn when all else is over would ever check it. Pairing may give the pair that was to be
checked first another foundation, and lets go of a pair in each that has none left
(`unfreeze_lively`). No other action holds a pair back or moves one to another foundation
(`Evolves.onward`). So every list that actions lead to is `Lively`, and a success leaves no pair of
its foundation held back (`no_foundation_dead`).
-/
namespace Parley
namespace CheckList

/-- Every pair that is held back has one of its foundation that is not. -/
def Lively (pairs : List Pair) : Prop :=
  ∀ p ∈ pairs, p.state = .frozen → ∃ q ∈ pairs, q.state ≠ .frozen ∧ q.foundation = p.foundation

theorem Lively.of_perm {pairs pairs' : List Pair} (h : Lively pairs) (same : pairs'.Perm pairs) :
    Lively pairs' := by
  intro p hp hfrozen
  obtain ⟨q, hq, h⟩ := h p (same.mem_iff.1 hp) hfrozen
  exact ⟨q, same.mem_iff.2 hq, h⟩

/-! ### Pairing -/

theorem mem_activeFoundations {pairs : List Pair} {foundation : String} :
    foundation ∈ activeFoundations pairs ↔
      ∃ q ∈ pairs, q.state ≠ .frozen ∧ q.foundation = foundation := by
  simp [activeFoundations, and_assoc]

/-- A pair that is still held back is of a foundation that was active or of which a pair has been
let go. -/
theorem unfreeze_covers (active : List String) (pairs : List Pair) {p : Pair}
    (hp : p ∈ unfreeze active pairs) (hfrozen : p.state = .frozen) : p.foundation ∈ active ∨
      ∃ q ∈ unfreeze active pairs, q.state ≠ .frozen ∧ q.foundation = p.foundation := by
  induction pairs generalizing active with
  | nil => cases hp
  | cons a as ih =>
    rw [unfreeze] at hp ⊢
    split at hp
    · rename_i first
      rw [if_pos first]
      have led : ∃ q ∈ { a with state := .waiting } :: unfreeze (a.foundation :: active) as,
          q.state ≠ .frozen ∧ q.foundation = a.foundation :=
        ⟨_, List.mem_cons_self .., CheckState.noConfusion, rfl⟩
      rcases List.mem_cons.1 hp with rfl | hp
      · cases hfrozen
      · rcases ih _ hp with known | ⟨q, hq, h⟩
        · rcases List.mem_cons.1 known with same | known
          · exact .inr (same ▸ led)
          · exact .inl known
        · exact .inr ⟨q, List.mem_cons_of_mem _ hq, h⟩
    · rename_i later
      rw [if_neg later]
      rcases List.mem_cons.1 hp with rfl | hp
      · exact .inl (not_not.1 fun new => later ⟨hfrozen, new⟩)
      · rcases ih _ hp with known | ⟨q, hq, h⟩
        · exact .inl known
        · exact .inr ⟨q, List.mem_cons_of_mem _ hq, h⟩

/-- Whatever pairs there are, pairing lets go of one in each foundation that has none left. -/
theorem unfreeze_lively (pairs : List Pair) :
    Lively (unfreeze (activeFoundations pairs) pairs) := by
  intro p hp hfrozen
  refine (unfreeze_covers _ _ hp hfrozen).elim (fun known => ?_) id
  obtain ⟨q, hq, active, same⟩ := mem_activeFoundations.1 known
  obtain ⟨q', hq', thaw⟩ := exists_of_mem_forall₂ (R := flip Thaws) (unfreeze_thaws _ _).flip hq
  rcases thaw with rfl | ⟨hfrozen, -⟩
  · exact ⟨q', hq', active, same⟩
  · exact absurd hfrozen active

/-! ### The other actions -/

/-- No pair is held back that was not, and none changes its foundation. -/
structure Onward (p q : Pair) : Prop where
  foundation : q.foundation = p.foundation
  frozen : q.state = .frozen → p.state = .frozen

theorem Evolves.onward {l : CheckList} {x : Action} {p q : Pair} (h : Evolves l x p q)
    (hx : x.InPlace) : Onward p q := by
  cases h with
  | same | marked | resent => exact ⟨rfl, id⟩
  | unfrozen | improved => exact hx.elim
  | triggered h =>
    unfold Pair.trigger
    rcases h with h | h <;> simp only [h] <;> exact ⟨rfl, nofun⟩
  | answered =>
    refine ⟨rfl, fun hq => ?_⟩
    simp only at hq
    split at hq <;> cases hq
  | started | released | expired | nominated => exact ⟨rfl, nofun⟩

/-- Pairs that each go onward leave no foundation without one that is not held back. -/
theorem Lively.onward {pairs pairs' : List Pair} (h : Lively pairs)
    (each : List.Forall₂ Onward pairs pairs') : Lively pairs' := by
  intro q hq hfrozen
  obtain ⟨p, hp, on⟩ := exists_of_mem_forall₂ each hq
  obtain ⟨a, ha, active, same⟩ := h p hp (on.frozen hfrozen)
  obtain ⟨b, hb, on'⟩ := exists_of_mem_forall₂ (R := flip Onward) each.flip ha
  exact ⟨b, hb, fun frozen => active (on'.frozen frozen),
    on'.foundation.trans (same.trans on.foundation.symm)⟩

/-- **No action leaves a foundation of which every pair is held back.** -/
theorem Lively.act {l : CheckList} (h : Lively l.pairs) (x : Action) : Lively (l.act x).pairs := by
  have inPlace : x.InPlace → Lively (l.act x).pairs := fun hx =>
    h.onward ((act_inPlace l hx).imp fun _ _ evolves => evolves.onward hx)
  cases x with
  | reset => exact List.forall_mem_nil _
  | pair ours theirs => exact unfreeze_lively _
  | learn ours theirs =>
    cases hfind : l.findByRemote theirs.address with
    | some i => simpa only [CheckList.act, addPeerReflexive, hfind] using h
    | none =>
      simp only [CheckList.act, addPeerReflexive, hfind]
      refine Lively.of_perm ?_ (sortPairs_perm _)
      intro p hp hfrozen
      rcases List.mem_append.1 hp with hp | hp
      · obtain ⟨q, hq, h⟩ := h p hp hfrozen
        exact ⟨q, List.mem_append_left _ hq, h⟩
      · rw [List.mem_singleton.1 hp] at hfrozen
        cases hfrozen
  | _ => exact inPlace trivial

theorem Lively.acts {l : CheckList} (h : Lively l.pairs) (xs : List Action) :
    Lively (l.acts xs).pairs := by
  induction xs generalizing l with
  | nil => exact h
  | cons x xs ih => exact ih (h.act x)

/-! ### A success -/

theorem release_thaws (foundation : String) (p : Pair) : Thaws p (release foundation p) := by
  unfold release
  split
  · rename_i held
    exact .inr ⟨held.1, rfl⟩
  · exact .inl rfl

theorem release_not_frozen {foundation : String} {p : Pair}
    (h : (release foundation p).foundation = foundation) :
    (release foundation p).state ≠ .frozen := by
  unfold release at h ⊢
  split
  · exact nofun
  · rename_i free
    rw [if_neg free] at h
    exact fun frozen => free ⟨frozen, h⟩

/-- A pair works from an answer on just when it is the one that waited for it and the answer is a
success, and then the others of its foundation are let go. -/
theorem handleResponse_succeeded {l : CheckList} {r : BindingResponse} {i : Nat} {p q : Pair}
    (hp : l.pairs[i]? = some p) (before : p.state ≠ .succeeded)
    (hq : (l.handleResponse r).1.pairs[i]? = some q) (after : q.state = .succeeded) :
    (l.handleResponse r).1.pairs =
      (l.pairs.set i { p with state := .succeeded }).map (release p.foundation) := by
  rcases handleResponse_cases l r with ⟨h, -⟩ | ⟨front, a, back, hl, -, -, h⟩
  · rw [h, hp] at hq
    cases hq
    exact absurd after before
  · have there : l.pairs[front.length]? = some a := by simp [hl]
    have answered (state : CheckState) : front ++ { a with state } :: back =
        l.pairs.set front.length { a with state } := by simp [hl]
    cases success : r.success with
    | false =>
      simp only [h, success, Bool.false_eq_true, if_false, answered] at hq
      rw [List.getElem?_set] at hq
      split_ifs at hq
      · cases hq
        cases after
      · rw [hp] at hq
        cases hq
        exact absurd after before
    | true =>
      simp only [h, success, if_true, answered] at hq ⊢
      by_cases here : front.length = i
      · rw [here, hp] at there
        cases there
        rw [here]
      · rw [List.getElem?_map, List.getElem?_set_ne here, hp] at hq
        cases hq
        rcases release_thaws a.foundation p with same | ⟨-, freed⟩
        · rw [same] at after
          exact absurd after before
        · rw [freed] at after
          cases after

/-- **Freezing leaves no foundation dead.** Whatever was done to a list, in whatever order, each pair
that is held back has one of its foundation that is not. When a response makes a pair work, no pair
of its foundation is held back any more: those that were wait now, and all others are as before. -/
theorem no_foundation_dead :
    (∀ (controlling : Bool) (xs : List Action), Lively ((new controlling).acts xs).pairs) ∧
      ∀ (l : CheckList) (r : BindingResponse) (i : Nat) (p q : Pair), l.pairs[i]? = some p →
        p.state ≠ .succeeded → (l.handleResponse r).1.pairs[i]? = some q → q.state = .succeeded →
        q = { p with state := .succeeded } ∧
          (∀ x ∈ (l.handleResponse r).1.pairs, x.foundation = q.foundation → x.state ≠ .frozen) ∧
          ∀ j ≠ i, (l.handleResponse r).1.pairs[j]? = l.pairs[j]?.map fun x =>
            if x.state = .frozen ∧ x.foundation = q.foundation then { x with state := .waiting }
            else x := by
  refine ⟨fun controlling => Lively.acts (List.forall_mem_nil _),
    fun l r i p q hp before hq after => ?_⟩
  have pairs := handleResponse_succeeded hp before hq after
  obtain rfl : q = { p with state := .succeeded } := by
    obtain ⟨hi, -⟩ := List.getElem?_eq_some_iff.1 hp
    rw [pairs, List.getElem?_map, List.getElem?_set_self hi] at hq
    exact (Option.some.inj hq).symm
  rw [pairs]
  refine ⟨rfl, fun x hx same => ?_, fun j hj => ?_⟩
  · obtain ⟨y, -, rfl⟩ := List.mem_map.1 hx
    exact release_not_frozen same
  · rw [List.getElem?_map, List.getElem?_set_ne hj.symm]
    rfl

/-- Of two pairs of one foundation the second is let go when the first one works. -/
theorem no_foundation_dead_two_pairs :
    let id : TransactionId := ⟨List.replicate 12 1, List.length_replicate⟩
    let near := Candidate.host (.v4 ⟨10, 0, 0, 1⟩ 5000)
    let far : UInt16 → Candidate := fun port => .host (.v4 ⟨10, 0, 0, 2⟩ port)
    let l := (new true).acts [.pair [near] [far 5000, far 6000], .start 0, .send 0 id]
    let after := (l.handleResponse ⟨id, true, none⟩).1
    l.pairs.map Pair.state = [.inProgress, .frozen] ∧ Lively l.pairs ∧
      after.pairs.map Pair.state = [.succeeded, .waiting] ∧
      ∀ x ∈ after.pairs, x.foundation = "host_10.0.0.1:host_10.0.0.2" → x.state ≠ .frozen := by
  intro id near far l after
  have states : l.pairs.map Pair.state = [.inProgress, .frozen] := by decide +kernel
  have states' : after.pairs.map Pair.state = [.succeeded, .waiting] := by decide +kernel
  have names : after.pairs.map Pair.foundation =
      ["host_10.0.0.1:host_10.0.0.2", "host_10.0.0.1:host_10.0.0.2"] := by decide +kernel
  obtain ⟨p, hp, before⟩ : ∃ p, l.pairs[0]? = some p ∧ p.state = .inProgress :=
    Option.map_eq_some_iff.1 (by rw [← List.getElem?_map, states]; rfl)
  obtain ⟨q, hq, works⟩ : ∃ q, after.pairs[0]? = some q ∧ q.state = .succeeded :=
    Option.map_eq_some_iff.1 (by rw [← List.getElem?_map, states']; rfl)
  have name : q.foundation = "host_10.0.0.1:host_10.0.0.2" := by
    have first := congrArg (·[0]?) names
    simp only [List.getElem?_map, hq] at first
    exact Option.some.inj first
  obtain ⟨lively, success⟩ := no_foundation_dead
  obtain ⟨-, free, -⟩ := success l ⟨id, true, none⟩ 0 p q hp (by simp [before]) hq works
  rw [name] at free
  exact ⟨states, lively true _, states', free⟩

end CheckList
end Parley
