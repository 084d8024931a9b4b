import Parley.Proofs.Link.CheckList.Form
import Mathlib.Algebra.GroupWithZero.Nat
/-!
Candidates that trickle in.

Candidates are paired as they become known, in any number of calls. What a list holds after them is
told from the pairs that were offered alone (`Sums`): one pair for each address, which has the
candidates of a best one offered for it. One offer keeps that (`Sums.offer`), and so do sorting and
letting pairs go in between, because a pair that was let go is still improved. So the order of the
calls leaves no trace in addresses and priorities (`trickle_order_free`).
-/
namespace Parley.CheckList

/-! ### One offer -/

theorem offer_cons (p b : Pair) (pairs : List Pair) : offer (p :: pairs) b =
    if p.remote = b.remote then p.improve b :: pairs else p :: offer pairs b := by
  unfold offer
  rw [List.findIdx?_cons]
  split
  · rename_i h
    split at h
    · rename_i same
      cases h
      rw [if_pos (beq_iff_eq.1 same)]
      rfl
    · rename_i other
      obtain ⟨i, hi, rfl⟩ := Option.map_eq_some_iff.1 h
      rw [if_neg (by simpa using other), hi, List.modify_succ_cons]
  · rename_i h
    split at h
    · cases h
    · rename_i other
      rw [Option.map_eq_none_iff] at h
      rw [if_neg (by simpa using other), h]
      rfl

/-- A pair after another one was offered: one with another address is as it was, the one with the
same address is improved, and the offered pair itself is there only when there was none. -/
theorem mem_offer {pairs : List Pair} (distinct : (pairs.map Pair.remote).Nodup) {b q : Pair}
    (hq : q ∈ offer pairs b) :
    q ∈ pairs ∧ q.remote ≠ b.remote ∨ (∃ p ∈ pairs, p.remote = b.remote ∧ q = p.improve b) ∨
      q = b ∧ b.remote ∉ pairs.map Pair.remote := by
  induction pairs with
  | nil => exact .inr (.inr ⟨List.mem_singleton.1 hq, List.not_mem_nil⟩)
  | cons p pairs ih =>
    obtain ⟨fresh, distinct⟩ := List.nodup_cons.1 distinct
    rw [offer_cons] at hq
    split at hq
    · rename_i same
      rcases List.mem_cons.1 hq with rfl | hq
      · exact .inr (.inl ⟨p, List.mem_cons_self .., same, rfl⟩)
      · refine .inl ⟨List.mem_cons_of_mem _ hq, fun again => fresh ?_⟩
        rw [same, ← again]
        exact List.mem_map_of_mem hq
    · rename_i other
      rcases List.mem_cons.1 hq with rfl | hq
      · exact .inl ⟨List.mem_cons_self .., other⟩
      · rcases ih distinct hq with ⟨hq, h⟩ | ⟨r, hr, h⟩ | ⟨rfl, h⟩
        · exact .inl ⟨List.mem_cons_of_mem _ hq, h⟩
        · exact .inr (.inl ⟨r, List.mem_cons_of_mem _ hr, h⟩)
        · refine .inr (.inr ⟨rfl, ?_⟩)
          rw [List.map_cons, List.mem_cons, not_or]
          exact ⟨fun same => other same.symm, h⟩

theorem length_offer (pairs : List Pair) (b : Pair) : (offer pairs b).length =
    match pairs.findIdx? (·.remote == b.remote) with
    | some _ => pairs.length
    | none => pairs.length + 1 := by
  unfold offer
  cases pairs.findIdx? (·.remote == b.remote) <;> simp

/-! ### What was offered -/

/-- A pair that is a best one of those that were offered for its address. -/
structure Best (offered : List Pair) (p : Pair) : Prop where
  unchecked : p.state = .frozen ∨ p.state = .waiting
  /-- It has the candidates of one that was offered. -/
  taken : ∃ b ∈ offered, p = withCandidates p b
  highest : ∀ b ∈ offered, b.remote = p.remote → b.priority ≤ p.priority

/-- What a list of pairs is after some were offered. -/
structure Sums (offered pairs : List Pair) : Prop where
  distinct : (pairs.map Pair.remote).Nodup
  complete : ∀ b ∈ offered, b.remote ∈ pairs.map Pair.remote
  best : ∀ p ∈ pairs, Best offered p

theorem sums_nil : Sums [] [] := ⟨List.nodup_nil, by simp, by simp⟩

section Best
variable {offered : List Pair} {p q b : Pair}

/-- What is offered for another address makes no difference. -/
theorem Best.of_ne (h : Best offered p) (other : p.remote ≠ b.remote) :
    Best (offered ++ [b]) p := by
  obtain ⟨c, hc, taken⟩ := h.taken
  refine ⟨h.unchecked, ⟨c, List.mem_append_left _ hc, taken⟩, fun d hd same => ?_⟩
  rcases List.mem_append.1 hd with hd | hd
  · exact h.highest d hd same
  · rw [List.mem_singleton.1 hd] at same
    exact absurd same.symm other

theorem Best.improve (h : Best offered p) (same : p.remote = b.remote) :
    Best (offered ++ [b]) (p.improve b) := by
  obtain ⟨c, hc, taken⟩ := h.taken
  by_cases higher : p.priority < b.priority
  · rw [show p.improve b = withCandidates p b from if_pos ⟨h.unchecked, higher⟩]
    refine ⟨h.unchecked, ⟨b, by simp, rfl⟩, fun d hd again => ?_⟩
    rcases List.mem_append.1 hd with hd | hd
    · exact UInt64.le_trans (h.highest d hd (again.trans same.symm)) (UInt64.le_of_lt higher)
    · rw [List.mem_singleton.1 hd]
      exact UInt64.le_refl _
  · rw [show p.improve b = p from if_neg fun improved => higher improved.2]
    refine ⟨h.unchecked, ⟨c, List.mem_append_left _ hc, taken⟩, fun d hd again => ?_⟩
    rcases List.mem_append.1 hd with hd | hd
    · exact h.highest d hd again
    · rw [List.mem_singleton.1 hd]
      exact UInt64.not_lt.1 higher

/-- The first pair of an address is a best one. -/
theorem Best.first (fresh : b.state = .frozen)
    (missing : b.remote ∉ offered.map Pair.remote) : Best (offered ++ [b]) b := by
  refine ⟨.inl fresh, ⟨b, by simp, rfl⟩, fun d hd same => ?_⟩
  rcases List.mem_append.1 hd with hd | hd
  · exact absurd (same ▸ List.mem_map_of_mem hd) missing
  · rw [List.mem_singleton.1 hd]
    exact UInt64.le_refl _

/-- Letting a pair go leaves it to be improved. -/
theorem Best.thaws (h : Best offered p) (thaw : Thaws p q) : Best offered q := by
  rcases thaw with rfl | ⟨-, rfl⟩
  · exact h
  · obtain ⟨c, hc, taken⟩ := h.taken
    refine ⟨.inr rfl, ⟨c, hc, ?_⟩, h.highest⟩
    rw [taken]
    rfl

end Best

section Sums
variable {offered pairs : List Pair}

theorem Sums.offer (h : Sums offered pairs) {b : Pair} (fresh : b.state = .frozen) :
    Sums (offered ++ [b]) (offer pairs b) := by
  obtain ⟨distinct, remotes⟩ := foldl_offer_remotes [b] h.distinct
  rw [List.foldl_cons, List.foldl_nil] at distinct remotes
  refine ⟨distinct, fun c hc => ?_, fun q hq => ?_⟩
  · rw [remotes]
    refine (List.mem_append.1 hc).imp (h.complete c) fun hc => ?_
    exact List.mem_map_of_mem hc
  · rcases mem_offer h.distinct hq with ⟨hq, other⟩ | ⟨p, hp, same, rfl⟩ | ⟨rfl, missing⟩
    · exact (h.best q hq).of_ne other
    · exact (h.best p hp).improve same
    · refine .first fresh fun there => missing ?_
      obtain ⟨c, hc, same⟩ := List.mem_map.1 there
      exact same ▸ h.complete c hc

theorem Sums.foldl_offer (h : Sums offered pairs) {bs : List Pair}
    (fresh : ∀ b ∈ bs, b.state = .frozen) :
    Sums (offered ++ bs) (bs.foldl CheckList.offer pairs) := by
  induction bs generalizing offered pairs with
  | nil => rwa [List.append_nil]
  | cons b bs ih =>
    have next := ih (h.offer (fresh b (List.mem_cons_self ..))) fun c hc =>
      fresh c (List.mem_cons_of_mem b hc)
    rwa [List.append_assoc] at next

theorem Sums.perm (h : Sums offered pairs) {pairs' : List Pair} (same : pairs'.Perm pairs) :
    Sums offered pairs' :=
  ⟨(same.map Pair.remote).nodup_iff.2 h.distinct,
    fun b hb => (same.map Pair.remote).mem_iff.2 (h.complete b hb),
    fun p hp => h.best p (same.mem_iff.1 hp)⟩

theorem Sums.thaws (h : Sums offered pairs) {pairs' : List Pair}
    (thawed : List.Forall₂ Thaws pairs pairs') : Sums offered pairs' := by
  have remotes : pairs'.map Pair.remote = pairs.map Pair.remote :=
    map_eq_of_forall₂ (fun _ _ h => Thaws.remote h) thawed
  refine ⟨remotes ▸ h.distinct, fun b hb => remotes ▸ h.complete b hb, fun q hq => ?_⟩
  obtain ⟨p, hp, thaw⟩ := exists_of_mem_forall₂ thawed hq
  exact (h.best p hp).thaws thaw

theorem Sums.addPairs {l : CheckList} (h : Sums offered l.pairs) (ours theirs : List Candidate) :
    Sums (offered ++ combinations ours theirs l.controlling) (l.addPairs ours theirs).pairs := by
  have fresh : ∀ b ∈ combinations ours theirs l.controlling, b.state = .frozen := by
    intro b hb
    obtain ⟨near, -, far, -, -, rfl⟩ := mem_combinations.1 hb
    rfl
  exact ((h.foldl_offer fresh).perm (sortPairs_perm _)).thaws (unfreeze_thaws ..)

/-- An address and a priority are those of a pair when the priority is the highest one offered for
the address: this is told from what was offered, in whatever order. -/
theorem Sums.mem_entries (h : Sums offered pairs) {address : SocketAddress} {priority : UInt64} :
    (address, priority) ∈ pairs.map (fun p => (p.remote, p.priority)) ↔
      (∃ b ∈ offered, b.remote = address ∧ b.priority = priority) ∧
        ∀ b ∈ offered, b.remote = address → b.priority ≤ priority := by
  have taken {p : Pair} (hp : p ∈ pairs) :
      ∃ b ∈ offered, b.remote = p.remote ∧ b.priority = p.priority := by
    obtain ⟨b, hb, same⟩ := (h.best p hp).taken
    exact ⟨b, hb, (congrArg Pair.remote same).symm, (congrArg Pair.priority same).symm⟩
  constructor
  · intro hmem
    obtain ⟨p, hp, entry⟩ := List.mem_map.1 hmem
    cases entry
    exact ⟨taken hp, (h.best p hp).highest⟩
  · rintro ⟨⟨b, hb, rfl, rfl⟩, highest⟩
    obtain ⟨p, hp, remote⟩ := List.mem_map.1 (h.complete b hb)
    obtain ⟨c, hc, sameRemote, samePriority⟩ := taken hp
    have least : p.priority ≤ b.priority :=
      samePriority ▸ highest c hc (sameRemote.trans remote)
    have most : b.priority ≤ p.priority := (h.best p hp).highest b hb remote.symm
    exact List.mem_map.2 ⟨p, hp, by rw [remote, UInt64.le_antisymm least most]⟩

end Sums

/-! ### Calls -/

/-- One call for pairing. -/
structure Call where
  ours : List Candidate
  theirs : List Candidate
  deriving DecidableEq

/-- The list after calls for pairing, one after the other. -/
def trickle (l : CheckList) (calls : List Call) : CheckList :=
  calls.foldl (fun l c => l.addPairs c.ours c.theirs) l

/-- What the calls return: how many pairs each of them adds. -/
def counts (l : CheckList) : List Call → List Nat
  | [] => []
  | c :: calls => l.countAdded c.ours c.theirs :: (l.addPairs c.ours c.theirs).counts calls

/-- Some call offers the combination of two candidates, which are of one version. -/
def Offered (calls : List Call) (near far : Candidate) : Prop :=
  ∃ c ∈ calls, near ∈ c.ours ∧ far ∈ c.theirs ∧ near.address.isV4 = far.address.isV4

/-- The pairs that calls offer. -/
def offers (controlling : Bool) (calls : List Call) : List Pair :=
  calls.flatMap fun c => combinations c.ours c.theirs controlling

theorem mem_offers {controlling : Bool} {calls : List Call} {b : Pair} :
    b ∈ offers controlling calls ↔
      ∃ near far, Offered calls near far ∧ b = Pair.new near far controlling := by
  simp only [offers, List.mem_flatMap, mem_combinations, Offered]
  constructor
  · rintro ⟨c, hc, near, hnear, far, hfar, version, rfl⟩
    exact ⟨near, far, ⟨c, hc, hnear, hfar, version⟩, rfl⟩
  · rintro ⟨near, far, ⟨c, hc, hnear, hfar, version⟩, rfl⟩
    exact ⟨c, hc, near, hnear, far, hfar, version, rfl⟩

/-- Each call adds to what was offered. -/
theorem Sums.trickle {offered : List Pair} {l : CheckList} (h : Sums offered l.pairs)
    (calls : List Call) :
    Sums (offered ++ offers l.controlling calls) (l.trickle calls).pairs := by
  induction calls generalizing offered l with
  | nil => simpa [offers, CheckList.trickle] using h
  | cons c calls ih =>
    have next := ih (h.addPairs c.ours c.theirs)
    rwa [List.append_assoc] at next

theorem countNew_add_length (pairs offered : List Pair) :
    countNew pairs offered + pairs.length = (offered.foldl offer pairs).length := by
  induction offered generalizing pairs with
  | nil => rw [countNew, List.foldl_nil, Nat.zero_add]
  | cons b bs ih =>
    rw [List.foldl_cons, ← ih, countNew, length_offer]
    cases pairs.findIdx? (·.remote == b.remote) with
    | some => rfl
    | none => exact Nat.add_right_comm ..

/-- A call returns by how many pairs the list has grown. -/
theorem countAdded_add_length (l : CheckList) (ours theirs : List Candidate) :
    l.countAdded ours theirs + l.pairs.length = (l.addPairs ours theirs).pairs.length := by
  rw [countAdded, countNew_add_length, addPairs, ← (unfreeze_thaws ..).length_eq,
    (sortPairs_perm _).length_eq]

theorem sum_counts (l : CheckList) (calls : List Call) :
    (l.counts calls).sum + l.pairs.length = (l.trickle calls).pairs.length := by
  induction calls generalizing l with
  | nil => simp [counts, trickle]
  | cons c calls ih =>
    have rest := ih (l.addPairs c.ours c.theirs)
    have first := l.countAdded_add_length c.ours c.theirs
    rw [trickle, List.foldl_cons, ← trickle, ← rest, counts, List.sum_cons]
    omega

section New
variable {controlling : Bool} {calls : List Call}

/-- The pairs of a list that was new before the calls. -/
abbrev trickled (controlling : Bool) (calls : List Call) : List Pair :=
  ((new controlling).trickle calls).pairs

theorem trickled_sums : Sums (offers controlling calls) (trickled controlling calls) :=
  @Sums.trickle [] (new controlling) sums_nil calls

/-- There is a pair for each address that is offered, and for no other one. -/
theorem mem_trickled_remotes {address : SocketAddress} :
    address ∈ (trickled controlling calls).map Pair.remote ↔
      ∃ near far, Offered calls near far ∧ far.address = address := by
  constructor
  · intro h
    obtain ⟨p, hp, rfl⟩ := List.mem_map.1 h
    obtain ⟨b, hb, taken⟩ := (trickled_sums.best p hp).taken
    obtain ⟨near, far, offered, rfl⟩ := mem_offers.1 hb
    exact ⟨near, far, offered, (congrArg Pair.remote taken).symm⟩
  · rintro ⟨near, far, offered, rfl⟩
    exact trickled_sums.complete _ (mem_offers.2 ⟨near, far, offered, rfl⟩)

/-- A pair is one of the best combinations for its address. -/
theorem best_of_mem_trickled {p : Pair} (hp : p ∈ trickled controlling calls) :
    Offered calls p.ours p.theirs ∧ p.Apt controlling ∧
      ∀ near far, Offered calls near far → far.address = p.remote →
        pairPriority near.priority far.priority controlling ≤ p.priority := by
  have best := trickled_sums.best p hp
  obtain ⟨b, hb, taken⟩ := best.taken
  obtain ⟨near, far, offered, rfl⟩ := mem_offers.1 hb
  have apt : (withCandidates p (Pair.new near far controlling)).Apt controlling := by
    obtain ⟨_, _, _, _, version⟩ := offered
    exact ⟨version, rfl, rfl⟩
  refine ⟨?_, taken ▸ apt, fun near' far' offered' same => ?_⟩
  · rw [taken]
    exact offered
  · exact best.highest _ (mem_offers.2 ⟨near', far', offered', rfl⟩) same

/-- Calls that offer the same combinations come to the same addresses and priorities. -/
theorem trickled_perm {calls' : List Call}
    (same : ∀ near far, Offered calls near far ↔ Offered calls' near far) :
    ((trickled controlling calls).map fun p => (p.remote, p.priority)).Perm
      ((trickled controlling calls').map fun p => (p.remote, p.priority)) := by
  have distinct (calls : List Call) :
      ((trickled controlling calls).map fun p => (p.remote, p.priority)).Nodup := by
    refine List.Nodup.of_map Prod.fst ?_
    rw [List.map_map]
    exact trickled_sums.distinct
  have sameOffers : ∀ b, b ∈ offers controlling calls ↔ b ∈ offers controlling calls' := by
    intro b
    simp only [mem_offers, same]
  refine (List.perm_ext_iff_of_nodup (distinct _) (distinct _)).2 fun ⟨address, priority⟩ => ?_
  rw [trickled_sums.mem_entries, trickled_sums.mem_entries]
  simp only [sameOffers]

end New

/-- **The order in which candidates trickle in does not matter.** After any calls for pairing on a
new list there is just one pair for each address of a combination that some call offers, and none
for any other address. A pair is formed by one of the combinations that are offered for its address,
of the highest priority among these. The calls return as many pairs as there are. So calls that
offer the same combinations, in whatever order and however often, come to the same addresses and
priorities. -/
theorem trickle_order_free (controlling : Bool) (calls : List Call) :
    let pairs := ((new controlling).trickle calls).pairs
    (pairs.map Pair.remote).Nodup ∧
      (∀ address, address ∈ pairs.map Pair.remote ↔
        ∃ near far, Offered calls near far ∧ far.address = address) ∧
      (∀ p ∈ pairs, Offered calls p.ours p.theirs ∧ p.Apt controlling ∧
        ∀ near far, Offered calls near far → far.address = p.remote →
          pairPriority near.priority far.priority controlling ≤ p.priority) ∧
      ((new controlling).counts calls).sum = pairs.length ∧
      ∀ calls', (∀ near far, Offered calls near far ↔ Offered calls' near far) →
        (pairs.map fun p => (p.remote, p.priority)).Perm
          (((new controlling).trickle calls').pairs.map fun p => (p.remote, p.priority)) :=
  ⟨trickled_sums.distinct, fun _ => mem_trickled_remotes, fun _ => best_of_mem_trickled,
    sum_counts (new controlling) calls, fun _ => trickled_perm⟩

/-- An address that the peer names twice, the second time with a higher priority, and in one call
the other way round. -/
theorem trickle_order_free_named_twice :
    let near := Candidate.host (.v4 ⟨10, 0, 0, 1⟩ 4000)
    let far (priority : UInt32) : Candidate :=
      { Candidate.host (.v4 ⟨10, 0, 0, 2⟩ 5000) with priority }
    let calls : List Call := [⟨[near], [far 5]⟩, ⟨[near], [far 4294967295]⟩]
    let calls' : List Call := [⟨[near], [far 4294967295, far 5]⟩]
    (∀ a b, Offered calls a b ↔ Offered calls' a b) ∧
      (((new true).trickle calls).pairs.map fun p => (p.remote, p.priority)).Perm
        (((new true).trickle calls').pairs.map fun p => (p.remote, p.priority)) := by
  intro near far calls calls'
  have same : ∀ a b, Offered calls a b ↔ Offered calls' a b := by
    intro a b
    simp only [Offered, calls, calls', List.mem_cons, List.not_mem_nil, or_false,
      exists_eq_or_imp, exists_eq_left]
    tauto
  obtain ⟨-, -, -, -, free⟩ := trickle_order_free true calls
  exact ⟨same, free calls' same⟩

end Parley.CheckList
