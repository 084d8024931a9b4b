import Parley.Proofs.Link.CheckList.Choice
import Parley.Proofs.Link.Traffic
/-!
The form of a check list.

A list in form (`InForm`) has one pair for each address, in the order of their priority; a pair is
what its candidates and the role make of it; and a check that is under way knows its identifier, its
times and its sends. No action that fits the list breaks any of that (`InForm.act`), although pairing
replaces candidates and sorts. In a list in form an address names its pair
(`InForm.findByRemote_iff`), and a check that is begun while pairs wait is of one of these of the
highest priority (`InForm.nextRequest_best`).
-/
namespace Parley

/-- An element that is missing can be put behind a list of distinct ones. -/
theorem nodup_append_singleton {α : Type} {l : List α} {a : α} (h : l.Nodup) (ha : a ∉ l) :
    (l ++ [a]).Nodup := List.concat_eq_append ▸ h.concat ha

theorem map_eq_of_forall₂ {α β γ : Type} {R : α → β → Prop} {f : α → γ} {g : β → γ}
    (same : ∀ a b, R a b → g b = f a) {l : List α} {m : List β} (h : List.Forall₂ R l m) :
    m.map g = l.map f := by
  induction h with
  | nil => rfl
  | cons h _ ih => rw [List.map_cons, List.map_cons, same _ _ h, ih]

namespace Pair

/-- A pair is what its candidates and the role make of it: they are of one version, and its priority
and its foundation are those that the two have together. -/
structure Apt (p : Pair) (controlling : Bool) : Prop where
  version : p.ours.address.isV4 = p.theirs.address.isV4
  priority : p.priority = pairPriority p.ours.priority p.theirs.priority controlling
  foundation : p.foundation = p.ours.foundation ++ ":" ++ p.theirs.foundation

/-- What a pair knows of its check when one is under way. -/
structure Tracked (p : Pair) : Prop where
  transaction : p.transaction.isSome = true
  firstSent : p.firstSent.isSome = true
  lastSent : p.lastSent.isSome = true
  sent : 1 ≤ p.sends
  sends_le : p.sends ≤ maxSends

theorem startCheck_tracked (p : Pair) (now : Nat) (id : TransactionId) :
    (p.startCheck now id).1.Tracked :=
  ⟨rfl, rfl, rfl, Nat.le_refl 1, show 1 ≤ 5 by decide⟩

end Pair

namespace CheckList

/-- The addresses of the pairs, in order. -/
def remotes (l : CheckList) : List SocketAddress := l.pairs.map Pair.remote

theorem mem_remotes {l : CheckList} {address : SocketAddress} :
    address ∈ l.remotes ↔ ∃ p ∈ l.pairs, p.remote = address := List.mem_map

/-- A check list as it should be. -/
structure InForm (l : CheckList) : Prop where
  distinct : l.remotes.Nodup
  sorted : l.pairs.Pairwise fun p q => q.priority ≤ p.priority
  apt : ∀ p ∈ l.pairs, p.Apt l.controlling
  tracked : ∀ p ∈ l.pairs, p.state = .inProgress → p.Tracked

theorem new_inForm (controlling : Bool) : (new controlling).InForm :=
  ⟨List.nodup_nil, .nil, by simp [new], by simp [new]⟩

/-! ### Addresses -/

theorem Improves.remote {offered : List Pair} {p q : Pair} (h : Improves offered p q) :
    q.remote = p.remote := by
  rcases h with rfl | ⟨b, -, hremote, -, rfl⟩
  · rfl
  · exact hremote

theorem Thaws.remote {p q : Pair} (h : Thaws p q) : q.remote = p.remote := by
  rcases h with rfl | ⟨-, rfl⟩ <;> rfl

theorem Thaws.priority {p q : Pair} (h : Thaws p q) : q.priority = p.priority := by
  rcases h with rfl | ⟨-, rfl⟩ <;> rfl

/-- Offering pairs one after the other keeps addresses distinct, and adds just those that are
missing. -/
theorem foldl_offer_remotes (offered : List Pair) {pairs : List Pair}
    (h : (pairs.map Pair.remote).Nodup) :
    ((offered.foldl offer pairs).map Pair.remote).Nodup ∧
      ∀ address, address ∈ (offered.foldl offer pairs).map Pair.remote ↔
        address ∈ pairs.map Pair.remote ∨ address ∈ offered.map Pair.remote := by
  induction offered generalizing pairs with
  | nil => simpa using h
  | cons b bs ih =>
    obtain ⟨distinct, members⟩ : ((offer pairs b).map Pair.remote).Nodup ∧
        ∀ address, address ∈ (offer pairs b).map Pair.remote ↔
          address ∈ pairs.map Pair.remote ∨ address = b.remote := by
      rcases offer_cases pairs b with ⟨himproved, hthere⟩ | ⟨happend, hmissing⟩
      · rw [map_eq_of_forall₂ (fun _ _ h => Improves.remote h) himproved]
        refine ⟨h, fun address => ⟨.inl, ?_⟩⟩
        rintro (hmem | rfl)
        · exact hmem
        · exact hthere
      · rw [happend, List.map_append, List.map_singleton]
        exact ⟨nodup_append_singleton h hmissing, fun address => by simp⟩
    obtain ⟨hnodup, hmem⟩ := ih distinct
    refine ⟨hnodup, fun address => ?_⟩
    rw [List.foldl_cons, hmem, members, List.map_cons, List.mem_cons, or_assoc]

theorem addPairs_remotes (l : CheckList) (ours theirs : List Candidate) :
    (l.addPairs ours theirs).remotes.Perm
      (((combinations ours theirs l.controlling).foldl offer l.pairs).map Pair.remote) := by
  have thawed := map_eq_of_forall₂ (fun _ _ h => Thaws.remote h) (unfreeze_thaws
    (activeFoundations (sortPairs ((combinations ours theirs l.controlling).foldl offer l.pairs)))
    (sortPairs ((combinations ours theirs l.controlling).foldl offer l.pairs)))
  rw [remotes, addPairs, thawed]
  exact (sortPairs_perm _).map Pair.remote

theorem addPairs_distinct {l : CheckList} (h : l.remotes.Nodup) (ours theirs : List Candidate) :
    (l.addPairs ours theirs).remotes.Nodup :=
  (addPairs_remotes l ours theirs).nodup_iff.2 (foldl_offer_remotes _ h).1

/-- After pairing there is a pair for an address if there was one, or if it is one of theirs and we
have a candidate of its version. -/
theorem mem_addPairs_remotes {l : CheckList} (h : l.remotes.Nodup) {ours theirs : List Candidate}
    {address : SocketAddress} : address ∈ (l.addPairs ours theirs).remotes ↔
      address ∈ l.remotes ∨ address ∈ theirs.map Candidate.address ∧
        ∃ near ∈ ours, near.address.isV4 = address.isV4 := by
  rw [(addPairs_remotes l ours theirs).mem_iff, (foldl_offer_remotes _ h).2]
  refine or_congr_right ?_
  simp only [List.mem_map, mem_combinations]
  constructor
  · rintro ⟨_, ⟨near, hnear, far, hfar, hv, rfl⟩, rfl⟩
    exact ⟨⟨far, hfar, rfl⟩, near, hnear, hv⟩
  · rintro ⟨⟨far, hfar, rfl⟩, near, hnear, hv⟩
    exact ⟨_, ⟨near, hnear, far, hfar, hv, rfl⟩, rfl⟩

/-- An address that a check has come from is added when it is missing. -/
theorem addPeerReflexive_remotes {l : CheckList} {ours theirs : Candidate}
    (h : l.findByRemote theirs.address = none) :
    (l.addPeerReflexive ours theirs).remotes.Perm (l.remotes ++ [theirs.address]) := by
  simp only [addPeerReflexive, h, remotes]
  refine ((sortPairs_perm _).map Pair.remote).trans (.of_eq ?_)
  rw [List.map_append]
  rfl

theorem act_remotes (l : CheckList) {x : Action} (hx : x.InPlace) :
    (l.act x).remotes = l.remotes :=
  map_eq_of_forall₂ (fun _ _ h => Evolves.remote h) (act_inPlace l hx)

theorem acts_remotes {l : CheckList} {xs : List Action} (hxs : ∀ x ∈ xs, x.InPlace) :
    (l.acts xs).remotes = l.remotes := by
  induction xs generalizing l with
  | nil => rfl
  | cons x xs ih =>
    exact (ih fun y hy => hxs y (List.mem_cons_of_mem _ hy)).trans
      (act_remotes l (hxs x (List.mem_cons_self ..)))

/-! ### The order -/

/-- Sorting leaves the pairs by falling priority. -/
theorem sortPairs_sorted (pairs : List Pair) :
    (sortPairs pairs).Pairwise fun p q => q.priority ≤ p.priority := by
  have total : Std.Total fun p q : Pair => q.priority ≤ p.priority :=
    ⟨fun p q => UInt64.le_total q.priority p.priority⟩
  have trans : IsTrans Pair fun p q => q.priority ≤ p.priority :=
    ⟨fun _ _ _ h h' => UInt64.le_trans h' h⟩
  rw [sortPairs_eq_insertionSort]
  exact List.pairwise_insertionSort _ pairs

/-- Pairs whose priorities stay where they are stay in order. -/
theorem sorted_of_priorities {pairs pairs' : List Pair}
    (h : pairs.Pairwise fun p q => q.priority ≤ p.priority)
    (same : pairs'.map Pair.priority = pairs.map Pair.priority) :
    pairs'.Pairwise fun p q => q.priority ≤ p.priority := by
  rw [← List.pairwise_map (f := Pair.priority) (R := fun u v => v ≤ u)] at h ⊢
  rwa [same]

theorem Evolves.priority {l : CheckList} {x : Action} {p q : Pair} (h : Evolves l x p q)
    (hx : x.InPlace) : q.priority = p.priority := by
  cases h with
  | improved => exact hx.elim
  | triggered h => rcases h with h | h <;> simp [Pair.trigger, h]
  | _ => rfl

/-! ### Every action -/

/-- An action that fits a list: it does not begin it anew, and what it learns of is of one
version with the candidate of ours that it is paired with. -/
def Action.Fits : Action → Prop
  | .reset _ => False
  | .learn ours theirs => ours.address.isV4 = theirs.address.isV4
  | _ => True

theorem act_controlling (l : CheckList) {x : Action} (hx : ∀ controlling, x ≠ .reset controlling) :
    (l.act x).controlling = l.controlling := by
  cases x with
  | reset controlling => exact absurd rfl (hx controlling)
  | start now =>
    simp only [act, start]
    split <;> rfl
  | learn ours theirs =>
    simp only [act, addPeerReflexive]
    split <;> rfl
  | send now id =>
    rcases nextRequest_cases l now id with h | ⟨_, _, _, _, _, -, -, -, h⟩ <;> simp [act, h]
  | answer r =>
    rcases handleResponse_cases l r with ⟨h, -⟩ | ⟨_, _, _, -, -, -, h⟩ <;> simp [act, h]
  | nominate i now id =>
    rcases nominate_cases l i now id with h | ⟨_, -, -, h⟩ <;> simp [act, h]
  | pair | trigger | mark | expire => rfl

theorem Evolves.apt {l : CheckList} {x : Action} {p q : Pair} (h : Evolves l x p q)
    (hp : p.Apt l.controlling) : q.Apt l.controlling := by
  cases h with
  | improved _ _ hversion => exact ⟨hversion, rfl, rfl⟩
  | triggered h => rcases h with h | h <;> simpa [Pair.trigger, h] using ⟨hp.1, hp.2, hp.3⟩
  | _ => exact ⟨hp.version, hp.priority, hp.foundation⟩

theorem Formed.apt {l : CheckList} {x : Action} {q : Pair} (h : Formed l x q) (hx : x.Fits) :
    q.Apt l.controlling := by
  cases h with
  | paired _ _ hversion => exact ⟨hversion, rfl, rfl⟩
  | learned => exact ⟨hx, rfl, rfl⟩

/-- A check under way is one that was, one that begins now, or one whose request goes out again,
which happens as long as there are sends left. -/
theorem Evolves.tracked {l : CheckList} {x : Action} {p q : Pair} (h : Evolves l x p q)
    (hp : p.state = .inProgress → p.Tracked) (hq : q.state = .inProgress) : q.Tracked := by
  cases h with
  | same => exact hp hq
  | marked =>
    have before := hp hq
    exact ⟨before.1, before.2, before.3, before.4, before.5⟩
  | started | nominated => exact Pair.startCheck_tracked ..
  | resent due ht =>
    simp only [Pair.needsRetransmit, Bool.and_eq_true, beq_iff_eq, decide_eq_true_eq] at due
    have before := hp due.1.1
    exact ⟨before.transaction, before.firstSent, rfl, Nat.le_succ_of_le before.sent, due.1.2⟩
  | unfrozen | released | expired => cases hq
  | improved _ _ _ _ hidle hnext =>
    simp only at hq
    rcases hnext with h | ⟨-, h⟩
    · rw [← h, hq] at hidle
      simp at hidle
    · rw [hq] at h
      cases h
  | triggered hidle => rcases hidle with h | h <;> simp [Pair.trigger, h] at hq
  | answered =>
    simp only at hq
    split at hq <;> cases hq

/-- **An action leaves a list in form.** -/
theorem InForm.act {l : CheckList} (h : l.InForm) {x : Action} (hx : x.Fits) :
    (l.act x).InForm := by
  have kept : ∀ controlling, x ≠ .reset controlling := by
    rintro controlling rfl
    exact hx
  have inPlace : x.InPlace →
      (l.act x).remotes.Nodup ∧ (l.act x).pairs.Pairwise fun p q => q.priority ≤ p.priority :=
    fun hplace => ⟨(act_remotes l hplace).symm ▸ h.distinct, sorted_of_priorities h.sorted
      (map_eq_of_forall₂ (fun _ _ h => h.priority hplace) (act_inPlace l hplace))⟩
  have order : (l.act x).remotes.Nodup ∧
      (l.act x).pairs.Pairwise fun p q => q.priority ≤ p.priority := by
    cases x with
    | reset => exact hx.elim
    | pair ours theirs =>
      refine ⟨addPairs_distinct h.distinct ours theirs, ?_⟩
      exact sorted_of_priorities (sortPairs_sorted _)
        (map_eq_of_forall₂ (fun _ _ h => Thaws.priority h) (unfreeze_thaws _ _))
    | learn ours theirs =>
      cases hfind : l.findByRemote theirs.address with
      | some i => simpa [CheckList.act, addPeerReflexive, hfind] using ⟨h.distinct, h.sorted⟩
      | none =>
        have missing : theirs.address ∉ l.remotes := by
          intro hmem
          obtain ⟨p, hp, hremote⟩ := mem_remotes.1 hmem
          exact findByRemote_eq_none.1 hfind p hp hremote
        refine ⟨(addPeerReflexive_remotes hfind).nodup_iff.2 ?_, ?_⟩
        · exact nodup_append_singleton h.distinct missing
        · simp only [CheckList.act, addPeerReflexive, hfind]
          exact sortPairs_sorted _
    | _ => exact inPlace trivial
  refine ⟨order.1, order.2, fun q hq => ?_, fun q hq hstate => ?_⟩
  · rw [act_controlling l kept]
    rcases act_pairs hq with ⟨p, hp, hev⟩ | hformed
    · exact hev.apt (h.apt p hp)
    · exact hformed.apt hx
  · rcases act_pairs hq with ⟨p, hp, hev⟩ | hformed
    · exact hev.tracked (h.tracked p hp) hstate
    · rcases hformed.idle with hidle | hidle <;> simp [hstate] at hidle

theorem acts_inForm {l : CheckList} (h : l.InForm) {xs : List Action} (hxs : ∀ x ∈ xs, x.Fits) :
    (l.acts xs).InForm ∧ (l.acts xs).controlling = l.controlling := by
  induction xs generalizing l with
  | nil => exact ⟨h, rfl⟩
  | cons x xs ih =>
    have first := hxs x (List.mem_cons_self ..)
    obtain ⟨hform, hrole⟩ := ih (h.act first) fun y hy => hxs y (List.mem_cons_of_mem _ hy)
    refine ⟨hform, hrole.trans (act_controlling l ?_)⟩
    rintro controlling rfl
    exact first

/-! ### What the form is for -/

/-- An address names its pair. -/
theorem InForm.findByRemote_iff {l : CheckList} (h : l.InForm) {address : SocketAddress}
    {index : Nat} : l.findByRemote address = some index ↔
      ∃ p, l.pairs[index]? = some p ∧ p.remote = address := by
  refine ⟨findByRemote_eq_some, ?_⟩
  rintro ⟨p, hp, rfl⟩
  obtain ⟨hlt, rfl⟩ := List.getElem?_eq_some_iff.1 hp
  refine List.findIdx?_eq_some_iff_getElem.2 ⟨hlt, by simp, fun j hj hremote => ?_⟩
  have differ := List.pairwise_iff_getElem.1 h.distinct j index
    (by simp only [remotes, List.length_map]; omega) (by simpa [remotes] using hlt) hj
  simp only [remotes, List.getElem_map] at differ
  exact differ (by simpa using hremote)

/-- A request is that of a check under way, which goes out again, or begins the check of the first
pair that waits, if one does. -/
theorem schedule_first {pairs pairs' : List Pair} {now : Nat} {id : TransactionId} {i : Nat}
    {r : BindingRequest} {d : SocketAddress} (h : schedule pairs now id = some (pairs', i, r, d)) :
    ∃ front p back, pairs = front ++ p :: back ∧ i = front.length ∧ d = p.remote ∧
      (p.state = .inProgress ∧ p.transaction = some r.id ∨
        ((∃ w ∈ pairs, w.state = .waiting) →
          p.state = .waiting ∧ ∀ w ∈ front, w.state ≠ .waiting)) := by
  unfold schedule at h
  split at h
  · rename_i next hnext
    cases h
    obtain ⟨front, p, q, back, hl, -, hi, hf, -⟩ := updateFirst_eq_some hnext
    obtain ⟨t, due, ht, -, rfl, rfl⟩ := resend_eq_some hf
    simp only [Pair.needsRetransmit, Bool.and_eq_true, beq_iff_eq] at due
    exact ⟨front, p, back, hl, hi, rfl, .inl ⟨due.1.1, ht⟩⟩
  · split at h
    · rename_i next hnext
      cases h
      obtain ⟨front, p, q, back, hl, -, hi, hf, hfront⟩ := updateFirst_eq_some hnext
      obtain ⟨hstate, -, -, rfl⟩ := startIn_eq_some hf
      exact ⟨front, p, back, hl, hi, rfl, .inr fun _ =>
        ⟨hstate, fun w hw => startIn_eq_none.1 (hfront w hw)⟩⟩
    · rename_i hnone
      split at h
      · cases h
      · obtain ⟨front, p, q, back, hl, -, hi, hf, -⟩ := updateFirst_eq_some h
        obtain ⟨-, -, -, rfl⟩ := startIn_eq_some hf
        refine ⟨front, p, back, hl, hi, rfl, .inr ?_⟩
        rintro ⟨w, hw, hwaits⟩
        exact absurd hwaits (startIn_eq_none.1 (updateFirst_eq_none.1 hnone w hw))

/-- A check that is begun while pairs wait is of one of these of the highest priority. -/
theorem InForm.nextRequest_best {l : CheckList} (h : l.InForm) {now : Nat} {id : TransactionId}
    {check : Check} (hcheck : (l.nextRequest now id).2 = some check) :
    ∃ p, l.pairs[check.index]? = some p ∧ check.destination = p.remote ∧
      (p.state = .inProgress ∧ p.transaction = some check.request.id ∨
        ((∃ w ∈ l.pairs, w.state = .waiting) → p.state = .waiting ∧
          ∀ w ∈ l.pairs, w.state = .waiting → w.priority ≤ p.priority)) := by
  unfold nextRequest at hcheck
  split at hcheck
  · split at hcheck
    · rename_i pairs' i r d hschedule
      cases hcheck
      obtain ⟨front, p, back, hl, rfl, rfl, hturn⟩ := schedule_first hschedule
      refine ⟨p, by simp [hl], rfl, hturn.imp_right fun first waits => ?_⟩
      obtain ⟨hstate, hfront⟩ := first waits
      refine ⟨hstate, fun w hw hwaits => ?_⟩
      have sorted := h.sorted
      rw [hl] at sorted hw
      rcases List.mem_append.1 hw with hw | hw
      · exact absurd hwaits (hfront w hw)
      · rcases List.mem_cons.1 hw with rfl | hw
        · exact UInt64.le_refl _
        · exact (List.pairwise_cons.1 (List.pairwise_append.1 sorted).2.1).1 w hw
    · cases hcheck
  · cases hcheck

end CheckList
end Parley
