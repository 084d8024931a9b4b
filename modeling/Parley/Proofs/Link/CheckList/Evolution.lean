import Parley.Proofs.Link.CheckList.Pairing
/-!
What an action does to the pairs of a check list.

`evolution` says it of every action at once: the pairs after it are those before, each changed in
one of the ways of `Evolves`, and those that it has formed, in some order. `sends_eq_some` says
which pair a request is sent for. What is claimed of every pair of every agent is proved along
these two, and the operations themselves are opened in this module and in `Pairing` only.
-/
namespace Parley

/-- The element that was replaced is the first for which there was a replacement. -/
theorem updateFirst_eq_some {α β : Type} {f : α → Option (α × β)} {l l' : List α} {i : Nat} {b : β}
    (h : updateFirst f l = some (l', i, b)) :
    ∃ front a a' back, l = front ++ a :: back ∧ l' = front ++ a' :: back ∧ i = front.length ∧
      f a = some (a', b) ∧ ∀ x ∈ front, f x = none := by
  induction l generalizing l' i with
  | nil => cases h
  | cons a as ih =>
    rw [updateFirst] at h
    split at h
    · rename_i new b' hf
      cases h
      exact ⟨[], a, new, as, rfl, rfl, rfl, hf, by simp⟩
    · rename_i hf
      obtain ⟨⟨rest, j, b'⟩, hrest, heq⟩ := Option.map_eq_some_iff.1 h
      cases heq
      obtain ⟨front, c, c', back, rfl, rfl, rfl, hc, hfront⟩ := ih hrest
      refine ⟨a :: front, c, c', back, rfl, rfl, rfl, hc, ?_⟩
      intro x hx
      rcases List.mem_cons.1 hx with rfl | hx
      · exact hf
      · exact hfront x hx

theorem updateFirst_eq_none {α β : Type} {f : α → Option (α × β)} {l : List α} :
    updateFirst f l = none ↔ ∀ a ∈ l, f a = none := by
  induction l with
  | nil => simp [updateFirst]
  | cons a as ih =>
    rw [updateFirst]
    cases hf : f a with
    | none => simp [hf, ih]
    | some r => simp [hf]

namespace CheckList

theorem evolves_modify {l : CheckList} {x : Action} {i : Nat} {f : Pair → Pair}
    (h : ∀ p, l.pairs[i]? = some p → Evolves l x p (f p)) :
    List.Forall₂ (Evolves l x) l.pairs (l.pairs.modify i f) := by
  rw [List.forall₂_iff_get]
  refine ⟨by simp, fun j hj hj' => ?_⟩
  simp only [List.get_eq_getElem, List.getElem_modify]
  split
  · rename_i hij
    subst hij
    exact h _ (List.getElem?_eq_getElem hj)
  · exact .same

theorem evolves_map {l : CheckList} {x : Action} {f : Pair → Pair} (h : ∀ p, Evolves l x p (f p)) :
    List.Forall₂ (Evolves l x) l.pairs (l.pairs.map f) := by
  rw [List.forall₂_map_right_iff, List.forall₂_same]
  exact fun p _ => h p

/-- One pair in its place evolves and the others stay. -/
theorem evolves_middle {l : CheckList} {x : Action} (front back : List Pair) {p q : Pair}
    (h : Evolves l x p q) :
    List.Forall₂ (Evolves l x) (front ++ p :: back) (front ++ q :: back) := by
  have stay : ∀ ps : List Pair, List.Forall₂ (Evolves l x) ps ps :=
    fun ps => List.forall₂_same.2 fun _ _ => .same
  exact List.rel_append (stay front) (.cons h (stay back))

theorem trigger_of_busy {p : Pair} (h : ¬(p.state = .frozen ∨ p.state = .failed)) :
    p.trigger = p := by
  cases hs : p.state <;> simp_all [Pair.trigger]

/-- Whose turn it is to be sent a request, and how its pair is left: one that is due again goes
first, then one that waits, then one that is held back when none is under way. -/
inductive Turn (pairs : List Pair) (now : Nat) (id : TransactionId) :
    Pair → Pair → BindingRequest → Prop
  | resent {p t} : p.needsRetransmit now → p.transaction = some t →
      Turn pairs now id p { p with sends := p.sends + 1, lastSent := some now } (p.request t)
  | waiting {p} : p.state = .waiting → (∀ x ∈ pairs, resend now x = none) →
      Turn pairs now id p (p.startCheck now id).1 (p.request id)
  | frozen {p} : p.state = .frozen → (∀ x ∈ pairs, resend now x = none) →
      (∀ x ∈ pairs, x.state ≠ .waiting) → (∀ x ∈ pairs, x.state ≠ .inProgress) →
      Turn pairs now id p (p.startCheck now id).1 (p.request id)

theorem resend_eq_some {now : Nat} {p q : Pair} {r : BindingRequest} {d : SocketAddress}
    (h : resend now p = some (q, r, d)) : ∃ t, p.needsRetransmit now = true ∧
      p.transaction = some t ∧ q = { p with sends := p.sends + 1, lastSent := some now } ∧
      r = p.request t ∧ d = p.remote := by
  unfold resend at h
  split at h
  · rename_i due
    simp only [Pair.retransmit, Option.map_map, Option.map_eq_some_iff] at h
    obtain ⟨t, ht, heq⟩ := h
    cases heq
    exact ⟨t, due, ht, rfl, rfl, rfl⟩
  · cases h

theorem startIn_eq_some {state : CheckState} {now : Nat} {id : TransactionId} {p q : Pair}
    {r : BindingRequest} {d : SocketAddress} (h : startIn state now id p = some (q, r, d)) :
    p.state = state ∧ q = (p.startCheck now id).1 ∧ r = p.request id ∧ d = p.remote := by
  unfold startIn at h
  split at h
  · rename_i hs
    cases h
    exact ⟨hs, rfl, rfl, rfl⟩
  · cases h

theorem startIn_eq_none {state : CheckState} {now : Nat} {id : TransactionId} {p : Pair} :
    startIn state now id p = none ↔ p.state ≠ state := by
  unfold startIn
  split <;> simp_all

theorem schedule_eq_some {pairs pairs' : List Pair} {now : Nat} {id : TransactionId} {i : Nat}
    {r : BindingRequest} {d : SocketAddress} (h : schedule pairs now id = some (pairs', i, r, d)) :
    ∃ front p q back, pairs = front ++ p :: back ∧ pairs' = front ++ q :: back ∧
      i = front.length ∧ d = p.remote ∧ Turn pairs now id p q r := by
  unfold schedule at h
  split at h
  · rename_i next hnext
    cases h
    obtain ⟨front, p, q, back, hl, hl', hi, hf, -⟩ := updateFirst_eq_some hnext
    obtain ⟨t, due, ht, rfl, rfl, rfl⟩ := resend_eq_some hf
    exact ⟨front, p, _, back, hl, hl', hi, rfl, .resent due ht⟩
  · rename_i hresend
    have hresend := updateFirst_eq_none.1 hresend
    split at h
    · rename_i next hnext
      cases h
      obtain ⟨front, p, q, back, hl, hl', hi, hf, -⟩ := updateFirst_eq_some hnext
      obtain ⟨hstate, rfl, rfl, rfl⟩ := startIn_eq_some hf
      exact ⟨front, p, _, back, hl, hl', hi, rfl, .waiting hstate hresend⟩
    · rename_i hwaiting
      have hwaiting := updateFirst_eq_none.1 hwaiting
      split at h
      · cases h
      · rename_i hbusy
        obtain ⟨front, p, q, back, hl, hl', hi, hf, -⟩ := updateFirst_eq_some h
        obtain ⟨hstate, rfl, rfl, rfl⟩ := startIn_eq_some hf
        refine ⟨front, p, _, back, hl, hl', hi, rfl, .frozen hstate hresend ?_ ?_⟩
        · exact fun x hx => startIn_eq_none.1 (hwaiting x hx)
        · intro x hx hs
          exact hbusy (List.any_eq_true.2 ⟨x, hx, by simp [hs]⟩)

/-- What asking for the next request does: nothing, or one pair has its turn. -/
theorem nextRequest_cases (l : CheckList) (now : Nat) (id : TransactionId) :
    l.nextRequest now id = (l, none) ∨
      ∃ front p q back r, l.pairs = front ++ p :: back ∧ l.mayCheck now = true ∧
        Turn l.pairs now id p q r ∧
        l.nextRequest now id = ({ l with pairs := front ++ q :: back, lastCheck := some now },
          some ⟨front.length, r, p.remote⟩) := by
  unfold nextRequest
  split
  · rename_i hmay
    split
    · rename_i pairs' i r d hnext
      obtain ⟨front, p, q, back, hl, rfl, rfl, rfl, turn⟩ := schedule_eq_some hnext
      exact .inr ⟨front, p, q, back, r, hl, hmay, turn, rfl⟩
    · exact .inl rfl
  · exact .inl rfl

theorem Turn.evolves {l : CheckList} {now : Nat} {id : TransactionId} {p q : Pair}
    {r : BindingRequest} (h : Turn l.pairs now id p q r)
    (hsends : l.sends (.send now id) = some (p.remote, r)) : Evolves l (.send now id) p q := by
  cases h with
  | resent due ht => exact .resent due ht hsends
  | waiting hs => exact .started (.inl hs) hsends
  | frozen hs => exact .started (.inr hs) hsends

/-- What taking a response does: nothing, or the pair that waits for it has its answer, and after a
success the pairs of its foundation are let go. -/
theorem handleResponse_cases (l : CheckList) (r : BindingResponse) :
    l.handleResponse r = (l, none) ∧ (∀ p ∈ l.pairs, p.awaits r.id = false) ∨
      ∃ front p back, l.pairs = front ++ p :: back ∧ p.awaits r.id = true ∧
        (∀ x ∈ front, x.awaits r.id = false) ∧
        l.handleResponse r =
          ({ l with pairs :=
              let pairs := front ++
                { p with state := if r.success then .succeeded else .failed } :: back
              if r.success then pairs.map (release p.foundation) else pairs },
            some front.length) := by
  have refused : ∀ x : Pair, ((x.takeResponse r).map fun q => (q, x.foundation)) = none →
      x.awaits r.id = false := by
    intro x hx
    unfold Pair.takeResponse at hx
    split at hx
    · cases hx
    · rename_i h
      simpa using h
  unfold handleResponse
  split
  · rename_i pairs i foundation hfirst
    right
    obtain ⟨front, p, q, back, hl, rfl, rfl, hf, hfront⟩ := updateFirst_eq_some hfirst
    obtain ⟨q', hq, heq⟩ := Option.map_eq_some_iff.1 hf
    cases heq
    unfold Pair.takeResponse at hq
    split at hq
    · rename_i hawaits
      cases hq
      exact ⟨front, p, back, hl, hawaits, fun x hx => refused x (hfront x hx), rfl⟩
    · cases hq
  · rename_i hnone
    left
    have hnone := updateFirst_eq_none.1 hnone
    exact ⟨rfl, fun x hx => refused x (hnone x hx)⟩

theorem handleResponse_evolution (l : CheckList) (r : BindingResponse) :
    List.Forall₂ (Evolves l (.answer r)) l.pairs (l.handleResponse r).1.pairs := by
  rcases handleResponse_cases l r with ⟨h, -⟩ | ⟨front, p, back, hl, hawaits, -, h⟩
  · rw [h]
    exact List.forall₂_same.2 fun _ _ => .same
  · rw [h]
    have answered := evolves_middle front back (Evolves.answered (l := l) hawaits)
    rw [← hl] at answered
    cases hr : r.success
    · simpa [hr] using answered
    · simp only [hr, if_true] at answered ⊢
      -- A pair that is let go now was held back before the answer, so it is not the answered one.
      have thaw : ∀ x y z : Pair, Evolves l (.answer r) x y ∧ (y = x ∨ y.state = .succeeded) →
          z = release p.foundation y → Evolves l (.answer r) x z := by
        rintro x y z ⟨h, rfl | hdone⟩ rfl
        · unfold release
          split
          · rename_i hguard
            exact .released hr hguard.1
          · exact h
        · rwa [release, if_neg (by simp [hdone])]
      have stay : ∀ ps : List Pair, List.Forall₂
          (fun x y => Evolves l (.answer r) x y ∧ (y = x ∨ y.state = .succeeded)) ps ps :=
        fun ps => List.forall₂_same.2 fun _ _ => ⟨.same, .inl rfl⟩
      have hp : Evolves l (.answer r) p { p with state := .succeeded } := by
        simpa [hr] using Evolves.answered (l := l) (r := r) hawaits
      rw [hl]
      refine forall₂_compose thaw
        (List.rel_append (stay front) (.cons ⟨hp, .inr rfl⟩ (stay back))) ?_
      rw [List.forall₂_map_right_iff, List.forall₂_same]
      exact fun _ _ => rfl

theorem nextRequest_evolution (l : CheckList) (now : Nat) (id : TransactionId) :
    List.Forall₂ (Evolves l (.send now id)) l.pairs (l.nextRequest now id).1.pairs := by
  rcases nextRequest_cases l now id with h | ⟨front, p, q, back, r, hl, -, turn, h⟩
  · rw [h]
    exact List.forall₂_same.2 fun _ _ => .same
  · have hsends : l.sends (.send now id) = some (p.remote, r) := by simp [sends, h]
    have hevolves := evolves_middle front back (turn.evolves hsends)
    rw [← hl] at hevolves
    rw [h]
    exact hevolves

/-- What nominating does: nothing, or a pair that works is checked again. -/
theorem nominate_cases (l : CheckList) (i now : Nat) (id : TransactionId) :
    l.nominate i now id = (l, none) ∨
      ∃ p, l.pairs[i]? = some p ∧ p.state = .succeeded ∧
        l.nominate i now id =
          ({ l with pairs := l.pairs.set i ({ p with nominated := true }.startCheck now id).1 },
            some ({ p with nominated := true }.request id, p.remote)) := by
  unfold nominate
  split
  · rename_i p hp
    split
    · rename_i hstate
      exact .inr ⟨p, hp, hstate, rfl⟩
    · exact .inl rfl
  · exact .inl rfl

theorem nominate_evolution (l : CheckList) (i now : Nat) (id : TransactionId) :
    List.Forall₂ (Evolves l (.nominate i now id)) l.pairs (l.nominate i now id).1.pairs := by
  rcases nominate_cases l i now id with h | ⟨p, hp, hstate, h⟩
  · rw [h]
    exact List.forall₂_same.2 fun _ _ => .same
  · have hsends : l.sends (.nominate i now id) =
        some (p.remote, { p with nominated := true }.request id) := by simp [sends, h]
    obtain ⟨hi, rfl⟩ := List.getElem?_eq_some_iff.1 hp
    rw [h, show l.pairs.set i _ = l.pairs.modify i fun _ => _ from
      (List.modify_eq_set_get _ hi).symm]
    refine evolves_modify fun q hq => ?_
    rw [hp] at hq
    cases hq
    exact .nominated hp hstate hsends

/-- An action that neither begins the list anew nor forms pairs. -/
def Action.InPlace : Action → Prop
  | .reset _ | .pair .. | .learn .. => False
  | _ => True

/-- Such an action changes pairs where they stand. -/
theorem act_inPlace (l : CheckList) {x : Action} (hx : x.InPlace) :
    List.Forall₂ (Evolves l x) l.pairs (l.act x).pairs := by
  cases x with
  | reset | pair | learn => exact hx.elim
  | start now =>
    have same : List.Forall₂ (Evolves l (.start now)) l.pairs l.pairs :=
      List.forall₂_same.2 fun _ _ => .same
    simp only [act, start]
    split <;> exact same
  | trigger i =>
    refine evolves_modify fun p _ => ?_
    by_cases h : p.state = .frozen ∨ p.state = .failed
    · exact .triggered h
    · rw [trigger_of_busy h]
      exact .same
  | mark i => exact evolves_modify fun p hp => .marked hp
  | send now id => exact nextRequest_evolution l now id
  | answer r => exact handleResponse_evolution l r
  | expire now =>
    refine evolves_map fun p => ?_
    unfold Pair.expire
    split
    · rename_i h
      exact .expired h
    · exact .same
  | nominate i now id => exact nominate_evolution l i now id

/-- **All that an action does to the pairs.** Each pair that was there evolves, and the others have
been formed; sorting may put them in another order. -/
theorem evolution (l : CheckList) {x : Action} (hx : ∀ controlling, x ≠ .reset controlling) :
    ∃ old formed, (l.act x).pairs.Perm (old ++ formed) ∧
      List.Forall₂ (Evolves l x) l.pairs old ∧ ∀ q ∈ formed, Formed l x q := by
  have inPlace : x.InPlace → ∃ old formed, (l.act x).pairs.Perm (old ++ formed) ∧
      List.Forall₂ (Evolves l x) l.pairs old ∧ ∀ q ∈ formed, Formed l x q :=
    fun h => ⟨_, [], by simp, act_inPlace l h, by simp⟩
  cases x with
  | reset controlling => exact absurd rfl (hx controlling)
  | pair ours theirs => exact addPairs_evolution l ours theirs
  | learn ours theirs =>
    have same : List.Forall₂ (Evolves l (.learn ours theirs)) l.pairs l.pairs :=
      List.forall₂_same.2 fun _ _ => .same
    cases hfind : l.findByRemote theirs.address with
    | some i => exact ⟨l.pairs, [], by simp [act, addPeerReflexive, hfind], same, by simp⟩
    | none =>
      refine ⟨l.pairs, [{ Pair.new ours theirs l.controlling with state := .waiting }], ?_, same, ?_⟩
      · simp only [act, addPeerReflexive, hfind]
        exact sortPairs_perm _
      · intro q hq
        obtain rfl := List.mem_singleton.1 hq
        exact .learned hfind
  | _ => exact inPlace trivial

/-- A pair after an action has evolved from one before or has just been formed. -/
theorem act_pairs {l : CheckList} {x : Action} {q : Pair} (h : q ∈ (l.act x).pairs) :
    (∃ p ∈ l.pairs, Evolves l x p q) ∨ Formed l x q := by
  by_cases hx : ∀ controlling, x ≠ .reset controlling
  · obtain ⟨old, formed, hperm, hold, hformed⟩ := evolution l hx
    rcases List.mem_append.1 (hperm.mem_iff.1 h) with h | h
    · exact .inl (exists_of_mem_forall₂ hold h)
    · exact .inr (hformed q h)
  · obtain ⟨controlling, hreset⟩ := not_forall.1 hx
    rw [not_not.1 hreset] at h
    cases h

/-- No pair is lost by an action that goes on with the list. -/
theorem act_evolves {l : CheckList} {x : Action} (hx : ∀ controlling, x ≠ .reset controlling)
    {p : Pair} (hp : p ∈ l.pairs) : ∃ q ∈ (l.act x).pairs, Evolves l x p q := by
  obtain ⟨old, formed, hperm, hold, -⟩ := evolution l hx
  obtain ⟨q, hq, hev⟩ := exists_of_mem_forall₂ (R := flip (Evolves l x)) hold.flip hp
  exact ⟨q, hperm.mem_iff.2 (List.mem_append_left _ hq), hev⟩

/-- A check under way is one that was, or one whose request is sent now. -/
theorem act_inProgress {l : CheckList} {x : Action} {q : Pair} (h : q ∈ (l.act x).pairs)
    (hstate : q.state = .inProgress) : ∃ p ∈ l.pairs, q.remote = p.remote ∧
      (p.state = .inProgress ∧ Stays x p q ∨ ∃ r, l.sends x = some (p.remote, r) ∧
        q.transaction = some r.id ∧ q.nominated = r.useCandidate) := by
  rcases act_pairs h with ⟨p, hp, hev⟩ | hformed
  · exact ⟨p, hp, hev.remote, hev.of_inProgress hstate⟩
  · rcases hformed.idle with hidle | hidle <;> simp [hstate] at hidle

/-- A pair that works is one that did, or one whose check is answered with success now. -/
theorem act_succeeded {l : CheckList} {x : Action} {q : Pair} (h : q ∈ (l.act x).pairs)
    (hstate : q.state = .succeeded) : ∃ p ∈ l.pairs, q.remote = p.remote ∧
      (p.state = .succeeded ∧ Stays x p q ∨ ∃ r, x = .answer r ∧ r.success = true ∧
        p.awaits r.id = true ∧ q = { p with state := .succeeded }) := by
  rcases act_pairs h with ⟨p, hp, hev⟩ | hformed
  · exact ⟨p, hp, hev.remote, hev.of_succeeded hstate⟩
  · rcases hformed.idle with hidle | hidle <;> simp [hstate] at hidle

/-- A nominated pair is one that was nominated, or one that is marked or nominated now. -/
theorem act_nominated {l : CheckList} {x : Action} {q : Pair} (h : q ∈ (l.act x).pairs)
    (hq : q.nominated = true) : (∃ p ∈ l.pairs, p.nominated = true ∧ p.remote = q.remote) ∨
      (∃ i p, x = .mark i ∧ l.pairs[i]? = some p ∧ p.remote = q.remote) ∨
      ∃ i now id, x = .nominate i now id := by
  rcases act_pairs h with ⟨p, hp, hev⟩ | hformed
  · rcases hev.of_nominated hq with hbefore | ⟨i, hx, hi⟩ | hnominates
    · exact .inl ⟨p, hp, hbefore, hev.remote.symm⟩
    · exact .inr (.inl ⟨i, p, hx, hi, hev.remote.symm⟩)
    · exact .inr (.inr hnominates)
  · rw [hformed.not_nominated] at hq
    cases hq

/-- A request that is sent is one of a pair of the list: one whose check starts, one whose check is
under way, or one that works and is nominated. -/
theorem sends_eq_some {l : CheckList} {x : Action} {d : SocketAddress} {r : BindingRequest}
    (h : l.sends x = some (d, r)) : ∃ p ∈ l.pairs, d = p.remote ∧
      ((∃ now id, x = .send now id ∧ r = p.request id ∧
          (p.state = .waiting ∨ p.state = .frozen)) ∨
        (∃ now id t, x = .send now id ∧ p.transaction = some t ∧ p.needsRetransmit now = true ∧
          r = p.request t) ∨
        ∃ i now id, x = .nominate i now id ∧ p.state = .succeeded ∧
          r = { p with nominated := true }.request id) := by
  cases x with
  | send now id =>
    rcases nextRequest_cases l now id with hnone | ⟨front, p, q, back, r', hl, -, turn, hnext⟩
    · simp [sends, hnone] at h
    · simp only [sends, hnext, Option.map_some, Option.some.injEq, Prod.mk.injEq] at h
      obtain ⟨rfl, rfl⟩ := h
      refine ⟨p, by simp [hl], rfl, ?_⟩
      cases turn with
      | resent due ht => exact .inr (.inl ⟨now, id, _, rfl, ht, due, rfl⟩)
      | waiting hs => exact .inl ⟨now, id, rfl, rfl, .inl hs⟩
      | frozen hs => exact .inl ⟨now, id, rfl, rfl, .inr hs⟩
  | nominate i now id =>
    rcases nominate_cases l i now id with hnone | ⟨p, hp, hstate, hnext⟩
    · simp [sends, hnone] at h
    · simp only [sends, hnext, Option.map_some, Option.some.injEq, Prod.mk.injEq] at h
      obtain ⟨rfl, rfl⟩ := h
      exact ⟨p, List.mem_of_getElem? hp, rfl, .inr (.inr ⟨i, now, id, rfl, hstate, rfl⟩)⟩
  | _ => simp [sends] at h

end CheckList
end Parley
