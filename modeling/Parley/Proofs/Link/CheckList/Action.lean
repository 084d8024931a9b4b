import Parley.Link.CheckList
/-!
What can happen to a check list and to its pairs.

An agent acts on its check list in a few ways only (`Action`), and an action may send one request.
`Evolves` lists the ways in which an action changes a pair, and `Formed` the pairs that it adds.
-/
namespace Parley

theorem Pair.trigger_remote (p : Pair) : p.trigger.remote = p.remote := by
  unfold trigger
  split <;> rfl

namespace CheckList

/-- The ways in which an agent acts on its check list. -/
inductive Action where
  /-- Begins a list for a role. -/
  | reset (controlling : Bool)
  | start (now : Nat)
  | pair (ours theirs : List Candidate)
  | learn (ours theirs : Candidate)
  | trigger (index : Nat)
  | mark (index : Nat)
  | send (now : Nat) (id : TransactionId)
  | answer (r : BindingResponse)
  | expire (now : Nat)
  | nominate (index now : Nat) (id : TransactionId)

/-- The list after an action. -/
def act (l : CheckList) : Action → CheckList
  | .reset controlling => new controlling
  | .start now => l.start now
  | .pair ours theirs => l.addPairs ours theirs
  | .learn ours theirs => l.addPeerReflexive ours theirs
  | .trigger index => l.trigger index
  | .mark index => l.markNominated index
  | .send now id => (l.nextRequest now id).1
  | .answer r => (l.handleResponse r).1
  | .expire now => l.handleTimeouts now
  | .nominate index now id => (l.nominate index now id).1

/-- The request that an action sends, and where it goes. -/
def sends (l : CheckList) : Action → Option (SocketAddress × BindingRequest)
  | .send now id => (l.nextRequest now id).2.map fun c => (c.destination, c.request)
  | .nominate index now id => (l.nominate index now id).2.map fun (r, d) => (d, r)
  | _ => none

/-! ### Pairs -/

/-- The pair with the candidates of another one. -/
def withCandidates (p b : Pair) : Pair :=
  { p with ours := b.ours, theirs := b.theirs, priority := b.priority, foundation := b.foundation }

/-- The ways in which an action changes one pair of the list. -/
inductive Evolves (l : CheckList) : Action → Pair → Pair → Prop
  | same {x p} : Evolves l x p p
  /-- Pairing lets a pair go that was held back. -/
  | unfrozen {ours theirs p} : p.state = .frozen →
      Evolves l (.pair ours theirs) p { p with state := .waiting }
  /-- Pairing improves a pair that is not checked yet, and may let it go. -/
  | improved {ours theirs p near far state} : near ∈ ours → far ∈ theirs →
      near.address.isV4 = far.address.isV4 → far.address = p.remote →
      p.state = .frozen ∨ p.state = .waiting →
      state = p.state ∨ p.state = .frozen ∧ state = .waiting →
      Evolves l (.pair ours theirs) p
        { withCandidates p (Pair.new near far l.controlling) with state }
  | triggered {i p} : p.state = .frozen ∨ p.state = .failed → Evolves l (.trigger i) p p.trigger
  | marked {i p} : l.pairs[i]? = some p → Evolves l (.mark i) p { p with nominated := true }
  | started {now id p} : p.state = .waiting ∨ p.state = .frozen →
      l.sends (.send now id) = some (p.remote, p.request id) →
      Evolves l (.send now id) p (p.startCheck now id).1
  | resent {now id t p} : p.needsRetransmit now → p.transaction = some t →
      l.sends (.send now id) = some (p.remote, p.request t) →
      Evolves l (.send now id) p { p with sends := p.sends + 1, lastSent := some now }
  | answered {r p} : p.awaits r.id →
      Evolves l (.answer r) p { p with state := if r.success then .succeeded else .failed }
  /-- A success lets the pairs of its foundation go. -/
  | released {r p} : r.success = true → p.state = .frozen →
      Evolves l (.answer r) p { p with state := .waiting }
  | expired {now p} : p.isTimedOut now →
      Evolves l (.expire now) p { p with state := .failed, nominated := false }
  | nominated {i now id p} : l.pairs[i]? = some p → p.state = .succeeded →
      l.sends (.nominate i now id) = some (p.remote, { p with nominated := true }.request id) →
      Evolves l (.nominate i now id) p ({ p with nominated := true }.startCheck now id).1

/-- The pairs that an action forms. -/
inductive Formed (l : CheckList) : Action → Pair → Prop
  | paired {ours theirs near far state} : near ∈ ours → far ∈ theirs →
      near.address.isV4 = far.address.isV4 → state = .frozen ∨ state = .waiting →
      Formed l (.pair ours theirs) { Pair.new near far l.controlling with state }
  | learned {ours theirs} : l.findByRemote theirs.address = none →
      Formed l (.learn ours theirs) { Pair.new ours theirs l.controlling with state := .waiting }

/-- Nothing that an action does moves a pair to another address. -/
theorem Evolves.remote {l : CheckList} {x : Action} {p q : Pair} (h : Evolves l x p q) :
    q.remote = p.remote := by
  cases h with
  | triggered => exact p.trigger_remote
  | improved _ _ _ haddress => exact haddress
  | _ => rfl

/-- A pair stays as it is, but for a mark. -/
def Stays (x : Action) (p q : Pair) : Prop :=
  q = p ∨ (∃ i, x = .mark i) ∧ q = { p with nominated := true }

theorem Stays.state {x : Action} {p q : Pair} (h : Stays x p q) :
    q.state = p.state ∧ q.transaction = p.transaction ∧ q.remote = p.remote := by
  rcases h with rfl | ⟨-, rfl⟩ <;> exact ⟨rfl, rfl, rfl⟩

/-- A check is under way because it was, or because its request is sent now. -/
theorem Evolves.of_inProgress {l : CheckList} {x : Action} {p q : Pair} (h : Evolves l x p q)
    (hq : q.state = .inProgress) : p.state = .inProgress ∧ Stays x p q ∨
      ∃ r, l.sends x = some (p.remote, r) ∧ q.transaction = some r.id ∧
        q.nominated = r.useCandidate := by
  cases h with
  | same => exact .inl ⟨hq, .inl rfl⟩
  | marked => exact .inl ⟨hq, .inr ⟨⟨_, rfl⟩, rfl⟩⟩
  | unfrozen | released | expired => cases hq
  | improved _ _ _ _ hidle hnext =>
    simp only at hq
    rcases hnext with h | ⟨-, h⟩
    · rw [← h, hq] at hidle
      simp at hidle
    · rw [hq] at h
      cases h
  | triggered hidle => rcases hidle with h | h <;> simp [Pair.trigger, h] at hq
  | started _ hsends => exact .inr ⟨_, hsends, rfl, rfl⟩
  | resent _ ht hsends => exact .inr ⟨_, hsends, ht, rfl⟩
  | answered =>
    simp only at hq
    split at hq <;> cases hq
  | nominated _ _ hsends => exact .inr ⟨_, hsends, rfl, rfl⟩

/-- A pair works because it did, or because its check is answered with success now. -/
theorem Evolves.of_succeeded {l : CheckList} {x : Action} {p q : Pair} (h : Evolves l x p q)
    (hq : q.state = .succeeded) : p.state = .succeeded ∧ Stays x p q ∨
      ∃ r, x = .answer r ∧ r.success = true ∧ p.awaits r.id = true ∧
        q = { p with state := .succeeded } := by
  cases h with
  | same => exact .inl ⟨hq, .inl rfl⟩
  | marked => exact .inl ⟨hq, .inr ⟨⟨_, rfl⟩, rfl⟩⟩
  | unfrozen | released | expired | started | nominated => cases hq
  | improved _ _ _ _ hidle hnext =>
    simp only at hq
    rcases hnext with h | ⟨-, h⟩
    · rw [← h, hq] at hidle
      simp at hidle
    · rw [hq] at h
      cases h
  | triggered hidle => rcases hidle with h | h <;> simp [Pair.trigger, h] at hq
  | resent due =>
    simp only [Pair.needsRetransmit, Bool.and_eq_true, beq_iff_eq] at due
    rw [due.1.1] at hq
    cases hq
  | answered hawaits =>
    rename_i r
    cases hsuccess : r.success
    · simp [hsuccess] at hq
    · exact .inr ⟨r, rfl, hsuccess, hawaits, by simp⟩

/-- A pair is nominated because it was, or because the action marks or nominates it. -/
theorem Evolves.of_nominated {l : CheckList} {x : Action} {p q : Pair} (h : Evolves l x p q)
    (hq : q.nominated = true) : p.nominated = true ∨ (∃ i, x = .mark i ∧ l.pairs[i]? = some p) ∨
      ∃ i now id, x = .nominate i now id := by
  cases h with
  | marked hi => exact .inr (.inl ⟨_, rfl, hi⟩)
  | nominated => exact .inr (.inr ⟨_, _, _, rfl⟩)
  | expired => cases hq
  | triggered h => exact .inl (by rcases h with h | h <;> simpa [Pair.trigger, h] using hq)
  | _ => exact .inl hq

/-- A pair that has just been formed is not nominated. -/
theorem Formed.not_nominated {l : CheckList} {x : Action} {q : Pair} (h : Formed l x q) :
    q.nominated = false := by
  cases h <;> rfl

/-- A pair that has just been formed is not checked yet. -/
theorem Formed.idle {l : CheckList} {x : Action} {q : Pair} (h : Formed l x q) :
    q.state = .frozen ∨ q.state = .waiting := by
  cases h with
  | paired _ _ _ hidle => exact hidle
  | learned => exact .inr rfl

end CheckList
end Parley
