import Parley.Proofs.Link.CheckList.Evolution
import Mathlib.Tactic.IntervalCases
/-!
The check list of an agent whose peer has one address.

With a single pair every question about the list is one about the pair. Its check, sent again at
the intervals of its schedule, has not run out of time four seconds after it could first begin
(`Timely.not_timedOut`).
-/
namespace Parley

/-! ### The schedule of a check -/

/-- A check that began at `t₀` or later and has kept to its schedule since. -/
structure Pair.Timely (t₀ : Nat) (p : Pair) : Prop where
  first : ∃ first, p.firstSent = some first ∧ t₀ ≤ first
  last : ∃ last, p.lastSent = some last ∧ t₀ + 100 * 2 ^ p.sends ≤ last + 200
  sends : 1 ≤ p.sends ∧ p.sends ≤ 5

namespace Pair.Timely

theorem startCheck {t₀ now : Nat} (h : t₀ ≤ now) (p : Pair) (id : TransactionId) :
    Timely t₀ (p.startCheck now id).1 :=
  ⟨⟨now, rfl, h⟩, ⟨now, rfl, Nat.add_le_add_right h 200⟩, by simp [Pair.startCheck]⟩

theorem interval {t₀ : Nat} {p : Pair} (h : Timely t₀ p) :
    p.interval = min (100 * 2 ^ p.sends) 1600 := by
  obtain ⟨hlow, hhigh⟩ := h.sends
  unfold Pair.interval
  interval_cases p.sends <;> rfl

/-- Sending the request again, which is due no sooner than the schedule says. -/
theorem resend {t₀ now : Nat} {p : Pair} (h : Timely t₀ p) (due : p.needsRetransmit now = true) :
    Timely t₀ { p with sends := p.sends + 1, lastSent := some now } := by
  obtain ⟨last, hlast, hschedule⟩ := h.last
  simp only [Pair.needsRetransmit, Pair.intervalOver, hlast, Bool.and_eq_true, decide_eq_true_eq,
    h.interval] at due
  obtain ⟨⟨-, hsends⟩, hover⟩ := due
  have hsends : p.sends < 5 := hsends
  refine ⟨h.first, ⟨now, rfl, ?_⟩, by simp, ?_⟩
  · show t₀ + 100 * 2 ^ (p.sends + 1) ≤ now + 200
    have hcap : 2 ^ p.sends ≤ 2 ^ 4 := Nat.pow_le_pow_right (by omega) (by omega)
    have hpos : 1 ≤ 2 ^ p.sends := Nat.one_le_two_pow
    rw [Nat.pow_succ]
    omega
  · show p.sends + 1 ≤ 5
    omega

/-- Nothing runs out of time in the first four seconds. -/
theorem not_timedOut {t₀ now : Nat} {p : Pair} (h : Timely t₀ p) (hnow : now ≤ t₀ + 4000) :
    p.isTimedOut now = false := by
  obtain ⟨first, hfirst, hbegin⟩ := h.first
  obtain ⟨last, hlast, hschedule⟩ := h.last
  have begun : ¬Pair.checkTimeout ≤ now - first := by
    unfold Pair.checkTimeout
    omega
  have lastSend : ¬(Pair.maxSends ≤ p.sends ∧ p.interval ≤ now - last) := by
    rintro ⟨hmax, hover⟩
    have hall : p.sends = 5 := Nat.le_antisymm h.sends.2 hmax
    rw [h.interval, hall] at hover
    rw [hall] at hschedule
    omega
  simp [Pair.isTimedOut, Pair.intervalOver, hfirst, hlast, begun]
  exact fun _ hmax => Nat.not_le.1 fun hover => lastSend ⟨hmax, hover⟩

end Pair.Timely

namespace CheckList
section Single
variable {l : CheckList} {p : Pair} (h : l.pairs = [p])
include h

theorem hasSucceeded_single : l.hasSucceeded = (p.state == .succeeded) := by
  simp [hasSucceeded, h]

theorem isComplete_single : l.isComplete = isSettled p := by simp [isComplete, h]

theorem nominationPending_single :
    l.nominationPending = (p.nominated && p.state == .inProgress) := by
  simp [nominationPending, h]

theorem nominatedPair_single :
    l.nominatedPair = if p.nominated && p.state == .succeeded then some p else none := by
  simp only [nominatedPair, h, List.find?_singleton]

theorem bestSucceeded_single :
    l.bestSucceeded = if p.state = .succeeded then some 0 else none := by
  by_cases hp : p.state = .succeeded
  · simp [bestSucceeded, h, hp, better]
  · simp [bestSucceeded, h, hp]

theorem findByRemote_single : l.findByRemote p.remote = some 0 := by simp [findByRemote, h]

theorem handleTimeouts_single {now : Nat} (hp : p.isTimedOut now = false) :
    l.handleTimeouts now = l := by
  obtain ⟨pairs, started, controlling, lastCheck⟩ := l
  cases h
  simp [handleTimeouts, Pair.expire, hp]

theorem trigger_single (hp : p.state ≠ .frozen ∧ p.state ≠ .failed) : l.trigger 0 = l := by
  obtain ⟨pairs, started, controlling, lastCheck⟩ := l
  cases h
  simp [trigger, modify, trigger_of_busy (not_or.2 hp)]

theorem markNominated_single :
    l.markNominated 0 = { l with pairs := [{ p with nominated := true }] } := by
  simp [markNominated, modify, h]

theorem nominate_single (hp : p.state = .succeeded) (now : Nat) (id : TransactionId) :
    l.nominate 0 now id =
      ({ l with pairs := [({ p with nominated := true }.startCheck now id).1] },
        some ({ p with nominated := true }.request id, p.remote)) := by
  simp [nominate, h, hp, Pair.startCheck, Pair.request]

/-- The pair has its turn as soon as checks may be sent. -/
theorem nextRequest_waiting {now : Nat} (hp : p.state = .waiting) (hmay : l.mayCheck now = true)
    (id : TransactionId) : l.nextRequest now id =
      ({ l with pairs := [(p.startCheck now id).1], lastCheck := some now },
        some ⟨0, p.request id, p.remote⟩) := by
  have fresh : resend now p = none := by simp [resend, Pair.needsRetransmit, hp]
  simp [nextRequest, hmay, schedule, h, updateFirst, fresh, startIn, hp, Pair.startCheck]

/-- A pair that has been checked is at most sent its request again. -/
theorem nextRequest_started (hp : p.state ≠ .waiting ∧ p.state ≠ .frozen) (now : Nat)
    (id : TransactionId) : l.nextRequest now id = (l, none) ∨
      ∃ t, p.needsRetransmit now = true ∧ p.transaction = some t ∧ l.nextRequest now id =
        ({ l with
            pairs := [{ p with sends := p.sends + 1, lastSent := some now }]
            lastCheck := some now },
          some ⟨0, p.request t, p.remote⟩) := by
  rcases nextRequest_cases l now id with hnone | ⟨front, q, q', back, r, hl, -, turn, hnext⟩
  · exact .inl hnone
  · rw [h] at hl
    obtain ⟨rfl, hl⟩ | ⟨_, rfl, hl⟩ := List.cons_eq_append_iff.1 hl
    · cases hl
      cases turn with
      | resent due ht => exact .inr ⟨_, due, ht, hnext⟩
      | waiting hs => exact absurd hs hp.1
      | frozen hs => exact absurd hs hp.2
    · simp at hl

theorem handleResponse_awaited {r : BindingResponse} (hp : p.awaits r.id = true)
    (hr : r.success = true) :
    (l.handleResponse r).1 = { l with pairs := [{ p with state := .succeeded }] } := by
  simp [handleResponse, h, updateFirst, Pair.takeResponse, hp, hr, release]

theorem handleResponse_other {r : BindingResponse} (hp : p.awaits r.id = false) :
    (l.handleResponse r).1 = l := by
  simp [handleResponse, h, updateFirst, Pair.takeResponse, hp]

end Single
end CheckList
end Parley
