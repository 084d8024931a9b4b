import Parley.Link.Pair
import Mathlib.Algebra.Group.Nat.Defs
import Mathlib.Data.Prod.Lex
/-!
What the priority of a pair tells.

A priority packs three things into 64 bits: the lower priority of the two candidates, the higher one,
and which side has it. `exactPriority` is the number that is meant. The 64 bits hold it for all
priorities but one pair of them (`exactPriority_lt_iff`), and a candidate of ours never has that one,
because its own priority takes 31 bits (`packPriority_lt`). The three things can be told from the
number as long as twice the higher priority stays below the place of the lower one. Pairs are then in
the order of what they are made of (`rank`), and both sides put them in the same order.
-/
namespace Parley

/-! ### The number that is meant -/

/-- The priority of a pair as a number without a bound, from the priority `g` of the controlling
side's candidate and `d` of the other's. -/
def exactPriority (g d : UInt32) : Nat :=
  2 ^ 32 * min g.toNat d.toNat + 2 * max g.toNat d.toNat + if d.toNat < g.toNat then 1 else 0

/-- What a priority is made of, in the order in which it counts. -/
def rank (g d : UInt32) : Nat ×ₗ Nat ×ₗ Bool :=
  toLex (min g.toNat d.toNat, toLex (max g.toNat d.toNat, decide (d.toNat < g.toNat)))

/-- The other side takes the two priorities in the other order. -/
theorem pairPriority_controlled (g d : UInt32) :
    pairPriority d g false = pairPriority g d true := rfl

/-- The number needs more than 64 bits only when both priorities are the highest there is. -/
theorem exactPriority_lt_iff (g d : UInt32) : exactPriority g d < 2 ^ 64 ↔
    ¬(g.toNat = 2 ^ 32 - 1 ∧ d.toNat = 2 ^ 32 - 1) := by
  have hg := g.toNat_lt
  have hd := d.toNat_lt
  unfold exactPriority
  split <;> omega

theorem toNat_pairPriority {g d : UInt32} (fits : exactPriority g d < 2 ^ 64) :
    (pairPriority g d true).toNat = exactPriority g d :=
  UInt64.toNat_ofNat_of_lt' fits

/-! ### Candidates of ours -/

/-- The preference for the kind stands in front of all else, and takes seven bits of eight. -/
theorem packPriority_lt (kindPreference localPreference component : UInt32) :
    (Candidate.packPriority kindPreference localPreference component).toNat < 2 ^ 31 := by
  have kind : (min kindPreference 126).toNat ≤ 126 := by
    rw [UInt32.toNat_min]
    exact Nat.min_le_right ..
  have preference : (min localPreference 65535).toNat ≤ 65535 := by
    rw [UInt32.toNat_min]
    exact Nat.min_le_right ..
  have number : (max 1 (min component 256)).toNat ≤ 256 := by
    rw [UInt32.toNat_max, UInt32.toNat_min]
    exact max_le (by decide) (Nat.min_le_right ..)
  have first : (min kindPreference 126 <<< 24).toNat < 2 ^ 31 := by
    rw [UInt32.toNat_shiftLeft, Nat.shiftLeft_eq]
    show _ * 2 ^ 24 % 2 ^ 32 < 2 ^ 31
    omega
  have second : (min localPreference 65535 <<< 8).toNat < 2 ^ 31 := by
    rw [UInt32.toNat_shiftLeft, Nat.shiftLeft_eq]
    show _ * 2 ^ 8 % 2 ^ 32 < 2 ^ 31
    omega
  have third : (256 - max 1 (min component 256)).toNat < 2 ^ 31 := by
    rw [UInt32.toNat_sub_of_le _ _ (UInt32.le_iff_toNat_le.2 number)]
    exact (Nat.sub_le ..).trans_lt (by decide)
  rw [Candidate.packPriority, UInt32.toNat_or, UInt32.toNat_or]
  exact Nat.or_lt_two_pow (Nat.or_lt_two_pow first second) third

theorem exactPriority_fits {g d : UInt32} (h : g.toNat < 2 ^ 31 ∨ d.toNat < 2 ^ 31) :
    exactPriority g d < 2 ^ 64 := by
  rw [exactPriority_lt_iff]
  omega

/-! ### The order -/

/-- The lower priority, the higher one and the side that has it are the two priorities. -/
theorem rank_inj {g d g' d' : UInt32} : rank g d = rank g' d' ↔ g = g' ∧ d = d' := by
  simp only [rank, EmbeddingLike.apply_eq_iff_eq, Prod.mk.injEq, decide_eq_decide,
    ← UInt32.toNat_inj]
  omega

section Order
variable {g d g' d' : UInt32}

/-- Below half of the range, twice the higher priority and the last bit stay below the place of the
lower priority, so that the places are compared one after the other. -/
theorem exactPriority_lt_exactPriority (hg : g.toNat < 2 ^ 31) (hd : d.toNat < 2 ^ 31)
    (hg' : g'.toNat < 2 ^ 31) (hd' : d'.toNat < 2 ^ 31) :
    exactPriority g d < exactPriority g' d' ↔ rank g d < rank g' d' := by
  simp only [exactPriority, rank, Prod.Lex.toLex_lt_toLex, Bool.lt_iff, decide_eq_false_iff_not,
    decide_eq_true_eq]
  split <;> split <;> omega

theorem exactPriority_inj (hg : g.toNat < 2 ^ 31) (hd : d.toNat < 2 ^ 31)
    (hg' : g'.toNat < 2 ^ 31) (hd' : d'.toNat < 2 ^ 31) :
    exactPriority g d = exactPriority g' d' ↔ g = g' ∧ d = d' := by
  refine ⟨fun same => ?_, fun ⟨hg, hd⟩ => by rw [hg, hd]⟩
  have below := exactPriority_lt_exactPriority hg hd hg' hd'
  have above := exactPriority_lt_exactPriority hg' hd' hg hd
  rw [same] at below above
  have same : rank g d = rank g' d' := le_antisymm
    (not_lt.1 fun h => Nat.lt_irrefl _ (above.2 h)) (not_lt.1 fun h => Nat.lt_irrefl _ (below.2 h))
  exact rank_inj.1 same

end Order

/-- **The priority of a pair is the number that is meant, the same on both sides, and tells what the
pair is made of.** With a candidate of ours it is never more than 64 bits, whatever the peer says and
in either role. Whenever it is not, the two sides have the same value for a pair. Between priorities
of 31 bits it tells the two, and pairs are ordered by the lower priority, then by the higher one, then
by whether the controlling side has it. -/
theorem pairPriority_orders :
    (∀ (kind : CandidateKind) (address : SocketAddress) (related : Option SocketAddress)
        (theirs : UInt32),
      let ours := (Candidate.new kind address related).priority
      exactPriority ours theirs < 2 ^ 64 ∧
        (pairPriority ours theirs true).toNat = exactPriority ours theirs ∧
        exactPriority theirs ours < 2 ^ 64 ∧
        (pairPriority ours theirs false).toNat = exactPriority theirs ours) ∧
      (∀ g d : UInt32, exactPriority g d < 2 ^ 64 →
        pairPriority g d true = pairPriority d g false ∧
          (pairPriority g d true).toNat = exactPriority g d) ∧
      ∀ g d g' d' : UInt32, g.toNat < 2 ^ 31 → d.toNat < 2 ^ 31 → g'.toNat < 2 ^ 31 →
        d'.toNat < 2 ^ 31 →
        (pairPriority g d true = pairPriority g' d' true ↔ g = g' ∧ d = d') ∧
          (pairPriority g d true < pairPriority g' d' true ↔ rank g d < rank g' d') := by
  refine ⟨fun kind address related theirs => ?_,
    fun g d fits => ⟨(pairPriority_controlled g d).symm, toNat_pairPriority fits⟩,
    fun g d g' d' hg hd hg' hd' => ?_⟩
  · intro ours
    have short : ours.toNat < 2 ^ 31 :=
      packPriority_lt kind.preference (Candidate.localPreference address) 1
    have first := exactPriority_fits (d := theirs) (.inl short)
    have second := exactPriority_fits (g := theirs) (.inr short)
    rw [pairPriority_controlled theirs ours]
    exact ⟨first, toNat_pairPriority first, second, toNat_pairPriority second⟩
  · have here := toNat_pairPriority (exactPriority_fits (d := d) (.inl hg))
    have there := toNat_pairPriority (exactPriority_fits (d := d') (.inl hg'))
    rw [← UInt64.toNat_inj, UInt64.lt_iff_toNat_lt, here, there]
    exact ⟨exactPriority_inj hg hd hg' hd', exactPriority_lt_exactPriority hg hd hg' hd'⟩

/-- The highest priority that 64 bits hold, and two pairs that differ in the side only. -/
theorem pairPriority_orders_at_bounds :
    exactPriority 4294967295 4294967294 = 2 ^ 64 - 1 ∧
      pairPriority 4294967295 4294967294 true = pairPriority 4294967294 4294967295 false ∧
      (2147483647 : UInt32).toNat < 2 ^ 31 ∧
      rank 2147483646 2147483647 < rank 2147483647 2147483646 ∧
      pairPriority 2147483646 2147483647 true < pairPriority 2147483647 2147483646 true := by
  obtain ⟨-, agree, order⟩ := pairPriority_orders
  have low : (2147483646 : UInt32).toNat < 2 ^ 31 := by decide
  have high : (2147483647 : UInt32).toNat < 2 ^ 31 := by decide
  have ranked : rank 2147483646 2147483647 < rank 2147483647 2147483646 := by
    rw [← exactPriority_lt_exactPriority low high high low]
    decide
  exact ⟨by decide, (agree _ _ (by decide)).1, high, ranked,
    (order _ _ _ _ low high high low).2.2 ranked⟩

/-- With one bit more the higher priority runs over into the place of the lower one. -/
example : pairPriority 0 2147483649 true = pairPriority 1 1 true := by decide

end Parley
