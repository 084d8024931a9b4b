import Parley.Text.Digits
import Mathlib.Algebra.Group.Nat.Defs
import Mathlib.Data.List.TakeDrop
import Mathlib.Tactic.Common
/-!
The digits in which a number is written.
-/
namespace Parley.Text

/-- What a run takes, when all of it belongs and what follows does not. -/
theorem span_append {α : Type} {p : α → Bool} {front rest : List α} (all : ∀ a ∈ front, p a = true)
    (stop : ∀ a, rest.head? = some a → p a = false) : (front ++ rest).span p = (front, rest) := by
  have none : rest.takeWhile p = [] ∧ rest.dropWhile p = rest := by
    cases rest with
    | nil => exact ⟨rfl, rfl⟩
    | cons a as =>
      have ha := stop a rfl
      exact ⟨by simp [ha], by simp [ha]⟩
  rw [List.span_eq_takeWhile_dropWhile, List.takeWhile_append_of_pos all,
    List.dropWhile_append_of_pos all, none.1, none.2, List.append_nil]

theorem number_append (radix : Nat) (ds es : List Nat) :
    number radix (ds ++ es) = es.foldl (fun n d => n * radix + d) (number radix ds) :=
  List.foldl_append

/-- The digits `ds` are those in which `n` is written: they spell it, without a leading zero unless
they are a single digit. -/
structure Written (radix n : Nat) (ds : List Nat) : Prop where
  toDigits : Nat.toDigits radix n = ds.map Nat.digitChar
  number : number radix ds = n
  lt : ∀ d ∈ ds, d < radix
  ne_nil : ds ≠ []
  head : ∀ rest, ds = 0 :: rest → rest = []

/-- Every number is written in some digits. -/
theorem exists_written {radix : Nat} (h : 1 < radix) (n : Nat) : ∃ ds, Written radix n ds := by
  induction n using Nat.strongRecOn with
  | ind n ih =>
    by_cases hn : n < radix
    · refine ⟨[n], ?_, ?_, ?_, by simp, by simp⟩
      · rw [Nat.toDigits_of_lt_base hn]
        rfl
      · simp [number]
      · simpa using hn
    · obtain ⟨ds, hds⟩ := ih (n / radix) (Nat.div_lt_self (by omega) h)
      have value := Nat.div_add_mod' n radix
      refine ⟨ds ++ [n % radix], ?_, ?_, ?_, by simp, ?_⟩
      · rw [Nat.toDigits_eq_if h, if_neg hn, hds.toDigits]
        simp
      · rw [number_append, hds.number]
        exact value
      · intro d hd
        rcases List.mem_append.1 hd with hd | hd
        · exact hds.lt d hd
        · rw [List.mem_singleton.1 hd]
          exact Nat.mod_lt n (by omega)
      · intro rest hrest
        -- A leading zero would be all of the quotient, which is not zero.
        have high : 0 < n / radix := Nat.div_pos (by omega) (by omega)
        cases ds with
        | nil => exact absurd rfl hds.ne_nil
        | cons d ds =>
          obtain ⟨rfl, -⟩ := List.cons.inj hrest
          have alone := hds.head ds rfl
          have zero := hds.number
          rw [alone] at zero
          simp [Text.number] at zero
          omega

theorem exists_digit_of_mem_toDigits {radix n : Nat} {c : Char} (h : 1 < radix)
    (hc : c ∈ Nat.toDigits radix n) : ∃ d < radix, Nat.digitChar d = c := by
  obtain ⟨ds, hds⟩ := exists_written h n
  rw [hds.toDigits] at hc
  obtain ⟨d, hd, rfl⟩ := List.mem_map.1 hc
  exact ⟨d, hds.lt d hd, rfl⟩

theorem Written.length_le {radix n k : Nat} {ds : List Nat} (h : Written radix n ds)
    (hradix : 1 < radix) (hk : 0 < k) (hn : n < radix ^ k) : ds.length ≤ k := by
  have length := (Nat.length_toDigits_le_iff hradix hk).2 hn
  rwa [h.toDigits, List.length_map] at length

theorem Written.numberUpTo {radix n limit : Nat} {ds : List Nat} (h : Written radix n ds)
    (hradix : 1 < radix) (hn : n < limit) : numberUpTo limit radix ds = n := by
  rw [numberUpTo_eq (by omega), h.number]
  exact Nat.min_eq_right (Nat.le_of_lt hn)

/-! ### The spelling that an operator may type -/

theorem digit?_digitChar {d : Nat} (h : d < 10) : digit? (Nat.digitChar d) = some d := by
  have all : ∀ d : Fin 10, digit? (Nat.digitChar d) = some d.val := by decide
  exact all ⟨d, h⟩

theorem digitChar_ne_plus {d : Nat} (h : d < 10) : Nat.digitChar d ≠ '+' := by
  have all : ∀ d : Fin 10, Nat.digitChar d ≠ '+' := by decide
  exact all ⟨d, h⟩

theorem mapM_digit? {ds : List Nat} (h : ∀ d ∈ ds, d < 10) :
    (ds.map Nat.digitChar).mapM digit? = some ds := by
  induction ds with
  | nil => rfl
  | cons d ds ih =>
    rw [List.map_cons, List.mapM_cons, digit?_digitChar (h d (List.mem_cons_self ..)),
      ih fun d hd => h d (List.mem_cons_of_mem _ hd)]
    rfl

theorem lt_of_digits? {limit n : Nat} {cs : List Char} (h : digits? limit cs = some n) :
    n < limit := by
  obtain ⟨-, -, h⟩ := Option.bind_eq_some_iff.1 h
  obtain ⟨ds, -, h⟩ := Option.bind_eq_some_iff.1 h
  simp only at h
  split at h
  · rename_i lt
    rwa [← Option.some.inj h]
  · cases h

/-- Only numbers below the limit are read. -/
theorem lt_of_read? {limit n : Nat} {s : String} (h : read? limit s = some n) : n < limit := by
  unfold read? at h
  split at h <;> exact lt_of_digits? h

theorem Written.digits? {limit n : Nat} {ds : List Nat} (h : Written 10 n ds) (hn : n < limit) :
    Text.digits? limit (ds.map Nat.digitChar) = some n := by
  have digits : ds.map Nat.digitChar ≠ [] := mt List.map_eq_nil_iff.1 h.ne_nil
  unfold Text.digits? guard
  rw [if_pos digits, mapM_digit? h.lt]
  show (if Text.numberUpTo limit 10 ds < limit then _ else _) = _
  rw [h.numberUpTo (by decide) hn, if_pos hn]

/-- A number below the limit is read back from its digits. -/
theorem read?_repr {limit n : Nat} (h : n < limit) : read? limit n.repr = some n := by
  obtain ⟨ds, hds⟩ := exists_written (by decide : 1 < 10) n
  have spelled : n.repr.toList = ds.map Nat.digitChar := by rw [Nat.toList_repr, hds.toDigits]
  rw [read?, spelled]
  split
  · rename_i cs same
    obtain ⟨d, hd, plus⟩ := List.mem_map.1 (same ▸ List.mem_cons_self ..)
    exact absurd plus (digitChar_ne_plus (hds.lt d hd))
  · exact hds.digits? h

end Parley.Text
