/-!
Whole numbers written in digits.

`number radix ds` is the number that the digits `ds` spell, the first one counting most. Where only
numbers below a limit are wanted, `numberUpTo` stops growing there, so that a long text is read as
fast as its characters are passed; `numberUpTo_eq` says that nothing else changes.

`read? limit` takes the spelling that an operator may type: decimal digits, optionally after a plus
sign, with any number of leading zeros, of a number below `limit`.
-/
namespace Parley.Text

/-- The number that digits spell in the given base. -/
def number (radix : Nat) (ds : List Nat) : Nat := ds.foldl (fun n d => n * radix + d) 0

/-- The number that digits spell in the given base, or `limit` when it is not below that. -/
def numberUpTo (limit radix : Nat) (ds : List Nat) : Nat :=
  ds.foldl (fun n d => min limit (n * radix + d)) 0

theorem foldl_min_eq {limit radix : Nat} (h : 0 < radix) (ds : List Nat) (n : Nat) :
    ds.foldl (fun n d => min limit (n * radix + d)) (min limit n) =
      min limit (ds.foldl (fun n d => n * radix + d) n) := by
  induction ds generalizing n with
  | nil => rfl
  | cons d ds ih =>
    have grow : limit ≤ limit * radix := Nat.le_mul_of_pos_right limit h
    have step : min limit (min limit n * radix + d) = min limit (n * radix + d) := by
      rcases Nat.le_total limit n with le | le
      · have grown : limit * radix ≤ n * radix := Nat.mul_le_mul_right radix le
        rw [Nat.min_eq_left le]
        omega
      · rw [Nat.min_eq_right le]
    rw [List.foldl_cons, List.foldl_cons, step, ih]

theorem numberUpTo_eq {limit radix : Nat} (h : 0 < radix) (ds : List Nat) :
    numberUpTo limit radix ds = min limit (number radix ds) := by
  have start := @foldl_min_eq limit radix h ds 0
  rwa [Nat.min_zero] at start

/-- The value of a decimal digit. -/
def digit? (c : Char) : Option Nat :=
  if '0' ≤ c ∧ c ≤ '9' then some (c.toNat - '0'.toNat) else none

/-- The number below `limit` that one or more digits spell. -/
def digits? (limit : Nat) (cs : List Char) : Option Nat := do
  guard (cs ≠ [])
  let ds ← cs.mapM digit?
  let n := numberUpTo limit 10 ds
  if n < limit then some n else none

/-- A number below `limit`, with an optional plus sign. -/
def read? (limit : Nat) (s : String) : Option Nat :=
  match s.toList with
  | '+' :: cs => digits? limit cs
  | cs => digits? limit cs

end Parley.Text
