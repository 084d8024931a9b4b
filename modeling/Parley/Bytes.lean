/-!
Octet strings and the fixed-width numbers written into them.

`littleEndian w n` and `bigEndian w n` are the `w` octets of `n`; `ofLittleEndian` and `ofBigEndian`
read them back. `ofLittleEndian_littleEndian` and `littleEndian_ofLittleEndian`, and the same for
`bigEndian`, say that the two are inverse on `w` octets and on numbers below `capacity w`.
-/
namespace Parley

/-- A string of octets, as it travels in a datagram or on a stream. -/
abbrev Bytes := List UInt8

namespace Bytes

/-- How many numbers have a form of `width` octets. -/
def capacity : Nat → Nat
  | 0 => 1
  | width + 1 => 256 * capacity width

/-- The `width` octets of `n`, least significant first; higher bits are dropped. -/
def littleEndian : Nat → Nat → Bytes
  | 0, _ => []
  | width + 1, n => UInt8.ofNat n :: littleEndian width (n / 256)

/-- The number whose octets, least significant first, are given. -/
def ofLittleEndian : Bytes → Nat
  | [] => 0
  | b :: bs => b.toNat + 256 * ofLittleEndian bs

/-- The `width` octets of `n`, most significant first. -/
def bigEndian (width n : Nat) : Bytes := (littleEndian width n).reverse

/-- The number whose octets, most significant first, are given. -/
def ofBigEndian (bs : Bytes) : Nat := ofLittleEndian bs.reverse

@[simp] theorem length_littleEndian (width n : Nat) : (littleEndian width n).length = width := by
  induction width generalizing n with
  | zero => rfl
  | succ width ih => simp [littleEndian, ih]

@[simp] theorem length_bigEndian (width n : Nat) : (bigEndian width n).length = width := by
  simp [bigEndian]

theorem ofLittleEndian_littleEndian (width n : Nat) :
    ofLittleEndian (littleEndian width n) = n % capacity width := by
  induction width generalizing n with
  | zero => simp [littleEndian, ofLittleEndian, capacity, Nat.mod_one]
  | succ width ih =>
    have octet : (UInt8.ofNat n).toNat = n % 256 := UInt8.toNat_ofNat'
    rw [littleEndian, ofLittleEndian, ih, octet, capacity, Nat.mod_mul]

theorem ofBigEndian_bigEndian (width n : Nat) :
    ofBigEndian (bigEndian width n) = n % capacity width := by
  simp [ofBigEndian, bigEndian, ofLittleEndian_littleEndian]

theorem ofLittleEndian_lt (bs : Bytes) : ofLittleEndian bs < capacity bs.length := by
  induction bs with
  | nil => simp [ofLittleEndian, capacity]
  | cons b bs ih =>
    have : b.toNat < 256 := b.toNat_lt
    rw [ofLittleEndian, List.length_cons, capacity]
    omega

theorem littleEndian_ofLittleEndian (bs : Bytes) :
    littleEndian bs.length (ofLittleEndian bs) = bs := by
  induction bs with
  | nil => rfl
  | cons b bs ih =>
    have small : b.toNat < 256 := b.toNat_lt
    have low : UInt8.ofNat (b.toNat + 256 * ofLittleEndian bs) = b := by
      apply UInt8.toNat_inj.1
      rw [UInt8.toNat_ofNat']
      omega
    have high : (b.toNat + 256 * ofLittleEndian bs) / 256 = ofLittleEndian bs := by omega
    rw [List.length_cons, littleEndian, ofLittleEndian, low, high, ih]

theorem bigEndian_ofBigEndian {bs : Bytes} {width : Nat} (h : bs.length = width) :
    bigEndian width (ofBigEndian bs) = bs := by
  rw [bigEndian, ofBigEndian, ← h, ← List.length_reverse, littleEndian_ofLittleEndian,
    List.reverse_reverse]

theorem ofBigEndian_lt {bs : Bytes} {width : Nat} (h : bs.length = width) :
    ofBigEndian bs < capacity width := by
  rw [← h, ← List.length_reverse]
  exact ofLittleEndian_lt bs.reverse

/-- The first `n` octets and the rest, when there are that many. -/
def take? (n : Nat) (bs : Bytes) : Option (Bytes × Bytes) :=
  if n ≤ bs.length then some (bs.take n, bs.drop n) else none

theorem take?_append (front rest : Bytes) :
    take? front.length (front ++ rest) = some (front, rest) := by
  simp [take?]

theorem eq_append_of_take? {n : Nat} {bs front rest : Bytes} (h : take? n bs = some (front, rest)) :
    bs = front ++ rest ∧ front.length = n := by
  unfold take? at h
  split at h
  · rename_i enough
    cases h
    exact ⟨(List.take_append_drop n bs).symm, List.length_take_of_le enough⟩
  · cases h

end Bytes
end Parley
