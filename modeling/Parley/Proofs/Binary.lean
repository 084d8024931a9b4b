import Parley.Binary
import Parley.Proofs.Text.Utf8
/-!
Reading back what the binary format writes.

Each reader, put on what its writer has written and anything behind it, gives the value and leaves
what is behind. And a reader gives a value only where its writer could have written it: what it has
taken is what is written for the value, so that nothing has two forms. A record is read by composing
readers, so these are all that a record's round trip needs in either direction.
-/
namespace Parley.Binary

/-! ### What was written is read -/

theorem getBool_putBool (b : Bool) (rest : Bytes) : getBool (putBool b ++ rest) = some (b, rest) := by
  cases b <;> simp [getBool, putBool]

theorem getNat_littleEndian (width n : Nat) (rest : Bytes) :
    getNat width (Bytes.littleEndian width n ++ rest) = some (n % Bytes.capacity width, rest) := by
  have front := Bytes.take?_append (Bytes.littleEndian width n) rest
  rw [Bytes.length_littleEndian] at front
  simp [getNat, front, Bytes.ofLittleEndian_littleEndian]

theorem getUInt16_putUInt16 (n : UInt16) (rest : Bytes) :
    getUInt16 (putUInt16 n ++ rest) = some (n, rest) := by
  have small : n.toNat % Bytes.capacity 2 = n.toNat := Nat.mod_eq_of_lt n.toNat_lt
  simp [getUInt16, putUInt16, getNat_littleEndian, small]

theorem getUInt32_putUInt32 (n : UInt32) (rest : Bytes) :
    getUInt32 (putUInt32 n ++ rest) = some (n, rest) := by
  have small : n.toNat % Bytes.capacity 4 = n.toNat := Nat.mod_eq_of_lt n.toNat_lt
  simp [getUInt32, putUInt32, getNat_littleEndian, small]

/-- Octets are read back when their number has a form of eight octets. -/
theorem getBytes_putBytes {bs : Bytes} (h : bs.length < Bytes.capacity 8) (rest : Bytes) :
    getBytes (putBytes bs ++ rest) = some (bs, rest) := by
  rw [putBytes, putLength, List.append_assoc, getBytes, getNat_littleEndian, Nat.mod_eq_of_lt h]
  exact Bytes.take?_append bs rest

theorem getText_putText {s : String} (h : s.utf8ByteSize < Bytes.capacity 8) (rest : Bytes) :
    getText (putText s ++ rest) = some (s, rest) := by
  rw [← Text.length_octets] at h
  simp [putText, getText, getBytes_putBytes h, Text.ofOctets?_octets]

/-- An optional part is read back when the part is, as `f` of what was written. -/
theorem getOption_putOption {α : Type} {put : α → Bytes} {get : Get α} {f : α → α}
    (back : ∀ a rest, get (put a ++ rest) = some (f a, rest)) (o : Option α) (rest : Bytes) :
    getOption get (putOption put o ++ rest) = some (o.map f, rest) := by
  cases o with
  | none => rw [putOption, getOption, getBool_putBool]; rfl
  | some a =>
    rw [putOption, List.append_assoc, getOption, getBool_putBool]
    simp [back]

/-! ### What is read was written -/

variable {bs rest : Bytes}

theorem eq_append_of_getBool {b : Bool} (h : getBool bs = some (b, rest)) :
    bs = putBool b ++ rest := by
  cases bs with
  | nil => cases h
  | cons first bs =>
    rw [getBool] at h
    split at h
    · rename_i zero
      cases h
      rw [zero]
      rfl
    · split at h
      · rename_i one
        cases h
        rw [one]
        rfl
      · cases h

theorem eq_append_of_getNat {width n : Nat} (h : getNat width bs = some (n, rest)) :
    bs = Bytes.littleEndian width n ++ rest ∧ n < Bytes.capacity width := by
  obtain ⟨⟨front, back⟩, taken, read⟩ := Option.map_eq_some_iff.1 h
  cases read
  obtain ⟨rfl, rfl⟩ := Bytes.eq_append_of_take? taken
  rw [Bytes.littleEndian_ofLittleEndian]
  exact ⟨rfl, Bytes.ofLittleEndian_lt front⟩

theorem eq_append_of_getUInt16 {n : UInt16} (h : getUInt16 bs = some (n, rest)) :
    bs = putUInt16 n ++ rest := by
  obtain ⟨⟨m, back⟩, taken, read⟩ := Option.map_eq_some_iff.1 h
  cases read
  obtain ⟨rfl, small⟩ := eq_append_of_getNat taken
  rw [putUInt16, UInt16.toNat_ofNat_of_lt' small]

theorem eq_append_of_getUInt32 {n : UInt32} (h : getUInt32 bs = some (n, rest)) :
    bs = putUInt32 n ++ rest := by
  obtain ⟨⟨m, back⟩, taken, read⟩ := Option.map_eq_some_iff.1 h
  cases read
  obtain ⟨rfl, small⟩ := eq_append_of_getNat taken
  rw [putUInt32, UInt32.toNat_ofNat_of_lt' small]

/-- An optional part is what is written for it when the part is. -/
theorem eq_append_of_getOption {α : Type} {put : α → Bytes} {get : Get α}
    (written : ∀ {bs a rest}, get bs = some (a, rest) → bs = put a ++ rest) {o : Option α}
    (h : getOption get bs = some (o, rest)) : bs = putOption put o ++ rest := by
  unfold getOption at h
  split at h
  · cases h
  · rename_i read
    cases h
    exact eq_append_of_getBool read
  · rename_i read
    obtain ⟨⟨a, back⟩, taken, part⟩ := Option.map_eq_some_iff.1 h
    cases part
    rw [eq_append_of_getBool read, written taken, putOption, List.append_assoc]

end Parley.Binary
