import Parley.Text.Utf8
import Mathlib.Tactic.Common
/-!
The octets of a text, character by character.
-/
namespace Parley.Text

theorem octets_eq (s : String) : octets s = s.toList.flatMap String.utf8EncodeChar := by
  have whole : s.toUTF8 = (s.toList.flatMap String.utf8EncodeChar).toByteArray := by
    rw [String.toUTF8_eq_toByteArray, ← String.utf8Encode_toList, List.utf8Encode]
  rw [octets, whole]
  simp

theorem octets_ofList (cs : List Char) :
    octets (String.ofList cs) = cs.flatMap String.utf8EncodeChar := by
  rw [octets_eq, String.toList_ofList]

theorem length_octets (s : String) : (octets s).length = s.utf8ByteSize := rfl

theorem octets_append (s t : String) : octets (s ++ t) = octets s ++ octets t := by
  simp [octets_eq]

/-- An ASCII character is one octet. -/
theorem utf8EncodeChar_ascii {c : Char} (h : c.toNat < 0x80) :
    String.utf8EncodeChar c = [UInt8.ofNat c.toNat] := by
  have le : c.val.toNat ≤ 0x7f := Nat.le_of_lt_succ h
  rw [String.utf8EncodeChar]
  simp only [le, if_true]
  rfl

/-- A text of ASCII characters has one octet for each. -/
theorem octets_ascii {cs : List Char} (h : ∀ c ∈ cs, c.toNat < 0x80) :
    octets (String.ofList cs) = cs.map fun c => UInt8.ofNat c.toNat := by
  rw [octets_ofList, List.map_eq_flatMap, List.flatMap, List.flatMap,
    List.map_congr_left fun c hc => utf8EncodeChar_ascii (h c hc)]

/-- The octets of any other character have their first bit set. -/
theorem utf8EncodeChar_high {c : Char} (h : 0x80 ≤ c.toNat) {b : UInt8}
    (hb : b ∈ String.utf8EncodeChar c) : 0x80 ≤ b.toNat := by
  have gt : ¬c.val.toNat ≤ 0x7f := by
    have : c.val.toNat = c.toNat := rfl
    omega
  simp only [String.utf8EncodeChar, gt, if_false] at hb
  split at hb
  · simp only [List.mem_cons, List.not_mem_nil, or_false] at hb
    rcases hb with rfl | rfl <;> rw [UInt8.toNat_ofNat'] <;> omega
  · split at hb
    · simp only [List.mem_cons, List.not_mem_nil, or_false] at hb
      rcases hb with rfl | rfl | rfl <;> rw [UInt8.toNat_ofNat'] <;> omega
    · simp only [List.mem_cons, List.not_mem_nil, or_false] at hb
      rcases hb with rfl | rfl | rfl | rfl <;> rw [UInt8.toNat_ofNat'] <;> omega

end Parley.Text
