import Parley.Bytes
/-!
Text as octets.

`octets` is the UTF-8 form of a text and `ofOctets?` reads it back; what is not UTF-8 is no text.
-/
namespace Parley.Text

/-- The UTF-8 form of a text. -/
def octets (s : String) : Bytes := s.toUTF8.data.toList

/-- The text whose UTF-8 form is given. -/
def ofOctets? (bs : Bytes) : Option String := String.fromUTF8? ⟨bs.toArray⟩

theorem ofOctets?_octets (s : String) : ofOctets? (octets s) = some s := by
  have whole : (⟨(octets s).toArray⟩ : ByteArray) = s.toUTF8 := by
    simp [octets]
  have valid : s.toUTF8.IsValidUTF8 := s.isValidUTF8
  rw [ofOctets?, whole, String.fromUTF8?, dif_pos valid]
  rfl

theorem octets_of_ofOctets? {bs : Bytes} {s : String} (h : ofOctets? bs = some s) :
    octets s = bs := by
  rw [ofOctets?, String.fromUTF8?] at h
  split at h
  · cases h
    simp [octets, String.fromUTF8]
  · cases h

end Parley.Text
