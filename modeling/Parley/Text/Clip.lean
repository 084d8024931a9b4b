import Parley.Text.Utf8
/-!
Cutting a text to a number of octets.

`clip max s` is the longest run of whole characters at the start of `s` whose UTF-8 form has at
most `max` octets: a character that does not fit is dropped with everything behind it.
-/
namespace Parley.Text

/-- The leading characters that fit into `room` octets. -/
def clipped : Nat → List Char → List Char
  | _, [] => []
  | room, c :: cs => if c.utf8Size ≤ room then c :: clipped (room - c.utf8Size) cs else []

/-- The text cut to at most `max` octets, at the end of a character. -/
def clip (max : Nat) (s : String) : String :=
  if s.utf8ByteSize ≤ max then s else String.ofList (clipped max s.toList)

end Parley.Text
