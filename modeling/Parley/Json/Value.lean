import Parley.Json.Literal
/-!
JSON documents that are written.

A document is written without blanks, the members of an object in the order given.
-/
namespace Parley

/-- What the records on the wire are made of. -/
inductive Json where
  | null
  | number (n : Nat)
  | string (s : String)
  | array (items : List Json)
  | object (members : List (String × Json))

namespace Json

/-- A text as a literal. -/
def literal (s : String) : String := "\"" ++ escape s ++ "\""

mutual

/-- The text of a document. -/
def text : Json → String
  | .null => "null"
  | .number n => toString n
  | .string s => literal s
  | .array items => "[" ++ itemsText items ++ "]"
  | .object members => "\x7b" ++ membersText members ++ "\x7d"

/-- The items of an array with commas between them. -/
def itemsText : List Json → String
  | [] => ""
  | [item] => item.text
  | item :: next :: items => item.text ++ "," ++ itemsText (next :: items)

/-- The members of an object with commas between them. -/
def membersText : List (String × Json) → String
  | [] => ""
  | [(key, value)] => literal key ++ ":" ++ value.text
  | (key, value) :: next :: members =>
    literal key ++ ":" ++ value.text ++ "," ++ membersText (next :: members)

end

end Json
end Parley
