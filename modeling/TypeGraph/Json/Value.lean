import TypeGraph.Json.Number

/-!
# JSON values

A value as it was read from a text. Nothing is decided yet that depends on what the value is used
for: numbers keep their digits, objects keep repeated keys, and a string that is no text is kept
as such. Values that are not used need not have a meaning.
-/

namespace TypeGraph

/-- A JSON value. A string is a text, unless it holds one half of a surrogate pair without the
other. -/
inductive Json where
  | null
  | bool (value : Bool)
  | number (literal : Json.Literal)
  | string (text : Option String)
  | array (items : List Json)
  | object (members : List (Option String × Json))

end TypeGraph
