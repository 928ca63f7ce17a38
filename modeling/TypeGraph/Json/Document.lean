/-!
# Writing JSON texts

A document is what is to be written. Its fields are written in the order given. There are two
layouts: one on a single line without blanks, and one with an item on each line.
-/

namespace TypeGraph

/-- A JSON value to be written. -/
inductive Document where
  | null
  | bool (value : Bool)
  | int (value : Int)
  /-- A number between 0 and 1. -/
  | portion (value : Float)
  | string (text : String)
  | list (items : List Document)
  | record (fields : List (String × Document))

namespace Document

/-! ## Numbers -/

/-- The fewest decimals, up to the given number, that read back as the number, and how many they
are. -/
def decimals? (value : Float) (most : Nat) : Option (Nat × Nat) :=
  (List.range (most + 1)).findSome? fun places =>
    let digits := (value * Float.ofScientific 1 false places).round.toUInt64.toNat
    if Float.ofScientific digits true places == value then some (digits, places) else none

/-- Digits filled up with zeros at the front. -/
def padded (places digits : Nat) : String :=
  let text := toString digits
  String.ofList (List.replicate (places - text.length) '0') ++ text

/-- A number between 0 and 1 in decimal notation, with the fewest decimals that read back. -/
def portionText (value : Float) : String :=
  match decimals? value 17 with
  | some (digits, 0) => toString digits ++ ".0"
  | some (digits, places) =>
    toString (digits / Nat.pow 10 places) ++ "." ++
      padded places (digits % Nat.pow 10 places)
  | none => "0.0"

/-! ## Strings -/

/-- A hexadecimal digit. -/
def hexDigit (n : Nat) : Char := ("0123456789abcdef".toList[n]?).getD '0'

/-- A character as it stands in a string. -/
def escape (c : Char) : List Char :=
  if c = '"' then ['\\', '"']
  else if c = '\\' then ['\\', '\\']
  else if c = '\x08' then ['\\', 'b']
  else if c = '\x0c' then ['\\', 'f']
  else if c = '\n' then ['\\', 'n']
  else if c = '\r' then ['\\', 'r']
  else if c = '\t' then ['\\', 't']
  else if c.toNat < 0x20 then
    ['\\', 'u', '0', '0', hexDigit (c.toNat / 16), hexDigit (c.toNat % 16)]
  else [c]

/-- A string in quotes. -/
def quoted (text : String) : String :=
  String.ofList ('"' :: (text.toList.flatMap escape ++ ['"']))

/-! ## Layouts -/

/-- How a value without parts is written. -/
def atomText : Document → String
  | null => "null"
  | bool true => "true"
  | bool false => "false"
  | int value => toString value
  | portion value => portionText value
  | string text => quoted text
  | list _ => "[]"
  | record _ => "\x7b\x7d"

mutual

/-- The document on a single line. -/
def compact : Document → String
  | list items => "[" ++ compactItems items ++ "]"
  | record fields => "\x7b" ++ compactFields fields ++ "\x7d"
  | atom => atom.atomText

/-- Items divided by commas. -/
def compactItems : List Document → String
  | [] => ""
  | [item] => item.compact
  | item :: rest => item.compact ++ "," ++ compactItems rest

/-- Fields divided by commas. -/
def compactFields : List (String × Document) → String
  | [] => ""
  | [(name, value)] => quoted name ++ ":" ++ value.compact
  | (name, value) :: rest => quoted name ++ ":" ++ value.compact ++ "," ++ compactFields rest

end

mutual

/-- The document with an item on each line, two blanks further in than what holds it. -/
def pretty (margin : String) : Document → String
  | list (item :: items) =>
    "[\n" ++ prettyItems (margin ++ "  ") (item :: items) ++ "\n" ++ margin ++ "]"
  | record (field :: fields) =>
    "\x7b\n" ++ prettyFields (margin ++ "  ") (field :: fields) ++ "\n" ++ margin ++ "\x7d"
  | atom => atom.atomText

/-- Items on lines of their own. -/
def prettyItems (margin : String) : List Document → String
  | [] => ""
  | [item] => margin ++ item.pretty margin
  | item :: rest => margin ++ item.pretty margin ++ ",\n" ++ prettyItems margin rest

/-- Fields on lines of their own. -/
def prettyFields (margin : String) : List (String × Document) → String
  | [] => ""
  | [(name, value)] => margin ++ quoted name ++ ": " ++ value.pretty margin
  | (name, value) :: rest =>
    margin ++ quoted name ++ ": " ++ value.pretty margin ++ ",\n" ++ prettyFields margin rest

end

/-- A value that may be absent. -/
def ofOption {α : Type} (value : α → Document) : Option α → Document
  | some a => value a
  | none => null

/-- A list of strings. -/
def strings (texts : List String) : Document := list (texts.map string)

/-- A natural number. -/
def nat (value : Nat) : Document := int value

end Document

end TypeGraph
