/-!
# Primitive types

The eight primitive types of the language and the pseudo-type `void`, each with its keyword and
with the letter that stands for it in a descriptor. The order of `Primitive.all` is the order in
which a type graph numbers them.
-/

namespace TypeGraph

/-- A primitive type, or `void`. -/
inductive Primitive where
  | void
  | boolean
  | byte
  | char
  | short
  | int
  | long
  | float
  | double
  deriving DecidableEq, Repr, Inhabited

namespace Primitive

/-- Every primitive type, in the order of their reserved handles. -/
def all : List Primitive :=
  [void, boolean, byte, char, short, int, long, float, double]

/-- The position in `all`. -/
def index : Primitive → Nat
  | void => 0
  | boolean => 1
  | byte => 2
  | char => 3
  | short => 4
  | int => 5
  | long => 6
  | float => 7
  | double => 8

/-- The letter of the type in a descriptor. -/
def letter : Primitive → Char
  | void => 'V'
  | boolean => 'Z'
  | byte => 'B'
  | char => 'C'
  | short => 'S'
  | int => 'I'
  | long => 'J'
  | float => 'F'
  | double => 'D'

/-- The keyword of the type in source text. -/
def keyword : Primitive → String
  | void => "void"
  | boolean => "boolean"
  | byte => "byte"
  | char => "char"
  | short => "short"
  | int => "int"
  | long => "long"
  | float => "float"
  | double => "double"

/-- The descriptor of the type: its letter alone. -/
def descriptor (p : Primitive) : String :=
  String.ofList [p.letter]

/-- The type that a descriptor consisting of a letter stands for. -/
def ofDescriptor? : List Char → Option Primitive
  | [c] => all.find? fun p => p.letter = c
  | _ => none

/-- The type with the given keyword. -/
def ofKeyword? (word : String) : Option Primitive :=
  all.find? fun p => p.keyword = word

/-- Whether values of the type are numbers; characters count as numbers. -/
def isNumeric : Primitive → Bool
  | void | boolean => false
  | _ => true

/-- Whether values of the type are whole numbers. -/
def isIntegral : Primitive → Bool
  | byte | char | short | int | long => true
  | _ => false

/-- Whether values of the type are floating-point numbers. -/
def isFloating : Primitive → Bool
  | float | double => true
  | _ => false

/-- The widening conversions from a type, other than identity. Every pair is listed; none is left
to be found by chaining two others. -/
def widenings : Primitive → List Primitive
  | byte => [short, int, long, float, double]
  | short | char => [int, long, float, double]
  | int => [long, float, double]
  | long => [float, double]
  | float => [double]
  | void | boolean | double => []

/-- Whether a value of the first type widens to the second. -/
def widensTo (source target : Primitive) : Bool :=
  source.widenings.contains target

@[simp]
theorem all_getElem?_index (p : Primitive) : all[p.index]? = some p := by
  cases p <;> rfl

@[simp]
theorem ofDescriptor?_letter (p : Primitive) : ofDescriptor? [p.letter] = some p := by
  cases p <;> rfl

@[simp]
theorem ofKeyword?_keyword (p : Primitive) : ofKeyword? p.keyword = some p := by
  cases p <;> decide

end Primitive

end TypeGraph
