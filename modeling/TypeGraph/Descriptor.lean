import TypeGraph.Error
import TypeGraph.Primitive
import TypeGraph.Text.Blank

/-!
# Descriptors and class names

A descriptor is the text that identifies a type: a letter for a primitive type, `Lp/A;` for the
class `p.A`, and a bracket in front for an array. People write class names instead: `int`, `p.A`,
`p.A[]`. This file holds both spellings, the way from each to the other, and the test for
well-formed descriptors. The two ways do not accept the same texts: a descriptor may hold
characters that no class name has.
-/

namespace TypeGraph.Descriptor

/-- The root of the class hierarchy. -/
def object : String := "Ljava/lang/Object;"

/-- An interface that every array implements. -/
def cloneable : String := "Ljava/lang/Cloneable;"

/-- An interface that every array implements. -/
def serializable : String := "Ljava/io/Serializable;"

/-- The class of string literals. -/
def string : String := "Ljava/lang/String;"

/-! ## The parts of a descriptor -/

/-- The number of array dimensions. -/
def dimensions (text : List Char) : Nat :=
  (text.takeWhile (· = '[')).length

/-- The part behind the brackets of the dimensions. -/
def element (text : List Char) : List Char :=
  text.dropWhile (· = '[')

/-- The text between the `L` and the semicolon of a class element. -/
def inner? : List Char → Option (List Char)
  | 'L' :: rest => Text.dropEnding? [';'] rest
  | _ => none

/-- The descriptor of the component, for the descriptor of an array. -/
def component? (descriptor : String) : Option String :=
  match descriptor.toList with
  | '[' :: rest => some (String.ofList rest)
  | _ => none

/-- Whether the descriptor is that of an array. -/
def isArray (descriptor : String) : Bool :=
  (component? descriptor).isSome

/-- The primitive type that the descriptor stands for, if it is one. -/
def primitive? (descriptor : String) : Option Primitive :=
  Primitive.ofDescriptor? descriptor.toList

/-- Whether the descriptor is that of a primitive type. -/
def isPrimitive (descriptor : String) : Bool :=
  (primitive? descriptor).isSome

/-- Whether the descriptor is that of a numeric primitive type. -/
def isNumeric (descriptor : String) : Bool :=
  (primitive? descriptor).any Primitive.isNumeric

theorem length_component?_lt {descriptor component : String}
    (h : component? descriptor = some component) : component.length < descriptor.length := by
  unfold component? at h
  split at h
  next rest hd =>
    cases h
    have hlen : descriptor.length = rest.length + 1 := by
      rw [← String.length_toList, hd, List.length_cons]
    rw [hlen, String.length_ofList]
    exact Nat.lt_succ_self _
  next => cases h

/-! ## Well-formed descriptors -/

/-- Whether a text can stand between the `L` and the semicolon. -/
def isInner (inner : List Char) : Bool :=
  !inner.isEmpty && !inner.any fun c => c = '.' || c = ';' || c = '['

/-- Whether a text is the descriptor of a type. There are no arrays of `void`. -/
def isValid (descriptor : String) : Bool :=
  let text := descriptor.toList
  match Primitive.ofDescriptor? (element text) with
  | some .void => dimensions text = 0
  | some _ => true
  | none => (inner? (element text)).any isInner

/-- Refuse a text that is not the descriptor of a type. -/
def validate (descriptor : String) : Except Error Unit :=
  if isValid descriptor then .ok () else .error (.invalidDescriptor descriptor)

/-! ## Class names -/

/-- Every `old` replaced by `new`. -/
def swap (old new : Char) (text : List Char) : List Char :=
  text.map fun c => if c = old then new else c

/-- A text repeated. -/
def repeated (n : Nat) (text : List Char) : List Char :=
  (List.replicate n text).flatten

/-- The source spelling of the element of a descriptor. -/
def elementName? (element : List Char) : Option (List Char) :=
  match Primitive.ofDescriptor? element with
  | some p => some p.keyword.toList
  | none => (inner? element).map (swap '/' '.')

/-- The source spelling of a type. A text that has not the form of a descriptor stays as it is. -/
def className (descriptor : String) : String :=
  let text := descriptor.toList
  match elementName? (element text) with
  | some name => String.ofList (name ++ repeated (dimensions text) ['[', ']'])
  | none => descriptor

/-- Take the brackets off the end of a class name, and the blanks before each of them. -/
def splitBrackets (text : List Char) : List Char × Nat :=
  match _h : Text.dropEnding? ['[', ']'] text with
  | some rest =>
    let (base, count) := splitBrackets (Text.trimEnd rest)
    (base, count + 1)
  | none => (text, 0)
termination_by text.length
decreasing_by
  exact Nat.lt_of_le_of_lt (Text.length_trimEnd_le rest)
    (Text.length_dropEnding?_lt (by decide) _h)

/-- Whether a character cannot stand in the name of a class. -/
def isForbidden (c : Char) : Bool :=
  Text.isBlank c || c = ';' || c = '[' || c = ']' || c = '/'

/-- Whether a text is the name of a class in source spelling. -/
def isName (name : List Char) : Bool :=
  !name.isEmpty && name.head? != some '.' && name.getLast? != some '.' && !name.any isForbidden

/-- The element part of the descriptor for a class name without brackets. -/
def elementOfName? (dimensions : Nat) (name : List Char) : Option (List Char) :=
  match Primitive.ofKeyword? (String.ofList name) with
  | some p => if p = .void ∧ 0 < dimensions then none else some [p.letter]
  | none => if isName name then some (['L'] ++ swap '.' '/' name ++ [';']) else none

/-- The descriptor of a type in source spelling, such as `int[][]`. Blanks around the name and
before brackets do not count. -/
def ofClassName (name : String) : Except Error String :=
  let (base, count) := splitBrackets (Text.trim name.toList)
  match elementOfName? count base with
  | some element => .ok (String.ofList (List.replicate count '[' ++ element))
  | none => .error (.invalidDescriptor name)

/-! ## Classes and methods -/

/-- The descriptor of the class with a given name. The name is taken as it is, so the result need
not be well-formed. -/
def ofRawName (name : String) : String :=
  String.ofList (['L'] ++ swap '.' '/' name.toList ++ [';'])

/-- The descriptor of a method from those of its parameters and its result. -/
def ofMethod (parameters : List String) (result : String) : String :=
  "(" ++ String.join parameters ++ ")" ++ result

/-- The descriptor of an array of a type with the given descriptor. -/
def ofArray (component : String) : String :=
  "[" ++ component

end TypeGraph.Descriptor
