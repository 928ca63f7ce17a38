import TypeGraph.Span

/-!
# Errors

What can go wrong when types are declared, loaded or asked about. An error is the cause; its
wording is the one function `Error.message`.
-/

namespace TypeGraph

/-- The cause of a failed operation. Type names are in source spelling. -/
inductive Error where
  /-- The superclass chain runs into the named class a second time. -/
  | classCircularity (name : String) (span : Option Span)
  /-- An interface of the named type leads back to it. -/
  | interfaceCircularity (name : String) (span : Option Span)
  /-- The descriptor belongs to a registered type already. -/
  | duplicateType (descriptor : String) (span : Option Span)
  /-- No type of that name can be found. -/
  | unknownType (name : String) (span : Option Span)
  /-- The text denotes no type. -/
  | invalidDescriptor (text : String)
  /-- A synthetic field was defined with one type and then with another. -/
  | syntheticConflict (owner field : String)
  /-- A file could not be read. -/
  | io (text : String)
  /-- The text of a class path could not be understood. -/
  | model (text : String)
  /-- A walk along supertypes came back to the named type. The checks on single links cannot see
  such a loop: it needs a class that is an interface of its own superclass. -/
  | endless (name : String)
  deriving DecidableEq, Repr

namespace Error

/-- The text shown for an error. -/
def message : Error → String
  | classCircularity name _ => "Class circularity detected for \"" ++ name ++ "\""
  | interfaceCircularity name _ => "Interface circularity detected for \"" ++ name ++ "\""
  | duplicateType descriptor _ => "Duplicate type: " ++ descriptor
  | unknownType name _ => "Undefined type: " ++ name
  | invalidDescriptor text => "Invalid descriptor: " ++ text
  | syntheticConflict owner field =>
    "Synthetic field " ++ field ++ " of " ++ owner ++ " redefined with a different type"
  | io text => "IO error: " ++ text
  | model text => "Class-path model error: " ++ text
  | endless name => "Endless walk through the supertypes of \"" ++ name ++ "\""

/-- The place of the declaration that the error is about, if it has one. -/
def span : Error → Option Span
  | classCircularity _ span => span
  | interfaceCircularity _ span => span
  | duplicateType _ span => span
  | unknownType _ span => span
  | _ => none

/-- Whether the error says that a supertype link closes a circle. -/
def isCircularity : Error → Bool
  | classCircularity .. | interfaceCircularity .. => true
  | _ => false

end Error

end TypeGraph
