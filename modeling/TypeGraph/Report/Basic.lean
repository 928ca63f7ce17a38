import TypeGraph.Descriptor
import TypeGraph.Json.Document
import TypeGraph.Text.EditDistance

/-!
# Diagnostics

An error is reported with a code, its place and suggestions how to mend it, the most promising one
first. An unknown type gets the known names as suggestions that differ from it in one or two
characters.
-/

namespace TypeGraph

/-- How serious a diagnostic is. -/
inductive Severity where
  | error
  | warning
  deriving DecidableEq, Repr

/-- The place that a diagnostic is about. -/
structure Location where
  file : String
  start : Nat
  stop : Nat
  deriving DecidableEq, Repr

/-- A way to mend an error. -/
structure Suggestion where
  message : String
  /-- The text to put in place of what is there. -/
  replacement : Option String := none
  /-- How promising the suggestion is, between 0 and 1. -/
  confidence : Float
  deriving DecidableEq

/-- An error or a warning as it is reported. -/
structure Diagnostic where
  code : String
  severity : Severity
  message : String
  location : Option Location
  suggestions : List Suggestion

/-- The place of a span in a file of the given name. -/
def Location.ofSpan (file : String) (span : Span) : Location :=
  ⟨file, span.start, span.stop⟩

namespace Suggestion

/-- The most promising suggestions first; those that are equally promising stay in order. -/
def sort (suggestions : List Suggestion) : List Suggestion :=
  suggestions.mergeSort fun a b => !decide (a.confidence < b.confidence)

/-- The known names at distance one or two from a name, the nearest first, with their distances.
Names at the same distance stay in order. -/
def similar (name : String) (known : List String) : List (String × Nat) :=
  ((known.map fun other => (other, Text.editDistance name other)).filter fun candidate =>
    0 < candidate.2 && candidate.2 ≤ 2).mergeSort fun a b => a.2 ≤ b.2

/-- Use a known name at the given distance instead. -/
def rename (candidate : String × Nat) : Suggestion where
  message := "Did you mean '" ++ candidate.1 ++ "'?"
  replacement := some candidate.1
  confidence := 0.9 - 0.1 * Float.ofNat candidate.2

/-- Suggestions for an error, given the names that are known. -/
def forError (known : List String) : Error → List Suggestion
  | .classCircularity name _ =>
    [{ message :=
        "Change the superclass of " ++ name ++ " so the chain ends at java.lang.Object"
       confidence := 0.8 }]
  | .interfaceCircularity name _ =>
    [{ message := "Remove the interface of " ++ name ++ " that extends it again"
       confidence := 0.8 }]
  | .duplicateType descriptor _ =>
    [{ message := "Declare " ++ Descriptor.className descriptor ++ " only once"
       confidence := 0.9 }]
  | .unknownType name _ =>
    (similar name known).map rename ++
      [{ message := "Add " ++ name ++ " to the class-path model", confidence := 0.5 }]
  | .invalidDescriptor _ =>
    [{ message := "Spell types as in source code, e.g. java.lang.String[] or int"
       confidence := 0.6 }]
  | .syntheticConflict _ field =>
    [{ message := "Give both definitions of " ++ field ++ " the same type"
       confidence := 0.7 }]
  | .io _ | .model _ | .endless _ => []

end Suggestion

/-- The code of an error. -/
def Error.code : Error → String
  | classCircularity .. => "E0101"
  | interfaceCircularity .. => "E0102"
  | endless .. => "E0103"
  | duplicateType .. => "E0201"
  | unknownType .. => "E0202"
  | invalidDescriptor .. => "E0203"
  | syntheticConflict .. => "E0301"
  | io .. => "E0901"
  | model .. => "E0902"

namespace Diagnostic

/-- Report an error in a file, given the names that are known. -/
def ofError (error : Error) (file : String) (known : List String) : Diagnostic where
  code := error.code
  severity := .error
  message := error.message
  location := error.span.map (Location.ofSpan file)
  suggestions := Suggestion.sort (Suggestion.forError known error)

/-- Report a warning. -/
def warning (code message : String) (location : Option Location) : Diagnostic where
  code := code
  severity := .warning
  message := message
  location := location
  suggestions := []

end Diagnostic

/-! ## Documents -/

open Document

/-- How a severity is written. -/
def Severity.name : Severity → String
  | error => "Error"
  | warning => "Warning"

/-- A place as a document. -/
def Location.document (location : Location) : Document :=
  record [("file", string location.file), ("start", nat location.start),
    ("end", nat location.stop)]

/-- A suggestion as a document. -/
def Suggestion.document (suggestion : Suggestion) : Document :=
  record [("message", string suggestion.message),
    ("replacement", ofOption string suggestion.replacement),
    ("confidence", portion suggestion.confidence)]

/-- A diagnostic as a document. -/
def Diagnostic.document (diagnostic : Diagnostic) : Document :=
  record [("code", string diagnostic.code), ("severity", string diagnostic.severity.name),
    ("message", string diagnostic.message),
    ("location", ofOption Location.document diagnostic.location),
    ("suggestions", list (diagnostic.suggestions.map Suggestion.document))]

end TypeGraph
