import TypeGraph.ClassPath.Basic
import TypeGraph.Json.Decode

/-!
# Class paths as JSON texts

A class path is written as an object with the list of its classes. All parts of a description but
the names of classes, methods and fields and the types of fields have defaults.
-/

namespace TypeGraph

open Json

namespace Span

/-- Spans. -/
def decoder : Decoder Span := fun json => do
  let r ← Record.ofJson? ["start", "end", "file_id"] json
  return {
    start := ← r.required "start" Decoder.natural
    stop := ← r.required "end" Decoder.natural
    file := ← r.required "file_id" Decoder.natural }

end Span

namespace Access

/-- Access levels. -/
def decoder : Decoder Access := Decoder.choice ofName?

end Access

namespace Constant

/-- The constant of a given kind with a given value. -/
def ofKind? (kind : String) (value : Json) : Option Constant :=
  match kind with
  | "boolean" => (Decoder.bool value).map boolean
  | "byte" =>
    (Decoder.integer Int8.minValue.toInt Int8.maxValue.toInt value).map fun n => byte (Int8.ofInt n)
  | "short" =>
    (Decoder.integer Int16.minValue.toInt Int16.maxValue.toInt value).map fun n =>
      short (Int16.ofInt n)
  | "char" => (Decoder.char value).map char
  | "int" =>
    (Decoder.integer Int32.minValue.toInt Int32.maxValue.toInt value).map fun n =>
      int (Int32.ofInt n)
  | "long" =>
    (Decoder.integer Int64.minValue.toInt Int64.maxValue.toInt value).map fun n =>
      long (Int64.ofInt n)
  | "float" => (Decoder.single value).map float
  | "double" => (Decoder.double value).map double
  | "string" => (Decoder.text value).map string
  | _ => none

/-- Constants: the null constant by its name, any other one as its kind with its value. -/
def decoder : Decoder Constant := fun json =>
  match Decoder.choice (fun name => if name = "null" then some null else none) json with
  | some constant => some constant
  | none =>
    match json with
    | .object [(some kind, value)] => ofKind? kind value
    | _ => none

end Constant

namespace ClassPath

/-- Kinds of descriptions. -/
def Kind.decoder : Decoder Kind :=
  Decoder.choice fun
    | "class" => some .ordinary
    | "interface" => some .interface
    | _ => none

/-- Lists of names. -/
private def namesDecoder : Decoder (List String) := Decoder.list Decoder.text

/-- Constructors. -/
def ConstructorItem.decoder : Decoder ConstructorItem := fun json => do
  let r ← Record.ofJson? ["access", "parameters", "throws"] json
  return {
    access := ← r.withDefault "access" Access.decoder .toAll
    parameters := ← r.withDefault "parameters" namesDecoder []
    thrown := ← r.withDefault "throws" namesDecoder [] }

/-- Methods. -/
def MethodItem.decoder : Decoder MethodItem := fun json => do
  let r ← Record.ofJson?
    ["name", "access", "static", "abstract", "parameters", "returns", "throws"] json
  return {
    name := ← r.required "name" Decoder.text
    access := ← r.withDefault "access" Access.decoder .toAll
    isStatic := ← r.withDefault "static" Decoder.bool false
    isAbstract := ← r.withDefault "abstract" Decoder.bool false
    parameters := ← r.withDefault "parameters" namesDecoder []
    result := ← r.withDefault "returns" Decoder.text "void"
    thrown := ← r.withDefault "throws" namesDecoder [] }

/-- Fields. -/
def FieldItem.decoder : Decoder FieldItem := fun json => do
  let r ← Record.ofJson? ["name", "type", "access", "static", "constant"] json
  return {
    name := ← r.required "name" Decoder.text
    type := ← r.required "type" Decoder.text
    access := ← r.withDefault "access" Access.decoder .toPackage
    isStatic := ← r.withDefault "static" Decoder.bool false
    constant := ← r.optional "constant" Constant.decoder }

/-- Classes and interfaces. -/
def ClassItem.decoder : Decoder ClassItem := fun json => do
  let r ← Record.ofJson?
    ["name", "kind", "access", "final", "abstract", "superclass", "interfaces", "outer",
     "declaring", "member_types", "constructors", "methods", "fields", "synthetic_fields",
     "span"] json
  return {
    name := ← r.required "name" Decoder.text
    kind := ← r.withDefault "kind" Kind.decoder .ordinary
    access := ← r.withDefault "access" Access.decoder .toAll
    isFinal := ← r.withDefault "final" Decoder.bool false
    isAbstract := ← r.withDefault "abstract" Decoder.bool false
    superclass := ← r.optional "superclass" Decoder.text
    interfaces := ← r.withDefault "interfaces" namesDecoder []
    outer := ← r.optional "outer" Decoder.text
    declaring := ← r.optional "declaring" Decoder.text
    memberTypes := ← r.withDefault "member_types" namesDecoder []
    constructors := ← r.withDefault "constructors" (Decoder.list ConstructorItem.decoder) []
    methods := ← r.withDefault "methods" (Decoder.list MethodItem.decoder) []
    fields := ← r.withDefault "fields" (Decoder.list FieldItem.decoder) []
    syntheticFields := ← r.withDefault "synthetic_fields" (Decoder.list FieldItem.decoder) []
    span := ← r.optional "span" Span.decoder }

/-- Lists of classes. -/
def itemsDecoder : Decoder (List ClassItem) := fun json => do
  let r ← Record.ofJson? ["classes"] json
  r.withDefault "classes" (Decoder.list ClassItem.decoder) []

/-- The descriptions in a text. -/
def items? (text : String) : Option (List ClassItem) :=
  (Json.parse? text).bind itemsDecoder

/-- The class path in a text. -/
def ofText (text : String) : Except Error ClassPath :=
  match items? text with
  | some items => ofItems items
  | none => .error (.model "the text does not describe a class path")

end ClassPath

end TypeGraph
