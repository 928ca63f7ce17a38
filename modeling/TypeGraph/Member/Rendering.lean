import TypeGraph.Registry

/-!
# How members are shown

A method is shown with its modifiers, its result, the type that declares it, its parameters and
what it throws; a constructor and a field without modifiers.
-/

namespace TypeGraph.Registry

/-- Types in source spelling, divided by commas. -/
def renderTypes (r : Registry) (ts : List Handle) : String :=
  ", ".intercalate (ts.map r.className)

/-- Parameters in parentheses, and the thrown types if there are some. -/
def renderSignature (r : Registry) (parameters thrown : List Handle) : String :=
  "(" ++ r.renderTypes parameters ++ ")" ++
    if thrown.isEmpty then "" else " throws " ++ r.renderTypes thrown

/-- A method as it is shown. Package access is not written. -/
def renderMethod (r : Registry) (method : Method) : String :=
  let decl := method.decl
  (if decl.access = .toPackage then "" else decl.access.modifier ++ " ") ++
  (if decl.isStatic then "static " else "") ++
  (if decl.isAbstract then "abstract " else "") ++
  r.className decl.result ++ " " ++ r.className method.owner ++ "." ++ decl.name ++
  r.renderSignature decl.parameters decl.thrown

/-- A constructor as it is shown. -/
def renderConstructor (r : Registry) (constructor : Constructor) : String :=
  r.className constructor.owner ++
    r.renderSignature constructor.decl.parameters constructor.decl.thrown

/-- A field as it is shown. -/
def renderField (r : Registry) (field : Field) : String :=
  r.className field.owner ++ "." ++ field.decl.name

end TypeGraph.Registry
