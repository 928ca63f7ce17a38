/-!
# Constant values

The value of a field that is a compile-time constant. A field that is no constant has no value at
all, which differs from having the null constant or zero.
-/

namespace TypeGraph

/-- A compile-time constant. -/
inductive Constant where
  | null
  | boolean (value : Bool)
  | byte (value : Int8)
  | short (value : Int16)
  | char (value : Char)
  | int (value : Int32)
  | long (value : Int64)
  | float (value : Float32)
  | double (value : Float)
  | string (value : String)
  deriving DecidableEq

end TypeGraph
