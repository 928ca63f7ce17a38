import TypeGraph.Primitive

/-!
# Handles

A handle names one type of a graph by the order of registration. The primitive types come first,
so their handles are known in advance. Two handles denote the same type exactly when they are
equal. Graphs with fewer than 2^32 types are meant, so that a number of 32 bits is enough for each.
-/

namespace TypeGraph

/-- The number of a type in the order of registration. -/
structure Handle where
  index : Nat
  deriving DecidableEq, Repr, Inhabited

namespace Handle

/-- The handle of a primitive type. -/
def ofPrimitive (p : Primitive) : Handle := ⟨p.index⟩

/-- The handle of `void`, which is also the type of the null literal. -/
def void : Handle := ofPrimitive .void

/-- Whether the handle belongs to a primitive type. -/
def isReserved (t : Handle) : Bool := t.index < Primitive.all.length

/-- How the handle is shown. -/
def label (t : Handle) : String := "#" ++ toString t.index

end Handle

end TypeGraph
