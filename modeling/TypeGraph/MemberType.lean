import TypeGraph.Supertype

/-!
# Member types in scope

A member type is visible in the type that declares it, in its subtypes and in the types enclosed
by any of these. The search goes through the scope of a type depth first: its own member types,
then the scopes of its superclass, its interfaces, its declaring type and its outer type. A search
by name stops at a type that declares a match: what lies behind that type is shadowed. A type that
is reached on several ways is found several times. Enclosing types may form a circle; a type that
is being searched already is not searched again.
-/

namespace TypeGraph

namespace Registry

/-- The descriptor that a member type with the given simple name would have. -/
def memberDescriptor (r : Registry) (t : Handle) (name : String) : Except Error String :=
  Descriptor.ofClassName (r.className t ++ "$" ++ name)

end Registry

namespace Query

/-- The member types that a type declares. -/
def memberTypes (t : Handle) : Query (List Handle) :=
  once t Slots.memberTypes (fun list slots => { slots with memberTypes := some list }) do
    match (← read).declaration? t with
    | some declaration => ofExcept declaration.memberTypes
    | none => return []

/-- The first of the declared members of a type that has the simple name asked for, if one is. -/
def memberNamed (t : Handle) (members : List Handle) : Option String → Query (Option Handle)
  | none => return none
  | some name => do
    let r ← read
    let wanted ← ofExcept (r.memberDescriptor t name)
    return members.find? fun member => r.descriptor member = wanted

/-- The member types in the scope of a type, of any name or of the given one. -/
def searchScope (n : Nat) (name : Option String) (trail : List Handle) (t : Handle) :
    Query (List Handle) := do
  if _h : Trail.Open n trail t then
    let members ← memberTypes t
    match ← memberNamed t members name with
    | some member => return [member]
    | none =>
      let search := searchScope n name (t :: trail)
      let own := if name.isSome then [] else members
      let inSuperclass ← (← superclass t).toList.mapM search
      let inInterfaces ← (← interfaces t).mapM search
      let declaring ← declaringClass t
      let inDeclaring ← declaring.toList.mapM search
      let outer ← outerClass t
      let inOuter ← (outer.filter fun outer => some outer ≠ declaring).toList.mapM search
      return own ++ (inSuperclass ++ inInterfaces ++ inDeclaring ++ inOuter).flatten
  else return []
termination_by (Trail.unvisited n trail).length
decreasing_by exact Trail.unvisited_cons_lt _h

/-- The member types visible in a type: all of them, or those with a given simple name. More than
one type for a name means that the name is ambiguous, unless they are all the same. -/
def findMemberTypes (t : Handle) (name : Option String) : Query (List Handle) :=
  once t (fun slots => slots.scopes.lookup name)
    (fun found slots => { slots with scopes := (name, found) :: slots.scopes }) do
    searchScope (← read).size name [] t

end Query

end TypeGraph
