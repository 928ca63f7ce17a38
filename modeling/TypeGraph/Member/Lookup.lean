import TypeGraph.Supertype

/-!
# The members of a type

Constructors, methods and fields are read from the declaration of a type when they are first asked
for. Methods are also kept by name. The methods of a type together with those that it inherits are
collected along its supertypes: its own first, then those of its superclass, then those of its
interfaces. A method is left out when one with the same name and descriptor is there already.
-/

namespace TypeGraph

namespace Registry

/-- The descriptors of some types. -/
def descriptors (r : Registry) (ts : List Handle) : List String :=
  ts.map r.descriptor

/-- The descriptor of a method. -/
def methodDescriptor (r : Registry) (method : Method) : String :=
  Descriptor.ofMethod (r.descriptors method.decl.parameters) (r.descriptor method.decl.result)

/-- Whether two methods cannot be told apart by name and descriptor. -/
def agree (r : Registry) (a b : Method) : Bool :=
  a.decl.name = b.decl.name && r.methodDescriptor a = r.methodDescriptor b

/-- Add a method, unless one that agrees with it is there already. -/
def addMethod (r : Registry) (methods : List Method) (method : Method) : List Method :=
  if methods.any (r.agree method) then methods else methods ++ [method]

end Registry

namespace Query

variable {α : Type}

/-! ## Declared members -/

/-- The number of a new reading of passing declarations. -/
def newReading : Query Nat :=
  modifyGet fun m => (m.readings + 1, { m with readings := m.readings + 1 })

/-- Read declarations of a type. -/
def readMembers (t : Handle) (origin : Origin) (decls : List α) : Query (List (Bound α)) := do
  if origin.lasts then return Bound.ofList t 0 decls
  else return Bound.ofList t (← newReading) decls

/-- The constructors of a type. -/
def constructors (t : Handle) : Query (List Constructor) :=
  once t Slots.constructors (fun list slots => { slots with constructors := some list }) do
    match (← read).shape t with
    | .declared origin => readMembers t origin origin.declaration.constructors
    | _ => return []

/-- The methods that a type declares. An array declares a public `clone`. -/
def methods (t : Handle) : Query (List Method) :=
  once t Slots.methods (fun list slots => { slots with methods := some list }) do
    match (← read).shape t with
    | .primitive _ => return []
    | .declared origin => readMembers t origin origin.declaration.methods
    | .array _ root => return Bound.ofList t (← newReading) [{ name := "clone", result := root }]

/-- The methods with a given name that a type declares. -/
def methodsNamed (t : Handle) (name : String) : Query (List Method) := do
  let index ← once t Slots.methodIndex
    (fun index slots => { slots with methodIndex := some index }) do
      return MethodIndex.ofList (← methods t)
  return index.named name

/-- The method with a given name and exactly the given parameters that a type declares. -/
def findMethod (t : Handle) (name : String) (parameters : List Handle) :
    Query (Option Method) := do
  return (← methodsNamed t name).find? fun method => method.decl.parameters = parameters

/-- Whether a type declares a method with a given name and exactly the given parameters. -/
def hasMethod (t : Handle) (name : String) (parameters : List Handle) : Query Bool := do
  return (← findMethod t name parameters).isSome

/-- The fields that a type declares, by name. -/
def fieldIndex (t : Handle) : Query FieldIndex :=
  once t Slots.fields (fun index slots => { slots with fields := some index }) do
    match (← read).shape t with
    | .declared origin =>
      return FieldIndex.ofList (← readMembers t origin origin.declaration.fields)
    | _ => return .empty

/-- The fields that a type declares. Of several fields with one name only the last counts. -/
def fields (t : Handle) : Query (List Field) := do
  return (← fieldIndex t).fields.toList

/-- The field with a given name that a type declares. -/
def field (t : Handle) (name : String) : Query (Option Field) := do
  return (← fieldIndex t).find? name

/-- The synthetic fields of a type. They are not remembered. -/
def syntheticFields (t : Handle) : Query (List Field) := do
  match (← read).declaration? t with
  | some declaration => return Bound.ofList t 0 declaration.syntheticFields
  | none => return []

/-! ## Inherited methods -/

/-- Add the methods of a type and of its supertypes to those collected so far. -/
def collectMethods (n : Nat) (trail : List Handle) (collected : List Method) (t : Handle) :
    Query (List Method) := do
  if _h : Trail.Open n trail t then
    let r ← read
    let collected := (← methods t).foldl r.addMethod collected
    let collected ← (← superclass t).toList.foldlM (collectMethods n (t :: trail)) collected
    (← interfaces t).foldlM (collectMethods n (t :: trail)) collected
  else throw (.endless ((← read).className t))
termination_by (Trail.unvisited n trail).length
decreasing_by all_goals exact Trail.unvisited_cons_lt _h

/-- The methods that a type declares or inherits. -/
def allMethods (t : Handle) : Query (List Method) :=
  once t Slots.allMethods (fun list slots => { slots with allMethods := some list }) do
    collectMethods (← read).size [] [] t

/-! ## Descriptors -/

/-- The descriptor of a constructor. The instance that an inner class is given comes first. -/
def constructorDescriptor (constructor : Constructor) : Query String := do
  let r ← read
  let outer ← outerClass constructor.owner
  let parameters := outer.toList ++ constructor.decl.parameters
  return Descriptor.ofMethod (r.descriptors parameters) (Primitive.descriptor .void)

end Query

end TypeGraph
