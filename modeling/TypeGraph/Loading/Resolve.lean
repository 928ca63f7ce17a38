import TypeGraph.Registry

/-!
# Finding types by descriptor

A type that is registered is found in the registry. An array type is made from its component. Any
other type is asked of a source of classes, which here is a function: it registers the class with
the given descriptor if it knows one. The function may ask for further types in turn.
-/

namespace TypeGraph.Load

variable {α : Type}

/-- Succeed or fail like a given result. -/
def ofExcept (result : Except Error α) : Load α :=
  match result with
  | .ok value => pure value
  | .error error => throw error

/-- Register a class or interface. -/
def define (origin : Origin) : Load Handle := do
  let (t, r) ← ofExcept ((← get).define origin)
  set r
  return t

/-- Change the draft of a class or interface. -/
def edit (t : Handle) (change : Draft → Draft) : Load Unit :=
  modify fun r => r.edit t change

/-- Define a synthetic field of a class. -/
def defineSynthetic (t : Handle) (field : FieldDecl) : Load Unit := do
  set (← ofExcept ((← get).defineSynthetic t field))

/-- The type of arrays of a type. -/
def arrayOf (component root : Handle) : Load Handle :=
  modifyGet fun r => r.arrayOf component root

/-- The type of arrays of a type with the given number of dimensions. -/
def arrayOfDimensions (element root : Handle) (n : Nat) : Load Handle :=
  modifyGet fun r => r.arrayOfDimensions element root n

/-- The registered type with a descriptor. A broken one is reported as its error. -/
def registered (descriptor : String) : Load (Option Handle) := do
  let r ← get
  match r.lookup descriptor with
  | none => return none
  | some t =>
    match r.loadError t with
    | some error => throw error
    | none => return some t

/-- Find or load a class or interface. -/
def resolveClass (load : String → Load (Option Handle)) (descriptor : String) :
    Load (Option Handle) := do
  ofExcept (Descriptor.validate descriptor)
  match ← registered descriptor with
  | some t => return some t
  | none => load descriptor

/-- The root class, which all arrays extend. -/
def rootClass (load : String → Load (Option Handle)) : Load Handle := do
  match ← resolveClass load Descriptor.object with
  | some t => return t
  | none => throw (.unknownType (Descriptor.className Descriptor.object) none)

/-- Find, make or load a type. The components of an array come first, then the root class, then
the array itself. -/
def resolve (load : String → Load (Option Handle)) (descriptor : String) :
    Load (Option Handle) := do
  ofExcept (Descriptor.validate descriptor)
  match ← registered descriptor with
  | some t => return some t
  | none =>
    match _h : Descriptor.component? descriptor with
    | none => load descriptor
    | some component =>
      match ← resolve load component with
      | none => return none
      | some component =>
        let root ← rootClass load
        return some (← arrayOf component root)
termination_by descriptor.length
decreasing_by exact Descriptor.length_component?_lt _h

/-- Find, make or load a type in source spelling. -/
def resolveName (load : String → Load (Option Handle)) (name : String) :
    Load (Option Handle) := do
  resolve load (← ofExcept (Descriptor.ofClassName name))

/-- Find, make or load a type in source spelling, which has to exist. The span is that of the
declaration that needs the type. -/
def require (load : String → Load (Option Handle)) (span : Option Span) (name : String) :
    Load Handle := do
  match ← resolveName load name with
  | some t => return t
  | none => throw (.unknownType name span)

end TypeGraph.Load
