import Std.Data.TreeMap
import TypeGraph.Draft

/-!
# The registry of types

The registry holds every type of a graph, in the order of registration, and finds a type by its
descriptor. It starts with the primitive types. Classes and interfaces are defined once each; the
array type of a type is made on first use and then kept with that type.
-/

namespace TypeGraph

/-- What kind of type a handle stands for. -/
inductive Shape where
  | primitive (p : Primitive)
  /-- A class or an interface. -/
  | declared (origin : Origin)
  /-- An array of components; `root` is the class that the array extends. -/
  | array (component root : Handle)

/-- The four kinds of types. -/
inductive Category where
  | primitive
  | class_
  | interface
  | array
  deriving DecidableEq, Repr

/-- A registered type. -/
structure Entry where
  shape : Shape
  /-- The type of arrays of this type, once it was asked for. -/
  array : Option Handle := none

/-- All types of a graph. -/
structure Registry where
  /-- The types in the order of registration: a handle is a position in this list. -/
  entries : Array Entry
  /-- The types by descriptor. -/
  index : Std.TreeMap String Handle

/-- Operations that may change the registry and may fail. What was registered before a failure
stays. -/
abbrev Load := ExceptT Error (StateM Registry)

namespace Registry

/-- The registry that holds the primitive types only. -/
def initial : Registry where
  entries := (Primitive.all.map fun p => { shape := .primitive p }).toArray
  index := Std.TreeMap.ofList (Primitive.all.map fun p => (p.descriptor, Handle.ofPrimitive p))

/-- The number of registered types. -/
def size (r : Registry) : Nat := r.entries.size

/-- The type with the given descriptor, if it is registered. -/
def lookup (r : Registry) (descriptor : String) : Option Handle := r.index[descriptor]?

/-! ## Attributes -/

/-- What a handle stands for. A handle that was never issued is taken for `void`. -/
def shape (r : Registry) (t : Handle) : Shape :=
  match r.entries[t.index]? with
  | some entry => entry.shape
  | none => .primitive .void

/-- What a class or interface declares now. -/
def declaration? (r : Registry) (t : Handle) : Option Declaration :=
  match r.shape t with
  | .declared origin => some origin.declaration
  | _ => none

/-- The component of an array type. An array is registered after its component, so following
components comes to an end. -/
def component? (r : Registry) (t : Handle) : Option Handle :=
  match r.shape t with
  | .array component _ => if component.index < t.index then some component else none
  | _ => none

theorem component?_lt {r : Registry} {t c : Handle} (h : r.component? t = some c) :
    c.index < t.index := by
  unfold component? at h
  split at h
  next component root hs =>
    split at h
    next hlt => cases h; exact hlt
    next => cases h
  next => cases h

/-- The descriptor of a type. -/
def descriptor (r : Registry) (t : Handle) : String :=
  match _h : r.component? t with
  | some component => Descriptor.ofArray (descriptor r component)
  | none =>
    match r.shape t with
    | .primitive p => p.descriptor
    | .declared origin => origin.declaration.descriptor
    | .array .. => Descriptor.ofArray ""
termination_by t.index
decreasing_by exact component?_lt _h

/-- The name of a type in source spelling. -/
def className (r : Registry) (t : Handle) : String :=
  Descriptor.className (r.descriptor t)

/-- The kind of a type. -/
def category (r : Registry) (t : Handle) : Category :=
  match r.shape t with
  | .primitive _ => .primitive
  | .declared origin => if origin.declaration.isInterface then .interface else .class_
  | .array .. => .array

/-- Whether the type is primitive or `void`. -/
def isPrimitive (r : Registry) (t : Handle) : Bool := r.category t = .primitive

/-- Whether the type is an interface. -/
def isInterface (r : Registry) (t : Handle) : Bool := r.category t = .interface

/-- Whether the type is an array. -/
def isArray (r : Registry) (t : Handle) : Bool := r.category t = .array

/-- Whether the type is a numeric primitive type. -/
def isNumeric (r : Registry) (t : Handle) : Bool :=
  match r.shape t with
  | .primitive p => p.isNumeric
  | _ => false

/-- The access level of a type; an array has that of its component. -/
def access (r : Registry) (t : Handle) : Access :=
  match _h : r.component? t with
  | some component => access r component
  | none =>
    match r.declaration? t with
    | some declaration => declaration.access
    | none => .toAll
termination_by t.index
decreasing_by exact component?_lt _h

/-- Whether a type has no subclasses. -/
def isFinal (r : Registry) (t : Handle) : Bool :=
  match r.declaration? t with
  | some declaration => declaration.isFinal
  | none => true

/-- Whether a type has no instances of its own. -/
def isAbstract (r : Registry) (t : Handle) : Bool :=
  match r.declaration? t with
  | some declaration => declaration.isAbstract
  | none => false

/-- Where a type is declared. -/
def location (r : Registry) (t : Handle) : Option Span :=
  (r.declaration? t).bind Declaration.location

/-- Why a type must not be used. -/
def loadError (r : Registry) (t : Handle) : Option Error :=
  (r.declaration? t).bind Declaration.loadError

/-! ## Registration -/

/-- The handle of the type that is registered next. -/
def next (r : Registry) : Handle := ⟨r.entries.size⟩

/-- Register a class or interface. The descriptor must be that of a class, and new. -/
def define (r : Registry) (origin : Origin) : Except Error (Handle × Registry) := do
  let declaration := origin.declaration
  let descriptor := declaration.descriptor
  Descriptor.validate descriptor
  if Descriptor.isPrimitive descriptor || Descriptor.isArray descriptor then
    throw (.invalidDescriptor descriptor)
  if r.index.contains descriptor then
    throw (.duplicateType descriptor declaration.location)
  return (r.next, {
    entries := r.entries.push { shape := .declared origin }
    index := r.index.insert descriptor r.next })

/-- The type of arrays of the given type, which is registered on first use. Only then does it
matter which class the arrays extend. -/
def arrayOf (r : Registry) (component root : Handle) : Handle × Registry :=
  match r.entries[component.index]?.bind Entry.array with
  | some array => (array, r)
  | none => (r.next, {
      entries := (r.entries.modify component.index fun entry =>
        { entry with array := some r.next }).push { shape := .array component root }
      index := r.index.insertIfNew (Descriptor.ofArray (r.descriptor component)) r.next })

/-- The type of arrays with the given number of dimensions. -/
def arrayOfDimensions (r : Registry) (element root : Handle) : Nat → Handle × Registry
  | 0 => (element, r)
  | n + 1 =>
    let (component, r) := r.arrayOfDimensions element root n
    r.arrayOf component root

/-- Change the draft of a class or interface. Nothing happens to other types. -/
def edit (r : Registry) (t : Handle) (change : Draft → Draft) : Registry :=
  { r with
    entries := r.entries.modify t.index fun entry =>
      match entry.shape with
      | .declared (.draft d) => { entry with shape := .declared (.draft (change d)) }
      | _ => entry }

/-- The draft of a class or interface. -/
def draft? (r : Registry) (t : Handle) : Option Draft :=
  match r.shape t with
  | .declared (.draft d) => some d
  | _ => none

/-- Define a synthetic field of a class. -/
def defineSynthetic (r : Registry) (t : Handle) (field : FieldDecl) : Except Error Registry :=
  match r.draft? t with
  | some d => do
    let d ← d.defineSynthetic field
    return r.edit t fun _ => d
  | none => .ok r

end Registry

end TypeGraph
