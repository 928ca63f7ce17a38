import TypeGraph.Supertype

/-!
# Conversions

When a value of one type may be used where another type is expected: the types are the same, or
the one widens to the other as a primitive or as a reference type. The null literal has the type
`void` here and widens to every reference type.
-/

namespace TypeGraph

namespace Registry

/-- Whether a primitive type widens to another. -/
def widensTo (r : Registry) (source target : Handle) : Bool :=
  match r.shape source, r.shape target with
  | .primitive p, .primitive q => p.widensTo q
  | _, _ => false

/-- Whether a type widens to another without regard to its declaration: the null literal to every
reference type, an interface to the root class, and an array to the root class and to the two
interfaces that all arrays implement. -/
def widensByKind (r : Registry) (source target : Handle) : Bool :=
  let descriptor := r.descriptor target
  source = Handle.void && !r.isPrimitive target ||
  r.isInterface source && descriptor = Descriptor.object ||
  r.isArray source &&
    [Descriptor.object, Descriptor.cloneable, Descriptor.serializable].contains descriptor

end Registry

namespace Query

/-! ## Walks along supertypes -/

/-- Whether the target is met on the superclass chain above a type. -/
def climbs (n : Nat) (target : Handle) (trail : List Handle) (t : Handle) : Query Bool := do
  if _h : Trail.Open n trail t then
    match ← superclass t with
    | none => return false
    | some superclass =>
      if superclass = target then return true else climbs n target (t :: trail) superclass
  else throw (.endless ((← read).className t))
termination_by (Trail.unvisited n trail).length
decreasing_by exact Trail.unvisited_cons_lt _h

/-- Whether a type is a subclass of another one, itself excluded. -/
def isSubclass (t target : Handle) : Query Bool := do
  climbs (← read).size target [] t

/-- Whether the target is met as an interface on the way through the supertypes of a type. -/
def reaches (n : Nat) (target : Handle) (trail : List Handle) (t : Handle) : Query Bool := do
  if _h : Trail.Open n trail t then
    let reachesAbove := reaches n target (t :: trail)
    let direct ← (← interfaces t).anyM fun interface =>
      if interface = target then pure true else reachesAbove interface
    if direct then return true
    match ← superclass t with
    | none => return false
    | some superclass => reachesAbove superclass
  else throw (.endless ((← read).className t))
termination_by (Trail.unvisited n trail).length
decreasing_by exact Trail.unvisited_cons_lt _h

/-- Whether a class or one of its superclasses implements an interface, or an interface extends
it, directly or through other interfaces. -/
def implements (t target : Handle) : Query Bool := do
  reaches (← read).size target [] t

/-! ## Assignability -/

/-- Whether a value of the second type may be assigned to a variable of the first. Arrays of
references widen with their components. -/
def assignable (target source : Handle) : Query Bool := do
  let r ← read
  if target = source then return true
  if r.widensTo source target then return true
  if ← isSubclass source target then return true
  if ← implements source target then return true
  if r.widensByKind source target then return true
  match _h : r.component? target, r.component? source with
  | some targetComponent, some sourceComponent =>
    if r.isPrimitive targetComponent then return false
    else assignable targetComponent sourceComponent
  | _, _ => return false
termination_by target.index
decreasing_by exact Registry.component?_lt _h

end Query

end TypeGraph
