import TypeGraph.Memory
import TypeGraph.Trail

/-!
# Superclass, interfaces and enclosing types

The links from a type to its supertypes are checked when they are first asked for. A superclass is
accepted only if the chain above it ends, and a list of interfaces only if none of them leads back
to the type. A link that was accepted is remembered and never checked again; a link that was
refused is checked anew each time. The checks follow the remembered links where there are some and
the declared ones elsewhere: these are the effective links of a type.

The links to enclosing types are not checked.
-/

namespace TypeGraph

namespace Registry

/-- The superclass that a type declares now. An array extends the root that it was made with. -/
def declaredSuperclass (r : Registry) (t : Handle) : Except Error (Option Handle) :=
  match r.shape t with
  | .primitive _ => .ok none
  | .declared origin => origin.declaration.superclass
  | .array _ root => .ok (some root)

/-- The interfaces that a type declares now. -/
def declaredInterfaces (r : Registry) (t : Handle) : Except Error (List Handle) :=
  match r.declaration? t with
  | some declaration => declaration.interfaces
  | none => .ok []

/-- The superclass that was accepted for a type, or else the one that it declares now. -/
def effectiveSuperclass (r : Registry) (m : Memory) (t : Handle) : Except Error (Option Handle) :=
  match (m.about t).superclass with
  | some known => .ok known
  | none => r.declaredSuperclass t

/-- The interfaces that were accepted for a type, or else those that it declares now. -/
def effectiveInterfaces (r : Registry) (m : Memory) (t : Handle) : Except Error (List Handle) :=
  match (m.about t).interfaces with
  | some known => .ok known
  | none => r.declaredInterfaces t

/-! ## The superclass check -/

/-- Follow the effective superclasses from a type until they end. The types on the trail were
passed before; the walk fails at the first type that it meets again. -/
def checkChain (r : Registry) (m : Memory) (trail : List Handle) (t : Handle) :
    Except Error Unit :=
  if _h : Trail.Open r.size trail t then
    match r.effectiveSuperclass m t with
    | .error error => .error error
    | .ok none => .ok ()
    | .ok (some superclass) => checkChain r m (t :: trail) superclass
  else .error (.classCircularity (r.className t) (r.location t))
termination_by (Trail.unvisited r.size trail).length
decreasing_by exact Trail.unvisited_cons_lt _h

/-! ## The interface check -/

/-- The types that a search has yet to look at, the next one first, and those that it has not
found yet. -/
structure Frontier where
  pending : List Handle
  fresh : List Handle

namespace Frontier

/-- Put a type in front of the pending ones, if it was not found before. -/
def visit (f : Frontier) (t : Handle) : Frontier :=
  if t ∈ f.fresh then ⟨t :: f.pending, f.fresh.erase t⟩ else f

/-- How many types there are to look at. -/
def rest (f : Frontier) : Nat := f.pending.length + f.fresh.length

@[simp]
theorem rest_visit (f : Frontier) (t : Handle) : (f.visit t).rest = f.rest := by
  unfold visit
  split
  next h =>
    have hpos := List.length_pos_of_mem h
    simp only [rest, List.length_cons, List.length_erase_of_mem h]
    omega
  next => rfl

@[simp]
theorem rest_foldl_visit (f : Frontier) (ts : List Handle) :
    (ts.foldl visit f).rest = f.rest := by
  induction ts generalizing f with
  | nil => rfl
  | cons t ts ih => rw [List.foldl_cons, ih, rest_visit]

end Frontier

/-- Whether some pending type has the target among the interfaces that it, its superclasses or
those interfaces have, through effective links. The type found last is looked at first, its
superclass before its interfaces. -/
def searchInterface (r : Registry) (m : Memory) (target : Handle) (frontier : Frontier) :
    Except Error Bool :=
  match _h : frontier with
  | ⟨[], _⟩ => .ok false
  | ⟨t :: pending, fresh⟩ =>
    match r.effectiveSuperclass m t with
    | .error error => .error error
    | .ok superclass =>
      match r.effectiveInterfaces m t with
      | .error error => .error error
      | .ok interfaces =>
        if target ∈ interfaces then .ok true
        else searchInterface r m target
          ((superclass.toList ++ interfaces).foldl Frontier.visit ⟨pending, fresh⟩)
termination_by frontier.rest
decreasing_by
  rw [Frontier.rest_foldl_visit]
  simp only [Frontier.rest, List.length_cons]
  omega

/-- Whether the target is an interface of a type, of one of its superclasses, or of anything that
those interfaces extend, through effective links. -/
def reachesInterface (r : Registry) (m : Memory) (start target : Handle) : Except Error Bool :=
  r.searchInterface m target ⟨[start], Trail.unvisited r.size [start]⟩

/-- Refuse a list of interfaces of a type if one of them leads back to the type. -/
def checkInterfaces (r : Registry) (m : Memory) (t : Handle) : List Handle → Except Error Unit
  | [] => .ok ()
  | interface :: rest =>
    match r.reachesInterface m interface t with
    | .error error => .error error
    | .ok true => .error (.interfaceCircularity (r.className t) (r.location t))
    | .ok false => checkInterfaces r m t rest

end Registry

/-! ## The questions -/

namespace Query

/-- The superclass of a type: none for the root class, interfaces and primitive types. -/
def superclass (t : Handle) : Query (Option Handle) :=
  once t Slots.superclass (fun link slots => { slots with superclass := some link }) do
    let r ← read
    let link ← ofExcept (r.declaredSuperclass t)
    match link with
    | some first => ofExcept (r.checkChain (← get) [t] first)
    | none => pure ()
    return link

/-- The interfaces that a class implements or an interface extends, in the order of the
declaration. -/
def interfaces (t : Handle) : Query (List Handle) :=
  once t Slots.interfaces (fun links slots => { slots with interfaces := some links }) do
    let r ← read
    let links ← ofExcept (r.declaredInterfaces t)
    ofExcept (r.checkInterfaces (← get) t links)
    return links

/-- The type of the enclosing instance of a type. -/
def outerClass (t : Handle) : Query (Option Handle) :=
  once t Slots.outerClass (fun link slots => { slots with outerClass := some link }) do
    match (← read).declaration? t with
    | some declaration => ofExcept declaration.outerClass
    | none => return none

/-- The type that declares a type as its member. -/
def declaringClass (t : Handle) : Query (Option Handle) :=
  once t Slots.declaringClass (fun link slots => { slots with declaringClass := some link }) do
    match (← read).declaration? t with
    | some declaration => ofExcept declaration.declaringClass
    | none => return none

end Query

end TypeGraph
