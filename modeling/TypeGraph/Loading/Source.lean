import TypeGraph.ClassPath.Basic
import TypeGraph.Loading.Builtin

/-!
# Sources of classes

Classes are loaded on first reference. A class is registered before the types that it refers to
are loaded, so classes may refer to each other in circles. A class of a class path that cannot be
filled in stays registered and is marked broken; a built-in one is left as far as it came.

Loading is recursive: a class asks for others, and these for others again. Each class that is
being filled in is taken off the list of fresh ones, so the list bounds the depth of the recursion.
-/

namespace TypeGraph

/-- Where classes are loaded from. -/
inductive Source where
  /-- No class can be loaded. -/
  | nothing
  /-- The built-in types only. -/
  | builtins
  /-- A class path, and the built-in types that it does not describe. -/
  | classPath (path : ClassPath)

/-- How a class is made. -/
inductive Recipe where
  /-- A built-in type. -/
  | builtin (type : Builtin)
  /-- A class that a class path describes. -/
  | described (item : ClassPath.ClassItem)

namespace Recipe

/-- The draft to register. -/
def draft : Recipe → Draft
  | builtin type => type.draft
  | described item => item.draft

/-- Fill in the registered draft. A class of a class path that fails is marked broken. -/
def fill (load : String → Load (Option Handle)) (t : Handle) (descriptor : String) :
    Recipe → Load Unit
  | builtin type => type.fill (Load.require load none) t
  | described item =>
    tryCatch (item.fill (Load.require load item.span) t descriptor) fun error => do
      Load.edit t (Draft.fail error)
      throw error

end Recipe

namespace Source

/-- The recipe for the class with a given descriptor. -/
def recipe? : Source → String → Option Recipe
  | nothing, _ => none
  | builtins, descriptor => (Builtin.ofDescriptor? descriptor).map Recipe.builtin
  | classPath path, descriptor =>
    match path.find? descriptor with
    | some item => some (.described item)
    | none => (Builtin.ofDescriptor? descriptor).map Recipe.builtin

/-- The descriptors of all classes that the source knows. -/
def known : Source → List String
  | nothing => []
  | builtins => Builtin.all.map Builtin.descriptor
  | classPath path => path.descriptors ++ Builtin.all.map Builtin.descriptor

/-- Load a class that is known to the source, given those that are not being filled in. A class
that is being filled in is registered already. -/
def loadFrom (source : Source) (fresh : List String) : String → Load (Option Handle) :=
  fun descriptor => do
    match source.recipe? descriptor with
    | none => return none
    | some recipe =>
      let r ← get
      if _h : descriptor ∈ fresh then
        match r.define (.draft recipe.draft) with
        | .error (.duplicateType _ _) => return r.lookup descriptor
        | .error error => throw error
        | .ok (t, r) =>
          set r
          recipe.fill (loadFrom source (fresh.erase descriptor)) t descriptor
          return some t
      else return r.lookup descriptor
termination_by fresh.length
decreasing_by
  have hpos := List.length_pos_of_mem _h
  rw [List.length_erase_of_mem _h]
  omega

/-- Load the class with a given descriptor, if the source knows it. -/
def load (source : Source) : String → Load (Option Handle) :=
  source.loadFrom source.known

/-- Find, make or load the type with a given descriptor. -/
def resolve (source : Source) (descriptor : String) : Load (Option Handle) :=
  Load.resolve source.load descriptor

/-- Find, make or load a type in source spelling. -/
def resolveName (source : Source) (name : String) : Load (Option Handle) :=
  Load.resolveName source.load name

/-- Find, make or load a type in source spelling, which has to exist. -/
def require (source : Source) (span : Option Span) (name : String) : Load Handle :=
  Load.require source.load span name

/-- Find, make or load several types in source spelling, in order. -/
def requireAll (source : Source) (span : Option Span) (names : List String) :
    Load (List Handle) :=
  names.mapM (source.require span)

/-- The root class. -/
def rootClass (source : Source) : Load Handle :=
  Load.rootClass source.load

/-- Load every class of a class path, in the order of their descriptions. -/
def loadAll (path : ClassPath) : Load (List Handle) :=
  (classPath path).requireAll none path.names

end Source

/-- The handles of the built-in types. -/
structure Builtins where
  object : Handle
  cloneable : Handle
  serializable : Handle
  string : Handle

/-- Find or load the four built-in types. -/
def Builtins.install (source : Source) : Load Builtins := do
  return {
    object := ← source.require none Builtin.object.name
    cloneable := ← source.require none Builtin.cloneable.name
    serializable := ← source.require none Builtin.serializable.name
    string := ← source.require none Builtin.string.name }

end TypeGraph
