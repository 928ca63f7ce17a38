import TypeGraph.Access
import TypeGraph.Constant
import TypeGraph.Handle

/-!
# Member declarations

What a class says about one of its methods, constructors or fields. A declaration does not know
its class: it is bound to the class when the members of that class are first read, and the bound
member stays what it is for as long as it is remembered.
-/

namespace TypeGraph

/-- The declaration of a method. -/
structure MethodDecl where
  name : String
  access : Access := .toAll
  isStatic : Bool := false
  isAbstract : Bool := false
  parameters : List Handle := []
  result : Handle
  thrown : List Handle := []
  deriving DecidableEq, Repr

/-- The declaration of a constructor. The instance that an inner class hands to its constructors
is not among the parameters. -/
structure ConstructorDecl where
  access : Access := .toAll
  parameters : List Handle := []
  thrown : List Handle := []
  deriving DecidableEq, Repr

/-- The declaration of a field. -/
structure FieldDecl where
  name : String
  access : Access := .toPackage
  isStatic : Bool := false
  type : Handle
  /-- The value, for a field that is a compile-time constant. -/
  constant : Option Constant := none
  deriving DecidableEq

/-- Which declaration a bound member came from: its place in the list of its class, and the
reading of that list. Declarations that last have the same reading forever. -/
structure Mark where
  place : Nat
  reading : Nat := 0
  deriving DecidableEq, Repr

/-- A declaration bound to the type that declares it. -/
structure Bound (α : Type) where
  owner : Handle
  mark : Mark
  decl : α

/-- A method of a type. -/
abbrev Method := Bound MethodDecl

/-- A constructor of a type. -/
abbrev Constructor := Bound ConstructorDecl

/-- A field of a type. -/
abbrev Field := Bound FieldDecl

namespace Bound

variable {α : Type}

/-- Bind a list of declarations, read for the given time, to their type. -/
def ofList (owner : Handle) (reading : Nat) (decls : List α) : List (Bound α) :=
  decls.zipIdx.map fun decl => ⟨owner, ⟨decl.2, reading⟩, decl.1⟩

/-- Whether two members are one: the same type declares them, and in the same declaration. Equal
declarations are not enough. -/
def same (a b : Bound α) : Bool :=
  a.owner = b.owner ∧ a.mark = b.mark

@[simp]
theorem map_decl_ofList (owner : Handle) (reading : Nat) (decls : List α) :
    (ofList owner reading decls).map decl = decls := by
  have h : ∀ n, (decls.zipIdx n).map (fun d => d.1) = decls := by
    induction decls with
    | nil => simp
    | cons d ds ih => simp [List.zipIdx_cons, ih]
  rw [ofList, List.map_map]
  exact h 0

end Bound

end TypeGraph
