import TypeGraph.Conversion
import TypeGraph.Member.Lookup

/-!
# Overloads

A call chooses among the methods of one name in two steps: those whose parameters take the
arguments are applicable, and of these the ones that no other is more specific than are left. Only
parameters count: the types that declare two methods are not compared.
-/

namespace TypeGraph

/-- How a call ends. -/
inductive Outcome where
  | resolved
  | ambiguous
  | notFound
  deriving DecidableEq, Repr

/-- The end of a call, by the number of most specific methods. -/
def Outcome.ofCount : Nat → Outcome
  | 0 => notFound
  | 1 => resolved
  | _ => ambiguous

/-- The methods that a call leads to. -/
structure Call where
  applicable : List Method
  mostSpecific : List Method

/-- How the call ends. -/
def Call.outcome (call : Call) : Outcome := Outcome.ofCount call.mostSpecific.length

namespace Query

variable {α : Type}

/-- Whether each of the first types may be assigned from the type at its place in the second
list. -/
def allAssignable : List Handle → List Handle → Query Bool
  | target :: targets, source :: sources => do
    if ← assignable target source then allAssignable targets sources else return false
  | _, _ => return true

/-- Whether parameters take arguments of the given types. -/
def applicable (parameters arguments : List Handle) : Query Bool := do
  if parameters.length = arguments.length then allAssignable parameters arguments
  else return false

/-- Whether a parameter list is more specific than another: a different one of the same length
whose every type widens to its counterpart. -/
def moreSpecific (these those : List Handle) : Query Bool := do
  if these.length ≠ those.length then return false
  if ← allAssignable those these then return these ≠ those
  else return false

/-- Whether one of the candidates, other than the one at the given place, is more specific than
the given parameters. -/
def isBeaten (parameters : α → List Handle) (place : Nat) (candidate : α) :
    List (α × Nat) → Query Bool
  | [] => return false
  | (other, place') :: rest => do
    if place = place' then isBeaten parameters place candidate rest
    else if ← moreSpecific (parameters other) (parameters candidate) then return true
    else isBeaten parameters place candidate rest

/-- The candidates, with their places, that no other candidate is more specific than. -/
def mostSpecificPlaces (parameters : α → List Handle) (candidates : List α) :
    Query (List (α × Nat)) :=
  candidates.zipIdx.filterM fun (candidate, place) => do
    return !(← isBeaten parameters place candidate candidates.zipIdx)

/-- The candidates that no other candidate is more specific than. -/
def mostSpecific (parameters : α → List Handle) (candidates : List α) : Query (List α) := do
  return (← mostSpecificPlaces parameters candidates).map Prod.fst

/-- Resolve a call of the methods with a given name that a type declares or inherits. -/
def call (t : Handle) (name : String) (arguments : List Handle) : Query Call := do
  let named := (← allMethods t).filter fun method => method.decl.name = name
  let candidates ← named.filterM fun method => applicable method.decl.parameters arguments
  return ⟨candidates, ← mostSpecific (·.decl.parameters) candidates⟩

end Query

end TypeGraph
