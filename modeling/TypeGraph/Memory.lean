import TypeGraph.Member.Index
import TypeGraph.Registry

/-!
# What was answered before

Questions about a type are answered from its declaration once, and from memory after that, also
when the declaration has changed in the meantime. A failure is not remembered. The answers about
methods and fields can be forgotten on request; all others last.

A `Query` reads the registry, which it cannot change, and fills the memory as it goes. When it
fails, what was remembered on the way stays remembered.
-/

namespace TypeGraph

/-- The answers remembered about one type. -/
structure Slots where
  superclass : Option (Option Handle) := none
  interfaces : Option (List Handle) := none
  outerClass : Option (Option Handle) := none
  declaringClass : Option (Option Handle) := none
  memberTypes : Option (List Handle) := none
  constructors : Option (List Constructor) := none
  methods : Option (List Method) := none
  methodIndex : Option MethodIndex := none
  /-- The methods that are declared or inherited. -/
  allMethods : Option (List Method) := none
  fields : Option FieldIndex := none
  /-- The searches for member types in scope, by the name asked for. -/
  scopes : List (Option String × List Handle) := []

/-- The answers remembered about all types. -/
structure Memory where
  slots : Std.TreeMap Nat Slots := ∅
  /-- How many lists of passing declarations were read. -/
  readings : Nat := 0

/-- Questions about the types of a registry. -/
abbrev Query := ReaderT Registry (ExceptT Error (StateM Memory))

namespace Memory

/-- The memory in which nothing is remembered. -/
def empty : Memory := {}

/-- What is remembered about a type. -/
def about (m : Memory) (t : Handle) : Slots := m.slots.getD t.index {}

/-- Change what is remembered about a type. -/
def update (m : Memory) (t : Handle) (change : Slots → Slots) : Memory :=
  { m with slots := m.slots.insert t.index (change (m.about t)) }

/-- Forget the methods that a type declares, and their index. The inherited methods that were
collected before stay. -/
def forgetMethods (m : Memory) (t : Handle) : Memory :=
  m.update t fun slots => { slots with methods := none, methodIndex := none }

/-- Forget the fields of a type. -/
def forgetFields (m : Memory) (t : Handle) : Memory :=
  m.update t fun slots => { slots with fields := none }

@[simp]
theorem about_empty (t : Handle) : empty.about t = {} := by
  simp [empty, about]

@[simp]
theorem about_update_self (m : Memory) (t : Handle) (change : Slots → Slots) :
    (m.update t change).about t = change (m.about t) := by
  simp [update, about]

theorem about_update_of_ne {m : Memory} {t s : Handle} (h : s ≠ t) (change : Slots → Slots) :
    (m.update t change).about s = m.about s := by
  have hindex : t.index ≠ s.index := by
    intro heq
    apply h
    cases t
    cases s
    exact congrArg Handle.mk heq.symm
  simp [update, about, Std.TreeMap.getD_insert, hindex]

end Memory

namespace Query

variable {α : Type}

/-- What is remembered about a type. -/
def remembered (t : Handle) : Query Slots := do
  return (← get).about t

/-- Remember something about a type. -/
def remember (t : Handle) (change : Slots → Slots) : Query Unit :=
  modify fun m => m.update t change

/-- Succeed or fail like a given result. -/
def ofExcept (result : Except Error α) : Query α :=
  match result with
  | .ok value => pure value
  | .error error => throw error

/-- Answer from memory if possible, else by asking, and then remember the answer. -/
def once (t : Handle) (slot : Slots → Option α) (keep : α → Slots → Slots) (ask : Query α) :
    Query α := do
  match slot (← remembered t) with
  | some known => return known
  | none =>
    let answer ← ask
    remember t (keep answer)
    return answer

/-- The result of a query in a registry, and the memory after it. -/
def answer (query : Query α) (r : Registry) (m : Memory) : Except Error α × Memory :=
  (query.run r).run.run m

end Query

end TypeGraph
