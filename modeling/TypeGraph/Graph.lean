import TypeGraph.Loading.Source
import TypeGraph.MemberType
import TypeGraph.Overload

/-!
# Type graphs

A type graph is a registry of types together with what was answered about them. Work on a graph
loads types and asks questions in any order. When a step fails, what was registered and remembered
before stays.
-/

namespace TypeGraph

/-- A registry and the memory of the answers about its types. -/
structure Graph where
  registry : Registry := .initial
  memory : Memory := .empty

/-- Steps that load types into a graph and ask about them. -/
abbrev Work := ExceptT Error (StateM Graph)

namespace Work

variable {α : Type}

/-- Load types. -/
def load (action : Load α) : Work α := do
  let graph ← get
  let (result, registry) := action.run.run graph.registry
  set { graph with registry }
  match result with
  | .ok value => return value
  | .error error => throw error

/-- Ask about types. -/
def ask (query : Query α) : Work α := do
  let graph ← get
  let (result, memory) := query.answer graph.registry graph.memory
  set { graph with memory }
  match result with
  | .ok value => return value
  | .error error => throw error

/-- Forget some of the answers. -/
def forget (change : Memory → Memory) : Work Unit :=
  modify fun graph => { graph with memory := change graph.memory }

/-- Look at the registry. -/
def registry : Work Registry := do
  return (← get).registry

/-- The result of some work on a graph, and the graph after it. -/
def result (work : Work α) (graph : Graph) : Except Error α × Graph :=
  work.run.run graph

end Work

end TypeGraph
