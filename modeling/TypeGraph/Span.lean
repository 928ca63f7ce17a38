/-!
# Source spans

A span is a range of positions in a numbered file. Nothing here interprets one: the span of a
declaration is carried into the errors that concern it.
-/

namespace TypeGraph

/-- A range of byte positions in a file, the end excluded. -/
structure Span where
  /-- The first position. -/
  start : Nat
  /-- The position after the last. -/
  stop : Nat
  /-- The number of the file. -/
  file : Nat
  deriving DecidableEq, Repr

namespace Span

/-- The span of a declaration without a place: empty, at the start of the first file. -/
def unplaced : Span := ⟨0, 0, 0⟩

/-- The least span of the first one's file that covers the positions of both. -/
def merge (a b : Span) : Span where
  start := min a.start b.start
  stop := max a.stop b.stop
  file := a.file

/-- The number of positions. -/
def length (s : Span) : Nat := s.stop - s.start

/-- Whether the span covers no position. -/
def isEmpty (s : Span) : Bool := s.start = s.stop

end Span

end TypeGraph
