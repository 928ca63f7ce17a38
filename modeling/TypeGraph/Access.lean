/-!
# Access levels

The four levels of access to a type or a member, from the narrowest to the widest.
-/

namespace TypeGraph

/-- An access level, named for those who have access. -/
inductive Access where
  /-- Only the class itself. -/
  | toClass
  /-- The package of the class; this level has no keyword. -/
  | toPackage
  /-- The package and all subclasses. -/
  | toSubclasses
  /-- Everyone. -/
  | toAll
  deriving DecidableEq, Repr, Inhabited

namespace Access

/-- Every level, the narrowest first. -/
def all : List Access := [toClass, toPackage, toSubclasses, toAll]

/-- How many levels are narrower. -/
def rank : Access → Nat
  | toClass => 0
  | toPackage => 1
  | toSubclasses => 2
  | toAll => 3

/-- How the level is written in front of a declaration. -/
def modifier : Access → String
  | toClass => "private"
  | toPackage => "/*default*/"
  | toSubclasses => "protected"
  | toAll => "public"

/-- The name of the level in a class path. -/
def name : Access → String
  | toClass => "private"
  | toPackage => "default"
  | toSubclasses => "protected"
  | toAll => "public"

/-- The level with a given name. Package access goes by two names. -/
def ofName? : String → Option Access
  | "private" => some toClass
  | "default" | "package" => some toPackage
  | "protected" => some toSubclasses
  | "public" => some toAll
  | _ => none

end Access

end TypeGraph
