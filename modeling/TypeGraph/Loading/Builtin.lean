import TypeGraph.Loading.Resolve

/-!
# Built-in types

The four types that the conversion rules and string literals need: the root class, the two
interfaces of arrays and the class of strings. They are known without a class path, and a class
path may replace them.
-/

namespace TypeGraph

/-- A type that is known without a class path. -/
inductive Builtin where
  | object
  | cloneable
  | serializable
  | string
  deriving DecidableEq, Repr

namespace Builtin

/-- Every built-in type. -/
def all : List Builtin := [object, cloneable, serializable, string]

/-- The descriptor of a built-in type. -/
def descriptor : Builtin → String
  | object => Descriptor.object
  | cloneable => Descriptor.cloneable
  | serializable => Descriptor.serializable
  | string => Descriptor.string

/-- The name of a built-in type. -/
def name : Builtin → String
  | object => "java.lang.Object"
  | cloneable => "java.lang.Cloneable"
  | serializable => "java.io.Serializable"
  | string => "java.lang.String"

/-- The built-in type with a given descriptor. -/
def ofDescriptor? (descriptor : String) : Option Builtin :=
  all.find? fun b => b.descriptor = descriptor

/-- The draft of a built-in type before it is filled in. -/
def draft : Builtin → Draft
  | object => Draft.ofClass object.name
  | cloneable => Draft.ofInterface cloneable.name
  | serializable => Draft.ofInterface serializable.name
  | string => { Draft.ofClass string.name with isFinal := true }

/-- The handle of a primitive type, for use in the signatures below. -/
private def prim (p : Primitive) : Handle := Handle.ofPrimitive p

/-- The methods of the root class, from the handles of the root class and the class of strings. -/
def objectMethods (object string : Handle) : List MethodDecl :=
  [{ name := "equals", parameters := [object], result := prim .boolean },
   { name := "hashCode", result := prim .int },
   { name := "toString", result := string },
   { name := "clone", result := object, access := .toSubclasses },
   { name := "finalize", result := prim .void, access := .toSubclasses },
   { name := "notify", result := prim .void },
   { name := "notifyAll", result := prim .void },
   { name := "wait", result := prim .void },
   { name := "wait", parameters := [prim .long], result := prim .void }]

/-- The methods of the class of strings; `chars` is the type of arrays of characters. -/
def stringMethods (object string chars : Handle) : List MethodDecl :=
  [{ name := "length", result := prim .int },
   { name := "charAt", parameters := [prim .int], result := prim .char },
   { name := "equals", parameters := [object], result := prim .boolean },
   { name := "hashCode", result := prim .int },
   { name := "toString", result := string },
   { name := "concat", parameters := [string], result := string },
   { name := "substring", parameters := [prim .int], result := string },
   { name := "substring", parameters := [prim .int, prim .int], result := string }] ++
  ([prim .boolean, prim .char, prim .int, prim .long, prim .float, prim .double, chars,
    object].map fun parameter =>
    { name := "valueOf", parameters := [parameter], result := string, isStatic := true })

/-- Fill in the root class. -/
def fillObject (require : String → Load Handle) (t : Handle) : Load Unit := do
  let object ← require object.name
  let string ← require string.name
  Load.edit t fun draft => (objectMethods object string).foldl (fun d m => d.addMethod m) draft

/-- Fill in the class of strings. -/
def fillString (require : String → Load Handle) (t : Handle) : Load Unit := do
  let object ← require object.name
  let serializable ← require serializable.name
  let string ← require string.name
  let chars ← require "char[]"
  Load.edit t fun draft =>
    { (stringMethods object string chars).foldl (fun d m => d.addMethod m)
        ((draft.setSuperclass (some object)).addInterface serializable) with
      fields := draft.fields ++
        [{ name := "value", type := chars, access := .toClass },
         { name := "hash", type := prim .int, access := .toClass }]
      constructors := draft.constructors ++
        [{}, { parameters := [string] }, { parameters := [chars] }] }

/-- Fill in a built-in type, given a way to find the types that it refers to. -/
def fill (require : String → Load Handle) (t : Handle) : Builtin → Load Unit
  | object => fillObject require t
  | string => fillString require t
  | cloneable | serializable => return ()

end Builtin

end TypeGraph
