import TypeGraph.Loading.Resolve

/-!
# Class paths

A class path describes classes and interfaces by name: the types that a class refers to are given
in source spelling. A list of such descriptions is a class path when every name is that of a class
and no class is described twice.
-/

namespace TypeGraph.ClassPath

/-- Whether a description is that of a class or of an interface. -/
inductive Kind where
  | ordinary
  | interface
  deriving DecidableEq, Repr

/-- The description of a constructor. -/
structure ConstructorItem where
  access : Access := .toAll
  parameters : List String := []
  thrown : List String := []
  deriving DecidableEq, Repr

/-- The description of a method. -/
structure MethodItem where
  name : String
  access : Access := .toAll
  isStatic : Bool := false
  isAbstract : Bool := false
  parameters : List String := []
  result : String := "void"
  thrown : List String := []
  deriving DecidableEq, Repr

/-- The description of a field. -/
structure FieldItem where
  name : String
  type : String
  access : Access := .toPackage
  isStatic : Bool := false
  constant : Option Constant := none
  deriving DecidableEq

/-- The description of a class or interface. -/
structure ClassItem where
  name : String
  kind : Kind := .ordinary
  access : Access := .toAll
  isFinal : Bool := false
  isAbstract : Bool := false
  /-- A class without superclass extends the root class. For an interface this is ignored. -/
  superclass : Option String := none
  interfaces : List String := []
  outer : Option String := none
  declaring : Option String := none
  memberTypes : List String := []
  constructors : List ConstructorItem := []
  methods : List MethodItem := []
  fields : List FieldItem := []
  syntheticFields : List FieldItem := []
  span : Option Span := none
  deriving DecidableEq

end ClassPath

open ClassPath

/-- A list of descriptions, each with the descriptor of its class. -/
structure ClassPath where
  classes : List (String × ClassItem) := []

namespace ClassPath

/-- The descriptors of the classes. -/
def descriptors (path : ClassPath) : List String := path.classes.map Prod.fst

/-- The names of the classes, as they are written. -/
def names (path : ClassPath) : List String := path.classes.map fun c => c.2.name

/-- The description of the class with a given descriptor. -/
def find? (path : ClassPath) (descriptor : String) : Option ClassItem :=
  path.classes.lookup descriptor

/-- Add a description behind the others. -/
def add (path : ClassPath) (item : ClassItem) : Except Error ClassPath := do
  let descriptor ← Descriptor.ofClassName item.name
  if Descriptor.isArray descriptor || Descriptor.isPrimitive descriptor then
    throw (.invalidDescriptor descriptor)
  if (path.find? descriptor).isSome then
    throw (.duplicateType descriptor item.span)
  return { classes := path.classes ++ [(descriptor, item)] }

/-- The class path of a list of descriptions. The first one that cannot be added is reported. -/
def ofItems (items : List ClassItem) : Except Error ClassPath :=
  items.foldlM add {}

/-! ## Filling in -/

namespace FieldItem

/-- The declaration of a field, from the handle of its type. -/
def decl (item : FieldItem) (type : Handle) : FieldDecl where
  name := item.name
  access := item.access
  isStatic := item.isStatic
  type := type
  constant := item.constant

end FieldItem

namespace ClassItem

/-- Whether an interface is described. -/
def isInterface (item : ClassItem) : Bool := item.kind = .interface

/-- The draft of a class before it is filled in. The name is taken as it is written. -/
def draft (item : ClassItem) : Draft :=
  let draft := if item.isInterface then Draft.ofInterface item.name else Draft.ofClass item.name
  { draft with
    access := item.access
    isFinal := item.isFinal
    isAbstract := draft.isAbstract || item.isAbstract
    location := item.span }

/-- The name of the superclass: none for an interface and for the root class. -/
def superclassName (item : ClassItem) (descriptor : String) : Option String :=
  if item.isInterface then none
  else match item.superclass with
    | some name => some name
    | none => if descriptor = Descriptor.object then none else some "java.lang.Object"

variable (require : String → Load Handle) (t : Handle)

/-- Fill in the superclass, the interfaces, the enclosing types and the member types. -/
def fillLinks (item : ClassItem) (descriptor : String) : Load Unit := do
  let superclass ← (item.superclassName descriptor).mapM require
  Load.edit t (Draft.setSuperclass superclass)
  let interfaces ← item.interfaces.mapM require
  Load.edit t fun draft => interfaces.foldl (fun d i => d.addInterface i) draft
  let outer ← item.outer.mapM require
  Load.edit t (Draft.setOuterClass outer)
  let declaring ← item.declaring.mapM require
  Load.edit t (Draft.setDeclaringClass declaring)
  let members ← item.memberTypes.mapM require
  Load.edit t fun draft => members.foldl (fun d m => d.addMemberType m) draft

/-- Fill in a constructor. -/
def fillConstructor (constructor : ConstructorItem) : Load Unit := do
  let parameters ← constructor.parameters.mapM require
  let thrown ← constructor.thrown.mapM require
  Load.edit t (Draft.addConstructor { access := constructor.access, parameters, thrown })

/-- Fill in a method. -/
def fillMethod (method : MethodItem) : Load Unit := do
  let parameters ← method.parameters.mapM require
  let result ← require method.result
  let thrown ← method.thrown.mapM require
  Load.edit t (Draft.addMethod {
    name := method.name
    access := method.access
    isStatic := method.isStatic
    isAbstract := method.isAbstract
    parameters, result, thrown })

/-- Fill in a field. -/
def fillField (field : FieldItem) : Load Unit := do
  let type ← require field.type
  Load.edit t (Draft.addField (field.decl type))

/-- Fill in a synthetic field. -/
def fillSynthetic (field : FieldItem) : Load Unit := do
  let type ← require field.type
  Load.defineSynthetic t (field.decl type)

/-- Fill in a class part by part, given a way to find the types that it refers to. What was filled
in before a failure stays. -/
def fill (item : ClassItem) (descriptor : String) : Load Unit := do
  item.fillLinks require t descriptor
  item.constructors.forM (fillConstructor require t)
  item.methods.forM (fillMethod require t)
  item.fields.forM (fillField require t)
  item.syntheticFields.forM (fillSynthetic require t)

end ClassItem

end ClassPath

end TypeGraph
