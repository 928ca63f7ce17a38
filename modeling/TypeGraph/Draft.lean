import TypeGraph.Descriptor
import TypeGraph.Member.Decl
import TypeGraph.Text.Utf8Order

/-!
# Drafts and declarations

A class or interface enters a type graph before all of its parts are known. Its `Draft` is then
filled in: supertypes and enclosing types are set, members are added. A draft that could not be
filled in is marked broken, and from then on it reports the error instead of its supertypes and
member types.

What the graph sees of a draft is its `Declaration`: everything that is declared at the moment.
Declarations can also be given as they are (`Origin.fixed`); their links may fail for reasons of
their own.
-/

namespace TypeGraph

/-- A class or interface that is being filled in. -/
structure Draft where
  descriptor : String
  isInterface : Bool
  access : Access := .toAll
  isFinal : Bool := false
  isAbstract : Bool := false
  location : Option Span := none
  superclass : Option Handle := none
  interfaces : List Handle := []
  /-- The type of the enclosing instance, for an inner class. -/
  outerClass : Option Handle := none
  /-- The type that declares this one as a member. -/
  declaringClass : Option Handle := none
  constructors : List ConstructorDecl := []
  methods : List MethodDecl := []
  fields : List FieldDecl := []
  memberTypes : List Handle := []
  /-- Fields that stand for the outer instance and captured variables, ordered by name. -/
  syntheticFields : List FieldDecl := []
  /-- Why the draft could not be filled in. -/
  loadError : Option Error := none

/-- What a class or interface declares at one moment. -/
structure Declaration where
  descriptor : String
  isInterface : Bool
  access : Access := .toPackage
  isFinal : Bool := false
  isAbstract : Bool := false
  location : Option Span := none
  /-- Why the type must not be used. -/
  loadError : Option Error := none
  superclass : Except Error (Option Handle) := .ok none
  interfaces : Except Error (List Handle) := .ok []
  outerClass : Except Error (Option Handle) := .ok none
  declaringClass : Except Error (Option Handle) := .ok none
  memberTypes : Except Error (List Handle) := .ok []
  constructors : List ConstructorDecl := []
  methods : List MethodDecl := []
  fields : List FieldDecl := []
  syntheticFields : List FieldDecl := []

namespace Draft

/-- A public class with the given name. -/
def ofClass (name : String) : Draft where
  descriptor := Descriptor.ofRawName name
  isInterface := false

/-- A public interface with the given name. -/
def ofInterface (name : String) : Draft where
  descriptor := Descriptor.ofRawName name
  isInterface := true
  isAbstract := true

/-- The name in source spelling. -/
def name (d : Draft) : String := Descriptor.className d.descriptor

/-! ## Filling in -/

/-- Set or remove the superclass. -/
def setSuperclass (superclass : Option Handle) (d : Draft) : Draft :=
  { d with superclass }

/-- Add an interface behind the others. -/
def addInterface (interface : Handle) (d : Draft) : Draft :=
  { d with interfaces := d.interfaces ++ [interface] }

/-- Set or remove the type of the enclosing instance. -/
def setOuterClass (outerClass : Option Handle) (d : Draft) : Draft :=
  { d with outerClass }

/-- Set or remove the declaring type. -/
def setDeclaringClass (declaringClass : Option Handle) (d : Draft) : Draft :=
  { d with declaringClass }

/-- Add a constructor behind the others. -/
def addConstructor (constructor : ConstructorDecl) (d : Draft) : Draft :=
  { d with constructors := d.constructors ++ [constructor] }

/-- Add a method behind the others. -/
def addMethod (method : MethodDecl) (d : Draft) : Draft :=
  { d with methods := d.methods ++ [method] }

/-- Add a field behind the others. -/
def addField (field : FieldDecl) (d : Draft) : Draft :=
  { d with fields := d.fields ++ [field] }

/-- Add a member type behind the others. -/
def addMemberType (member : Handle) (d : Draft) : Draft :=
  { d with memberTypes := d.memberTypes ++ [member] }

/-- Mark the draft as broken. The first error stays. -/
def fail (error : Error) (d : Draft) : Draft :=
  { d with loadError := d.loadError.or (some error) }

/-- Put a field in front of the first one whose name comes later. -/
def insertByName (field : FieldDecl) : List FieldDecl → List FieldDecl
  | [] => [field]
  | other :: rest =>
    if Text.utf8Lt field.name other.name then field :: other :: rest
    else other :: insertByName field rest

/-- Define a synthetic field. The first definition of a name stays; a second one must agree with
it on the type. -/
def defineSynthetic (field : FieldDecl) (d : Draft) : Except Error Draft :=
  match d.syntheticFields.find? fun other => other.name = field.name with
  | some other =>
    if other.type = field.type then .ok d else .error (.syntheticConflict d.name field.name)
  | none => .ok { d with syntheticFields := insertByName field d.syntheticFields }

/-! ## What a draft declares -/

/-- A value, unless the draft is broken. -/
def unlessBroken {α : Type} (d : Draft) (value : α) : Except Error α :=
  match d.loadError with
  | some error => .error error
  | none => .ok value

/-- The constructors; a class that lists none has the public one without parameters. -/
def declaredConstructors (d : Draft) : List ConstructorDecl :=
  if d.constructors.isEmpty && !d.isInterface then [{}] else d.constructors

/-- What the draft declares now. -/
def declaration (d : Draft) : Declaration where
  descriptor := d.descriptor
  isInterface := d.isInterface
  access := d.access
  isFinal := d.isFinal
  isAbstract := d.isAbstract
  location := d.location
  loadError := d.loadError
  superclass := d.unlessBroken d.superclass
  interfaces := d.unlessBroken d.interfaces
  outerClass := .ok d.outerClass
  declaringClass := .ok d.declaringClass
  memberTypes := d.unlessBroken d.memberTypes
  constructors := d.declaredConstructors
  methods := d.methods
  fields := d.fields
  syntheticFields := d.syntheticFields

end Draft

/-- Where the declaration of a class or interface comes from. -/
inductive Origin where
  /-- A draft, whose declarations last: reading them again gives the same ones. -/
  | draft (d : Draft)
  /-- A declaration given as it is, whose members are made anew at each reading. -/
  | fixed (d : Declaration)

namespace Origin

/-- What is declared now. -/
def declaration : Origin → Declaration
  | draft d => d.declaration
  | fixed d => d

/-- Whether reading the members twice gives the same declarations. -/
def lasts : Origin → Bool
  | draft _ => true
  | fixed _ => false

end Origin

end TypeGraph
