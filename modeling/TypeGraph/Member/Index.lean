import Std.Data.TreeMap
import TypeGraph.Member.Decl

/-!
# Members by name

The methods of a type are put into groups, one for each name, in the order of their declarations.
Its fields are put into one list, together with a map that leads from each name to the place of its
field. When a name is declared again, the later field takes the place of the earlier one.
-/

namespace TypeGraph

/-! ## Methods -/

/-- The methods of one name while they are put into groups. -/
inductive MethodGroup where
  | one (method : Method)
  | many (methods : List Method)

namespace MethodGroup

/-- The methods of a group. -/
def methods : MethodGroup → List Method
  | one method => [method]
  | many methods => methods

/-- A method behind the others of its name, if there are some. -/
def add (method : Method) : Option MethodGroup → MethodGroup
  | none => one method
  | some (one first) => many [first, method]
  | some (many methods) => many (methods ++ [method])

end MethodGroup

/-- Methods by name: each name with its methods in the order of their declarations. -/
abbrev MethodIndex := Std.TreeMap String (List Method)

namespace MethodIndex

/-- Put a method into the group of its name. -/
def group (groups : Std.TreeMap String MethodGroup) (method : Method) :
    Std.TreeMap String MethodGroup :=
  groups.insert method.decl.name (.add method groups[method.decl.name]?)

/-- Methods by name. -/
def ofList (methods : List Method) : MethodIndex :=
  (methods.foldl group ∅).map fun _ group => group.methods

/-- The methods with a given name. -/
def named (index : MethodIndex) (name : String) : List Method :=
  (index[name]?).getD []

end MethodIndex

/-! ## Fields -/

/-- Fields by name. -/
structure FieldIndex where
  /-- One field for each name, in the order in which the names were first declared. -/
  fields : Array Field
  /-- The place of the field with a given name. -/
  places : Std.TreeMap String Nat
  /-- At the place of a name there is a field with this name. -/
  field_at : ∀ {name : String} {place : Nat}, places[name]? = some place →
    ∃ field : Field, fields[place]? = some field ∧ field.decl.name = name
  /-- The map leads to every field. -/
  place_of : ∀ {place : Nat} {field : Field}, fields[place]? = some field →
    places[field.decl.name]? = some place

namespace FieldIndex

variable {index : FieldIndex} {name : String} {place : Nat}

/-- No fields. -/
def empty : FieldIndex where
  fields := #[]
  places := ∅
  field_at := by simp
  place_of := by simp

theorem place_lt (h : index.places[name]? = some place) : place < index.fields.size := by
  obtain ⟨field, hfield, -⟩ := index.field_at h
  exact (Array.getElem?_eq_some_iff.1 hfield).1

/-- Put a field at the place of another one with the same name. -/
def replace (index : FieldIndex) (field : Field) (place : Nat)
    (h : index.places[field.decl.name]? = some place) : FieldIndex where
  fields := index.fields.set place field (place_lt h)
  places := index.places
  field_at {name p} hp := by
    obtain ⟨other, hother, hname⟩ := index.field_at hp
    by_cases heq : place = p
    · subst heq
      obtain ⟨old, hold, hsame⟩ := index.field_at h
      obtain rfl : old = other := Option.some.inj (hold.symm.trans hother)
      exact ⟨field, Array.getElem?_set_self _, hsame.symm.trans hname⟩
    · exact ⟨other, by rwa [Array.getElem?_set_ne _ heq], hname⟩
  place_of {p other} hother := by
    by_cases heq : place = p
    · subst heq
      rw [Array.getElem?_set_self] at hother
      exact Option.some.inj hother ▸ h
    · rw [Array.getElem?_set_ne _ heq] at hother
      exact index.place_of hother

/-- Put a field with a new name behind all others. -/
def append (index : FieldIndex) (field : Field) (h : index.places[field.decl.name]? = none) :
    FieldIndex where
  fields := index.fields.push field
  places := index.places.insert field.decl.name index.fields.size
  field_at {name p} hp := by
    rw [Std.TreeMap.getElem?_insert] at hp
    split at hp
    next hname =>
      cases hp
      exact ⟨field, Array.getElem?_push_size, Std.LawfulEqCmp.eq_of_compare hname⟩
    next =>
      obtain ⟨other, hother, hname⟩ := index.field_at hp
      have hlt := place_lt hp
      exact ⟨other, by rwa [Array.getElem?_push_lt hlt, ← Array.getElem?_eq_getElem], hname⟩
  place_of {p other} hother := by
    rw [Std.TreeMap.getElem?_insert]
    rw [Array.getElem?_push] at hother
    split at hother
    next heq =>
      cases hother
      simp [heq]
    next =>
      have hplace := index.place_of hother
      have hne : field.decl.name ≠ other.decl.name := by
        intro heq
        rw [heq, hplace] at h
        cases h
      rw [if_neg (by simpa using hne), hplace]

/-- Add a field behind the others, or in place of the one with the same name. -/
def put (index : FieldIndex) (field : Field) : FieldIndex :=
  match hplace : index.places[field.decl.name]? with
  | some place => index.replace field place hplace
  | none => index.append field hplace

/-- One field for each name: the last of that name, at the place of the first. -/
def ofList (fields : List Field) : FieldIndex :=
  fields.foldl put empty

/-- The field with a given name. -/
def find? (index : FieldIndex) (name : String) : Option Field :=
  match hplace : index.places[name]? with
  | some place =>
    have := place_lt hplace
    some index.fields[place]
  | none => none

end FieldIndex

end TypeGraph
