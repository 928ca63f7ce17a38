import Mathlib.Data.List.Basic
import TypeGraph.Member.Lookup

/-!
# What is found by name

The methods that are found under a name are those of the list with this name, in their order: each
method that is put into a group comes to stand behind the others there, whether the group is new,
has one method or has many. The fields of an index are what is left when each field of a list is put
in place of the one with its name, and a field is found at the place that the map has for its name.
-/

namespace TypeGraph

/-! ## Methods -/

lemma MethodGroup.methods_add (method : Method) (group : Option MethodGroup) :
    (add method group).methods = group.elim [] methods ++ [method] :=
  match group with
  | none => rfl
  | some (one _) => rfl
  | some (many _) => rfl

namespace MethodIndex

/-- The methods in the group of a name. -/
def grouped (groups : Std.TreeMap String MethodGroup) (name : String) : List Method :=
  groups[name]?.elim [] MethodGroup.methods

lemma grouped_group (groups : Std.TreeMap String MethodGroup) (method : Method) (name : String) :
    grouped (group groups method) name =
      if method.decl.name = name then grouped groups name ++ [method]
      else grouped groups name := by
  rw [grouped, group, Std.TreeMap.getElem?_insert]
  by_cases hname : method.decl.name = name
  · subst hname
    rw [if_pos Std.ReflCmp.compare_self, if_pos rfl, Option.elim_some, MethodGroup.methods_add]
    rfl
  · rw [if_neg (by simpa using hname), if_neg hname]
    rfl

/-- The methods of a name are those of the list, in their order. -/
lemma named_ofList (list : List Method) (name : String) :
    (ofList list).named name = list.filter fun method => method.decl.name = name := by
  have hfold : ∀ (list : List Method) (groups : Std.TreeMap String MethodGroup),
      grouped (list.foldl group groups) name =
        grouped groups name ++ list.filter fun method => method.decl.name = name := by
    intro list
    induction list with
    | nil => simp
    | cons method list ih =>
      intro groups
      rw [List.foldl_cons, ih, grouped_group]
      by_cases hname : method.decl.name = name <;> simp [hname]
  have hnamed : (ofList list).named name = grouped (list.foldl group ∅) name := by
    rw [named, ofList, Std.TreeMap.getElem?_map, grouped]
    cases (list.foldl group ∅)[name]? <;> rfl
  rw [hnamed, hfold]
  simp [grouped]

end MethodIndex

/-! ## Fields -/

namespace Field

/-- A list with a field added behind the others, or in place of the one with the same name. -/
def put (fields : List Field) (field : Field) : List Field :=
  if fields.any fun other => other.decl.name = field.decl.name then
    fields.map fun other => if other.decl.name = field.decl.name then field else other
  else fields ++ [field]

/-- One field for each name: the last of that name, at the place of the first. -/
def distinct (fields : List Field) : List Field :=
  fields.foldl put []

end Field

namespace FieldIndex

variable {index : FieldIndex} {name : String} {place : Nat}

/-- No two fields have the same name. -/
lemma place_eq {field : Field} {other : Nat} (hplace : index.places[name]? = some place)
    (hfield : index.fields[other]? = some field) (hname : field.decl.name = name) :
    other = place := by
  have hother := index.place_of hfield
  rw [hname, hplace] at hother
  exact (Option.some.inj hother).symm

lemma any_name_eq (index : FieldIndex) (name : String) :
    (index.fields.toList.any fun field => field.decl.name = name) =
      index.places[name]?.isSome := by
  rw [Bool.eq_iff_iff, List.any_eq_true, Option.isSome_iff_exists]
  constructor
  · rintro ⟨field, hmem, hname⟩
    obtain ⟨place, hfield⟩ := List.mem_iff_getElem?.1 hmem
    rw [Array.getElem?_toList] at hfield
    exact ⟨place, of_decide_eq_true hname ▸ index.place_of hfield⟩
  · rintro ⟨place, hplace⟩
    obtain ⟨field, hfield, hname⟩ := index.field_at hplace
    rw [← Array.getElem?_toList] at hfield
    exact ⟨field, List.mem_of_getElem? hfield, decide_eq_true hname⟩

/-- The field that is replaced is the only one of its name. -/
lemma toList_replace (field : Field) (h : index.places[field.decl.name]? = some place) :
    (index.replace field place h).fields.toList = index.fields.toList.map fun other =>
      if other.decl.name = field.decl.name then field else other := by
  obtain ⟨old, hold, hname⟩ := index.field_at h
  refine List.ext_getElem? fun i => ?_
  rw [List.getElem?_map, Array.getElem?_toList, Array.getElem?_toList]
  change (index.fields.set place field (place_lt h))[i]? = _
  by_cases heq : place = i
  · subst heq
    rw [Array.getElem?_set_self, hold, Option.map_some, if_pos hname]
  · rw [Array.getElem?_set_ne _ heq]
    cases hother : index.fields[i]? with
    | none => rfl
    | some other =>
      rw [Option.map_some, if_neg fun hsame => heq (place_eq h hother hsame).symm]

lemma toList_put (index : FieldIndex) (field : Field) :
    (index.put field).fields.toList = Field.put index.fields.toList field := by
  rw [put, Field.put, any_name_eq]
  split
  next place hplace => rw [toList_replace, if_pos (Option.isSome_of_eq_some hplace)]
  next hplace => simp [hplace, append]

lemma toList_ofList (fields : List Field) :
    (ofList fields).fields.toList = Field.distinct fields := by
  rw [ofList, Field.distinct]
  exact (List.foldl_hom (fun index : FieldIndex => index.fields.toList)
    fun index field => (toList_put index field).symm).symm

/-- What is found at the place of a name is the field of this name in the list. -/
lemma find?_eq (index : FieldIndex) (name : String) :
    index.find? name = index.fields.toList.find? fun field => field.decl.name = name := by
  rw [find?]
  split
  next place hplace =>
    obtain ⟨field, hfield, hname⟩ := index.field_at hplace
    obtain ⟨hlt, rfl⟩ := Array.getElem?_eq_some_iff.1 hfield
    symm
    rw [List.find?_eq_some_iff_getElem]
    refine ⟨decide_eq_true hname, place, hlt, rfl, fun other hbefore => ?_⟩
    have hother := Array.getElem?_eq_getElem (Nat.lt_trans hbefore hlt)
    simpa using fun hsame => Nat.ne_of_lt hbefore (place_eq hplace hother hsame)
  next hplace =>
    have hany := index.any_name_eq name
    rw [hplace, Option.isSome_none, List.any_eq_false] at hany
    exact (List.find?_eq_none.2 hany).symm

end FieldIndex

/-- A field is found in the list of all fields. -/
lemma Query.field_eq (t : Handle) (name : String) :
    field t name = do return (← fields t).find? fun field => field.decl.name = name := by
  simp only [field, fields, FieldIndex.find?_eq, bind_assoc, pure_bind]

end TypeGraph
