import Mathlib.Logic.Relation
import TypeGraph.Proofs.Loading.Failure

/-!
# References between classes

Whether a class can be loaded is a matter of what the source describes, and not of any registry: all
types that the class refers to must exist, and so must all types that these refer to, and so on.
This file defines the names that a class refers to, the graph of references, and the classes from
which only proper ones are reached in it.
-/

namespace TypeGraph

open Relation

/-! ## The names that a class refers to -/

namespace ClassPath.ClassItem

/-- The names of all types that are described as parts of the class. -/
def partNames (item : ClassItem) : List String :=
  item.interfaces ++ item.outer.toList ++ item.declaring.toList ++ item.memberTypes ++
    (item.constructors.flatMap fun c => c.parameters ++ c.thrown) ++
    (item.methods.flatMap fun m => m.parameters ++ m.result :: m.thrown) ++
    item.fields.map FieldItem.type ++ item.syntheticFields.map FieldItem.type

/-- The names that the description holds. An interface has no superclass, whatever it says. -/
def mentioned (item : ClassItem) : List String :=
  (if item.isInterface then [] else item.superclass.toList) ++ item.partNames

/-- The names that the class refers to. A class without superclass extends the root class. -/
def references (item : ClassItem) (descriptor : String) : List String :=
  (item.superclassName descriptor).toList ++ item.partNames

/-- Descriptions of one synthetic field give it one type. -/
def Consistent (item : ClassItem) : Prop :=
  ∀ f ∈ item.syntheticFields, ∀ g ∈ item.syntheticFields, f.name = g.name →
    Descriptor.ofClassName f.type = Descriptor.ofClassName g.type

instance (item : ClassItem) : Decidable item.Consistent :=
  inferInstanceAs (Decidable (∀ f ∈ item.syntheticFields, ∀ g ∈ item.syntheticFields, _ → _))

lemma mentioned_of_references {item : ClassItem} {d name : String}
    (h : name ∈ item.references d) : name ∈ item.mentioned ∨ name = Builtin.object.name := by
  rcases List.mem_append.1 h with h | h
  · cases hkind : item.isInterface with
    | true => simp [superclassName, hkind] at h
    | false =>
      cases hsuper : item.superclass with
      | some superclass => simp_all [superclassName, mentioned]
      | none =>
        simp only [superclassName, hkind, hsuper] at h
        by_cases hd : d = Descriptor.object
        · simp [hd] at h
        · simpa [hd, Builtin.name] using Or.inr h
  · exact Or.inl (List.mem_append_right _ h)

end ClassPath.ClassItem

/-- The names that a built-in class refers to. -/
def Builtin.references : Builtin → List String
  | object => [object.name, string.name]
  | string => [object.name, serializable.name, string.name, "char[]"]
  | cloneable | serializable => []

/-- Built-in classes refer to each other and to characters only. -/
lemma Builtin.ofClassName_of_references {type : Builtin} {name : String}
    (h : name ∈ type.references) :
    ∃ c, Descriptor.ofClassName name = .ok c ∧
      (Descriptor.isPrimitive (Descriptor.elementOf c) = true ∨
        ∃ other : Builtin, Descriptor.elementOf c = other.descriptor) := by
  have hchars : Descriptor.ofClassName "char[]" = .ok "[C" ∧
      Descriptor.isPrimitive (Descriptor.elementOf "[C") = true := by decide +kernel
  have hother : name = "char[]" ∨ ∃ other : Builtin, name = other.name := by
    cases type <;> simp only [references, List.mem_cons, List.not_mem_nil, or_false] at h <;> grind
  rcases hother with rfl | ⟨other, rfl⟩
  · exact ⟨_, hchars.1, Or.inl hchars.2⟩
  · exact ⟨_, other.ofClassName_name,
      Or.inr ⟨other, Source.elementOf_eq_self other.component?_descriptor⟩⟩

namespace Recipe

/-- The names that a class refers to. -/
def references (descriptor : String) : Recipe → List String
  | builtin type => type.references
  | described item => item.references descriptor

/-- The names that the class refers to are names of types, and it does not contradict itself. -/
def Sensible (descriptor : String) (recipe : Recipe) : Prop :=
  (∀ name ∈ recipe.references descriptor, ∃ c, Descriptor.ofClassName name = .ok c) ∧
    ∀ item, recipe = described item → item.Consistent

end Recipe

/-! ## The graph of references -/

namespace Source

variable {source : Source} {d d' c name : String} {recipe : Recipe}

/-- The first class refers to the second one: it names it, or arrays of it. One that names an array
refers to the root class too. -/
inductive Refers (source : Source) (d : String) : String → Prop
  | element {recipe : Recipe} {name c : String} (hrecipe : source.recipe? d = some recipe)
      (hname : name ∈ recipe.references d) (hc : Descriptor.ofClassName name = .ok c) :
      Refers source d (Descriptor.elementOf c)
  | root {recipe : Recipe} {name c : String} (hrecipe : source.recipe? d = some recipe)
      (hname : name ∈ recipe.references d) (hc : Descriptor.ofClassName name = .ok c)
      (harray : Descriptor.isArray c = true) : Refers source d Descriptor.object

/-- A type that is no array exists, and what it says makes sense. -/
def Proper (source : Source) (d : String) : Prop :=
  Descriptor.isPrimitive d = true ∨ ∃ recipe, source.recipe? d = some recipe ∧ recipe.Sensible d

/-- All types that are reached from the given one are proper. -/
def Loadable (source : Source) (d : String) : Prop :=
  ∀ d', ReflTransGen source.Refers d d' → source.Proper d'

/-- All types that are needed for the given one, which may be an array, are proper. -/
def LoadableAt (source : Source) (c : String) : Prop :=
  source.Loadable (Descriptor.elementOf c) ∧
    (Descriptor.isArray c = true → source.Loadable Descriptor.object)

/-- The name is that of a type for which all is proper that it needs. -/
def LoadableName (source : Source) (name : String) : Prop :=
  ∃ c, Descriptor.ofClassName name = .ok c ∧ source.LoadableAt c

lemma Loadable.proper (h : source.Loadable d) : source.Proper d := h d .refl

lemma Loadable.refers (h : source.Loadable d) (hd : source.Refers d d') : source.Loadable d' :=
  fun d'' hpath => h d'' (.head hd hpath)

lemma Loadable.sensible (h : source.Loadable d) (hd : Descriptor.isPrimitive d = false)
    (hrecipe : source.recipe? d = some recipe) : recipe.Sensible d := by
  rcases h.proper with hprimitive | ⟨recipe', hrecipe', hsensible⟩
  · rw [hd] at hprimitive
    cases hprimitive
  · obtain rfl := Option.some.inj (hrecipe.symm.trans hrecipe')
    exact hsensible

/-- What a loadable class refers to is loadable. -/
lemma Loadable.reference (h : source.Loadable d) (hd : Descriptor.isPrimitive d = false)
    (hrecipe : source.recipe? d = some recipe) (hname : name ∈ recipe.references d) :
    source.LoadableName name := by
  obtain ⟨c, hc⟩ := (h.sensible hd hrecipe).1 name hname
  exact ⟨c, hc, h.refers (.element hrecipe hname hc), fun harray =>
    h.refers (.root hrecipe hname hc harray)⟩

lemma loadableAt_of_class (hcomponent : Descriptor.component? d = none) :
    source.LoadableAt d ↔ source.Loadable d := by
  rw [LoadableAt, elementOf_eq_self hcomponent]
  simp [Descriptor.isArray, hcomponent]

lemma LoadableAt.component (h : source.LoadableAt d)
    (hcomponent : Descriptor.component? d = some c) :
    source.LoadableAt c ∧ source.Loadable Descriptor.object := by
  have hroot := h.2 (by simp [Descriptor.isArray, hcomponent])
  exact ⟨⟨elementOf_of_component hcomponent ▸ h.1, fun _ => hroot⟩, hroot⟩

/-- If all that a set of types refers to is in the set, and all of it is proper, then all of it is
loadable. -/
lemma loadable_of_closed {P : String → Prop} (hproper : ∀ d, P d → source.Proper d)
    (hrefers : ∀ d d', P d → source.Refers d d' → P d') (hd : P d) : source.Loadable d := by
  intro d' hpath
  refine hproper d' ?_
  induction hpath with
  | refl => exact hd
  | tail _ hstep ih => exact hrefers _ _ ih hstep

end Source

end TypeGraph
