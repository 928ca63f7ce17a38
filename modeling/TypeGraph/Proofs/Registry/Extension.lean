import Mathlib.Tactic.Common
import TypeGraph.Registry

/-!
# How registries grow

Three operations change a registry: a class is defined, an array type is made, and a draft is
edited. None of them takes a type away or turns it into another one. This file says what each does
to the shape of every handle, and draws the first conclusion: a type keeps its kind and its
descriptor for good.
-/

namespace TypeGraph

attribute [ext] Handle

/-- The text is the descriptor of a class or interface. -/
def Descriptor.IsClass (d : String) : Prop :=
  isValid d = true ∧ isPrimitive d = false ∧ isArray d = false

instance (d : String) : Decidable (Descriptor.IsClass d) :=
  inferInstanceAs (Decidable (_ ∧ _ ∧ _))

/-- Two shapes with the same kind and the same descriptor. Only what a class declares may differ. -/
inductive Shape.Alike : Shape → Shape → Prop
  | primitive (p : Primitive) : Alike (.primitive p) (.primitive p)
  | array (component root : Handle) : Alike (.array component root) (.array component root)
  | declared {a b : Origin} (hdescriptor : a.declaration.descriptor = b.declaration.descriptor)
      (hkind : a.declaration.isInterface = b.declaration.isInterface) :
      Alike (.declared a) (.declared b)

namespace Shape

lemma Alike.refl (s : Shape) : Alike s s := by
  cases s with
  | primitive p => exact .primitive p
  | declared origin => exact .declared rfl rfl
  | array component root => exact .array component root

lemma Alike.trans {a b c : Shape} (hab : Alike a b) (hbc : Alike b c) : Alike a c := by
  cases hab with
  | primitive p => exact hbc
  | array component root => exact hbc
  | declared hd hk =>
    cases hbc with
    | declared hd' hk' => exact .declared (hd.trans hd') (hk.trans hk')

/-- The shape after the draft, if there is one, was edited. -/
def edit (change : Draft → Draft) : Shape → Shape
  | declared (.draft d) => declared (.draft (change d))
  | other => other

lemma edit_alike {change : Draft → Draft}
    (hd : ∀ d, (change d).descriptor = d.descriptor)
    (hk : ∀ d, (change d).isInterface = d.isInterface) (s : Shape) : Alike s (s.edit change) := by
  cases s with
  | primitive p => exact .primitive p
  | array component root => exact .array component root
  | declared origin =>
    cases origin with
    | draft d => exact .declared (hd d).symm (hk d).symm
    | fixed d => exact .declared rfl rfl

end Shape

namespace Registry

variable {r r' : Registry} {s t : Handle}

/-- The handle was given out by the registry. -/
def Issued (r : Registry) (t : Handle) : Prop := t.index < r.size

instance (r : Registry) (t : Handle) : Decidable (r.Issued t) :=
  inferInstanceAs (Decidable (_ < _))

lemma shape_of_getElem? {entry : Entry} (h : r.entries[t.index]? = some entry) :
    r.shape t = entry.shape := by
  simp [shape, h]

lemma shape_of_not_issued (h : ¬ r.Issued t) : r.shape t = .primitive .void := by
  have hnone : r.entries[t.index]? = none := by
    simpa [Issued, size] using h
  simp [shape, hnone]

lemma issued_of_declared {origin : Origin} (h : r.shape t = .declared origin) : r.Issued t := by
  by_contra hn
  rw [shape_of_not_issued hn] at h
  cases h

lemma issued_of_array {component root : Handle} (h : r.shape t = .array component root) :
    r.Issued t := by
  by_contra hn
  rw [shape_of_not_issued hn] at h
  cases h

/-- Only a class or interface is ever broken. -/
lemma declared_of_loadError {e : Error} (h : r.loadError t = some e) :
    ∃ origin, r.shape t = .declared origin ∧ origin.declaration.loadError = some e := by
  unfold loadError declaration? at h
  cases hs : r.shape t with
  | primitive p => simp [hs] at h
  | array component root => simp [hs] at h
  | declared origin => exact ⟨origin, rfl, by simpa [hs] using h⟩

lemma loadError_of_declared {origin : Origin} (h : r.shape t = .declared origin) :
    r.loadError t = origin.declaration.loadError := by
  simp [loadError, declaration?, h]

lemma not_issued_next (r : Registry) : ¬ r.Issued r.next := by
  simp [Issued, next, size]

/-! ## Descriptors -/

lemma component?_eq (r : Registry) (t : Handle) :
    r.component? t = match r.shape t with
      | .array component _ => if component.index < t.index then some component else none
      | _ => none := rfl

lemma descriptor_of_component {c : Handle} (h : r.component? t = some c) :
    r.descriptor t = Descriptor.ofArray (r.descriptor c) := by
  rw [descriptor]
  split
  next c' hc =>
    rw [h] at hc
    cases hc
    rfl
  next hc =>
    rw [h] at hc
    cases hc

lemma descriptor_of_primitive {p : Primitive} (h : r.shape t = .primitive p) :
    r.descriptor t = p.descriptor := by
  rw [descriptor]
  split
  next c hc => simp [component?_eq, h] at hc
  next => rw [h]

lemma descriptor_of_declared {origin : Origin} (h : r.shape t = .declared origin) :
    r.descriptor t = origin.declaration.descriptor := by
  rw [descriptor]
  split
  next c hc => simp [component?_eq, h] at hc
  next => rw [h]

/-- An array whose component was not registered before it. No operation makes such arrays. -/
lemma descriptor_of_broken {c root : Handle} (hc : r.component? t = none)
    (h : r.shape t = .array c root) : r.descriptor t = Descriptor.ofArray "" := by
  rw [descriptor]
  split
  next c' hc' =>
    rw [hc] at hc'
    cases hc'
  next => rw [h]

/-! ## Extension -/

/-- Every type of the first registry is a type of the second, with the same kind and
descriptor. -/
structure Extends (r r' : Registry) : Prop where
  size_le : r.size ≤ r'.size
  alike : ∀ t, r.Issued t → Shape.Alike (r.shape t) (r'.shape t)

namespace Extends

lemma refl (r : Registry) : r.Extends r := ⟨Nat.le_refl _, fun _ _ => Shape.Alike.refl _⟩

lemma issued (h : r.Extends r') (ht : r.Issued t) : r'.Issued t :=
  Nat.lt_of_lt_of_le ht h.size_le

lemma trans {r'' : Registry} (h : r.Extends r') (h' : r'.Extends r'') : r.Extends r'' :=
  ⟨Nat.le_trans h.size_le h'.size_le,
    fun t ht => (h.alike t ht).trans (h'.alike t (h.issued ht))⟩

/-- A type that is no class or interface has the shape that it had. -/
lemma shape_eq (h : r.Extends r') (ht : r.Issued t)
    (hshape : ∀ origin, r'.shape t ≠ .declared origin) : r'.shape t = r.shape t := by
  have halike := h.alike t ht
  generalize hs : r.shape t = a at halike
  generalize hs' : r'.shape t = b at halike
  cases halike with
  | primitive p => rfl
  | array component root => rfl
  | @declared _ origin _ _ => exact absurd hs' (hshape origin)

lemma component?_eq (h : r.Extends r') (ht : r.Issued t) : r'.component? t = r.component? t := by
  rw [Registry.component?_eq, Registry.component?_eq]
  have halike := h.alike t ht
  generalize r.shape t = a, r'.shape t = b at halike
  cases halike <;> rfl

/-- A type keeps its descriptor. The induction follows the components of an array, which were
registered before it. -/
lemma descriptor_eq (h : r.Extends r') (ht : r.Issued t) : r'.descriptor t = r.descriptor t := by
  induction t using Registry.descriptor.induct r with
  | case1 t c hc ih =>
    have hc' : r'.component? t = some c := (h.component?_eq ht).trans hc
    rw [descriptor_of_component hc, descriptor_of_component hc',
      ih (Nat.lt_trans (component?_lt hc) ht)]
  | case2 t hc p hs =>
    have halike := h.alike t ht
    generalize hs' : r'.shape t = b at halike
    rw [hs] at halike
    cases halike
    rw [descriptor_of_primitive hs, descriptor_of_primitive hs']
  | case3 t hc origin hs =>
    have halike := h.alike t ht
    generalize hs' : r'.shape t = b at halike
    rw [hs] at halike
    cases halike with
    | declared hd _ => rw [descriptor_of_declared hs, descriptor_of_declared hs', hd]
  | case4 t hc c root hs =>
    have hc' : r'.component? t = none := (h.component?_eq ht).trans hc
    have halike := h.alike t ht
    generalize hs' : r'.shape t = b at halike
    rw [hs] at halike
    cases halike
    rw [descriptor_of_broken hc hs, descriptor_of_broken hc' hs']

end Extends

/-- The second registry has the types of the first, unchanged, and possibly more. -/
structure Grows (r r' : Registry) : Prop where
  size_le : r.size ≤ r'.size
  shape_eq : ∀ t, r.Issued t → r'.shape t = r.shape t

namespace Grows

lemma refl (r : Registry) : r.Grows r := ⟨Nat.le_refl _, fun _ _ => rfl⟩

lemma issued (h : r.Grows r') (ht : r.Issued t) : r'.Issued t :=
  Nat.lt_of_lt_of_le ht h.size_le

lemma trans {r'' : Registry} (h : r.Grows r') (h' : r'.Grows r'') : r.Grows r'' :=
  ⟨Nat.le_trans h.size_le h'.size_le,
    fun t ht => (h'.shape_eq t (h.issued ht)).trans (h.shape_eq t ht)⟩

lemma toExtends (h : r.Grows r') : r.Extends r' :=
  ⟨h.size_le, fun t ht => by rw [h.shape_eq t ht]; exact Shape.Alike.refl _⟩

lemma loadError_eq (h : r.Grows r') (ht : r.Issued t) : r'.loadError t = r.loadError t := by
  simp [loadError, declaration?, h.shape_eq t ht]

end Grows

/-! ## Defining a class -/

/-- The registry with one more class. -/
def withClass (r : Registry) (origin : Origin) : Registry where
  entries := r.entries.push { shape := .declared origin }
  index := r.index.insert origin.declaration.descriptor r.next

/-- A definition checks the form of the descriptor first, and then that it is new. -/
lemma define_eq (r : Registry) (origin : Origin) :
    r.define origin =
      if Descriptor.IsClass origin.declaration.descriptor then
        if (r.lookup origin.declaration.descriptor).isSome then
          .error (.duplicateType origin.declaration.descriptor origin.declaration.location)
        else .ok (r.next, r.withClass origin)
      else .error (.invalidDescriptor origin.declaration.descriptor) := by
  have hcontains : r.index.contains origin.declaration.descriptor =
      (r.lookup origin.declaration.descriptor).isSome :=
    Std.TreeMap.contains_eq_isSome_getElem?
  unfold define Descriptor.validate
  by_cases hclass : Descriptor.IsClass origin.declaration.descriptor
  · obtain ⟨hv, hp, ha⟩ := hclass
    cases hl : r.lookup origin.declaration.descriptor <;> rw [hl] at hcontains <;>
      simp [Descriptor.IsClass, hv, hp, ha, hcontains, withClass, bind, Except.bind, pure,
        Except.pure, throw, throwThe, MonadExceptOf.throw]
  · rw [if_neg hclass]
    unfold Descriptor.IsClass at hclass
    by_cases hv : Descriptor.isValid origin.declaration.descriptor = true
    · have hshape : (Descriptor.isPrimitive origin.declaration.descriptor ||
          Descriptor.isArray origin.declaration.descriptor) = true := by
        by_contra hn
        simp only [Bool.not_eq_true, Bool.or_eq_false_iff] at hn
        exact hclass ⟨hv, hn⟩
      simp only [hv, hshape, if_true]
      rfl
    · simp only [hv]
      rfl

/-- A definition succeeds exactly when the descriptor is that of a class, and new. -/
lemma define_eq_ok_iff {origin : Origin} :
    r.define origin = .ok (t, r') ↔
      Descriptor.IsClass origin.declaration.descriptor ∧
      r.lookup origin.declaration.descriptor = none ∧
      t = r.next ∧ r' = r.withClass origin := by
  rw [define_eq]
  by_cases hclass : Descriptor.IsClass origin.declaration.descriptor
  · cases hl : r.lookup origin.declaration.descriptor with
    | some u => simp [hclass]
    | none => simp [hclass, eq_comm (a := t), eq_comm (a := r')]
  · simp [hclass]

@[simp] lemma size_withClass (r : Registry) (origin : Origin) :
    (r.withClass origin).size = r.size + 1 := by
  simp [size, withClass]

lemma shape_withClass_of_issued (origin : Origin) (ht : r.Issued t) :
    (r.withClass origin).shape t = r.shape t := by
  have hlt : t.index < r.entries.size := ht
  simp [shape, withClass, Array.getElem?_push_lt hlt, hlt]

lemma shape_withClass_next (r : Registry) (origin : Origin) :
    (r.withClass origin).shape r.next = .declared origin := by
  simp [shape, withClass, next]

lemma lookup_withClass (r : Registry) (origin : Origin) (d : String) :
    (r.withClass origin).lookup d =
      if origin.declaration.descriptor = d then some r.next else r.lookup d := by
  simp [lookup, withClass, Std.TreeMap.getElem?_insert]

lemma grows_withClass (r : Registry) (origin : Origin) : r.Grows (r.withClass origin) :=
  ⟨by simp, fun _ ht => shape_withClass_of_issued origin ht⟩

/-! ## Making an array type -/

/-- The array type that was made for a type, if there is one. -/
def arrayType? (r : Registry) (component : Handle) : Option Handle :=
  r.entries[component.index]?.bind Entry.array

lemma arrayType?_withClass (r : Registry) (origin : Origin) (t : Handle) :
    (r.withClass origin).arrayType? t = r.arrayType? t := by
  simp only [arrayType?, withClass, Array.getElem?_push]
  split
  next h =>
    have hout : r.entries[t.index]? = none := by simp [h]
    rw [hout]
    rfl
  next => rfl

/-- The registry with one more array type. -/
def withArray (r : Registry) (component root : Handle) : Registry where
  entries := (r.entries.modify component.index fun entry =>
    { entry with array := some r.next }).push { shape := .array component root }
  index := r.index.insertIfNew (Descriptor.ofArray (r.descriptor component)) r.next

lemma getElem?_withArray (r : Registry) (component root : Handle) (i : Nat) :
    (r.withArray component root).entries[i]? =
      if i = r.size then some { shape := .array component root }
      else if component.index = i then
        r.entries[i]?.map fun entry => { entry with array := some r.next }
      else r.entries[i]? := by
  simp only [withArray, size, Array.getElem?_push, Array.getElem?_modify, Array.size_modify]
  rfl

lemma arrayOf_of_some {component array : Handle} (h : r.arrayType? component = some array)
    (root : Handle) : r.arrayOf component root = (array, r) := by
  unfold arrayType? at h
  simp [arrayOf, h]

lemma arrayOf_of_none {component : Handle} (h : r.arrayType? component = none)
    (root : Handle) : r.arrayOf component root = (r.next, r.withArray component root) := by
  unfold arrayType? at h
  simp [arrayOf, h, withArray]

@[simp] lemma size_withArray (r : Registry) (component root : Handle) :
    (r.withArray component root).size = r.size + 1 := by
  simp [size, withArray]

lemma shape_withArray_of_issued (component root : Handle) (ht : r.Issued t) :
    (r.withArray component root).shape t = r.shape t := by
  have hne : t.index ≠ r.size := Nat.ne_of_lt ht
  unfold shape
  rw [getElem?_withArray, if_neg hne]
  by_cases hc : component.index = t.index
  · rw [if_pos hc]
    cases r.entries[t.index]? <;> rfl
  · rw [if_neg hc]

lemma shape_withArray_next (r : Registry) (component root : Handle) :
    (r.withArray component root).shape r.next = .array component root := by
  unfold shape
  rw [getElem?_withArray]
  simp [next, size]

lemma lookup_withArray (r : Registry) (component root : Handle) (d : String) :
    (r.withArray component root).lookup d =
      if Descriptor.ofArray (r.descriptor component) = d ∧ r.lookup d = none then some r.next
      else r.lookup d := by
  unfold lookup withArray
  rw [Std.TreeMap.getElem?_insertIfNew]
  by_cases hd : Descriptor.ofArray (r.descriptor component) = d
  · subst hd
    by_cases hm : Descriptor.ofArray (r.descriptor component) ∈ r.index
    · simp [hm]
    · simp [hm]
  · simp [hd]

lemma arrayType?_withArray {component : Handle} (hc : r.Issued component) (root u : Handle) :
    (r.withArray component root).arrayType? u =
      if u = component then some r.next else r.arrayType? u := by
  have hlt : component.index < r.entries.size := hc
  unfold arrayType?
  rw [getElem?_withArray]
  by_cases hu : u = component
  · subst hu
    have hne : u.index ≠ r.size := Nat.ne_of_lt hc
    simp [hne, hlt]
  · have hne : component.index ≠ u.index := fun h => hu (Handle.ext h.symm)
    by_cases hn : u.index = r.size
    · have hout : r.entries[u.index]? = none := by simp [hn, size]
      rw [if_pos hn, if_neg hu, hout]
      rfl
    · rw [if_neg hn, if_neg hne, if_neg hu]

lemma grows_withArray (r : Registry) (component root : Handle) :
    r.Grows (r.withArray component root) :=
  ⟨by simp, fun _ ht => shape_withArray_of_issued component root ht⟩

lemma grows_arrayOf (r : Registry) (component root : Handle) :
    r.Grows (r.arrayOf component root).2 := by
  cases h : r.arrayType? component with
  | some array => rw [arrayOf_of_some h]; exact Grows.refl r
  | none => rw [arrayOf_of_none h]; exact grows_withArray r component root

/-! ## Editing a draft -/

@[simp] lemma size_edit (r : Registry) (t : Handle) (change : Draft → Draft) :
    (r.edit t change).size = r.size := by
  simp [size, edit]

@[simp] lemma lookup_edit (r : Registry) (t : Handle) (change : Draft → Draft) (d : String) :
    (r.edit t change).lookup d = r.lookup d := rfl

@[simp] lemma issued_edit {change : Draft → Draft} :
    (r.edit t change).Issued s ↔ r.Issued s := by
  simp [Issued]

lemma getElem?_edit (r : Registry) (t s : Handle) (change : Draft → Draft) :
    (r.edit t change).entries[s.index]? = if s = t
      then r.entries[s.index]?.map fun entry => { entry with shape := entry.shape.edit change }
      else r.entries[s.index]? := by
  unfold edit
  rw [Array.getElem?_modify]
  by_cases h : s = t
  · subst h
    cases hs : r.entries[s.index]? with
    | none => simp
    | some entry =>
      obtain ⟨shape, array⟩ := entry
      cases shape with
      | declared origin => cases origin <;> simp [Shape.edit]
      | _ => simp [Shape.edit]
  · have hne : t.index ≠ s.index := fun he => h (Handle.ext he.symm)
    simp [h, hne]

lemma shape_edit_self (r : Registry) (t : Handle) (change : Draft → Draft) :
    (r.edit t change).shape t = (r.shape t).edit change := by
  have h := getElem?_edit r t t change
  cases hs : r.entries[t.index]? with
  | none =>
    rw [hs] at h
    simp [shape, hs, h, Shape.edit]
  | some entry =>
    rw [hs] at h
    simp [shape, hs, h]

lemma shape_edit_of_ne {change : Draft → Draft} (h : s ≠ t) :
    (r.edit t change).shape s = r.shape s := by
  simp [shape, getElem?_edit, h]

/-! Arrays and primitive types are not edited, and of the classes only the given one. -/

lemma shape_edit_eq_iff {change : Draft → Draft} {shape : Shape}
    (hshape : ∀ origin, shape ≠ .declared origin) :
    (r.edit t change).shape s = shape ↔ r.shape s = shape := by
  by_cases hs : s = t
  · subst hs
    rw [shape_edit_self]
    rcases r.shape s with p | (d | d) | ⟨c, root⟩
    · rfl
    · exact iff_of_false (hshape _).symm (hshape _).symm
    · rfl
    · rfl
  · rw [shape_edit_of_ne hs]

lemma shape_edit_eq_declared {change : Draft → Draft} {origin : Origin}
    (h : (r.edit t change).shape s = .declared origin) :
    r.shape s = .declared origin ∨
      ∃ d, r.shape t = .declared (.draft d) ∧ origin = .draft (change d) := by
  by_cases hs : s = t
  · subst hs
    rw [shape_edit_self] at h
    cases hshape : r.shape s with
    | primitive p => simp [hshape, Shape.edit] at h
    | array c root => simp [hshape, Shape.edit] at h
    | declared origin =>
      rw [hshape] at h
      cases origin with
      | draft d =>
        cases h
        exact Or.inr ⟨d, rfl, rfl⟩
      | fixed d => exact Or.inl h
  · rw [shape_edit_of_ne hs] at h
    exact Or.inl h

@[simp] lemma arrayType?_edit (r : Registry) (t s : Handle) (change : Draft → Draft) :
    (r.edit t change).arrayType? s = r.arrayType? s := by
  unfold arrayType?
  rw [getElem?_edit]
  split
  · cases r.entries[s.index]? <;> rfl
  · rfl

/-- An edit that leaves descriptor and kind of a draft alone extends the registry. -/
lemma extends_edit {change : Draft → Draft} (t : Handle)
    (hd : ∀ d, (change d).descriptor = d.descriptor)
    (hk : ∀ d, (change d).isInterface = d.isInterface) : r.Extends (r.edit t change) := by
  refine ⟨by simp, fun s _ => ?_⟩
  by_cases h : s = t
  · subst h
    rw [shape_edit_self]
    exact Shape.edit_alike hd hk _
  · rw [shape_edit_of_ne h]
    exact Shape.Alike.refl _

end Registry

end TypeGraph
