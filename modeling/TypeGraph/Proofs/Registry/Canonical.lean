import Mathlib.Logic.Relation
import TypeGraph.Proofs.Descriptor.Names
import TypeGraph.Proofs.Registry.Extension

/-!
# Canonical registries

A registry is canonical when its index and its list of types agree: every type is found under its
own descriptor, and nothing else is found. Then two types with one descriptor are the same, and an
array type is determined by its component.

The registry of the primitive types is canonical, and so is what a definition, a new array type or
an edit makes of a canonical registry. It does not matter which types a class refers to, or which
class an array extends: these need not even exist.
-/

namespace TypeGraph

/-! ## Descriptors of the three kinds -/

namespace Descriptor

@[simp] lemma toList_ofArray (d : String) : (ofArray d).toList = '[' :: d.toList := by
  simp [ofArray]

@[simp] lemma component?_ofArray (d : String) : component? (ofArray d) = some d := by
  simp [component?]

lemma ofArray_injective {d d' : String} (h : ofArray d = ofArray d') : d = d' := by
  have hc := congrArg component? h
  simpa using hc

lemma isArray_ofArray (d : String) : isArray (ofArray d) = true := by
  simp [isArray]

lemma isPrimitive_descriptor (p : Primitive) : isPrimitive p.descriptor = true := by
  simp [isPrimitive, primitive?, Primitive.descriptor]

lemma exists_of_isPrimitive {d : String} (h : isPrimitive d = true) :
    ∃ p : Primitive, d = p.descriptor := by
  obtain ⟨p, hp⟩ := Option.isSome_iff_exists.1 h
  refine ⟨p, ?_⟩
  rw [Primitive.descriptor, ← eq_letter_of_ofDescriptor? hp, String.ofList_toList]

lemma isArray_descriptor (p : Primitive) : isArray p.descriptor = false := by
  cases p <;> rfl

lemma descriptor_injective {p q : Primitive} (h : p.descriptor = q.descriptor) : p = q := by
  have hp := Primitive.ofDescriptor?_letter p
  have hletter : [p.letter] = [q.letter] := by
    simpa [Primitive.descriptor] using h
  rw [hletter, Primitive.ofDescriptor?_letter] at hp
  exact (Option.some.inj hp).symm

lemma ofArray_ne_descriptor (d : String) (p : Primitive) : ofArray d ≠ p.descriptor := by
  intro h
  have := isArray_ofArray d
  rw [h, isArray_descriptor] at this
  cases this

lemma IsClass.ne_descriptor {d : String} (h : IsClass d) (p : Primitive) :
    d ≠ p.descriptor := by
  rintro rfl
  rw [IsClass, isPrimitive_descriptor] at h
  exact absurd h.2.1 (by simp)

lemma IsClass.ne_ofArray {d : String} (h : IsClass d) (d' : String) : d ≠ ofArray d' := by
  rintro rfl
  rw [IsClass, isArray_ofArray] at h
  exact absurd h.2.2 (by simp)

end Descriptor

namespace Registry

/-- The index and the list of types agree. -/
structure Canonical (r : Registry) : Prop where
  component_lt : ∀ {t c root : Handle}, r.shape t = .array c root → c.index < t.index
  arrayType?_iff : ∀ {c a : Handle}, r.arrayType? c = some a ↔ ∃ root, r.shape a = .array c root
  isClass : ∀ {t : Handle} {origin : Origin}, r.shape t = .declared origin →
    Descriptor.IsClass origin.declaration.descriptor
  lookup_iff : ∀ {d : String} {t : Handle}, r.lookup d = some t ↔ r.Issued t ∧ r.descriptor t = d

variable {r r' : Registry} {s t : Handle}

namespace Canonical

lemma lookup_descriptor (h : r.Canonical) (ht : r.Issued t) : r.lookup (r.descriptor t) = some t :=
  h.lookup_iff.2 ⟨ht, rfl⟩

/-- Types with one descriptor are the same. -/
lemma eq_of_descriptor_eq (h : r.Canonical) (hs : r.Issued s) (ht : r.Issued t)
    (hd : r.descriptor s = r.descriptor t) : s = t := by
  have hl := h.lookup_descriptor hs
  rw [hd, h.lookup_descriptor ht] at hl
  exact (Option.some.inj hl).symm

lemma component?_of_array (h : r.Canonical) {c root : Handle} (hs : r.shape t = .array c root) :
    r.component? t = some c := by
  simp [component?_eq, hs, h.component_lt hs]

lemma component?_eq_some_iff (h : r.Canonical) {c : Handle} :
    r.component? t = some c ↔ ∃ root, r.shape t = .array c root := by
  constructor
  · intro hc
    unfold component? at hc
    split at hc
    next c' root hs =>
      split at hc
      · cases hc
        exact ⟨root, hs⟩
      · cases hc
    next => cases hc
  · rintro ⟨root, hs⟩
    exact h.component?_of_array hs

lemma descriptor_of_array (h : r.Canonical) {c root : Handle} (hs : r.shape t = .array c root) :
    r.descriptor t = Descriptor.ofArray (r.descriptor c) :=
  descriptor_of_component (h.component?_of_array hs)

lemma issued_component (h : r.Canonical) {c root : Handle} (hs : r.shape t = .array c root) :
    r.Issued c :=
  Nat.lt_trans (h.component_lt hs) (issued_of_array hs)

/-- There is one array type for each component. -/
lemma eq_of_component_eq (h : r.Canonical) {c root root' : Handle}
    (hs : r.shape s = .array c root) (ht : r.shape t = .array c root') : s = t := by
  have hs' := h.arrayType?_iff.2 ⟨root, hs⟩
  have ht' := h.arrayType?_iff.2 ⟨root', ht⟩
  rw [hs'] at ht'
  exact Option.some.inj ht'

/-- A type whose descriptor is that of a class is a class or interface. -/
lemma exists_declared (h : r.Canonical) (hd : Descriptor.IsClass (r.descriptor t)) :
    ∃ origin, r.shape t = .declared origin := by
  cases hs : r.shape t with
  | declared origin => exact ⟨origin, rfl⟩
  | primitive p =>
    rw [descriptor_of_primitive hs] at hd
    exact absurd rfl (hd.ne_descriptor p)
  | array c root =>
    rw [h.descriptor_of_array hs] at hd
    exact absurd rfl (hd.ne_ofArray _)

/-- The descriptor of an array type that was not made yet is free. -/
lemma lookup_ofArray (h : r.Canonical) {c : Handle} (hc : r.Issued c)
    (hnone : r.arrayType? c = none) :
    r.lookup (Descriptor.ofArray (r.descriptor c)) = none := by
  cases hl : r.lookup (Descriptor.ofArray (r.descriptor c)) with
  | none => rfl
  | some a =>
    exfalso
    obtain ⟨ha, hd⟩ := h.lookup_iff.1 hl
    cases hs : r.shape a with
    | primitive p =>
      rw [descriptor_of_primitive hs] at hd
      exact Descriptor.ofArray_ne_descriptor _ p hd.symm
    | declared origin =>
      rw [descriptor_of_declared hs] at hd
      exact (h.isClass hs).ne_ofArray _ hd
    | array c' root =>
      rw [h.descriptor_of_array hs] at hd
      have hcc : c' = c :=
        h.eq_of_descriptor_eq (h.issued_component hs) hc (Descriptor.ofArray_injective hd)
      subst hcc
      rw [h.arrayType?_iff.2 ⟨root, hs⟩] at hnone
      cases hnone

end Canonical

/-- A type is found under its descriptor for good. -/
lemma Extends.lookup_eq_some (h : r.Extends r') (hr : r.Canonical) (hr' : r'.Canonical)
    {d : String} (ht : r.lookup d = some t) : r'.lookup d = some t := by
  obtain ⟨hissued, hd⟩ := hr.lookup_iff.1 ht
  exact hr'.lookup_iff.2 ⟨h.issued hissued, (h.descriptor_eq hissued).trans hd⟩

/-! ## The registry of the primitive types -/

lemma getElem?_initial (i : Nat) :
    initial.entries[i]? = Primitive.all[i]?.map fun p => { shape := .primitive p } := by
  simp [initial]

lemma shape_initial_ofPrimitive (p : Primitive) :
    initial.shape (.ofPrimitive p) = .primitive p := by
  unfold shape
  rw [getElem?_initial]
  simp [Handle.ofPrimitive]

lemma exists_primitive_of_issued_initial (ht : initial.Issued t) : ∃ p, t = .ofPrimitive p := by
  have hlt : t.index < Primitive.all.length := ht
  refine ⟨Primitive.all[t.index], Handle.ext ?_⟩
  refine (List.getElem?_inj hlt (show Primitive.all.Nodup by decide)).1 ?_
  simp [Handle.ofPrimitive]

lemma shape_initial_of_issued (ht : initial.Issued t) : ∃ p, initial.shape t = .primitive p := by
  obtain ⟨p, rfl⟩ := exists_primitive_of_issued_initial ht
  exact ⟨p, shape_initial_ofPrimitive p⟩

lemma lookup_initial_descriptor (p : Primitive) :
    initial.lookup p.descriptor = some (.ofPrimitive p) := by
  refine Std.TreeMap.getElem?_ofList_of_mem Std.ReflCmp.compare_self ?_ ?_
  · rw [List.pairwise_map]
    refine List.Pairwise.imp ?_ (show Primitive.all.Nodup by decide)
    intro p q hne hcmp
    exact hne (Descriptor.descriptor_injective (Std.LawfulEqCmp.eq_of_compare hcmp))
  · exact List.mem_map_of_mem (by cases p <;> decide)

lemma lookup_initial_eq_some {d : String} (h : initial.lookup d = some t) :
    ∃ p : Primitive, p.descriptor = d := by
  by_contra hn
  have hnone : initial.lookup d = none := by
    refine Std.TreeMap.getElem?_ofList_of_contains_eq_false ?_
    simpa using fun p _ hp => hn ⟨p, hp⟩
  rw [hnone] at h
  cases h

lemma shape_initial_ne_array {c root : Handle} : initial.shape t ≠ .array c root := by
  intro hs
  obtain ⟨p, hp⟩ := shape_initial_of_issued (issued_of_array hs)
  rw [hp] at hs
  cases hs

lemma shape_initial_ne_declared {origin : Origin} : initial.shape t ≠ .declared origin := by
  intro hs
  obtain ⟨p, hp⟩ := shape_initial_of_issued (issued_of_declared hs)
  rw [hp] at hs
  cases hs

/-- The registry of the primitive types is canonical. -/
theorem canonical_initial : initial.Canonical where
  component_lt hs := absurd hs shape_initial_ne_array
  arrayType?_iff := by
    intro c a
    constructor
    · intro h
      unfold arrayType? at h
      rw [getElem?_initial] at h
      cases hc : Primitive.all[c.index]? <;> simp [hc] at h
    · rintro ⟨root, hs⟩
      exact absurd hs shape_initial_ne_array
  isClass hs := absurd hs shape_initial_ne_declared
  lookup_iff := by
    intro d t
    constructor
    · intro h
      obtain ⟨p, rfl⟩ := lookup_initial_eq_some h
      rw [lookup_initial_descriptor] at h
      cases h
      refine ⟨?_, descriptor_of_primitive (shape_initial_ofPrimitive p)⟩
      cases p <;> decide
    · rintro ⟨ht, rfl⟩
      obtain ⟨p, rfl⟩ := exists_primitive_of_issued_initial ht
      rw [descriptor_of_primitive (shape_initial_ofPrimitive p)]
      exact lookup_initial_descriptor p

/-! ## One type more -/

/-- What is issued after one more type was registered. -/
lemma issued_iff_of_size (h : r'.size = r.size + 1) :
    r'.Issued t ↔ r.Issued t ∨ t = r.next := by
  have hnext : t = r.next ↔ t.index = r.size := Handle.ext_iff
  rw [hnext]
  unfold Issued
  omega

/-- All types but the new one have the shape that they had. -/
lemma Grows.shape_eq_of_ne_next (h : r.Grows r') (hsize : r'.size = r.size + 1) (ht : t ≠ r.next) :
    r'.shape t = r.shape t := by
  by_cases hissued : r.Issued t
  · exact h.shape_eq t hissued
  · have hout : ¬ r'.Issued t := by
      rw [issued_iff_of_size hsize]
      exact not_or.2 ⟨hissued, ht⟩
    rw [shape_of_not_issued hissued, shape_of_not_issued hout]

/-- An array type is no class, so it brings no new one. -/
lemma issued_of_declared_arrayOf {component root : Handle} {origin : Origin}
    (h : (r.arrayOf component root).2.shape t = .declared origin) : r.Issued t := by
  cases hnone : r.arrayType? component with
  | some array =>
    rw [arrayOf_of_some hnone] at h
    exact issued_of_declared h
  | none =>
    rw [arrayOf_of_none hnone] at h
    rcases (issued_iff_of_size (size_withArray r component root)).1 (issued_of_declared h) with
      ht | rfl
    · exact ht
    · rw [shape_withArray_next] at h
      cases h

/-- The second registry has one type more than the first, under a descriptor that was free. -/
structure AddsType (r r' : Registry) (shape : Shape) (d : String) : Prop where
  grows : r.Grows r'
  size : r'.size = r.size + 1
  next : r'.shape r.next = shape
  descriptor : r'.descriptor r.next = d
  lookup : ∀ d', r'.lookup d' = if d = d' then some r.next else r.lookup d'
  free : r.lookup d = none
  not_primitive : ∀ p, shape ≠ .primitive p

namespace AddsType

variable {shape : Shape} {d : String} (hadds : r.AddsType r' shape d)
include hadds

/-- A type of the new registry is an old one or the new one. -/
lemma shape_cases (ht : r'.Issued t) :
    r.Issued t ∧ r'.shape t = r.shape t ∨ t = r.next ∧ r'.shape t = shape := by
  rcases (issued_iff_of_size hadds.size).1 ht with ht | rfl
  · exact Or.inl ⟨ht, hadds.grows.shape_eq t ht⟩
  · exact Or.inr ⟨rfl, hadds.next⟩

lemma lookup_iff (h : r.Canonical) {d' : String} :
    r'.lookup d' = some t ↔ r'.Issued t ∧ r'.descriptor t = d' := by
  have hold : ∀ {t}, r.Issued t → r'.descriptor t = r.descriptor t :=
    fun ht => hadds.grows.toExtends.descriptor_eq ht
  rw [hadds.lookup, issued_iff_of_size hadds.size]
  by_cases hd : d = d'
  · subst hd
    rw [if_pos rfl]
    constructor
    · intro ht
      cases ht
      exact ⟨Or.inr rfl, hadds.descriptor⟩
    · rintro ⟨ht | rfl, htd⟩
      · -- an old type with this descriptor would have been found
        have hl := h.lookup_iff.2 ⟨ht, (hold ht).symm.trans htd⟩
        rw [hadds.free] at hl
        cases hl
      · rfl
  · rw [if_neg hd, h.lookup_iff]
    constructor
    · rintro ⟨ht, htd⟩
      exact ⟨Or.inl ht, (hold ht).trans htd⟩
    · rintro ⟨ht | rfl, htd⟩
      · exact ⟨ht, (hold ht).symm.trans htd⟩
      · exact absurd (hadds.descriptor.symm.trans htd) hd

/-- One more type keeps the registry canonical, if a class has the descriptor of one and the
component of an array was issued. -/
lemma canonical (h : r.Canonical) (harray : ∀ c root, shape = .array c root → r.Issued c)
    (harrays : ∀ c a, r'.arrayType? c = some a ↔
      r.arrayType? c = some a ∨ a = r.next ∧ ∃ root, shape = .array c root)
    (hdeclared : ∀ origin, shape = .declared origin →
      Descriptor.IsClass origin.declaration.descriptor) : r'.Canonical := by
  refine ⟨?_, ?_, ?_, hadds.lookup_iff h⟩
  · intro t c root hs
    rcases hadds.shape_cases (issued_of_array hs) with ⟨-, hold⟩ | ⟨rfl, hnew⟩
    · exact h.component_lt (hold.symm.trans hs)
    · exact harray c root (hnew.symm.trans hs)
  · intro c a
    rw [harrays, h.arrayType?_iff]
    constructor
    · rintro (⟨root, hs⟩ | ⟨rfl, root, hs⟩)
      · exact ⟨root, (hadds.grows.shape_eq a (issued_of_array hs)).trans hs⟩
      · exact ⟨root, hadds.next.trans hs⟩
    · rintro ⟨root, hs⟩
      rcases hadds.shape_cases (issued_of_array hs) with ⟨-, hold⟩ | ⟨rfl, hnew⟩
      · exact Or.inl ⟨root, hold.symm.trans hs⟩
      · exact Or.inr ⟨rfl, root, hnew.symm.trans hs⟩
  · intro t origin hs
    rcases hadds.shape_cases (issued_of_declared hs) with ⟨-, hold⟩ | ⟨-, hnew⟩
    · exact h.isClass (hold.symm.trans hs)
    · exact hdeclared origin (hnew.symm.trans hs)

end AddsType

lemma addsType_withClass {origin : Origin} (hnew : r.lookup origin.declaration.descriptor = none) :
    r.AddsType (r.withClass origin) (.declared origin) origin.declaration.descriptor := by
  have hnext := shape_withClass_next r origin
  exact ⟨r.grows_withClass origin, size_withClass r origin, hnext, descriptor_of_declared hnext,
    lookup_withClass r origin, hnew, by simp⟩

lemma Canonical.addsType_withArray (h : r.Canonical) {c : Handle} (hc : r.Issued c)
    (hnone : r.arrayType? c = none) (root : Handle) :
    r.AddsType (r.withArray c root) (.array c root) (Descriptor.ofArray (r.descriptor c)) := by
  have hgrows := r.grows_withArray c root
  have hnext := shape_withArray_next r c root
  have hfree := h.lookup_ofArray hc hnone
  have hdescriptor :
      (r.withArray c root).descriptor r.next = Descriptor.ofArray (r.descriptor c) := by
    have hcomponent : (r.withArray c root).component? r.next = some c := by
      rw [component?_eq, hnext]
      exact if_pos hc
    rw [descriptor_of_component hcomponent, hgrows.toExtends.descriptor_eq hc]
  have hlookup : ∀ d, (r.withArray c root).lookup d =
      if Descriptor.ofArray (r.descriptor c) = d then some r.next else r.lookup d := by
    intro d
    rw [lookup_withArray]
    by_cases hd : Descriptor.ofArray (r.descriptor c) = d
    · subst hd
      simp [hfree]
    · simp [hd]
  exact ⟨hgrows, size_withArray r c root, hnext, hdescriptor, hlookup, hfree, by simp⟩

/-- The array types after one more was made. -/
lemma arrayType?_withArray_iff {c : Handle} (hc : r.Issued c) (hnone : r.arrayType? c = none)
    (root c' a : Handle) :
    (r.withArray c root).arrayType? c' = some a ↔
      r.arrayType? c' = some a ∨ a = r.next ∧ ∃ root', Shape.array c root = .array c' root' := by
  rw [arrayType?_withArray hc]
  by_cases hcc : c' = c
  · subst hcc
    simp [hnone, eq_comm]
  · simp [hcc, Ne.symm hcc]

namespace Canonical

/-- A definition keeps the registry canonical. -/
lemma withClass (h : r.Canonical) {origin : Origin}
    (hclass : Descriptor.IsClass origin.declaration.descriptor)
    (hnew : r.lookup origin.declaration.descriptor = none) : (r.withClass origin).Canonical := by
  refine (addsType_withClass hnew).canonical h (by simp) (fun c a => ?_) ?_
  · simp [arrayType?_withClass]
  · rintro _ ⟨⟩
    exact hclass

/-- A new array type keeps the registry canonical. -/
lemma withArray (h : r.Canonical) {c : Handle} (hc : r.Issued c) (hnone : r.arrayType? c = none)
    (root : Handle) : (r.withArray c root).Canonical := by
  refine (h.addsType_withArray hc hnone root).canonical h ?_
    (arrayType?_withArray_iff hc hnone root) (by simp)
  rintro _ _ ⟨⟩
  exact hc

/-- The array type of a type has that type for its component. -/
lemma arrayOf (h : r.Canonical) {c : Handle} (hc : r.Issued c) (root : Handle) :
    (r.arrayOf c root).2.Canonical ∧
      ∃ root', (r.arrayOf c root).2.shape (r.arrayOf c root).1 = .array c root' := by
  cases hnone : r.arrayType? c with
  | some a =>
    rw [arrayOf_of_some hnone]
    exact ⟨h, h.arrayType?_iff.1 hnone⟩
  | none =>
    rw [arrayOf_of_none hnone]
    exact ⟨h.withArray hc hnone root, root, shape_withArray_next r c root⟩

/-- An edit keeps the registry canonical if it leaves descriptor and kind alone. -/
lemma edit (h : r.Canonical) {change : Draft → Draft} (t : Handle)
    (hd : ∀ d, (change d).descriptor = d.descriptor)
    (hk : ∀ d, (change d).isInterface = d.isInterface) : (r.edit t change).Canonical := by
  have hextends : r.Extends (r.edit t change) := extends_edit t hd hk
  refine ⟨fun hs => h.component_lt ((shape_edit_eq_iff (by simp)).1 hs), ?_, ?_, ?_⟩
  · intro c a
    rw [arrayType?_edit, h.arrayType?_iff]
    exact exists_congr fun root => (shape_edit_eq_iff (by simp)).symm
  · intro u o hs
    rcases shape_edit_eq_declared hs with hs | ⟨d, hsd, rfl⟩
    · exact h.isClass hs
    · have hclass := h.isClass hsd
      rwa [show (Origin.draft d).declaration.descriptor = d.descriptor from rfl, ← hd d] at hclass
  · intro d u
    rw [lookup_edit, issued_edit, h.lookup_iff]
    refine and_congr_right fun hu => ?_
    rw [hextends.descriptor_eq hu]

end Canonical

/-! ## Steps -/

/-- The three ways to change a registry. A class may declare something else after an edit, but not
under another descriptor. -/
inductive Step (r : Registry) : Registry → Prop
  | define {origin : Origin} {t : Handle} {r' : Registry} (h : r.define origin = .ok (t, r')) :
      Step r r'
  | array {component : Handle} (h : r.Issued component) (root : Handle) :
      Step r (r.arrayOf component root).2
  | edit (t : Handle) {change : Draft → Draft} (hd : ∀ d, (change d).descriptor = d.descriptor)
      (hk : ∀ d, (change d).isInterface = d.isInterface) : Step r (r.edit t change)

lemma Step.extends (h : r.Step r') : r.Extends r' := by
  cases h with
  | define h =>
    obtain ⟨-, -, -, rfl⟩ := define_eq_ok_iff.1 h
    exact (r.grows_withClass _).toExtends
  | array h root => exact (r.grows_arrayOf _ root).toExtends
  | edit t hd hk => exact extends_edit t hd hk

lemma Canonical.step (hr : r.Canonical) (h : r.Step r') : r'.Canonical := by
  cases h with
  | define h =>
    obtain ⟨hclass, hnew, -, rfl⟩ := define_eq_ok_iff.1 h
    exact hr.withClass hclass hnew
  | array h root => exact (hr.arrayOf h root).1
  | edit t hd hk => exact hr.edit t hd hk

open Relation

lemma extends_of_steps (h : ReflTransGen Step r r') : r.Extends r' := by
  induction h with
  | refl => exact Extends.refl r
  | tail _ hstep ih => exact ih.trans hstep.extends

lemma Canonical.steps (hr : r.Canonical) (h : ReflTransGen Step r r') : r'.Canonical := by
  induction h with
  | refl => exact hr
  | tail _ hstep ih => exact ih.step hstep

end Registry

end TypeGraph
