import Mathlib.Logic.Relation
import TypeGraph.Proofs.Supertype.Answers

/-!
# Widening

The language defines widening by single steps: from a primitive type to the next larger one, from a
type to a direct supertype, from the null literal to every reference type, from an interface to the
root class, from an array to the root class and to the two interfaces of arrays, and from one array
of references to another whose component is reached by widening. A type widens to another when
steps lead there.

The test for assignability knows no steps. It asks whether one of six conditions holds between the
two types directly. Main statement: in a well-formed graph the conditions are closed under steps, so
they hold exactly between the types of which one widens to the other. From this it follows that
widening is antisymmetric.
-/

namespace TypeGraph

open Relation

namespace Primitive

/-- The widening of a primitive type to the next larger one. -/
inductive WidensOnce : Primitive → Primitive → Prop
  | byte : WidensOnce byte short
  | short : WidensOnce short int
  | char : WidensOnce char int
  | int : WidensOnce int long
  | long : WidensOnce long float
  | float : WidensOnce float double

lemma widensTo_of_once {p q : Primitive} (h : WidensOnce p q) : p.widensTo q = true := by
  cases h <;> rfl

lemma widensTo_tail {p q q' : Primitive} (h : p.widensTo q = true) (h' : WidensOnce q q') :
    p.widensTo q' = true := by
  cases h' <;> cases p <;> first | rfl | cases h

/-- What a type widens to is the next larger type, or what that type widens to. -/
lemma widensTo_head {p p' q : Primitive} (h : WidensOnce p p') (hq : p.widensTo q = true) :
    q = p' ∨ p'.widensTo q = true := by
  cases h <;> cases q <;> first | exact Or.inl rfl | exact Or.inr rfl | cases hq

/-- The table of widenings lists what single steps lead to. -/
lemma widensTo_iff {p q : Primitive} : p.widensTo q = true ↔ TransGen WidensOnce p q := by
  constructor
  · -- from the largest type downwards
    have hnext : ∀ {p p'}, WidensOnce p p' →
        (∀ q, p'.widensTo q = true → TransGen WidensOnce p' q) →
        ∀ q, p.widensTo q = true → TransGen WidensOnce p q := by
      intro p p' hstep hrest q hq
      rcases widensTo_head hstep hq with rfl | hq
      · exact TransGen.single hstep
      · exact TransGen.head hstep (hrest q hq)
    have hdouble : ∀ q, double.widensTo q = true → TransGen WidensOnce double q := by
      intro q hq
      cases q <;> cases hq
    have hfloat := hnext .float hdouble
    have hlong := hnext .long hfloat
    have hint := hnext .int hlong
    have hshort := hnext .short hint
    cases p with
    | void => cases q <;> intro h <;> cases h
    | boolean => cases q <;> intro h <;> cases h
    | byte => exact hnext .byte hshort q
    | char => exact hnext .char hint q
    | short => exact hshort q
    | int => exact hint q
    | long => exact hlong q
    | float => exact hfloat q
    | double => exact hdouble q
  · intro h
    induction h with
    | single h => exact widensTo_of_once h
    | tail _ h' ih => exact widensTo_tail ih h'

lemma widensTo_void (p : Primitive) : p.widensTo .void = false := by
  cases p <;> rfl

lemma not_widensTo_of_widensTo {p q : Primitive} (h : p.widensTo q = true) :
    q.widensTo p = false := by
  cases p <;> cases q <;> first | rfl | cases h

end Primitive

namespace Registry

variable {r : Registry} {m : Memory} {s t u : Handle}

mutual

/-- One step of widening. -/
inductive WidensStep (r : Registry) (m : Memory) : Handle → Handle → Prop
  | primitive {s t : Handle} {p q : Primitive} (hs : r.shape s = .primitive p)
      (ht : r.shape t = .primitive q) (h : p.WidensOnce q) : WidensStep r m s t
  | superclass {s t : Handle} (h : r.SuperLink m s t) : WidensStep r m s t
  | interface {s t : Handle} (h : r.InterfaceLink m s t) : WidensStep r m s t
  | null {t : Handle} (ht : r.isPrimitive t = false) : WidensStep r m Handle.void t
  | object {s t : Handle} (hs : r.isInterface s = true)
      (ht : r.descriptor t = Descriptor.object) : WidensStep r m s t
  | array {s t : Handle} (hs : r.isArray s = true) (ht : r.descriptor t ∈ arraySupertypes) :
      WidensStep r m s t
  | components {s t a b : Handle} (hs : r.component? s = some a) (ht : r.component? t = some b)
      (hb : r.isPrimitive b = false) (h : Widens r m a b) : WidensStep r m s t

/-- Steps of widening lead from the first type to the second. -/
inductive Widens (r : Registry) (m : Memory) : Handle → Handle → Prop
  | refl (t : Handle) : Widens r m t t
  | tail {s t u : Handle} (h : Widens r m s t) (hstep : WidensStep r m t u) : Widens r m s u

end

lemma reflTransGen_of_widens {s t : Handle} :
    r.Widens m s t → ReflTransGen (r.WidensStep m) s t
  | .refl _ => ReflTransGen.refl
  | .tail h hstep => (reflTransGen_of_widens h).tail hstep

lemma widens_of_reflTransGen (h : ReflTransGen (r.WidensStep m) s t) : r.Widens m s t := by
  induction h with
  | refl => exact .refl s
  | tail _ hstep ih => exact .tail ih hstep

/-- Widening is the reflexive and transitive closure of the steps. -/
theorem widens_iff : r.Widens m s t ↔ ReflTransGen (r.WidensStep m) s t :=
  ⟨reflTransGen_of_widens, widens_of_reflTransGen⟩

lemma Widens.trans (h : r.Widens m s t) (h' : r.Widens m t u) : r.Widens m s u :=
  widens_of_reflTransGen ((reflTransGen_of_widens h).trans (reflTransGen_of_widens h'))

/-- The conditions of the test for assignability. -/
inductive Tested (r : Registry) (m : Memory) (s t : Handle) : Prop
  | same (h : s = t)
  | primitive (h : r.widensTo s t = true)
  | subclass (h : TransGen (r.SuperLink m) s t)
  | implements (h : r.Implements m s t)
  | kind (h : r.widensByKind s t = true)
  | components {a b : Handle} (hs : r.component? s = some a) (ht : r.component? t = some b)
      (hb : r.isPrimitive b = false) (h : r.Widens m a b)

/-! ## Kinds and descriptors -/

lemma isPrimitive_eq_false_iff : r.isPrimitive t = false ↔ r.category t ≠ .primitive := by
  simp [isPrimitive]

lemma category_of_component {c : Handle} (h : r.component? t = some c) : r.category t = .array := by
  unfold component? at h
  split at h
  next component root hs => exact category_of_array hs
  next => cases h

lemma category_void (hr : r.Sound) : r.category Handle.void = .primitive :=
  category_of_primitive (hr.shape_ofPrimitive .void)

/-- A type that arrays widen to is a class or an interface. -/
lemma category_of_arraySupertype (hr : r.Sound) (h : r.descriptor t ∈ arraySupertypes) :
    r.category t = .class_ ∨ r.category t = .interface := by
  have hclass : ∀ d ∈ arraySupertypes, Descriptor.IsClass d := by decide
  obtain ⟨origin, hs⟩ := hr.exists_declared (hclass _ h)
  cases hkind : origin.declaration.isInterface with
  | true => exact Or.inr (by simp [category, hs, hkind])
  | false => exact Or.inl (by simp [category, hs, hkind])

lemma issued_of_arraySupertype (hr : r.Sound) (h : r.descriptor t ∈ arraySupertypes) :
    r.Issued t := by
  rcases category_of_arraySupertype hr h with hkind | hkind <;>
    exact issued_of_category (by simp [hkind])

/-! ## The steps from a type of each kind -/

namespace Lawful

lemma step_of_primitive (h : r.Lawful m) {p : Primitive} (hs : r.shape t = .primitive p)
    (hstep : r.WidensStep m t u) :
    (∃ q, r.shape u = .primitive q ∧ p.WidensOnce q) ∨
      t = Handle.void ∧ r.isPrimitive u = false := by
  have halone := alone_of_primitive h.memory hs
  have hkind := category_of_primitive hs
  cases hstep with
  | primitive hs' hu hpq =>
    rw [hs] at hs'
    cases hs'
    exact Or.inl ⟨_, hu, hpq⟩
  | superclass hl => exact absurd hl halone.not_superLink
  | interface hl => exact absurd hl halone.not_interfaceLink
  | null hu => exact Or.inr ⟨rfl, hu⟩
  | object ht => simp [isInterface, hkind] at ht
  | array ht => simp [isArray, hkind] at ht
  | components ht => simp [category_of_component ht] at hkind

lemma step_of_class (h : r.Lawful m) (hkind : r.category t = .class_)
    (hstep : r.WidensStep m t u) : r.Link m t u := by
  cases hstep with
  | primitive ht => simp [category_of_primitive ht] at hkind
  | superclass hl => exact Or.inl hl
  | interface hl => exact Or.inr hl
  | null hu => simp [category_void h.registry] at hkind
  | object ht => simp [isInterface, hkind] at ht
  | array ht => simp [isArray, hkind] at ht
  | components ht => simp [category_of_component ht] at hkind

lemma step_of_interface (h : r.Lawful m) (hkind : r.category t = .interface)
    (hstep : r.WidensStep m t u) :
    r.InterfaceLink m t u ∨ r.descriptor u = Descriptor.object := by
  cases hstep with
  | primitive ht => simp [category_of_primitive ht] at hkind
  | superclass hl => exact absurd hl (h.not_superLink_of_interface hkind)
  | interface hl => exact Or.inl hl
  | null hu => simp [category_void h.registry] at hkind
  | object _ hu => exact Or.inr hu
  | array ht => simp [isArray, hkind] at ht
  | components ht => simp [category_of_component ht] at hkind

lemma step_of_array (h : r.Lawful m) (hkind : r.category t = .array)
    (hstep : r.WidensStep m t u) :
    r.descriptor u ∈ arraySupertypes ∨ ∃ a b, r.component? t = some a ∧
      r.component? u = some b ∧ r.isPrimitive b = false ∧ r.Widens m a b := by
  obtain ⟨c, root, hs⟩ := array_of_category hkind
  obtain ⟨hsuper, hinterfaces⟩ := superclass_of_array h.memory hs
  cases hstep with
  | primitive ht => simp [category_of_primitive ht] at hkind
  | superclass hl =>
    rw [SuperLink, hsuper] at hl
    cases hl
    exact Or.inl (by simp [arraySupertypes, h.root hs])
  | interface hl =>
    obtain ⟨links, hlinks, hu⟩ := hl
    rw [hinterfaces] at hlinks
    cases hlinks
    cases hu
  | null hu => simp [category_void h.registry] at hkind
  | object ht => simp [isInterface, hkind] at ht
  | array _ hu => exact Or.inl hu
  | components ht hu hb hab => exact Or.inr ⟨_, _, ht, hu, hb, hab⟩

/-- From the root class no step leads on. -/
lemma not_step_of_object (h : r.Lawful m) (ht : r.descriptor t = Descriptor.object) :
    ¬ r.WidensStep m t u := by
  intro hstep
  have hissued := issued_of_arraySupertype h.registry
    (show r.descriptor t ∈ arraySupertypes by simp [arraySupertypes, ht])
  obtain ⟨hkind, halone⟩ := h.object hissued ht
  exact halone.not_link (h.step_of_class hkind hstep)

/-- From a type that all arrays widen to, steps lead at most to the root class. -/
lemma object_of_step_of_arraySupertype (h : r.Lawful m) (ht : r.descriptor t ∈ arraySupertypes)
    (hstep : r.WidensStep m t u) : r.descriptor u = Descriptor.object := by
  by_cases hobject : r.descriptor t = Descriptor.object
  · exact absurd hstep (h.not_step_of_object hobject)
  · have halone : r.Alone m t := h.alone (issued_of_arraySupertype h.registry ht)
      (by simpa [arraySupertypes, hobject] using ht)
    rcases category_of_arraySupertype h.registry ht with hkind | hkind
    · exact absurd (h.step_of_class hkind hstep) halone.not_link
    · exact (h.step_of_interface hkind hstep).resolve_left halone.not_interfaceLink

/-- References widen to references only. -/
lemma reference_of_step (h : r.Lawful m) (ht : r.isPrimitive t = false)
    (hstep : r.WidensStep m t u) : r.isPrimitive u = false := by
  have hmark : r.descriptor u ∈ arraySupertypes → r.isPrimitive u = false := by
    intro hu
    rcases category_of_arraySupertype h.registry hu with hkind | hkind <;>
      simp [isPrimitive, hkind]
  have hlink : r.Link m t u → r.isPrimitive u = false := by
    intro hl
    rcases h.category_of_link hl with hkind | hkind <;> simp [isPrimitive, hkind]
  cases hkind : r.category t with
  | primitive => simp [isPrimitive, hkind] at ht
  | class_ => exact hlink (h.step_of_class hkind hstep)
  | interface =>
    rcases h.step_of_interface hkind hstep with hl | hu
    · exact hlink (Or.inr hl)
    · exact hmark (by simp [arraySupertypes, hu])
  | array =>
    rcases h.step_of_array hkind hstep with hu | ⟨a, b, -, hu, -⟩
    · exact hmark hu
    · simp [isPrimitive, category_of_component hu]

end Lawful

/-! ## The test is closed under steps -/

lemma widensTo_eq_true_iff : r.widensTo s t = true ↔
    ∃ p q, r.shape s = .primitive p ∧ r.shape t = .primitive q ∧ p.widensTo q = true := by
  unfold widensTo
  split
  next p q hs ht => simp [hs, ht]
  next hnone =>
    refine ⟨fun h => Bool.noConfusion h, ?_⟩
    rintro ⟨p, q, hs, ht, -⟩
    exact absurd ht (hnone p q hs)

lemma widensByKind_eq_true_iff : r.widensByKind s t = true ↔
    s = Handle.void ∧ r.isPrimitive t = false ∨
    r.isInterface s = true ∧ r.descriptor t = Descriptor.object ∨
    r.isArray s = true ∧ r.descriptor t ∈ arraySupertypes := by
  simp [widensByKind, arraySupertypes, or_assoc]

namespace Tested

lemma of_step (hstep : r.WidensStep m s t) : r.Tested m s t := by
  cases hstep with
  | primitive hs ht h =>
    exact .primitive (widensTo_eq_true_iff.2 ⟨_, _, hs, ht, Primitive.widensTo_of_once h⟩)
  | superclass h => exact .subclass (TransGen.single h)
  | interface h => exact .implements ⟨s, ReflTransGen.refl, h⟩
  | null ht => exact .kind (widensByKind_eq_true_iff.2 (Or.inl ⟨rfl, ht⟩))
  | object hs ht => exact .kind (widensByKind_eq_true_iff.2 (Or.inr (Or.inl ⟨hs, ht⟩)))
  | array hs ht => exact .kind (widensByKind_eq_true_iff.2 (Or.inr (Or.inr ⟨hs, ht⟩)))
  | components hs ht hb h => exact .components hs ht hb h

/-- Every class is the root class or a subclass of it. -/
lemma object_of_class (h : r.Lawful m) (hs : r.category s = .class_)
    (hu : r.descriptor u = Descriptor.object) : r.Tested m s u := by
  have hissued : r.Issued u := issued_of_arraySupertype h.registry (by simp [arraySupertypes, hu])
  obtain ⟨o, hso, ho, hobject⟩ := (h.rooted (issued_of_category (by simp [hs])) hs).exists_object
  obtain rfl : o = u := h.registry.eq_of_descriptor_eq ho hissued (hobject.trans hu.symm)
  rcases reflTransGen_iff_eq_or_transGen.1 hso with heq | habove
  · exact .same heq.symm
  · exact .subclass habove

/-- What implements an interface widens to the root class. -/
lemma object_of_implements (h : r.Lawful m) (himpl : r.Implements m s t)
    (hu : r.descriptor u = Descriptor.object) : r.Tested m s u := by
  have hkind : r.isInterface s = true ∨ r.isArray s = true → r.Tested m s u := by
    rintro (hs | hs)
    · exact .kind (widensByKind_eq_true_iff.2 (Or.inr (Or.inl ⟨hs, hu⟩)))
    · exact .kind (widensByKind_eq_true_iff.2
        (Or.inr (Or.inr ⟨hs, by simp [arraySupertypes, hu]⟩)))
  cases hs : r.category s with
  | primitive =>
    obtain ⟨p, hp⟩ := primitive_of_category hs
    exact absurd himpl (alone_of_primitive h.memory hp).not_implements
  | class_ => exact object_of_class h hs hu
  | interface => exact hkind (Or.inl (by simp [isInterface, hs]))
  | array => exact hkind (Or.inr (by simp [isArray, hs]))

/-- A test that succeeds still does after one more step. -/
lemma step (h : r.Lawful m) (htest : r.Tested m s t) (hstep : r.WidensStep m t u) :
    r.Tested m s u := by
  cases htest with
  | same heq => exact of_step (heq ▸ hstep)
  | primitive hst =>
    obtain ⟨p, q, hs, ht, hpq⟩ := widensTo_eq_true_iff.1 hst
    rcases h.step_of_primitive ht hstep with ⟨q', hu, hqq'⟩ | ⟨rfl, -⟩
    · exact .primitive (widensTo_eq_true_iff.2 ⟨p, q', hs, hu, Primitive.widensTo_tail hpq hqq'⟩)
    · -- nothing widens to the type of the null literal
      have hvoid : r.shape Handle.void = .primitive .void := h.registry.shape_ofPrimitive .void
      obtain rfl : Primitive.void = q := by simpa [hvoid] using ht
      simp [Primitive.widensTo_void] at hpq
  | subclass hst =>
    obtain ⟨s', -, hlast⟩ := TransGen.tail'_iff.1 hst
    rcases h.step_of_class (h.class_of_superLink hlast) hstep with hl | hl
    · exact .subclass (hst.tail hl)
    · exact .implements ⟨t, ReflTransGen.mono (fun _ _ => Or.inl) _ _ hst.to_reflTransGen, hl⟩
  | implements hst =>
    obtain ⟨v, hsv, hlast⟩ := hst
    rcases h.step_of_interface (h.interface_of_interfaceLink hlast) hstep with hl | hu
    · exact .implements ⟨t, hsv.tail (Or.inr hlast), hl⟩
    · exact object_of_implements h ⟨v, hsv, hlast⟩ hu
  | kind hst =>
    rcases widensByKind_eq_true_iff.1 hst with ⟨hs, ht⟩ | ⟨hs, ht⟩ | ⟨hs, ht⟩
    · exact .kind (widensByKind_eq_true_iff.2 (Or.inl ⟨hs, h.reference_of_step ht hstep⟩))
    · exact absurd hstep (h.not_step_of_object ht)
    · have hu := h.object_of_step_of_arraySupertype ht hstep
      exact .kind (widensByKind_eq_true_iff.2
        (Or.inr (Or.inr ⟨hs, by simp [arraySupertypes, hu]⟩)))
  | components hs ht hb hab =>
    rcases h.step_of_array (category_of_component ht) hstep with hu | ⟨b, c, ht', hu, hc, hbc⟩
    · have hs : r.isArray s = true := by simp [isArray, category_of_component hs]
      exact .kind (widensByKind_eq_true_iff.2 (Or.inr (Or.inr ⟨hs, hu⟩)))
    · obtain rfl := Option.some.inj (ht.symm.trans ht')
      exact .components hs hu hc (hab.trans hbc)

/-- Primitive types widen through the primitive types between them. -/
lemma widens_of_primitives (h : r.Lawful m) {p q : Primitive} (hs : r.shape s = .primitive p)
    (hpq : TransGen Primitive.WidensOnce p q) :
    ∀ {t}, r.shape t = .primitive q → r.Widens m s t := by
  induction hpq with
  | single hpq => exact fun ht => .tail (.refl s) (.primitive hs ht hpq)
  | @tail q q' _ hqq' ih =>
    have hq := h.registry.shape_ofPrimitive q
    intro t ht
    exact .tail (ih hq) (.primitive hq ht hqq')

lemma widens (h : r.Lawful m) (htest : r.Tested m s t) : r.Widens m s t := by
  have hlinks : ∀ {u v}, ReflTransGen (r.Link m) u v → ReflTransGen (r.WidensStep m) u v :=
    fun huv => ReflTransGen.mono (fun _ _ hl => hl.elim .superclass .interface) _ _ huv
  cases htest with
  | same heq => exact heq ▸ .refl s
  | primitive hst =>
    obtain ⟨p, q, hs, ht, hpq⟩ := widensTo_eq_true_iff.1 hst
    exact widens_of_primitives h hs (Primitive.widensTo_iff.1 hpq) ht
  | subclass hst =>
    exact widens_iff.2 (hlinks (ReflTransGen.mono (fun _ _ => Or.inl) _ _ hst.to_reflTransGen))
  | implements hst =>
    obtain ⟨v, hsv, hlast⟩ := hst
    exact widens_iff.2 (hlinks (hsv.tail (Or.inr hlast)))
  | kind hst =>
    rcases widensByKind_eq_true_iff.1 hst with ⟨rfl, ht⟩ | ⟨hs, ht⟩ | ⟨hs, ht⟩
    · exact .tail (.refl _) (.null ht)
    · exact .tail (.refl _) (.object hs ht)
    · exact .tail (.refl _) (.array hs ht)
  | components hs ht hb hab => exact .tail (.refl _) (.components hs ht hb hab)

end Tested

namespace Lawful

/-- The test decides widening. -/
theorem tested_iff_widens (h : r.Lawful m) : r.Tested m s t ↔ r.Widens m s t := by
  refine ⟨Tested.widens h, fun hst => ?_⟩
  rw [widens_iff] at hst
  induction hst with
  | refl => exact .same rfl
  | tail _ hstep ih => exact ih.step h hstep

lemma reference_of_widens (h : r.Lawful m) (hs : r.isPrimitive s = false)
    (hst : r.Widens m s t) : r.isPrimitive t = false := by
  rw [widens_iff] at hst
  induction hst with
  | refl => exact hs
  | tail _ hstep ih => exact h.reference_of_step ih hstep

/-! ## Widening is antisymmetric -/

lemma eq_of_widens_of_object (h : r.Lawful m) (hs : r.descriptor s = Descriptor.object)
    (hst : r.Widens m s t) : s = t := by
  rw [widens_iff] at hst
  rcases ReflTransGen.cases_head hst with heq | ⟨u, hstep, -⟩
  · exact heq
  · exact absurd hstep (h.not_step_of_object hs)

/-- What a class or an interface widens to. -/
lemma links_of_widens (h : r.Lawful m) (hs : r.category s = .class_ ∨ r.category s = .interface)
    (hst : r.Widens m s t) :
    s = t ∨ TransGen (r.Link m) s t ∨ r.descriptor t = Descriptor.object := by
  have hkind : r.category s ≠ .primitive ∧ r.category s ≠ .array := by
    rcases hs with hs | hs <;> simp [hs]
  cases h.tested_iff_widens.2 hst with
  | same heq => exact Or.inl heq
  | primitive hwidens =>
    obtain ⟨p, q, hp, -⟩ := widensTo_eq_true_iff.1 hwidens
    exact absurd (category_of_primitive hp) hkind.1
  | subclass habove => exact Or.inr (Or.inl (TransGen.mono (fun _ _ => Or.inl) _ _ habove))
  | implements himpl =>
    obtain ⟨v, hsv, hlast⟩ := himpl
    exact Or.inr (Or.inl (TransGen.tail' hsv (Or.inr hlast)))
  | kind hwidens =>
    rcases widensByKind_eq_true_iff.1 hwidens with ⟨rfl, -⟩ | ⟨-, ht⟩ | ⟨harray, -⟩
    · exact absurd (category_void h.registry) hkind.1
    · exact Or.inr (Or.inr ht)
    · exact absurd (by simpa [isArray] using harray) hkind.2
  | components hc => exact absurd (category_of_component hc) hkind.2

/-- What an array widens to. -/
lemma components_of_widens (h : r.Lawful m) (hs : r.category s = .array)
    (hst : r.Widens m s t) :
    s = t ∨ (r.category t = .class_ ∨ r.category t = .interface) ∨
      ∃ a b, r.component? s = some a ∧ r.component? t = some b ∧ r.Widens m a b := by
  cases h.tested_iff_widens.2 hst with
  | same heq => exact Or.inl heq
  | primitive hwidens =>
    obtain ⟨p, q, hp, -⟩ := widensTo_eq_true_iff.1 hwidens
    simp [category_of_primitive hp] at hs
  | subclass habove =>
    obtain ⟨u, -, hlast⟩ := TransGen.tail'_iff.1 habove
    exact Or.inr (Or.inl (h.category_of_link (Or.inl hlast)))
  | implements himpl =>
    obtain ⟨u, -, hlast⟩ := himpl
    exact Or.inr (Or.inl (h.category_of_link (Or.inr hlast)))
  | kind hwidens =>
    rcases widensByKind_eq_true_iff.1 hwidens with ⟨rfl, -⟩ | ⟨hinterface, -⟩ | ⟨-, ht⟩
    · simp [category_void h.registry] at hs
    · simp [isInterface, hs] at hinterface
    · exact Or.inr (Or.inl (category_of_arraySupertype h.registry ht))
  | components ha hb _ hab => exact Or.inr (Or.inr ⟨_, _, ha, hb, hab⟩)

/-- Classes and interfaces widen to classes and interfaces. -/
lemma category_of_widens (h : r.Lawful m) (hs : r.category s = .class_ ∨ r.category s = .interface)
    (hst : r.Widens m s t) : r.category t = .class_ ∨ r.category t = .interface := by
  rcases h.links_of_widens hs hst with rfl | habove | ht
  · exact hs
  · obtain ⟨u, -, hlast⟩ := TransGen.tail'_iff.1 habove
    exact h.category_of_link hlast
  · exact category_of_arraySupertype h.registry (by simp [arraySupertypes, ht])

lemma antisymm_of_declared (h : r.Lawful m)
    (hs : r.category s = .class_ ∨ r.category s = .interface) (hst : r.Widens m s t)
    (hts : r.Widens m t s) : s = t := by
  rcases h.links_of_widens hs hst with heq | habove | ht
  · exact heq
  · rcases h.links_of_widens (h.category_of_widens hs hst) hts with heq | hback | hs
    · exact heq.symm
    · exact absurd (habove.trans hback) (h.acyclic_link s)
    · exact h.eq_of_widens_of_object hs hst
  · exact (h.eq_of_widens_of_object ht hts).symm

lemma antisymm_of_primitive (h : r.Lawful m) (hs : r.category s = .primitive)
    (hst : r.Widens m s t) (hts : r.Widens m t s) : s = t := by
  have ht : r.category t = .primitive := by
    by_contra hn
    have hback := h.reference_of_widens (isPrimitive_eq_false_iff.2 hn) hts
    exact isPrimitive_eq_false_iff.1 hback hs
  -- between primitive types the table of widenings decides
  have htable : ∀ {u v}, r.category u = .primitive → r.category v = .primitive →
      r.Widens m u v → u = v ∨ r.widensTo u v = true := by
    intro u v hu hv huv
    obtain ⟨p, hp⟩ := primitive_of_category hu
    have halone := alone_of_primitive h.memory hp
    cases h.tested_iff_widens.2 huv with
    | same heq => exact Or.inl heq
    | primitive hwidens => exact Or.inr hwidens
    | subclass habove =>
      obtain ⟨w, hfirst, -⟩ := TransGen.head'_iff.1 habove
      exact absurd hfirst halone.not_superLink
    | implements himpl => exact absurd himpl halone.not_implements
    | kind hwidens =>
      rcases widensByKind_eq_true_iff.1 hwidens with ⟨-, hv'⟩ | ⟨hu', -⟩ | ⟨hu', -⟩
      · exact absurd hv (isPrimitive_eq_false_iff.1 hv')
      · simp [isInterface, hu] at hu'
      · simp [isArray, hu] at hu'
    | components hc => simp [category_of_component hc] at hu
  rcases htable hs ht hst with heq | hforth
  · exact heq
  rcases htable ht hs hts with heq | hback
  · exact heq.symm
  obtain ⟨p, q, hp, hq, hpq⟩ := widensTo_eq_true_iff.1 hforth
  obtain ⟨q', p', hq', hp', hqp⟩ := widensTo_eq_true_iff.1 hback
  rw [hp] at hp'
  rw [hq] at hq'
  cases hp'
  cases hq'
  simp [Primitive.not_widensTo_of_widensTo hpq] at hqp

/-- Types that widen to each other are the same. -/
theorem widens_antisymm (h : r.Lawful m) {s t : Handle} (hst : r.Widens m s t)
    (hts : r.Widens m t s) : s = t := by
  -- on the nesting of arrays: a component is older than its array
  induction hn : s.index using Nat.strong_induction_on generalizing s t with
  | _ n ih =>
    cases hs : r.category s with
    | primitive => exact h.antisymm_of_primitive hs hst hts
    | class_ => exact h.antisymm_of_declared (Or.inl hs) hst hts
    | interface => exact h.antisymm_of_declared (Or.inr hs) hst hts
    | array =>
      rcases h.components_of_widens hs hst with heq | ht | ⟨a, b, ha, hb, hab⟩
      · exact heq
      · rcases h.category_of_widens ht hts with hs' | hs' <;> simp [hs] at hs'
      · rcases h.components_of_widens (category_of_component hb) hts with
          heq | hs' | ⟨b', a', hb', ha', hba⟩
        · exact heq.symm
        · rcases hs' with hs' | hs' <;> simp [hs] at hs'
        · obtain rfl := Option.some.inj (ha.symm.trans ha')
          obtain rfl := Option.some.inj (hb.symm.trans hb')
          obtain ⟨root, hshape⟩ := h.registry.component?_eq_some_iff.1 ha
          obtain rfl := ih a.index (hn ▸ (h.registry.array_issued hshape).1) hab hba rfl
          obtain ⟨root', hshape'⟩ := h.registry.component?_eq_some_iff.1 hb
          exact h.registry.eq_of_component_eq hshape hshape'

end Lawful

end Registry

end TypeGraph
