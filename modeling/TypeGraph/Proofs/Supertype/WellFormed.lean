import Mathlib.Logic.Relation
import TypeGraph.Proofs.Run
import TypeGraph.Proofs.Supertype.Walk

/-!
# Well-formed graphs

A graph is well-formed when its types are linked as the language has it: classes extend classes up
to the root class, interfaces extend interfaces, and nothing reports an error. The links are the
effective ones, which are what the graph answers. In a well-formed graph no question about
supertypes fails, and the answers do not depend on what was asked before: a question accepts links,
but it never changes an effective one.
-/

namespace TypeGraph

open Relation

namespace Registry

variable {r : Registry} {m m' : Memory} {s t u : Handle}

/-- The chain of superclasses of a class leads through classes to the root class. -/
inductive Rooted (r : Registry) (m : Memory) : Handle → Prop
  | object {t : Handle} (hkind : r.category t = .class_)
      (hdescriptor : r.descriptor t = Descriptor.object) : Rooted r m t
  | step {t s : Handle} (hkind : r.category t = .class_) (hlink : r.SuperLink m t s)
      (h : Rooted r m s) : Rooted r m t

/-- The type extends nothing. -/
def Alone (r : Registry) (m : Memory) (t : Handle) : Prop :=
  r.effectiveSuperclass m t = .ok none ∧ r.effectiveInterfaces m t = .ok []

/-- The descriptors of the types that every array widens to. -/
def arraySupertypes : List String :=
  [Descriptor.object, Descriptor.cloneable, Descriptor.serializable]

/-- The types are linked as the language has it. -/
structure WellFormed (r : Registry) (m : Memory) : Prop where
  clean : ∀ {t : Handle}, r.Issued t → ∀ e, ¬ r.Fails m t e
  rooted : ∀ {t : Handle}, r.Issued t → r.category t = .class_ → r.Rooted m t
  object : ∀ {t : Handle}, r.Issued t → r.descriptor t = Descriptor.object →
    r.category t = .class_ ∧ r.Alone m t
  interface_superclass : ∀ {t : Handle}, r.Issued t → r.category t = .interface →
    r.effectiveSuperclass m t = .ok none
  interface_of_link : ∀ {t i : Handle}, r.Issued t → r.InterfaceLink m t i →
    r.category i = .interface
  acyclic : Acyclic (r.InterfaceLink m)
  /-- The two interfaces of arrays extend nothing. -/
  alone : ∀ {t : Handle}, r.Issued t →
    r.descriptor t = Descriptor.cloneable ∨ r.descriptor t = Descriptor.serializable → r.Alone m t
  root : ∀ {t c root : Handle}, r.shape t = .array c root → r.descriptor root = Descriptor.object

/-! ## Kinds -/

lemma category_of_primitive {p : Primitive} (h : r.shape t = .primitive p) :
    r.category t = .primitive := by
  simp [category, h]

lemma category_of_array {c root : Handle} (h : r.shape t = .array c root) :
    r.category t = .array := by
  simp [category, h]

lemma primitive_of_category (h : r.category t = .primitive) : ∃ p, r.shape t = .primitive p := by
  unfold category at h
  split at h
  next p hs => exact ⟨p, hs⟩
  next => split at h <;> cases h
  next => cases h

lemma array_of_category (h : r.category t = .array) : ∃ c root, r.shape t = .array c root := by
  unfold category at h
  split at h
  next => cases h
  next => split at h <;> cases h
  next c root hs => exact ⟨c, root, hs⟩

lemma issued_of_category (h : r.category t ≠ .primitive) : r.Issued t := by
  by_contra hn
  exact h (category_of_primitive (shape_of_not_issued hn))

lemma Rooted.category (h : r.Rooted m t) : r.category t = .class_ := by
  cases h with
  | object hkind => exact hkind
  | step hkind => exact hkind

lemma Rooted.exists_object (h : r.Rooted m t) :
    ∃ o, ReflTransGen (r.SuperLink m) t o ∧ r.Issued o ∧ r.descriptor o = Descriptor.object := by
  induction h with
  | @object t hkind hdescriptor =>
    exact ⟨t, ReflTransGen.refl, issued_of_category (by simp [hkind]), hdescriptor⟩
  | step _ hlink _ ih =>
    obtain ⟨o, hso, ho⟩ := ih
    exact ⟨o, ReflTransGen.head hlink hso, ho⟩

/-! ## The links of each kind -/

section Links

variable (hm : m.Sound r)
include hm

lemma effectiveSuperclass_of_not_declared (h : ∀ origin, r.shape t ≠ .declared origin) :
    r.effectiveSuperclass m t = r.declaredSuperclass t := by
  cases hslot : (m.about t).superclass with
  | none => exact effectiveSuperclass_of_none hslot
  | some link => rw [effectiveSuperclass_of_some hslot, hm.superclass_fixed h hslot]

lemma effectiveInterfaces_of_not_declared (h : ∀ origin, r.shape t ≠ .declared origin) :
    r.effectiveInterfaces m t = r.declaredInterfaces t := by
  cases hslot : (m.about t).interfaces with
  | none => exact effectiveInterfaces_of_none hslot
  | some links => rw [effectiveInterfaces_of_some hslot, hm.interfaces_fixed h hslot]

/-- Primitive types, and handles that were never issued, extend nothing. -/
lemma alone_of_primitive {p : Primitive} (h : r.shape t = .primitive p) : r.Alone m t := by
  have hshape : ∀ origin, r.shape t ≠ .declared origin := by simp [h]
  constructor
  · rw [effectiveSuperclass_of_not_declared hm hshape, declaredSuperclass, h]
  · rw [effectiveInterfaces_of_not_declared hm hshape, declaredInterfaces, declaration?, h]

lemma superclass_of_array {c root : Handle} (h : r.shape t = .array c root) :
    r.effectiveSuperclass m t = .ok (some root) ∧ r.effectiveInterfaces m t = .ok [] := by
  have hshape : ∀ origin, r.shape t ≠ .declared origin := by simp [h]
  constructor
  · rw [effectiveSuperclass_of_not_declared hm hshape, declaredSuperclass, h]
  · rw [effectiveInterfaces_of_not_declared hm hshape, declaredInterfaces, declaration?, h]

omit hm

lemma Alone.not_superLink (h : r.Alone m t) : ¬ r.SuperLink m t s := by
  intro hl
  unfold SuperLink at hl
  rw [h.1] at hl
  cases hl

lemma Alone.not_interfaceLink (h : r.Alone m t) : ¬ r.InterfaceLink m t s := by
  rintro ⟨links, hlinks, hs⟩
  rw [h.2] at hlinks
  cases hlinks
  cases hs

lemma Alone.not_link (h : r.Alone m t) : ¬ r.Link m t s :=
  fun hl => hl.elim h.not_superLink h.not_interfaceLink

lemma Alone.not_implements (h : r.Alone m t) : ¬ r.Implements m t s := by
  rw [implements_iff]
  rintro (hl | ⟨u, hl, -⟩)
  · exact h.not_interfaceLink hl
  · exact h.not_link hl

end Links

/-- A well-formed graph after some run. -/
structure Lawful (r : Registry) (m : Memory) : Prop extends WellFormed r m where
  registry : r.Sound
  memory : m.Sound r

namespace Lawful

/-- Links start at issued types only. -/
lemma issued_of_link_from (h : r.Lawful m) (hl : r.Link m t s) : r.Issued t := by
  by_contra hn
  exact (alone_of_primitive h.memory (shape_of_not_issued hn)).not_link hl

lemma issued_of_link (h : r.Lawful m) (hl : r.Link m t s) : r.Issued s :=
  h.memory.issued_of_effectiveLink h.registry hl

/-- An array extends the root class. -/
lemma root_of_array (h : r.Lawful m) {c root : Handle} (hs : r.shape t = .array c root) :
    r.category root = .class_ ∧ r.Alone m root :=
  h.object (h.registry.array_issued hs).2 (h.root hs)

lemma not_superLink_of_interface (h : r.Lawful m) (hkind : r.category t = .interface) :
    ¬ r.SuperLink m t s := by
  intro hl
  have hnone := h.interface_superclass (issued_of_category (by simp [hkind])) hkind
  rw [SuperLink, hnone] at hl
  cases hl

/-- Superclasses are classes. -/
lemma class_of_superLink (h : r.Lawful m) (hl : r.SuperLink m t s) : r.category s = .class_ := by
  cases hkind : r.category t with
  | primitive =>
    obtain ⟨p, hp⟩ := primitive_of_category hkind
    exact absurd hl (alone_of_primitive h.memory hp).not_superLink
  | class_ =>
    have ht : r.Issued t := issued_of_category (by simp [hkind])
    cases h.rooted ht hkind with
    | object _ hdescriptor => exact absurd hl (h.object ht hdescriptor).2.not_superLink
    | step _ hlink hrooted => exact hl.unique hlink ▸ hrooted.category
  | interface => exact absurd hl (h.not_superLink_of_interface hkind)
  | array =>
    obtain ⟨c, root, hs⟩ := array_of_category hkind
    have hroot : r.SuperLink m t root := (superclass_of_array h.memory hs).1
    exact hl.unique hroot ▸ (h.root_of_array hs).1

lemma interface_of_interfaceLink (h : r.Lawful m) (hl : r.InterfaceLink m t s) :
    r.category s = .interface :=
  h.interface_of_link (h.issued_of_link_from (Or.inr hl)) hl

/-- Every link leads to a class or an interface. -/
lemma category_of_link (h : r.Lawful m) (hl : r.Link m t s) :
    r.category s = .class_ ∨ r.category s = .interface :=
  hl.imp h.class_of_superLink h.interface_of_interfaceLink

/-- From an interface only interfaces are reached, through interface links. -/
lemma interfaceLinks_of_links (h : r.Lawful m) (hkind : r.category t = .interface)
    (hl : TransGen (r.Link m) t s) :
    r.category s = .interface ∧ TransGen (r.InterfaceLink m) t s := by
  have hstep : ∀ {a b}, r.category a = .interface → r.Link m a b → r.InterfaceLink m a b :=
    fun ha hab => hab.resolve_left (h.not_superLink_of_interface ha)
  induction hl with
  | single hts =>
    have hlink := hstep hkind hts
    exact ⟨h.interface_of_interfaceLink hlink, TransGen.single hlink⟩
  | tail _ hbc ih =>
    have hlink := hstep ih.1 hbc
    exact ⟨h.interface_of_interfaceLink hlink, ih.2.tail hlink⟩

/-- To a class lead superclass links only. -/
lemma superLinks_of_links (h : r.Lawful m) (hkind : r.category s = .class_)
    (hl : TransGen (r.Link m) t s) : TransGen (r.SuperLink m) t s := by
  have hlast : ∀ {a b}, r.category b = .class_ → r.Link m a b → r.SuperLink m a b := by
    intro a b hb hab
    rcases hab with hab | hab
    · exact hab
    · have hinterface := h.interface_of_interfaceLink hab
      rw [hb] at hinterface
      cases hinterface
  induction hl with
  | single hts => exact TransGen.single (hlast hkind hts)
  | @tail b c hab hbc ih =>
    have hlink := hlast hkind hbc
    -- a type with a superclass that is itself reached by a link is a class
    have hb : r.category b = .class_ := by
      obtain ⟨a, -, hlb⟩ := TransGen.tail'_iff.1 hab
      rcases h.category_of_link hlb with hb | hb
      · exact hb
      · exact absurd hlink (h.not_superLink_of_interface hb)
    exact (ih hb).tail hlink

lemma not_cycle_of_rooted (h : r.Lawful m) (hrooted : r.Rooted m t) :
    ¬ TransGen (r.SuperLink m) t t := by
  induction hrooted with
  | @object t hkind hdescriptor =>
    intro hcycle
    obtain ⟨s, hs, -⟩ := TransGen.head'_iff.1 hcycle
    have ht : r.Issued t := issued_of_category (by simp [hkind])
    exact (h.object ht hdescriptor).2.not_superLink hs
  | @step t s hkind hlink _ ih =>
    intro hcycle
    obtain ⟨s', hs', hback⟩ := TransGen.head'_iff.1 hcycle
    obtain rfl := hlink.unique hs'
    exact ih (TransGen.tail' hback hlink)

/-- The links of a well-formed graph form no circle. -/
theorem acyclic_link (h : r.Lawful m) : Acyclic (r.Link m) := by
  intro t hcycle
  -- the type is reached by a link, so it is a class or an interface
  have hkind : r.category t = .class_ ∨ r.category t = .interface := by
    obtain ⟨s, -, hst⟩ := TransGen.tail'_iff.1 hcycle
    exact h.category_of_link hst
  rcases hkind with hkind | hkind
  · have ht : r.Issued t := issued_of_category (by simp [hkind])
    exact h.not_cycle_of_rooted (h.rooted ht hkind) (h.superLinks_of_links hkind hcycle)
  · exact h.acyclic t (h.interfaceLinks_of_links hkind hcycle).2

lemma not_fails (h : r.Lawful m) (t : Handle) (e : Error) : ¬ r.Fails m t e := by
  by_cases ht : r.Issued t
  · exact h.clean ht e
  · obtain ⟨hsuper, hinterfaces⟩ := alone_of_primitive h.memory (shape_of_not_issued ht)
    rintro (he | he)
    · rw [hsuper] at he
      cases he
    · rw [hinterfaces] at he
      cases he

end Lawful

/-! ## A check for well-formed graphs

Chains and circles are not looked for: it is enough to know a rank of the types that all links
lower. -/

/-- The type is linked as in a well-formed graph, and its links lower the rank. -/
def orderly (r : Registry) (m : Memory) (rank : Handle → Nat) (t : Handle) : Bool :=
  match r.effectiveSuperclass m t, r.effectiveInterfaces m t with
  | .ok superclass, .ok interfaces =>
    (r.category t ≠ .class_ || r.descriptor t = Descriptor.object ||
      superclass.any fun s => r.category s = .class_ && rank s < rank t) &&
    (r.descriptor t ≠ Descriptor.object || r.category t = .class_) &&
    (r.category t ≠ .interface || superclass.isNone) &&
    (r.descriptor t ∉ arraySupertypes || superclass.isNone && interfaces.isEmpty) &&
    (interfaces.all fun i => r.category i = .interface && rank i < rank t) &&
    match r.shape t with
    | .array _ root => r.descriptor root = Descriptor.object
    | _ => true
  | _, _ => false

/-- What the check finds out about a type. -/
structure Orderly (r : Registry) (m : Memory) (rank : Handle → Nat) (t : Handle)
    (superclass : Option Handle) (interfaces : List Handle) : Prop where
  superclass_eq : r.effectiveSuperclass m t = .ok superclass
  interfaces_eq : r.effectiveInterfaces m t = .ok interfaces
  class_above : r.category t = .class_ → r.descriptor t = Descriptor.object ∨
    ∃ s, superclass = some s ∧ r.category s = .class_ ∧ rank s < rank t
  object : r.descriptor t = Descriptor.object → r.category t = .class_
  interface : r.category t = .interface → superclass = none
  alone : r.descriptor t ∈ arraySupertypes → superclass = none ∧ interfaces = []
  lower : ∀ i ∈ interfaces, r.category i = .interface ∧ rank i < rank t
  root : ∀ c root, r.shape t = .array c root → r.descriptor root = Descriptor.object

lemma exists_orderly {rank : Handle → Nat} (h : r.orderly m rank t = true) :
    ∃ superclass interfaces, r.Orderly m rank t superclass interfaces := by
  unfold orderly at h
  split at h
  next superclass interfaces hsuper hinterfaces =>
    simp only [Bool.and_eq_true, Bool.or_eq_true, decide_eq_true_eq, List.all_eq_true,
      Option.any_eq_true_iff_get, Option.isNone_iff_eq_none, List.isEmpty_iff] at h
    obtain ⟨⟨⟨⟨⟨hclass, hobject⟩, hinterface⟩, halone⟩, hlinks⟩, harray⟩ := h
    refine ⟨superclass, interfaces, hsuper, hinterfaces, fun hkind => ?_,
      hobject.neg_resolve_left, hinterface.neg_resolve_left, fun hmem => ?_, hlinks, ?_⟩
    · rcases hclass with (hn | hdescriptor) | hany
      · exact absurd hkind hn
      · exact Or.inl hdescriptor
      · obtain ⟨hsome, hs⟩ := hany
        exact Or.inr ⟨_, (Option.some_get hsome).symm, hs⟩
    · exact halone.resolve_left (not_not_intro hmem)
    · intro c root hs
      simpa [hs] using harray
  next => cases h

namespace Orderly

variable {rank : Handle → Nat} {superclass : Option Handle} {interfaces : List Handle}
  (h : r.Orderly m rank t superclass interfaces)
include h

lemma interfaceLink {i : Handle} (hl : r.InterfaceLink m t i) :
    r.category i = .interface ∧ rank i < rank t :=
  h.lower i ((interfaceLink_iff_mem h.interfaces_eq).1 hl)

lemma alone_of_arraySupertype (hdescriptor : r.descriptor t ∈ arraySupertypes) : r.Alone m t := by
  obtain ⟨rfl, rfl⟩ := h.alone hdescriptor
  exact ⟨h.superclass_eq, h.interfaces_eq⟩

end Orderly

/-- A graph whose types all pass the check is well-formed. -/
theorem wellFormed_of_orderly (hm : m.Sound r) (rank : Handle → Nat)
    (h : ∀ n < r.size, r.orderly m rank ⟨n⟩ = true) : r.WellFormed m := by
  have hspec : ∀ {t}, r.Issued t →
      ∃ superclass interfaces, r.Orderly m rank t superclass interfaces :=
    fun {t} ht => exists_orderly (h t.index ht)
  have hlower : ∀ {t i}, r.InterfaceLink m t i → rank i < rank t := by
    intro t i hl
    by_cases ht : r.Issued t
    · obtain ⟨_, _, ho⟩ := hspec ht
      exact (ho.interfaceLink hl).2
    · exact absurd hl (alone_of_primitive hm (shape_of_not_issued ht)).not_interfaceLink
  refine ⟨fun ht e => ?_, fun {t} ht hkind => ?_, fun ht hdescriptor => ?_, fun ht hkind => ?_,
    fun ht hl => ?_, fun t hcycle => ?_, fun ht hdescriptor => ?_, fun hs => ?_⟩
  · obtain ⟨_, _, ho⟩ := hspec ht
    simp [Fails, ho.superclass_eq, ho.interfaces_eq]
  · -- the rank bounds the length of the chain
    induction hn : rank t using Nat.strongRecOn generalizing t with
    | ind n ih =>
      obtain ⟨superclass, _, ho⟩ := hspec ht
      rcases ho.class_above hkind with hdescriptor | ⟨s, rfl, hs, hrank⟩
      · exact .object hkind hdescriptor
      · exact .step hkind ho.superclass_eq
          (ih (rank s) (hn ▸ hrank) (issued_of_category (by simp [hs])) hs rfl)
  · obtain ⟨_, _, ho⟩ := hspec ht
    exact ⟨ho.object hdescriptor,
      ho.alone_of_arraySupertype (by simp [arraySupertypes, hdescriptor])⟩
  · obtain ⟨_, _, ho⟩ := hspec ht
    rw [ho.superclass_eq, ho.interface hkind]
  · obtain ⟨_, _, ho⟩ := hspec ht
    exact (ho.interfaceLink hl).1
  · have hdown : ∀ {s}, TransGen (r.InterfaceLink m) t s → rank s < rank t := by
      intro s hts
      induction hts with
      | single hl => exact hlower hl
      | tail _ hl ih => exact (hlower hl).trans ih
    exact absurd (hdown hcycle) (Nat.lt_irrefl _)
  · obtain ⟨_, _, ho⟩ := hspec ht
    exact ho.alone_of_arraySupertype (by simp [arraySupertypes, hdescriptor])
  · obtain ⟨_, _, ho⟩ := hspec (issued_of_array hs)
    exact ho.root _ _ hs

/-! ## Questions change no effective link -/

/-- Two memories have the same effective links. -/
structure SameLinks (r : Registry) (m m' : Memory) : Prop where
  superclass : r.effectiveSuperclass m' = r.effectiveSuperclass m
  interfaces : r.effectiveInterfaces m' = r.effectiveInterfaces m

namespace SameLinks

lemma superLink (h : r.SameLinks m m') : r.SuperLink m' = r.SuperLink m := by
  funext s t
  rw [SuperLink, h.superclass, SuperLink]

lemma interfaceLink (h : r.SameLinks m m') : r.InterfaceLink m' = r.InterfaceLink m := by
  funext s t
  rw [InterfaceLink, h.interfaces, InterfaceLink]

/-- Accepting a declared link makes no difference. -/
lemma fill (h : r.SameLinks m m') {m'' : Memory} (hstep : Fill r m' m'') :
    r.SameLinks m m'' := by
  rcases hstep.links with ⟨t, link, -, hdecl, -, hadds⟩ | ⟨t, links, -, hdecl, -, hadds⟩ | hsame
  · refine ⟨h.superclass ▸ funext fun s => ?_, h.interfaces ▸ funext fun s => ?_⟩
    · by_cases hs : s = t
      · subst hs
        rw [effectiveSuperclass_of_some hadds.self, effectiveSuperclass_of_none hadds.free, hdecl]
      · simp [effectiveSuperclass, hadds.other s hs]
    · simp [effectiveInterfaces, hadds.interfaces s]
  · refine ⟨h.superclass ▸ funext fun s => ?_, h.interfaces ▸ funext fun s => ?_⟩
    · simp [effectiveSuperclass, hadds.superclass s]
    · by_cases hs : s = t
      · subst hs
        rw [effectiveInterfaces_of_some hadds.self, effectiveInterfaces_of_none hadds.free, hdecl]
      · simp [effectiveInterfaces, hadds.other s hs]
  · refine ⟨h.superclass ▸ funext fun s => ?_, h.interfaces ▸ funext fun s => ?_⟩
    · simp [effectiveSuperclass, (hsame s).1]
    · simp [effectiveInterfaces, (hsame s).2]

lemma of_fills (h : ReflTransGen (Fill r) m m') : r.SameLinks m m' := by
  induction h with
  | refl => exact ⟨rfl, rfl⟩
  | tail _ hstep ih => exact ih.fill hstep

lemma rooted (h : r.SameLinks m m') (hrooted : r.Rooted m t) : r.Rooted m' t := by
  induction hrooted with
  | object hkind hdescriptor => exact .object hkind hdescriptor
  | step hkind hlink _ ih => exact .step hkind (h.superLink ▸ hlink) ih

lemma wellFormed (h : r.SameLinks m m') (hwf : r.WellFormed m) : r.WellFormed m' where
  clean ht e := by
    rw [Fails, h.superclass, h.interfaces]
    exact hwf.clean ht e
  rooted ht hkind := h.rooted (hwf.rooted ht hkind)
  object ht hdescriptor := by
    rw [Alone, h.superclass, h.interfaces]
    exact hwf.object ht hdescriptor
  interface_superclass ht hkind := by
    rw [h.superclass]
    exact hwf.interface_superclass ht hkind
  interface_of_link ht hl := hwf.interface_of_link ht (h.interfaceLink ▸ hl)
  acyclic := by
    rw [h.interfaceLink]
    exact hwf.acyclic
  alone ht hdescriptor := by
    rw [Alone, h.superclass, h.interfaces]
    exact hwf.alone ht hdescriptor
  root := hwf.root

end SameLinks

end Registry

end TypeGraph
