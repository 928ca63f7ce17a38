import TypeGraph.Proofs.Registry.Canonical
import TypeGraph.Supertype

/-!
# Sound registries

A registry is sound when it is canonical and every type refers to issued types only; also the nine
first handles are those of the primitive types, and no class reports an endless walk for an error.
The registry of the primitive types is sound, and so is what a definition, a new array type or an
edit makes of a sound registry, as long as the handles that they are given were issued.
-/

namespace TypeGraph

/-! ## What a declaration refers to -/

/-- Whether the error is the one that stands for a walk without end. No declaration reports it. -/
def Error.isEndless : Error → Bool
  | endless _ => true
  | _ => false

/-- The types that a draft is linked to. -/
def Draft.links (d : Draft) : List Handle :=
  d.superclass.toList ++ d.interfaces ++ d.outerClass.toList ++ d.declaringClass.toList ++
    d.memberTypes

/-- The types that a declaration is linked to, as far as it reports them. -/
def Declaration.links (d : Declaration) : List Handle :=
  d.superclass.toOption.join.toList ++ d.interfaces.toOption.getD [] ++
    d.outerClass.toOption.join.toList ++ d.declaringClass.toOption.join.toList ++
    d.memberTypes.toOption.getD []

/-- The error in place of a value. -/
def failure? {α : Type} : Except Error α → Option Error
  | .ok _ => none
  | .error e => some e

/-- The errors that a declaration reports. -/
def Declaration.failures (d : Declaration) : List Error :=
  d.loadError.toList ++ (failure? d.superclass).toList ++ (failure? d.interfaces).toList ++
    (failure? d.outerClass).toList ++ (failure? d.declaringClass).toList ++
    (failure? d.memberTypes).toList

namespace Origin

/-- The types that a class is linked to. A draft counts with all of its links, also those that it
does not report because it is broken. -/
def links : Origin → List Handle
  | draft d => d.links
  | fixed d => d.links

/-- The errors that a class reports. -/
def failures : Origin → List Error
  | draft d => d.loadError.toList
  | fixed d => d.failures

variable {origin : Origin} {s : Handle} {e : Error}

lemma mem_links_of_superclass (h : origin.declaration.superclass = .ok (some s)) :
    s ∈ origin.links := by
  cases origin with
  | fixed d =>
    simp [links, Declaration.links, show d.superclass = .ok (some s) from h, Except.toOption]
  | draft d =>
    have hd : d.unlessBroken d.superclass = .ok (some s) := h
    unfold Draft.unlessBroken at hd
    split at hd
    · cases hd
    · simp [links, Draft.links, Except.ok.inj hd]

lemma mem_links_of_interfaces {interfaces : List Handle}
    (h : origin.declaration.interfaces = .ok interfaces) (hs : s ∈ interfaces) :
    s ∈ origin.links := by
  cases origin with
  | fixed d =>
    simp [links, Declaration.links, show d.interfaces = .ok interfaces from h, hs,
      Except.toOption]
  | draft d =>
    have hd : d.unlessBroken d.interfaces = .ok interfaces := h
    unfold Draft.unlessBroken at hd
    split at hd
    · cases hd
    · simp [links, Draft.links, Except.ok.inj hd, hs]

lemma mem_failures_of_superclass (h : origin.declaration.superclass = .error e) :
    e ∈ origin.failures := by
  cases origin with
  | fixed d => simp [failures, Declaration.failures, failure?, show d.superclass = .error e from h]
  | draft d =>
    have hd : d.unlessBroken d.superclass = .error e := h
    unfold Draft.unlessBroken at hd
    split at hd
    next e' he => simp [failures, he, Except.error.inj hd]
    next => cases hd

lemma mem_failures_of_interfaces (h : origin.declaration.interfaces = .error e) :
    e ∈ origin.failures := by
  cases origin with
  | fixed d => simp [failures, Declaration.failures, failure?, show d.interfaces = .error e from h]
  | draft d =>
    have hd : d.unlessBroken d.interfaces = .error e := h
    unfold Draft.unlessBroken at hd
    split at hd
    next e' he => simp [failures, he, Except.error.inj hd]
    next => cases hd

lemma mem_failures_of_loadError (h : origin.declaration.loadError = some e) :
    e ∈ origin.failures := by
  cases origin with
  | fixed d => simp [failures, Declaration.failures, show d.loadError = some e from h]
  | draft d => simp [failures, show d.loadError = some e from h]

end Origin

/-! ## Soundness -/

namespace Registry

/-- Every type refers to issued types only. -/
structure Closed (r : Registry) : Prop where
  root_issued : ∀ {t c root : Handle}, r.shape t = .array c root → r.Issued root
  links_issued : ∀ {t : Handle} {origin : Origin}, r.shape t = .declared origin →
    ∀ s ∈ origin.links, r.Issued s

/-- The index and the list of types agree, and all handles were issued. -/
structure Sound (r : Registry) : Prop where
  reserved : Primitive.all.length ≤ r.size
  primitive_iff : ∀ {t : Handle} {p : Primitive}, r.Issued t →
    (r.shape t = .primitive p ↔ t = .ofPrimitive p)
  array_issued : ∀ {t c root : Handle}, r.shape t = .array c root →
    c.index < t.index ∧ r.Issued root
  arrayType?_iff : ∀ {c a : Handle}, r.arrayType? c = some a ↔ ∃ root, r.shape a = .array c root
  isClass : ∀ {t : Handle} {origin : Origin}, r.shape t = .declared origin →
    Descriptor.IsClass origin.declaration.descriptor
  links_issued : ∀ {t : Handle} {origin : Origin}, r.shape t = .declared origin →
    ∀ s ∈ origin.links, r.Issued s
  failures_proper : ∀ {t : Handle} {origin : Origin}, r.shape t = .declared origin →
    ∀ e ∈ origin.failures, e.isEndless = false
  lookup_iff : ∀ {d : String} {t : Handle}, r.lookup d = some t ↔ r.Issued t ∧ r.descriptor t = d

variable {r : Registry} {s t : Handle}

namespace Closed

lemma issued_of_declaredSuperclass (h : r.Closed)
    (hs : r.declaredSuperclass t = .ok (some s)) : r.Issued s := by
  unfold declaredSuperclass at hs
  split at hs
  next => cases hs
  next origin ho => exact h.links_issued ho s (Origin.mem_links_of_superclass hs)
  next c root ho =>
    cases hs
    exact h.root_issued ho

lemma issued_of_declaredInterfaces (h : r.Closed) {links : List Handle}
    (hl : r.declaredInterfaces t = .ok links) (hs : s ∈ links) : r.Issued s := by
  unfold declaredInterfaces declaration? at hl
  cases ho : r.shape t with
  | declared origin =>
    rw [ho] at hl
    exact h.links_issued ho s (Origin.mem_links_of_interfaces hl hs)
  | primitive p =>
    rw [ho] at hl
    cases hl
    cases hs
  | array c root =>
    rw [ho] at hl
    cases hl
    cases hs

end Closed

namespace Sound

lemma closed (h : r.Sound) : r.Closed := ⟨fun hs => (h.array_issued hs).2, h.links_issued⟩

lemma issued_ofPrimitive (h : r.Sound) (p : Primitive) : r.Issued (.ofPrimitive p) := by
  refine Nat.lt_of_lt_of_le ?_ h.reserved
  cases p <;> decide

lemma shape_ofPrimitive (h : r.Sound) (p : Primitive) :
    r.shape (.ofPrimitive p) = .primitive p :=
  (h.primitive_iff (h.issued_ofPrimitive p)).2 rfl

lemma lookup_primitive (h : r.Sound) (p : Primitive) :
    r.lookup p.descriptor = some (.ofPrimitive p) :=
  h.lookup_iff.2 ⟨h.issued_ofPrimitive p, descriptor_of_primitive (h.shape_ofPrimitive p)⟩

/-- A sound registry is canonical. -/
lemma canonical (h : r.Sound) : r.Canonical :=
  ⟨fun hs => (h.array_issued hs).1, h.arrayType?_iff, h.isClass, h.lookup_iff⟩

lemma eq_of_descriptor_eq (h : r.Sound) (hs : r.Issued s) (ht : r.Issued t)
    (hd : r.descriptor s = r.descriptor t) : s = t :=
  h.canonical.eq_of_descriptor_eq hs ht hd

lemma component?_eq_some_iff (h : r.Sound) {c : Handle} :
    r.component? t = some c ↔ ∃ root, r.shape t = .array c root :=
  h.canonical.component?_eq_some_iff

lemma descriptor_of_array (h : r.Sound) {c root : Handle} (hs : r.shape t = .array c root) :
    r.descriptor t = Descriptor.ofArray (r.descriptor c) :=
  h.canonical.descriptor_of_array hs

lemma issued_component (h : r.Sound) {c root : Handle} (hs : r.shape t = .array c root) :
    r.Issued c :=
  h.canonical.issued_component hs

lemma eq_of_component_eq (h : r.Sound) {c root root' : Handle} (hs : r.shape s = .array c root)
    (ht : r.shape t = .array c root') : s = t :=
  h.canonical.eq_of_component_eq hs ht

lemma exists_declared (h : r.Sound) (hd : Descriptor.IsClass (r.descriptor t)) :
    ∃ origin, r.shape t = .declared origin :=
  h.canonical.exists_declared hd

lemma proper_of_declaredSuperclass (h : r.Sound) {e : Error}
    (he : r.declaredSuperclass t = .error e) : e.isEndless = false := by
  unfold declaredSuperclass at he
  split at he
  next => cases he
  next origin ho => exact h.failures_proper ho e (Origin.mem_failures_of_superclass he)
  next => cases he

lemma proper_of_declaredInterfaces (h : r.Sound) {e : Error}
    (he : r.declaredInterfaces t = .error e) : e.isEndless = false := by
  unfold declaredInterfaces declaration? at he
  cases ho : r.shape t with
  | declared origin =>
    rw [ho] at he
    exact h.failures_proper ho e (Origin.mem_failures_of_interfaces he)
  | primitive p =>
    rw [ho] at he
    cases he
  | array c root =>
    rw [ho] at he
    cases he

lemma proper_of_loadError (h : r.Sound) {e : Error} (he : r.loadError t = some e) :
    e.isEndless = false := by
  unfold loadError declaration? at he
  cases ho : r.shape t with
  | declared origin =>
    rw [ho] at he
    exact h.failures_proper ho e (Origin.mem_failures_of_loadError he)
  | primitive p =>
    rw [ho] at he
    cases he
  | array c root =>
    rw [ho] at he
    cases he

end Sound

/-! ## The operations keep a registry sound -/

/-- The registry of the primitive types is sound. -/
theorem sound_initial : initial.Sound where
  reserved := Nat.le_refl _
  primitive_iff := by
    intro t p ht
    obtain ⟨q, rfl⟩ := exists_primitive_of_issued_initial ht
    rw [shape_initial_ofPrimitive]
    constructor
    · intro h
      cases h
      rfl
    · intro h
      have hindex : q.index = p.index := congrArg Handle.index h
      have hq := Primitive.all_getElem?_index q
      rw [hindex, Primitive.all_getElem?_index] at hq
      cases hq
      rfl
  array_issued hs := absurd hs shape_initial_ne_array
  arrayType?_iff := canonical_initial.arrayType?_iff
  isClass hs := absurd hs shape_initial_ne_declared
  links_issued hs := absurd hs shape_initial_ne_declared
  failures_proper hs := absurd hs shape_initial_ne_declared
  lookup_iff := canonical_initial.lookup_iff

namespace AddsType

variable {r' : Registry} {shape : Shape} {d : String} (hadds : r.AddsType r' shape d)
include hadds

lemma primitive_iff (h : r.Sound) {p : Primitive} (ht : r'.Issued t) :
    r'.shape t = .primitive p ↔ t = .ofPrimitive p := by
  rcases hadds.shape_cases ht with ⟨ht, hs⟩ | ⟨rfl, hs⟩ <;> rw [hs]
  · exact h.primitive_iff ht
  · refine ⟨fun hp => absurd hp (hadds.not_primitive p), fun hp => ?_⟩
    exact absurd (hp ▸ h.issued_ofPrimitive p) r.not_issued_next

/-- One more type keeps the registry sound, if it stays canonical and what the type refers to was
issued. -/
lemma sound (h : r.Sound) (hcanonical : r'.Canonical)
    (harray : ∀ c root, shape = .array c root → r.Issued root)
    (hdeclared : ∀ origin, shape = .declared origin →
      (∀ s ∈ origin.links, r.Issued s) ∧ ∀ e ∈ origin.failures, e.isEndless = false) :
    r'.Sound := by
  -- what is known of the declared types of the new registry
  have hknown : ∀ {t origin}, r'.shape t = .declared origin →
      (∀ s ∈ origin.links, r.Issued s) ∧ ∀ e ∈ origin.failures, e.isEndless = false := by
    intro t origin hs
    rcases hadds.shape_cases (issued_of_declared hs) with ⟨-, hold⟩ | ⟨-, hnew⟩
    · rw [hold] at hs
      exact ⟨h.links_issued hs, h.failures_proper hs⟩
    · exact hdeclared origin (hnew.symm.trans hs)
  refine ⟨Nat.le_trans h.reserved hadds.grows.size_le, hadds.primitive_iff h, ?_,
    hcanonical.arrayType?_iff, hcanonical.isClass,
    fun hs s hmem => hadds.grows.issued ((hknown hs).1 s hmem), fun hs => (hknown hs).2,
    hcanonical.lookup_iff⟩
  intro t c root hs
  refine ⟨hcanonical.component_lt hs, hadds.grows.issued ?_⟩
  rcases hadds.shape_cases (issued_of_array hs) with ⟨-, hold⟩ | ⟨-, hnew⟩
  · exact (h.array_issued (hold.symm.trans hs)).2
  · exact harray c root (hnew.symm.trans hs)

end AddsType

/-- A definition keeps the registry sound. -/
theorem Sound.withClass (h : r.Sound) {origin : Origin}
    (hclass : Descriptor.IsClass origin.declaration.descriptor)
    (hnew : r.lookup origin.declaration.descriptor = none)
    (hlinks : ∀ s ∈ origin.links, r.Issued s)
    (hproper : ∀ e ∈ origin.failures, e.isEndless = false) : (r.withClass origin).Sound := by
  refine (addsType_withClass hnew).sound h (h.canonical.withClass hclass hnew) (by simp) ?_
  rintro _ ⟨⟩
  exact ⟨hlinks, hproper⟩

/-- A new array type keeps the registry sound. -/
theorem Sound.withArray (h : r.Sound) {c root : Handle} (hc : r.Issued c) (hroot : r.Issued root)
    (hnone : r.arrayType? c = none) : (r.withArray c root).Sound := by
  refine (h.canonical.addsType_withArray hc hnone root).sound h
    (h.canonical.withArray hc hnone root) ?_ (by simp)
  rintro _ _ ⟨⟩
  exact hroot

/-- The array type of a type is issued, and its component is that type. -/
theorem Sound.arrayOf (h : r.Sound) {c root : Handle} (hc : r.Issued c) (hroot : r.Issued root) :
    (r.arrayOf c root).2.Sound ∧
      ∃ root', (r.arrayOf c root).2.shape (r.arrayOf c root).1 = .array c root' := by
  refine ⟨?_, (h.canonical.arrayOf hc root).2⟩
  cases hnone : r.arrayType? c with
  | some a =>
    rw [arrayOf_of_some hnone]
    exact h
  | none =>
    rw [arrayOf_of_none hnone]
    exact h.withArray hc hroot hnone

/-- An edit keeps the registry sound if it leaves descriptor and kind alone and adds no link to a
type that was not issued. -/
theorem Sound.edit (h : r.Sound) {change : Draft → Draft} (t : Handle)
    (hd : ∀ d, (change d).descriptor = d.descriptor)
    (hk : ∀ d, (change d).isInterface = d.isInterface)
    (hlinks : ∀ d, r.shape t = .declared (.draft d) → ∀ s ∈ (change d).links, r.Issued s)
    (hproper : ∀ d, r.shape t = .declared (.draft d) →
      ∀ e ∈ (change d).loadError, e.isEndless = false) : (r.edit t change).Sound := by
  have hcanonical := h.canonical.edit t hd hk
  refine ⟨?_, ?_, ?_, hcanonical.arrayType?_iff, hcanonical.isClass, ?_, ?_, hcanonical.lookup_iff⟩
  · simpa using h.reserved
  · intro u p hu
    exact (shape_edit_eq_iff (by simp)).trans (h.primitive_iff (issued_edit.1 hu))
  · intro u c root hs
    rw [issued_edit]
    exact h.array_issued ((shape_edit_eq_iff (by simp)).1 hs)
  · intro u o hs s hmem
    rw [issued_edit]
    rcases shape_edit_eq_declared hs with hs | ⟨d, hsd, rfl⟩
    · exact h.links_issued hs s hmem
    · exact hlinks d hsd s hmem
  · intro u o hs e hmem
    rcases shape_edit_eq_declared hs with hs | ⟨d, hsd, rfl⟩
    · exact h.failures_proper hs e hmem
    · exact hproper d hsd e (by simpa [Origin.failures] using hmem)

end Registry

end TypeGraph
