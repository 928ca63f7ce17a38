import Mathlib.Logic.Relation
import TypeGraph.Proofs.Query.Fill
import TypeGraph.Proofs.Registry.Sound
import TypeGraph.Proofs.Supertype.Check

/-!
# Accepted links

A supertype link is accepted once a question has answered for it: then it is remembered and lasts.
This file says what is known about the accepted links of a memory without regard to circles. They
lead to issued types, those of arrays and primitive types are the declared ones, and a step of a
question adds the links of at most one type and removes none.
-/

namespace TypeGraph

open Relation

/-! ## How a step changes the links -/

namespace Memory

variable {m m' m'' : Memory} {r r' : Registry} {s t : Handle}

/-- The second type was accepted as the superclass of the first. -/
def SuperLink (m : Memory) (s t : Handle) : Prop :=
  (m.about s).superclass = some (some t)

/-- The second type was accepted as an interface of the first. -/
def InterfaceLink (m : Memory) (s t : Handle) : Prop :=
  ∃ links, (m.about s).interfaces = some links ∧ t ∈ links

/-- The second type was accepted as a supertype of the first. -/
def Link (m : Memory) (s t : Handle) : Prop :=
  m.SuperLink s t ∨ m.InterfaceLink s t

/-- Two memories agree on the supertypes of all types. -/
def SameLinks (m m' : Memory) : Prop :=
  ∀ s, (m'.about s).superclass = (m.about s).superclass ∧
    (m'.about s).interfaces = (m.about s).interfaces

/-- The second memory has the superclass of one more type. -/
structure AddsSuperclass (m m' : Memory) (t : Handle) (link : Option Handle) : Prop where
  free : (m.about t).superclass = none
  self : (m'.about t).superclass = some link
  other : ∀ s, s ≠ t → (m'.about s).superclass = (m.about s).superclass
  interfaces : ∀ s, (m'.about s).interfaces = (m.about s).interfaces

/-- The second memory has the interfaces of one more type. -/
structure AddsInterfaces (m m' : Memory) (t : Handle) (links : List Handle) : Prop where
  free : (m.about t).interfaces = none
  self : (m'.about t).interfaces = some links
  other : ∀ s, s ≠ t → (m'.about s).interfaces = (m.about s).interfaces
  superclass : ∀ s, (m'.about s).superclass = (m.about s).superclass

lemma sameLinks_update {change : Slots → Slots}
    (hsuper : ∀ slots, (change slots).superclass = slots.superclass)
    (hinterfaces : ∀ slots, (change slots).interfaces = slots.interfaces) :
    SameLinks m (m.update t change) := by
  intro s
  by_cases h : s = t
  · subst h
    rw [about_update_self]
    exact ⟨hsuper _, hinterfaces _⟩
  · rw [about_update_of_ne h]
    exact ⟨rfl, rfl⟩

lemma addsSuperclass_update {link : Option Handle} (h : (m.about t).superclass = none) :
    AddsSuperclass m (m.update t fun slots => { slots with superclass := some link }) t link where
  free := h
  self := by rw [about_update_self]
  other s hs := by rw [about_update_of_ne hs]
  interfaces s := by
    by_cases hs : s = t
    · rw [hs, about_update_self]
    · rw [about_update_of_ne hs]

lemma addsInterfaces_update {links : List Handle} (h : (m.about t).interfaces = none) :
    AddsInterfaces m (m.update t fun slots => { slots with interfaces := some links }) t
      links where
  free := h
  self := by rw [about_update_self]
  other s hs := by rw [about_update_of_ne hs]
  superclass s := by
    by_cases hs : s = t
    · rw [hs, about_update_self]
    · rw [about_update_of_ne hs]

end Memory

open Memory in
/-- A step of a question accepts the superclass of one type, or the interfaces of one type, or no
link at all. -/
lemma Fill.links {r : Registry} {m m' : Memory} (h : Fill r m m') :
    (∃ t link, r.Issued t ∧ r.declaredSuperclass t = .ok link ∧
        (∀ s, link = some s → r.checkChain m [t] s = .ok ()) ∧ AddsSuperclass m m' t link) ∨
      (∃ t links, r.Issued t ∧ r.declaredInterfaces t = .ok links ∧
        r.checkInterfaces m t links = .ok () ∧ AddsInterfaces m m' t links) ∨
      SameLinks m m' := by
  cases h with
  | superclass link ht hfree hdecl hcheck =>
    exact Or.inl ⟨_, link, ht, hdecl, hcheck, addsSuperclass_update hfree⟩
  | interfaces links ht hfree hdecl hcheck =>
    exact Or.inr (Or.inl ⟨_, links, ht, hdecl, hcheck, addsInterfaces_update hfree⟩)
  | reading => exact Or.inr (Or.inr fun s => ⟨rfl, rfl⟩)
  | _ => exact Or.inr (Or.inr (sameLinks_update (fun _ => rfl) fun _ => rfl))

namespace Memory

variable {m m' m'' : Memory} {r r' : Registry} {s t : Handle}

/-! ## Links last -/

/-- Every answer about supertypes in the first memory is in the second one. -/
structure Keeps (m m' : Memory) : Prop where
  superclass : ∀ {t link}, (m.about t).superclass = some link → (m'.about t).superclass = some link
  interfaces : ∀ {t links}, (m.about t).interfaces = some links →
    (m'.about t).interfaces = some links

namespace Keeps

lemma refl (m : Memory) : Keeps m m := ⟨fun h => h, fun h => h⟩

lemma trans (h : Keeps m m') (h' : Keeps m' m'') : Keeps m m'' :=
  ⟨fun hs => h'.superclass (h.superclass hs), fun hs => h'.interfaces (h.interfaces hs)⟩

lemma of_sameLinks (h : SameLinks m m') : Keeps m m' :=
  ⟨fun hs => by rw [(h _).1, hs], fun hs => by rw [(h _).2, hs]⟩

lemma of_fill (h : Fill r m m') : Keeps m m' := by
  rcases h.links with ⟨t, link, -, -, -, hadds⟩ | ⟨t, links, -, -, -, hadds⟩ | hsame
  · constructor
    · intro s link' hs
      have hne : s ≠ t := by
        rintro rfl
        rw [hadds.free] at hs
        cases hs
      rw [hadds.other s hne, hs]
    · intro s links hs
      rw [hadds.interfaces, hs]
  · constructor
    · intro s link hs
      rw [hadds.superclass, hs]
    · intro s links' hs
      have hne : s ≠ t := by
        rintro rfl
        rw [hadds.free] at hs
        cases hs
      rw [hadds.other s hne, hs]
  · exact of_sameLinks hsame

lemma of_fills (h : ReflTransGen (Fill r) m m') : Keeps m m' := by
  induction h with
  | refl => exact refl m
  | tail _ hstep ih => exact ih.trans (of_fill hstep)

end Keeps

/-! ## Sound memories -/

/-- What holds of the links in the memory of a registry. -/
structure Sound (r : Registry) (m : Memory) : Prop where
  superclass_issued : ∀ {t s}, m.SuperLink t s → r.Issued s
  interfaces_issued : ∀ {t i}, m.InterfaceLink t i → r.Issued i
  /-- Nothing is known about a type before it is issued. -/
  superclass_free : ∀ {t}, ¬ r.Issued t → (m.about t).superclass = none
  interfaces_free : ∀ {t}, ¬ r.Issued t → (m.about t).interfaces = none
  /-- What cannot be edited is remembered as it is declared. -/
  superclass_fixed : ∀ {t link}, (∀ origin, r.shape t ≠ .declared origin) →
    (m.about t).superclass = some link → r.declaredSuperclass t = .ok link
  interfaces_fixed : ∀ {t links}, (∀ origin, r.shape t ≠ .declared origin) →
    (m.about t).interfaces = some links → r.declaredInterfaces t = .ok links

theorem sound_empty (r : Registry) : Sound r empty where
  superclass_issued h := by simp [SuperLink] at h
  interfaces_issued h := by simp [InterfaceLink] at h
  superclass_free _ := by simp
  interfaces_free _ := by simp
  superclass_fixed _ h := by simp at h
  interfaces_fixed _ h := by simp at h

/-- Effective links lead to issued types, if accepted ones do. -/
lemma issued_of_effective (hr : r.Closed) (hlinks : ∀ {s t}, m.Link s t → r.Issued t)
    {u v : Handle} (hl : r.Link m u v) : r.Issued v := by
  rcases hl with hl | ⟨links, hl, hv⟩
  · unfold Registry.SuperLink at hl
    cases hm : (m.about u).superclass with
    | none =>
      rw [Registry.effectiveSuperclass_of_none hm] at hl
      exact hr.issued_of_declaredSuperclass hl
    | some link =>
      rw [Registry.effectiveSuperclass_of_some hm] at hl
      exact hlinks (Or.inl (hm.trans (congrArg some (Except.ok.inj hl))))
  · cases hm : (m.about u).interfaces with
    | none =>
      rw [Registry.effectiveInterfaces_of_none hm] at hl
      exact hr.issued_of_declaredInterfaces hl hv
    | some known =>
      rw [Registry.effectiveInterfaces_of_some hm] at hl
      exact hlinks (Or.inr ⟨known, hm, Except.ok.inj hl ▸ hv⟩)

namespace Sound

lemma issued_of_link (h : Sound r m) (hl : m.Link s t) : r.Issued t := by
  rcases hl with hl | hl
  · exact h.superclass_issued hl
  · exact h.interfaces_issued hl

lemma sameLinks (h : Sound r m) (hsame : SameLinks m m') : Sound r m' where
  superclass_issued hl := h.superclass_issued ((hsame _).1.symm.trans hl)
  interfaces_issued := by
    rintro t i ⟨links, hlinks, hi⟩
    exact h.interfaces_issued ⟨links, (hsame t).2.symm.trans hlinks, hi⟩
  superclass_free ht := by rw [(hsame _).1, h.superclass_free ht]
  interfaces_free ht := by rw [(hsame _).2, h.interfaces_free ht]
  superclass_fixed hshape hl := h.superclass_fixed hshape ((hsame _).1.symm.trans hl)
  interfaces_fixed hshape hl := h.interfaces_fixed hshape ((hsame _).2.symm.trans hl)

lemma addsSuperclass {link : Option Handle} (h : Sound r m) (hr : r.Sound) (ht : r.Issued t)
    (hdecl : r.declaredSuperclass t = .ok link) (hadds : AddsSuperclass m m' t link) :
    Sound r m' where
  superclass_issued := by
    intro s u hl
    by_cases hs : s = t
    · subst hs
      obtain rfl : link = some u := Option.some.inj (hadds.self.symm.trans hl)
      exact hr.closed.issued_of_declaredSuperclass hdecl
    · exact h.superclass_issued ((hadds.other s hs).symm.trans hl)
  interfaces_issued := by
    rintro s i ⟨links, hlinks, hi⟩
    exact h.interfaces_issued ⟨links, (hadds.interfaces s).symm.trans hlinks, hi⟩
  superclass_free := by
    intro s hs
    have hne : s ≠ t := fun heq => hs (heq ▸ ht)
    rw [hadds.other s hne, h.superclass_free hs]
  interfaces_free hs := by rw [hadds.interfaces, h.interfaces_free hs]
  superclass_fixed := by
    intro s link' hshape hl
    by_cases hs : s = t
    · subst hs
      obtain rfl : link = link' := Option.some.inj (hadds.self.symm.trans hl)
      exact hdecl
    · exact h.superclass_fixed hshape ((hadds.other s hs).symm.trans hl)
  interfaces_fixed hshape hl := h.interfaces_fixed hshape ((hadds.interfaces _).symm.trans hl)

lemma addsInterfaces {links : List Handle} (h : Sound r m) (hr : r.Sound) (ht : r.Issued t)
    (hdecl : r.declaredInterfaces t = .ok links) (hadds : AddsInterfaces m m' t links) :
    Sound r m' where
  superclass_issued hl := h.superclass_issued ((hadds.superclass _).symm.trans hl)
  interfaces_issued := by
    rintro s i ⟨links', hlinks, hi⟩
    by_cases hs : s = t
    · subst hs
      obtain rfl : links = links' := Option.some.inj (hadds.self.symm.trans hlinks)
      exact hr.closed.issued_of_declaredInterfaces hdecl hi
    · exact h.interfaces_issued ⟨links', (hadds.other s hs).symm.trans hlinks, hi⟩
  superclass_free hs := by rw [hadds.superclass, h.superclass_free hs]
  interfaces_free := by
    intro s hs
    have hne : s ≠ t := fun heq => hs (heq ▸ ht)
    rw [hadds.other s hne, h.interfaces_free hs]
  superclass_fixed hshape hl := h.superclass_fixed hshape ((hadds.superclass _).symm.trans hl)
  interfaces_fixed := by
    intro s links' hshape hl
    by_cases hs : s = t
    · subst hs
      obtain rfl : links = links' := Option.some.inj (hadds.self.symm.trans hl)
      exact hdecl
    · exact h.interfaces_fixed hshape ((hadds.other s hs).symm.trans hl)

/-- Every step of a question keeps a memory sound. -/
lemma fill (h : Sound r m) (hr : r.Sound) (hstep : Fill r m m') : Sound r m' := by
  rcases hstep.links with ⟨t, link, ht, hdecl, -, hadds⟩ | ⟨t, links, ht, hdecl, -, hadds⟩ | hsame
  · exact h.addsSuperclass hr ht hdecl hadds
  · exact h.addsInterfaces hr ht hdecl hadds
  · exact h.sameLinks hsame

/-- A memory stays sound while types are registered and edited. -/
lemma of_extends (h : Sound r m) (hext : r.Extends r') : Sound r' m where
  superclass_issued hl := hext.issued (h.superclass_issued hl)
  interfaces_issued hl := hext.issued (h.interfaces_issued hl)
  superclass_free ht := h.superclass_free fun ht' => ht (hext.issued ht')
  interfaces_free ht := h.interfaces_free fun ht' => ht (hext.issued ht')
  superclass_fixed := by
    intro t link hshape hl
    have ht : r.Issued t := by
      by_contra hn
      rw [h.superclass_free hn] at hl
      cases hl
    have heq := hext.shape_eq ht hshape
    rw [Registry.declaredSuperclass, heq]
    exact h.superclass_fixed (heq ▸ hshape) hl
  interfaces_fixed := by
    intro t links hshape hl
    have ht : r.Issued t := by
      by_contra hn
      rw [h.interfaces_free hn] at hl
      cases hl
    have heq := hext.shape_eq ht hshape
    rw [Registry.declaredInterfaces, Registry.declaration?, heq]
    exact h.interfaces_fixed (heq ▸ hshape) hl

/-- Effective links lead to issued types. -/
lemma issued_of_effectiveLink (h : Sound r m) (hr : r.Sound) {u v : Handle}
    (hl : r.Link m u v) : r.Issued v :=
  issued_of_effective hr.closed h.issued_of_link hl

end Sound

/-- An accepted link is effective. -/
lemma SuperLink.effective (h : m.SuperLink s t) : r.SuperLink m s t :=
  Registry.effectiveSuperclass_of_some h

lemma InterfaceLink.effective (h : m.InterfaceLink s t) : r.InterfaceLink m s t := by
  obtain ⟨links, hlinks, ht⟩ := h
  exact ⟨links, Registry.effectiveInterfaces_of_some hlinks, ht⟩

lemma Link.effective (h : m.Link s t) : r.Link m s t :=
  h.imp SuperLink.effective InterfaceLink.effective

end Memory

/-! ## Effective links are what is answered -/

namespace Query

/-- The question for the superclass of a type fails and leaves the memory as it is, or it is
answered with the effective one. -/
lemma superclass_effective (r : Registry) (m : Memory) (t : Handle) :
    (∃ e, (superclass t).answer r m = (.error e, m)) ∨
      ∃ link m', (superclass t).answer r m = (.ok link, m') ∧
        r.effectiveSuperclass m t = .ok link := by
  cases hslot : (m.about t).superclass with
  | some link =>
    exact Or.inr ⟨link, m, answer_superclass_some hslot,
      Registry.effectiveSuperclass_of_some hslot⟩
  | none =>
    rw [answer_superclass_none hslot, Registry.effectiveSuperclass_of_none hslot]
    rcases r.declaredSuperclass t with e | link
    · exact Or.inl ⟨e, rfl⟩
    · rcases hcheck : link.elim (.ok ()) (r.checkChain m [t]) with e | u <;> simp only [hcheck]
      · exact Or.inl ⟨e, rfl⟩
      · exact Or.inr ⟨link, _, rfl, rfl⟩

/-- The question for the interfaces of a type fails and leaves the memory as it is, or it is
answered with the effective ones. -/
lemma interfaces_effective (r : Registry) (m : Memory) (t : Handle) :
    (∃ e, (interfaces t).answer r m = (.error e, m)) ∨
      ∃ links m', (interfaces t).answer r m = (.ok links, m') ∧
        r.effectiveInterfaces m t = .ok links := by
  cases hslot : (m.about t).interfaces with
  | some links =>
    exact Or.inr ⟨links, m, answer_interfaces_some hslot,
      Registry.effectiveInterfaces_of_some hslot⟩
  | none =>
    rw [answer_interfaces_none hslot, Registry.effectiveInterfaces_of_none hslot]
    rcases r.declaredInterfaces t with e | links
    · exact Or.inl ⟨e, rfl⟩
    · rcases hcheck : r.checkInterfaces m t links with e | u <;> simp only [hcheck]
      · exact Or.inl ⟨e, rfl⟩
      · exact Or.inr ⟨links, _, rfl, rfl⟩

end Query

end TypeGraph
