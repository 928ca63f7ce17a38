import Mathlib.Data.List.Chain
import Mathlib.Logic.Relation
import TypeGraph.Proofs.Supertype.Accepted

/-!
# Accepted links form no circle

A superclass is accepted after the chain above it was followed to its end, so it closes no circle
of accepted superclasses. The check of an interface follows all links, but it looks for the type
only among interfaces. It therefore misses a circle whose last link is a superclass, and no circle
of accepted links is possible once types with superclasses and types in interface lists are kept
apart.

The walks of the conversion rules and of the collection of methods keep a trail of the types that
they are passing through. The trail is a path of accepted links: where those form no circle, the
guard of the walk never finds a type that is on the trail already.
-/

namespace TypeGraph

open Relation

/-- When a walk goes on along a link, all of its trail leads to the next type. -/
lemma Trail.leads_cons {link : Handle → Handle → Prop} {s t : Handle} {trail : List Handle}
    (hl : link t s) (htrail : ∀ x ∈ trail, TransGen link x t) :
    ∀ x ∈ t :: trail, TransGen link x s := by
  intro x hx
  rcases List.mem_cons.1 hx with rfl | hx
  · exact TransGen.single hl
  · exact (htrail x hx).tail hl

/-- No type leads back to itself. -/
def Acyclic (link : Handle → Handle → Prop) : Prop :=
  ∀ t, ¬ TransGen link t t

namespace Acyclic

variable {link link' : Handle → Handle → Prop} {t : Handle}

lemma mono (h : Acyclic link) (hle : ∀ a b, link' a b → link a b) : Acyclic link' :=
  fun t hcycle => h t (TransGen.mono hle _ _ hcycle)

/-- Links from one type to types that do not lead there close no circle. -/
lemma add_links (h : Acyclic link)
    (hnew : ∀ a b, link' a b → link a b ∨ a = t ∧ ¬ ReflTransGen link b t) : Acyclic link' := by
  -- up to its first new link, which starts at `t`, a path is an old one
  have hold : ∀ {a b}, ReflTransGen link' a b → ReflTransGen link a b ∨ ReflTransGen link a t := by
    intro a b hab
    induction hab with
    | refl => exact Or.inl ReflTransGen.refl
    | tail _ hbc ih =>
      rcases ih with ih | ih
      · rcases hnew _ _ hbc with hbc | ⟨rfl, -⟩
        · exact Or.inl (ih.tail hbc)
        · exact Or.inr ih
      · exact Or.inr ih
  -- a path is an old one, or it passes through `t` and a new link
  have hpath : ∀ {a b}, TransGen link' a b → TransGen link a b ∨
      ∃ s, ¬ ReflTransGen link s t ∧ ReflTransGen link' a t ∧ ReflTransGen link' s b := by
    intro a b hab
    induction hab with
    | single hab =>
      rcases hnew _ _ hab with hab | ⟨rfl, hs⟩
      · exact Or.inl (TransGen.single hab)
      · exact Or.inr ⟨_, hs, ReflTransGen.refl, ReflTransGen.refl⟩
    | tail hab hbc ih =>
      rcases ih with ih | ⟨s, hs, hat, hsb⟩
      · rcases hnew _ _ hbc with hbc | ⟨rfl, hs⟩
        · exact Or.inl (ih.tail hbc)
        · exact Or.inr ⟨_, hs, hab.to_reflTransGen, ReflTransGen.refl⟩
      · exact Or.inr ⟨s, hs, hat, hsb.tail hbc⟩
  intro x hcycle
  rcases hpath hcycle with hcycle | ⟨s, hs, hxt, hsx⟩
  · exact h x hcycle
  · exact hs ((hold (hsx.trans hxt)).elim id id)

/-- On a path of links that form no circle no type occurs twice. -/
lemma nodup_of_isChain (h : Acyclic link) {chain : List Handle} (hchain : chain.IsChain link) :
    chain.Nodup := by
  have hpairwise : chain.Pairwise (TransGen link) :=
    List.isChain_iff_pairwise.1 (hchain.imp fun _ _ hab => TransGen.single hab)
  refine hpairwise.imp ?_
  rintro a b hab rfl
  exact h a hab

end Acyclic

namespace Memory

variable {m m' : Memory} {r : Registry} {s t : Handle}

lemma AddsSuperclass.superLink {link : Option Handle} (h : AddsSuperclass m m' t link)
    {a b : Handle} (hl : m'.SuperLink a b) : m.SuperLink a b ∨ a = t ∧ link = some b := by
  by_cases ha : a = t
  · subst ha
    exact Or.inr ⟨rfl, Option.some.inj (h.self.symm.trans hl)⟩
  · exact Or.inl ((h.other a ha).symm.trans hl)

lemma AddsSuperclass.interfaceLink {link : Option Handle} (h : AddsSuperclass m m' t link)
    {a b : Handle} (hl : m'.InterfaceLink a b) : m.InterfaceLink a b := by
  obtain ⟨links, hlinks, hb⟩ := hl
  exact ⟨links, (h.interfaces a).symm.trans hlinks, hb⟩

lemma AddsInterfaces.superLink {links : List Handle} (h : AddsInterfaces m m' t links)
    {a b : Handle} (hl : m'.SuperLink a b) : m.SuperLink a b :=
  (h.superclass a).symm.trans hl

lemma AddsInterfaces.interfaceLink {links : List Handle} (h : AddsInterfaces m m' t links)
    {a b : Handle} (hl : m'.InterfaceLink a b) : m.InterfaceLink a b ∨ a = t ∧ b ∈ links := by
  obtain ⟨links', hlinks, hb⟩ := hl
  by_cases ha : a = t
  · subst ha
    obtain rfl : links = links' := Option.some.inj (h.self.symm.trans hlinks)
    exact Or.inr ⟨rfl, hb⟩
  · exact Or.inl ⟨links', (h.other a ha).symm.trans hlinks, hb⟩

lemma SameLinks.superLink (h : SameLinks m m') {a b : Handle} (hl : m'.SuperLink a b) :
    m.SuperLink a b :=
  (h a).1.symm.trans hl

lemma SameLinks.interfaceLink (h : SameLinks m m') {a b : Handle} (hl : m'.InterfaceLink a b) :
    m.InterfaceLink a b := by
  obtain ⟨links, hlinks, hb⟩ := hl
  exact ⟨links, (h a).2.symm.trans hlinks, hb⟩

/-! ## Superclasses -/

/-- A superclass whose chain passed the check does not lead back to the type. -/
lemma not_superLinks_of_checkChain (h : r.checkChain m [t] s = .ok ()) :
    ¬ ReflTransGen m.SuperLink s t := by
  intro hst
  have heff : ReflTransGen (r.SuperLink m) s t := 
    ReflTransGen.mono (fun _ _ => SuperLink.effective) _ _ hst
  exact (Registry.not_mem_of_checkChain h heff).2 (by simp)

/-- No step of a question closes a circle of accepted superclasses. -/
lemma acyclic_superLink_fill (h : Acyclic m.SuperLink) (hstep : Fill r m m') :
    Acyclic m'.SuperLink := by
  rcases hstep.links with ⟨t, link, -, -, hcheck, hadds⟩ | ⟨t, links, -, -, -, hadds⟩ | hsame
  · refine h.add_links (t := t) fun a b hl => ?_
    exact (hadds.superLink hl).imp id fun ⟨ha, hb⟩ =>
      ⟨ha, not_superLinks_of_checkChain (hcheck b hb)⟩
  · exact h.mono fun a b => hadds.superLink
  · exact h.mono fun a b => hsame.superLink

/-! ## Superclasses and interfaces -/

/-- The accepted links of a memory are among given superclass links and interface links. -/
structure Within (superclass interface : Handle → Handle → Prop) (m : Memory) : Prop where
  superLink : ∀ {a b}, m.SuperLink a b → superclass a b
  interfaceLink : ∀ {a b}, m.InterfaceLink a b → interface a b

section Apart

variable {superclass interface : Handle → Handle → Prop}
  (hapart : ∀ t i s, interface t i → ¬ superclass i s)

include hapart

/-- From a type in an interface list only interface links lead on, so every path from there to
another type ends in one. -/
lemma Within.interfaceLink_last (h : Within superclass interface m) {u i : Handle}
    (hi : interface u i) (hpath : ReflTransGen m.Link i t) :
    (∃ u, interface u t) ∧ (i = t ∨ ∃ v, ReflTransGen m.Link i v ∧ m.InterfaceLink v t) := by
  induction hpath with
  | refl => exact ⟨⟨u, hi⟩, Or.inl rfl⟩
  | @tail v t hiv hvt ih =>
    obtain ⟨⟨w, hw⟩, -⟩ := ih
    rcases hvt with hvt | hvt
    · exact absurd (h.superLink hvt) (hapart _ _ _ hw)
    · exact ⟨⟨v, h.interfaceLink hvt⟩, Or.inr ⟨v, hiv, hvt⟩⟩

/-- To a type with a superclass only superclass links lead. -/
lemma Within.superLinks_of_links (h : Within superclass interface m) {u : Handle}
    (ht : superclass t u) (hpath : ReflTransGen m.Link s t) : ReflTransGen m.SuperLink s t := by
  induction hpath generalizing u with
  | refl => exact ReflTransGen.refl
  | tail _ hvt ih =>
    rcases hvt with hvt | hvt
    · exact (ih (h.superLink hvt)).tail hvt
    · exact absurd ht (hapart _ _ _ (h.interfaceLink hvt))

/-- No step of a question closes a circle of accepted links, if types with superclasses and types
in interface lists are kept apart. -/
lemma acyclic_link_fill (hr : r.Sound) (hsound : Sound r m)
    (hsuper : ∀ {t s}, r.declaredSuperclass t = .ok (some s) → superclass t s)
    (hinterface : ∀ {t i links}, r.declaredInterfaces t = .ok links → i ∈ links → interface t i)
    (h : Acyclic m.Link) (hwithin : Within superclass interface m) (hstep : Fill r m m') :
    Acyclic m'.Link := by
  rcases hstep.links with ⟨t, link, -, hdecl, hcheck, hadds⟩ |
    ⟨t, links, -, hdecl, hcheck, hadds⟩ | hsame
  · refine h.add_links (t := t) fun a b hl => ?_
    rcases hl with hl | hl
    · rcases hadds.superLink hl with hl | ⟨rfl, rfl⟩
      · exact Or.inl (Or.inl hl)
      · refine Or.inr ⟨rfl, fun hpath => ?_⟩
        have hsupers := hwithin.superLinks_of_links hapart (hsuper hdecl) hpath
        exact not_superLinks_of_checkChain (hcheck b rfl) hsupers
    · exact Or.inl (Or.inr (hadds.interfaceLink hl))
  · have hissued : ∀ i ∈ links, r.Issued i := fun i hi =>
      hr.closed.issued_of_declaredInterfaces hdecl hi
    have hfree := Registry.not_implements_of_checkInterfaces hcheck
      (fun u v _ => hsound.issued_of_effectiveLink hr) hissued
    have heffective : r.effectiveInterfaces m t = .ok links := by
      rw [Registry.effectiveInterfaces_of_none hadds.free, hdecl]
    refine h.add_links (t := t) fun a b hl => ?_
    rcases hl with hl | hl
    · exact Or.inl (Or.inl (hadds.superLink hl))
    · rcases hadds.interfaceLink hl with hl | ⟨rfl, hb⟩
      · exact Or.inl (Or.inr hl)
      · refine Or.inr ⟨rfl, fun hpath => hfree b hb ?_⟩
        rcases (hwithin.interfaceLink_last hapart (hinterface hdecl hb) hpath).2 with
          rfl | ⟨v, hbv, hva⟩
        · exact ⟨b, ReflTransGen.refl, links, heffective, hb⟩
        · exact ⟨v, ReflTransGen.mono (fun _ _ => Link.effective) _ _ hbv, hva.effective⟩
  · exact h.mono fun a b => Or.imp hsame.superLink hsame.interfaceLink

end Apart

/-- A step of a question accepts declared links only. -/
lemma Within.fill {superclass interface : Handle → Handle → Prop}
    (hsuper : ∀ {t s}, r.declaredSuperclass t = .ok (some s) → superclass t s)
    (hinterface : ∀ {t i links}, r.declaredInterfaces t = .ok links → i ∈ links → interface t i)
    (h : Within superclass interface m) (hstep : Fill r m m') :
    Within superclass interface m' := by
  rcases hstep.links with ⟨t, link, -, hdecl, -, hadds⟩ | ⟨t, links, -, hdecl, -, hadds⟩ | hsame
  · refine ⟨fun hl => ?_, fun hl => h.interfaceLink (hadds.interfaceLink hl)⟩
    rcases hadds.superLink hl with hl | ⟨rfl, rfl⟩
    · exact h.superLink hl
    · exact hsuper hdecl
  · refine ⟨fun hl => h.superLink (hadds.superLink hl), fun hl => ?_⟩
    rcases hadds.interfaceLink hl with hl | ⟨rfl, hb⟩
    · exact h.interfaceLink hl
    · exact hinterface hdecl hb
  · exact ⟨fun hl => h.superLink (hsame.superLink hl),
      fun hl => h.interfaceLink (hsame.interfaceLink hl)⟩

end Memory

end TypeGraph
