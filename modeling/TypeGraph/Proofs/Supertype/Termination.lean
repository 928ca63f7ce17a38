import TypeGraph.Proofs.Run
import TypeGraph.Proofs.Supertype.Walk

/-!
# Runs never close a circle of accepted links

Links are accepted one at a time, against declarations that may be edited later, and accepted links
are never looked at again. Still no run ever accepts a circle of superclasses. Circles that go
through interfaces can be accepted, but only if some type in an interface list has a superclass at
some time of the run; in all other runs the walks through supertypes come to an end.
-/

namespace TypeGraph

open Relation Memory

namespace Query

variable {r : Registry} {inv : Memory → Prop} {t : Handle}

/-! ## Questions that walk through supertypes -/

section Walks

variable (hr : r.Sound) (hinv : Stable r inv) (hsound : ∀ m, inv m → m.Sound r)
include hr hinv hsound

lemma isSubclass_triple (hacyclic : ∀ m, inv m → Acyclic m.SuperLink) (ht : r.Issued t)
    (target : Handle) :
    Triple r inv (isSubclass t target)
      (fun b m => inv m ∧ (b = true → TransGen m.SuperLink t target))
      fun e _ => e.isEndless = false :=
  Triple.read_bind (climbs_triple hr hinv hsound hacyclic ht (by simp))

variable (hacyclic : ∀ m, inv m → Acyclic m.Link)
include hacyclic

lemma implements_triple (ht : r.Issued t) (target : Handle) :
    Triple r inv (implements t target) (fun _ => inv) fun e _ => e.isEndless = false :=
  Triple.read_bind (reaches_triple hr hinv hsound hacyclic ht (by simp))

lemma proper_of_allMethods (ht : r.Issued t) {m : Memory} (hm : inv m) {e : Error}
    (he : ((allMethods t).answer r m).1 = .error e) : e.isEndless = false := by
  cases hslot : (m.about t).allMethods with
  | some list =>
    rw [allMethods, answer_once_some hslot] at he
    cases he
  | none =>
    have hcollect : Triple r inv (collectMethods r.size [] [] t) (fun _ => inv)
        fun e _ => e.isEndless = false :=
      collectMethods_triple hr hinv hsound hacyclic [] ht (by simp)
    replace hcollect := hcollect m hm
    rw [allMethods, answer_once_none hslot, answer_bind_ok (answer_read r m)] at he
    rcases hans : (collectMethods r.size [] [] t).answer r m with ⟨e' | list, m'⟩ <;>
      rw [hans] at hcollect he
    · cases he
      exact hcollect
    · cases he

lemma assignable_triple {source : Handle} (hsource : r.Issued source) (target : Handle) :
    Triple r inv (assignable target source) (fun _ => inv) fun e _ => e.isEndless = false := by
  have hsupers : ∀ m, inv m → Acyclic m.SuperLink :=
    fun m hm => (hacyclic m hm).mono fun _ _ => Or.inl
  refine assignable_rule hr (fun hs t => ?_)
    (fun hs t => implements_triple hr hinv hsound hacyclic hs t) hsource target
  exact (isSubclass_triple hr hinv hsound hsupers hs t).conseq (fun _ h => h) (fun _ _ h => h.1)
    (fun _ _ h => h)

end Walks

end Query

/-! ## Runs -/

/-- At some time of the run the first type declares the second as its superclass. -/
def DeclaresSuperclass (graphs : List Graph) (t s : Handle) : Prop :=
  ∃ g ∈ graphs, g.registry.declaredSuperclass t = .ok (some s)

/-- At some time of the run the second type is in the interface list of the first. -/
def DeclaresInterface (graphs : List Graph) (t i : Handle) : Prop :=
  ∃ g ∈ graphs, ∃ links, g.registry.declaredInterfaces t = .ok links ∧ i ∈ links

/-- No type that is in an interface list at some time of the run has a superclass at some time. -/
def InterfacesApart (graphs : List Graph) : Prop :=
  ∀ t i s, DeclaresInterface graphs t i → ¬ DeclaresSuperclass graphs i s

/-- Only the types that a graph holds have interface lists, so the condition can be checked. -/
lemma interfacesApart_iff {graphs : List Graph} :
    InterfacesApart graphs ↔ ∀ g₁ ∈ graphs, ∀ n < g₁.registry.size,
      ∀ i ∈ (g₁.registry.declaredInterfaces ⟨n⟩).toOption.getD [], ∀ g₂ ∈ graphs,
        (g₂.registry.declaredSuperclass i).toOption.join = none := by
  constructor
  · intro h g₁ hg₁ n _ i hi g₂ hg₂
    cases hlinks : g₁.registry.declaredInterfaces ⟨n⟩ with
    | error e => simp [hlinks, Except.toOption] at hi
    | ok links =>
      have hdecl : DeclaresInterface graphs ⟨n⟩ i :=
        ⟨g₁, hg₁, links, hlinks, by simpa [hlinks, Except.toOption] using hi⟩
      rcases hsuper : g₂.registry.declaredSuperclass i with e | _ | s
      · rfl
      · rfl
      · exact absurd ⟨g₂, hg₂, hsuper⟩ (h ⟨n⟩ i s hdecl)
  · rintro h ⟨n⟩ i s ⟨g₁, hg₁, links, hlinks, hi⟩ ⟨g₂, hg₂, hsuper⟩
    by_cases hn : n < g₁.registry.size
    · have hnone := h g₁ hg₁ n hn i (by simpa [hlinks, Except.toOption] using hi) g₂ hg₂
      simp [hsuper, Except.toOption] at hnone
    · have hshape : g₁.registry.shape ⟨n⟩ = .primitive .void := Registry.shape_of_not_issued hn
      simp only [Registry.declaredInterfaces, Registry.declaration?, hshape] at hlinks
      cases hlinks
      cases hi

instance (graphs : List Graph) : Decidable (InterfacesApart graphs) :=
  decidable_of_iff _ interfacesApart_iff.symm

/-- What holds of the memory after a run, and is kept by every step of a question. -/
structure Layered (graphs : List Graph) (r : Registry) (m : Memory) : Prop where
  sound : m.Sound r
  within : Within (DeclaresSuperclass graphs) (DeclaresInterface graphs) m
  acyclic : Acyclic m.Link

lemma Layered.stable {graphs : List Graph} (hapart : InterfacesApart graphs) {g : Graph}
    (hg : g ∈ graphs) (hr : g.registry.Sound) :
    Query.Stable g.registry (Layered graphs g.registry) := by
  intro m m' hm hstep
  have hsuper : ∀ {t s}, g.registry.declaredSuperclass t = .ok (some s) →
      DeclaresSuperclass graphs t s := fun hdecl => ⟨g, hg, hdecl⟩
  have hinterface : ∀ {t i links}, g.registry.declaredInterfaces t = .ok links → i ∈ links →
      DeclaresInterface graphs t i := fun hdecl hi => ⟨g, hg, _, hdecl, hi⟩
  exact ⟨hm.sound.fill hr hstep, hm.within.fill hsuper hinterface hstep,
    acyclic_link_fill hapart hr hm.sound hsuper hinterface hm.acyclic hm.within hstep⟩

lemma acyclic_empty : Acyclic empty.Link := by
  intro t hcycle
  obtain ⟨s, hs, -⟩ := TransGen.head'_iff.1 hcycle
  simp [Memory.Link, SuperLink, InterfaceLink] at hs

lemma Run.acyclic_superLink {g : Graph} {past : List Graph} (h : Run (g :: past)) :
    Acyclic g.memory.SuperLink := by
  refine h.induction (motive := fun x => Acyclic x.memory.SuperLink)
    (acyclic_empty.mono fun _ _ => Or.inl) ?_
  intro g₁ _ g₂ _ hacyclic hstep
  cases hstep with
  | extend => exact hacyclic
  | ask hfills =>
    have hstable : Query.Stable g₁.registry fun m => Acyclic m.SuperLink :=
      fun m m' hm hfill => acyclic_superLink_fill hm hfill
    exact hstable.fills hacyclic hfills
  | forget hsame => exact hacyclic.mono fun a b => hsame.superLink

lemma Run.layered {g : Graph} {past : List Graph} (h : Run (g :: past))
    (hapart : InterfacesApart (g :: past)) : Layered (g :: past) g.registry g.memory := by
  refine h.induction (motive := fun x => Layered (g :: past) x.registry x.memory) ?_ ?_
  · exact ⟨sound_empty _, ⟨by simp [SuperLink], by simp [InterfaceLink]⟩, acyclic_empty⟩
  · intro g₁ hg₁ g₂ hsound hlayered hstep
    cases hstep with
    | extend hextends =>
      exact ⟨hlayered.sound.of_extends hextends, hlayered.within, hlayered.acyclic⟩
    | ask hfills =>
      exact (Layered.stable hapart (by simp [hg₁]) hsound.registry).fills hlayered hfills
    | forget hsame =>
      exact ⟨hlayered.sound.sameLinks hsame,
        ⟨fun hl => hlayered.within.superLink (hsame.superLink hl),
          fun hl => hlayered.within.interfaceLink (hsame.interfaceLink hl)⟩,
        hlayered.acyclic.mono fun a b => Or.imp hsame.superLink hsame.interfaceLink⟩

/-- The question comes to an end in a graph: it is answered, or it fails for another cause than a
walk that came back to a type on its way. -/
def Graph.Ends {α : Type} (g : Graph) (q : Query α) : Prop :=
  ∀ e, (q.answer g.registry g.memory).1 = .error e → e.isEndless = false

lemma Graph.ends_of_triple {α : Type} {g : Graph} {q : Query α} {inv : Memory → Prop}
    {post : α → Memory → Prop}
    (h : Query.Triple g.registry inv q post fun e _ => e.isEndless = false) (hm : inv g.memory) :
    g.Ends q := by
  intro e he
  rcases hans : q.answer g.registry g.memory with ⟨e' | a, m'⟩ <;> rw [hans] at he <;> cases he
  exact h.fails_of_error hm hans

/-- **Accepted links stay acyclic.** After every run the accepted superclasses form no circle, so
climbing them ends, and no type is its own subclass. If no type of an interface list ever has a
superclass, the accepted links of both kinds form no circle: no type occurs twice on a path of them,
and all walks come to an end. A walk gives up as endless exactly when it enters a type that it is
passing through already, so in each chain of nested calls the types are distinct. -/
theorem acyclic_of_run {g : Graph} {past : List Graph} (h : Run (g :: past)) :
    Acyclic g.memory.SuperLink ∧
    (∀ t, g.registry.Issued t →
      (∀ target, g.Ends (Query.isSubclass t target)) ∧
      ((Query.isSubclass t t).answer g.registry g.memory).1 ≠ .ok true) ∧
    (InterfacesApart (g :: past) →
      Acyclic g.memory.Link ∧
      (∀ chain : List Handle, chain.IsChain g.memory.Link → chain.Nodup) ∧
      ∀ t, g.registry.Issued t →
        g.Ends (Query.allMethods t) ∧
        ∀ target, g.Ends (Query.implements t target) ∧ g.Ends (Query.assignable target t)) := by
  have hr := h.sound.registry
  refine ⟨h.acyclic_superLink, fun t ht => ?_, fun hapart => ?_⟩
  · have hstable : Query.Stable g.registry fun m =>
        m.Sound g.registry ∧ Acyclic m.SuperLink :=
      fun m m' hm hfill => ⟨hm.1.fill hr hfill, acyclic_superLink_fill hm.2 hfill⟩
    have hmemory := And.intro h.sound.memory h.acyclic_superLink
    have hclimb := fun target => Query.isSubclass_triple hr hstable (fun m hm => hm.1)
      (fun m hm => hm.2) ht target
    refine ⟨fun target => Graph.ends_of_triple (hclimb target) hmemory, fun htrue => ?_⟩
    rcases hans : (Query.isSubclass t t).answer g.registry g.memory with ⟨e | b, m⟩ <;>
      rw [hans] at htrue <;> cases htrue
    -- after the answer there would be a circle through the type
    obtain ⟨hm, hcycle⟩ := (hclimb t).post_of_ok hmemory hans
    exact hm.2 t (hcycle rfl)
  · have hlayered := h.layered hapart
    have hstable := Layered.stable hapart (List.mem_cons_self ..) hr
    have hsound : ∀ m, Layered (g :: past) g.registry m → m.Sound g.registry := fun m hm => hm.sound
    have hacyclic : ∀ m, Layered (g :: past) g.registry m → Acyclic m.Link := fun m hm => hm.acyclic
    refine ⟨hlayered.acyclic, fun chain => hlayered.acyclic.nodup_of_isChain, fun t ht => ?_⟩
    refine ⟨fun e he => ?_, fun target => ⟨?_, ?_⟩⟩
    · exact Query.proper_of_allMethods hr hstable hsound hacyclic ht hlayered he
    · exact Graph.ends_of_triple (Query.implements_triple hr hstable hsound hacyclic ht target)
        hlayered
    · exact Graph.ends_of_triple (Query.assignable_triple hr hstable hsound hacyclic ht target)
        hlayered

/-- A class and its superclass, an interface of the class and one that this extends; then the class
is asked for its methods, so that all of their links are accepted. -/
def familyRun : List Action :=
  [.ask (.allMethods ⟨12⟩),
   .edit ⟨12⟩ (.addInterface ⟨10⟩),
   .define (.draft { Draft.ofClass "Child" with superclass := some ⟨11⟩ }),
   .define (.draft (Draft.ofClass "Parent")),
   .define (.draft { Draft.ofInterface "Lower" with interfaces := [⟨9⟩] }),
   .define (.draft (Draft.ofInterface "Upper"))]

theorem acyclic_of_run_family :
    (Run.after familyRun).memory.SuperLink ⟨12⟩ ⟨11⟩ ∧
    (Run.after familyRun).memory.InterfaceLink ⟨12⟩ ⟨10⟩ ∧
    (Run.after familyRun).memory.InterfaceLink ⟨10⟩ ⟨9⟩ ∧
    Acyclic (Run.after familyRun).memory.Link ∧
    (Run.after familyRun).Ends (Query.assignable ⟨9⟩ ⟨12⟩) := by
  have hrun : Run (Run.after familyRun :: Run.past familyRun) :=
    Run.of_allowed (by decide +kernel)
  obtain ⟨-, -, h⟩ := acyclic_of_run hrun
  obtain ⟨hacyclic, -, hends⟩ := h (by decide +kernel)
  refine ⟨by unfold Memory.SuperLink; decide +kernel, ⟨[⟨10⟩], by decide +kernel, by simp⟩,
    ⟨[⟨9⟩], by decide +kernel, by simp⟩, hacyclic, ?_⟩
  exact ((hends ⟨12⟩ (by decide +kernel)).2 ⟨9⟩).2

end TypeGraph
