import Mathlib.Logic.Relation
import TypeGraph.Proofs.Supertype.Acyclic

/-!
# Walks along accepted links come to an end

A walk asks for the supertypes of a type before it goes on to them, so by the time it gets there
the links are accepted, and they stay accepted while it looks around. The types that the walk is
passing through are therefore on a path of accepted links. If those form no circle, the walk never
meets a type that it is passing through.
-/

namespace TypeGraph.Query

open Relation Memory

variable {α : Type} {r : Registry} {m m' : Memory} {s t target : Handle} {trail : List Handle}
  {inv : Memory → Prop}

/-! ## Properties that questions keep -/

/-- A property of memories that every step of a question keeps. -/
def Stable (r : Registry) (inv : Memory → Prop) : Prop :=
  ∀ m m', inv m → Fill r m m' → inv m'

lemma Stable.fills (h : Stable r inv) (hm : inv m) (hfills : ReflTransGen (Fill r) m m') :
    inv m' := by
  induction hfills with
  | refl => exact hm
  | tail _ hstep ih => exact h _ _ ih hstep

/-- What follows from the accepted links may be added to a stable property. -/
lemma Stable.and_keeps (h : Stable r inv) {extra : Memory → Prop}
    (hextra : ∀ m m', Keeps m m' → extra m → extra m') :
    Stable r fun m => inv m ∧ extra m :=
  fun m m' hm hstep => ⟨h m m' hm.1 hstep, hextra m m' (Keeps.of_fill hstep) hm.2⟩

lemma Stable.and_superclass (h : Stable r inv) (t : Handle) (link : Option Handle) :
    Stable r fun m => inv m ∧ (m.about t).superclass = some link :=
  h.and_keeps fun _ _ hkeeps => hkeeps.superclass

lemma Stable.and_interfaces (h : Stable r inv) (t : Handle) (links : List Handle) :
    Stable r fun m => inv m ∧ (m.about t).interfaces = some links :=
  h.and_keeps fun _ _ hkeeps => hkeeps.interfaces

/-! ## The questions on the way -/

lemma superclass_triple (hr : r.Sound) (ht : r.Issued t) (hinv : Stable r inv) :
    Triple r inv (superclass t) (fun link m => inv m ∧ (m.about t).superclass = some link)
      fun e _ => e.isEndless = false := by
  intro m hm
  have hafter := hinv.fills hm (fills_superclass ht m)
  cases hslot : (m.about t).superclass with
  | some link =>
    rw [answer_superclass_some hslot]
    exact ⟨hm, hslot⟩
  | none =>
    rw [answer_superclass_none hslot] at hafter ⊢
    rcases hdecl : r.declaredSuperclass t with e | link
    · exact hr.proper_of_declaredSuperclass hdecl
    · rcases hcheck : link.elim (.ok ()) (r.checkChain m [t]) with e | u
      · simp only [hcheck]
        cases link with
        | none => cases hcheck
        | some s =>
          rcases Registry.checkChain_eq_error hcheck with ⟨u, hu⟩ | ⟨name, span, rfl⟩
          · exact hr.proper_of_fails hu
          · rfl
      · simp only [hdecl, hcheck] at hafter ⊢
        exact ⟨hafter, by rw [about_update_self]⟩

lemma interfaces_triple (hr : r.Sound) (ht : r.Issued t) (hinv : Stable r inv) :
    Triple r inv (interfaces t) (fun links m => inv m ∧ (m.about t).interfaces = some links)
      fun e _ => e.isEndless = false := by
  intro m hm
  have hafter := hinv.fills hm (fills_interfaces ht m)
  cases hslot : (m.about t).interfaces with
  | some links =>
    rw [answer_interfaces_some hslot]
    exact ⟨hm, hslot⟩
  | none =>
    rw [answer_interfaces_none hslot] at hafter ⊢
    rcases hdecl : r.declaredInterfaces t with e | links
    · exact hr.proper_of_declaredInterfaces hdecl
    · rcases hcheck : r.checkInterfaces m t links with e | u
      · simp only [hcheck]
        rcases Registry.checkInterfaces_eq_error hcheck with ⟨u, hu⟩ | ⟨name, span, rfl⟩
        · exact hr.proper_of_fails hu
        · rfl
      · simp only [hdecl, hcheck] at hafter ⊢
        exact ⟨hafter, by rw [about_update_self]⟩

lemma methods_triple (ht : r.Issued t) (hinv : Stable r inv) {fails : Error → Memory → Prop} :
    Triple r inv (methods t) (fun _ => inv) fails := by
  refine Triple.of_ok fun m hm => ?_
  obtain ⟨list, m', hans⟩ := exists_methods (r := r) t m
  have hafter := hinv.fills hm (fills_methods ht m)
  rw [hans] at hafter
  exact ⟨list, m', hans, hafter⟩

/-! ## The superclass chain -/

/-- Climbing ends where the accepted superclasses form no circle, and it meets the target only
above the start. -/
lemma climbs_triple (hr : r.Sound) (hinv : Stable r inv) (hsound : ∀ m, inv m → m.Sound r)
    (hacyclic : ∀ m, inv m → Acyclic m.SuperLink) (ht : r.Issued t)
    (htrail : ∀ m, inv m → ∀ x ∈ trail, TransGen m.SuperLink x t) :
    Triple r inv (climbs r.size target trail t)
      (fun b m => inv m ∧ (b = true → TransGen m.SuperLink t target))
      fun e _ => e.isEndless = false := by
  induction trail, t using climbs.induct r.size generalizing inv with
  | case1 trail t hopen ih =>
    rw [climbs, dif_pos hopen]
    refine (superclass_triple hr ht hinv).bind fun link => ?_
    cases link with
    | none => exact Triple.pure false fun m hm => ⟨hm.1, by simp⟩
    | some s =>
      dsimp only
      split
      next htarget =>
        subst htarget
        exact Triple.pure true fun m hm => ⟨hm.1, fun _ => TransGen.single hm.2⟩
      next =>
        intro m hm
        refine (ih s (hinv.and_superclass t (some s)) (fun m hm => hsound m hm.1)
          (fun m hm => hacyclic m hm.1) ((hsound m hm.1).superclass_issued hm.2) ?_).conseq
          (fun _ h => h) ?_ (fun _ _ h => h) m hm
        · exact fun m hm => Trail.leads_cons hm.2 (htrail m hm.1)
        · rintro b m ⟨hm, hb⟩
          exact ⟨hm.1, fun h => TransGen.head hm.2 (hb h)⟩
  | case2 trail t hclosed =>
    intro m hm
    refine absurd ⟨ht, fun hmem => ?_⟩ hclosed
    exact hacyclic m hm t (htrail m hm t hmem)

/-! ## All supertypes -/

/-- On the way along accepted links the next type is always open. -/
lemma open_of_acyclic (hacyclic : Acyclic m.Link) (ht : r.Issued t)
    (htrail : ∀ x ∈ trail, TransGen m.Link x t) : Trail.Open r.size trail t :=
  ⟨ht, fun hmem => hacyclic t (htrail t hmem)⟩

lemma reaches_triple (hr : r.Sound) (hinv : Stable r inv) (hsound : ∀ m, inv m → m.Sound r)
    (hacyclic : ∀ m, inv m → Acyclic m.Link) (ht : r.Issued t)
    (htrail : ∀ m, inv m → ∀ x ∈ trail, TransGen m.Link x t) :
    Triple r inv (reaches r.size target trail t) (fun _ => inv) fun e _ => e.isEndless = false := by
  induction trail, t using reaches.induct r.size target generalizing inv with
  | case1 trail t hopen ih =>
    rw [reaches, dif_pos hopen]
    refine (interfaces_triple hr ht hinv).bind fun links => ?_
    have hinv' := hinv.and_interfaces t links
    refine Triple.bind (?_ : Triple r _ _ (fun _ => inv) _) fun direct => ?_
    · refine (Triple.anyM (p := fun _ _ => True) fun i hi => ?_).conseq (fun _ h => h)
        (fun _ _ h => h.1.1) (fun _ _ h => h)
      split
      · exact Triple.pure true fun m hm => ⟨hm, trivial⟩
      · intro m hm
        have hlink : ∀ m, inv m ∧ (m.about t).interfaces = some links → m.Link t i :=
          fun m hm => Or.inr ⟨links, hm.2, hi⟩
        refine (ih i hinv' (fun m hm => hsound m hm.1) (fun m hm => hacyclic m hm.1)
          ((hsound m hm.1).issued_of_link (hlink m hm)) ?_).conseq
          (fun _ h => h) (fun _ _ h => ⟨h, trivial⟩) (fun _ _ h => h) m hm
        exact fun m hm => Trail.leads_cons (hlink m hm) (htrail m hm.1)
    · cases direct with
      | true => exact Triple.pure true fun m hm => hm
      | false =>
        refine (superclass_triple hr ht hinv).bind fun link => ?_
        cases link with
        | none => exact Triple.pure false fun m hm => hm.1
        | some s =>
          intro m hm
          refine (ih s (hinv.and_superclass t (some s)) (fun m hm => hsound m hm.1)
            (fun m hm => hacyclic m hm.1) ((hsound m hm.1).superclass_issued hm.2) ?_).conseq
            (fun _ h => h) (fun _ _ h => h.1) (fun _ _ h => h) m hm
          exact fun m hm => Trail.leads_cons (Or.inl hm.2) (htrail m hm.1)
  | case2 trail t hclosed =>
    intro m hm
    exact absurd (open_of_acyclic (hacyclic m hm) ht (htrail m hm)) hclosed

lemma collectMethods_triple (hr : r.Sound) (hinv : Stable r inv)
    (hsound : ∀ m, inv m → m.Sound r) (hacyclic : ∀ m, inv m → Acyclic m.Link)
    (collected : List Method) (ht : r.Issued t)
    (htrail : ∀ m, inv m → ∀ x ∈ trail, TransGen m.Link x t) :
    Triple r inv (collectMethods r.size trail collected t) (fun _ => inv)
      fun e _ => e.isEndless = false := by
  induction trail, collected, t using collectMethods.induct r.size generalizing inv with
  | case1 trail collected t hopen ih =>
    rw [collectMethods, dif_pos hopen]
    refine Triple.read_bind ((methods_triple ht hinv).bind fun list => ?_)
    -- the supertypes are visited one after the other, each with its link accepted
    have hvisit : ∀ (links : List Handle) (accepted : Memory → Prop),
        Stable r (fun m => inv m ∧ accepted m) →
        (∀ m, inv m ∧ accepted m → ∀ s ∈ links, m.Link t s) → ∀ collected,
        Triple r (fun m => inv m ∧ accepted m)
          (links.foldlM (collectMethods r.size (t :: trail)) collected) (fun _ => inv)
          fun e _ => e.isEndless = false := by
      intro links accepted hstable hlinks collected
      refine (Triple.foldlM (I := fun _ m => inv m ∧ accepted m) (fun collected s hs => ?_)
        collected).conseq (fun _ h => h) (fun _ _ h => h.1) (fun _ _ h => h)
      intro m hm
      exact ih collected s hstable (fun m hm => hsound m hm.1) (fun m hm => hacyclic m hm.1)
        ((hsound m hm.1).issued_of_link (hlinks m hm s hs))
        (fun m hm => Trail.leads_cons (hlinks m hm s hs) (htrail m hm.1)) m hm
    refine (superclass_triple hr ht hinv).bind fun link =>
      Triple.bind (?_ : Triple r _ _ (fun _ => inv) _) ?_
    · refine hvisit _ _ (hinv.and_superclass t link) (fun m hm s hs => Or.inl ?_) _
      rw [SuperLink, hm.2, Option.mem_toList.1 hs]
    · intro collected
      refine (interfaces_triple hr ht hinv).bind fun links => ?_
      exact hvisit _ _ (hinv.and_interfaces t links)
        (fun m hm s hs => Or.inr ⟨links, hm.2, hs⟩) _
  | case2 trail collected t hclosed =>
    intro m hm
    exact absurd (open_of_acyclic (hacyclic m hm) ht (htrail m hm)) hclosed

/-! ## Assignability -/

/-- Assignability keeps what the questions that it asks keep, and fails where they fail. -/
lemma assignable_rule (hr : r.Sound) {fails : Error → Memory → Prop}
    (hsubclass : ∀ {s}, r.Issued s → ∀ t, Triple r inv (isSubclass s t) (fun _ => inv) fails)
    (himplements : ∀ {s}, r.Issued s → ∀ t, Triple r inv (implements s t) (fun _ => inv) fails)
    {source : Handle} (hsource : r.Issued source) (target : Handle) :
    Triple r inv (assignable target source) (fun _ => inv) fails := by
  induction target, source using assignable.induct with
  | case1 target source ih =>
    rw [assignable]
    refine Triple.read_bind ?_
    split
    · exact Triple.pure true fun m hm => hm
    split
    · exact Triple.pure true fun m hm => hm
    refine (hsubclass hsource target).bind fun climbs => ?_
    split
    · exact Triple.pure true fun m hm => hm
    refine (himplements hsource target).bind fun reaches => ?_
    split
    · exact Triple.pure true fun m hm => hm
    split
    · exact Triple.pure true fun m hm => hm
    split
    · next targetComponent sourceComponent htarget hcomponent =>
      split
      · exact Triple.pure false fun m hm => hm
      · obtain ⟨root, hshape⟩ := hr.component?_eq_some_iff.1 hcomponent
        exact ih r targetComponent sourceComponent htarget (hr.issued_component hshape)
    · exact Triple.pure false fun m hm => hm

end TypeGraph.Query
