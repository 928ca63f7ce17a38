import Mathlib.Order.Defs.Unbundled
import TypeGraph.Proofs.Conversion.Widening

/-!
# Assignability is widening

In a well-formed graph every question whether one type can be assigned to another is answered, and
the answer is whether the one widens to the other. So on the types of such a graph assignability is
a partial order.
-/

namespace TypeGraph

open Relation

namespace Query

variable {r : Registry} {m₀ : Memory} {t target source : Handle}

section Settled

variable (h₀ : r.Lawful m₀)
include h₀

lemma isSubclass_settled (ht : r.Issued t) (target : Handle) :
    Triple r (Settled r m₀) (isSubclass t target)
      (fun b m => Settled r m₀ m ∧ (b = true ↔ TransGen (r.SuperLink m₀) t target))
      fun _ _ => False :=
  Triple.read_bind (climbs_settled h₀ ht (by simp))

lemma implements_settled (ht : r.Issued t) (target : Handle) :
    Triple r (Settled r m₀) (implements t target)
      (fun b m => Settled r m₀ m ∧ (b = true ↔ r.Implements m₀ t target))
      fun _ _ => False :=
  Triple.read_bind (reaches_settled h₀ ht (by simp))

omit h₀ in
/-- Where no condition on the types themselves holds, their components decide. -/
lemma tested_iff_components (hsame : target ≠ source) (hprimitive : ¬ r.widensTo source target)
    (hsubclass : ¬ TransGen (r.SuperLink m₀) source target)
    (himplements : ¬ r.Implements m₀ source target) (hkind : ¬ r.widensByKind source target) :
    r.Tested m₀ source target ↔ ∃ a b, r.component? source = some a ∧
      r.component? target = some b ∧ r.isPrimitive b = false ∧ r.Widens m₀ a b := by
  constructor
  · intro htest
    cases htest with
    | same heq => exact absurd heq.symm hsame
    | primitive h => exact absurd h hprimitive
    | subclass h => exact absurd h hsubclass
    | implements h => exact absurd h himplements
    | kind h => exact absurd h hkind
    | components ha hb hprim hab => exact ⟨_, _, ha, hb, hprim, hab⟩
  · rintro ⟨a, b, ha, hb, hprim, hab⟩
    exact .components ha hb hprim hab

lemma assignable_settled (hsource : r.Issued source) (target : Handle) :
    Triple r (Settled r m₀) (assignable target source)
      (fun b m => Settled r m₀ m ∧ (b = true ↔ r.Widens m₀ source target))
      fun _ _ => False := by
  induction target, source using assignable.induct with
  | case1 target source ih =>
    have hyes : r.Tested m₀ source target → Triple r (Settled r m₀) (pure true)
        (fun b m => Settled r m₀ m ∧ (b = true ↔ r.Widens m₀ source target)) fun _ _ => False :=
      fun htest => Triple.pure true fun m hm => ⟨hm, by simpa using htest.widens h₀⟩
    rw [assignable]
    refine Triple.read_bind ?_
    split
    next heq => exact hyes (.same heq.symm)
    next hsame =>
    split
    next hwidens => exact hyes (.primitive hwidens)
    next hprimitive =>
    refine (isSubclass_settled h₀ hsource target).bind fun climbs =>
      Triple.given fun hclimbs => ?_
    split
    next hsub => exact hyes (.subclass (hclimbs.1 hsub))
    next hsub =>
    refine (implements_settled h₀ hsource target).bind fun reaches =>
      Triple.given fun hreaches => ?_
    split
    next himpl => exact hyes (.implements (hreaches.1 himpl))
    next himpl =>
    split
    next hwidens => exact hyes (.kind hwidens)
    next hkind =>
    have hcomponents := tested_iff_components hsame hprimitive (mt hclimbs.2 hsub)
      (mt hreaches.2 himpl) hkind
    rw [h₀.tested_iff_widens] at hcomponents
    split
    next b a hb ha =>
      split
      next hprim => exact Triple.pure false fun m hm => ⟨hm, by simp [hcomponents, hb, hprim]⟩
      next hprim =>
        obtain ⟨root, hshape⟩ := h₀.registry.component?_eq_some_iff.1 ha
        have hissued := h₀.registry.issued_component hshape
        refine (ih r b a hb hissued).conseq (fun _ h => h) (fun c m hm => ?_) (fun _ _ h => h)
        exact ⟨hm.1, by simp [hcomponents, ha, hb, hprim, hm.2]⟩
    next hnone =>
      refine Triple.pure false fun m hm => ⟨hm, ?_⟩
      have hnever : ¬ r.Widens m₀ source target := by
        rw [hcomponents]
        rintro ⟨a, b, ha, hb, -⟩
        exact hnone b a hb ha
      simp [hnever]

end Settled

end Query

/-! ## Graphs -/

namespace Graph

/-- The answer to a question, where it is not looked at what the graph remembers of it. -/
def answer {α : Type} (g : Graph) (q : Query α) : Except Error α :=
  (q.answer g.registry g.memory).1

/-- The graph is well-formed. -/
def WellFormed (g : Graph) : Prop := g.registry.WellFormed g.memory

/-- One step of widening in the graph. -/
def WidensStep (g : Graph) : Handle → Handle → Prop := g.registry.WidensStep g.memory

variable {g : Graph} {s t : Handle}

lemma Reachable.lawful (hg : g.Reachable) (hwf : g.WellFormed) : g.registry.Lawful g.memory :=
  { hwf with registry := hg.sound.registry, memory := hg.sound.memory }

lemma answer_assignable (h : g.registry.Lawful g.memory) (hs : g.registry.Issued s) (t : Handle) :
    ∃ b, g.answer (Query.assignable t s) = .ok b ∧
      (b = true ↔ g.registry.Widens g.memory s t) := by
  obtain ⟨b, m, hanswer, -, hb⟩ :=
    (Query.assignable_settled h hs t).exists_ok (Query.settled_refl h)
  exact ⟨b, by simp [answer, hanswer], hb⟩

lemma answer_assignable_eq_true_iff (h : g.registry.Lawful g.memory) (hs : g.registry.Issued s)
    (t : Handle) :
    g.answer (Query.assignable t s) = .ok true ↔ g.registry.Widens g.memory s t := by
  obtain ⟨b, hanswer, hb⟩ := answer_assignable h hs t
  rw [hanswer, ← hb]
  simp

/-- **Assignability is widening.** In a well-formed graph that some run leads to, every question
whether a type can be assigned to another is answered, the answer is whether steps of widening lead
from the one to the other, and so assignability is a partial order on the types of the graph. -/
theorem assignable_iff_widens (hg : g.Reachable) (hwf : g.WellFormed) :
    (∀ t s, g.registry.Issued t → g.registry.Issued s →
      ∃ b, g.answer (Query.assignable t s) = .ok b ∧
        (b = true ↔ ReflTransGen g.WidensStep s t)) ∧
    IsPartialOrder { t // g.registry.Issued t }
      fun s t => g.answer (Query.assignable t.1 s.1) = .ok true := by
  have h := hg.lawful hwf
  have hiff : ∀ s t : { t // g.registry.Issued t },
      g.answer (Query.assignable t.1 s.1) = .ok true ↔ g.registry.Widens g.memory s.1 t.1 :=
    fun s t => answer_assignable_eq_true_iff h s.2 t.1
  refine ⟨fun t s _ hs => ?_, ?_⟩
  · obtain ⟨b, hanswer, hb⟩ := answer_assignable h hs t
    exact ⟨b, hanswer, hb.trans Registry.widens_iff⟩
  · simp only [hiff]
    exact
      { refl := fun s => .refl s.1
        trans := fun s t u hst htu => hst.trans htu
        antisymm := fun s t hst hts => Subtype.ext (h.widens_antisymm hst hts) }

/-- The root class and the two interfaces of arrays, an interface that extends another one, a class
that implements it and a subclass of this; then arrays of the subclass, of the upper interface and
of integers. -/
def libraryRun : List Action :=
  [.array (.ofPrimitive .int) ⟨9⟩ 1,
   .array ⟨12⟩ ⟨9⟩ 1,
   .array ⟨15⟩ ⟨9⟩ 1,
   .define (.draft { Draft.ofClass "Child" with superclass := some ⟨14⟩ }),
   .define (.draft { Draft.ofClass "Parent" with superclass := some ⟨9⟩, interfaces := [⟨13⟩] }),
   .define (.draft { Draft.ofInterface "Lower" with interfaces := [⟨12⟩] }),
   .define (.draft (Draft.ofInterface "Upper")),
   .define (.draft (Draft.ofInterface "java.io.Serializable")),
   .define (.draft (Draft.ofInterface "java.lang.Cloneable")),
   .define (.draft (Draft.ofClass "java.lang.Object"))]

/-- Arrays of the subclass widen to arrays of the upper interface, arrays of integers do not. -/
theorem assignable_iff_widens_library :
    (Run.after libraryRun).Reachable ∧ (Run.after libraryRun).WellFormed ∧
    ReflTransGen (Run.after libraryRun).WidensStep ⟨16⟩ ⟨17⟩ ∧
    ¬ ReflTransGen (Run.after libraryRun).WidensStep ⟨18⟩ ⟨17⟩ := by
  have hreach : (Run.after libraryRun).Reachable := ⟨_, Run.of_allowed (by decide +kernel)⟩
  have hwf : (Run.after libraryRun).WellFormed :=
    Registry.wellFormed_of_orderly hreach.sound.memory Handle.index (by decide +kernel)
  obtain ⟨hiff, -⟩ := assignable_iff_widens hreach hwf
  refine ⟨hreach, hwf, ?_, ?_⟩
  · obtain ⟨b, hanswer, hb⟩ := hiff ⟨17⟩ ⟨16⟩ (by decide +kernel) (by decide +kernel)
    have htrue : (Run.after libraryRun).answer (Query.assignable ⟨17⟩ ⟨16⟩) = .ok true := by
      decide +kernel
    exact hb.1 (Except.ok.inj (hanswer.symm.trans htrue))
  · obtain ⟨b, hanswer, hb⟩ := hiff ⟨17⟩ ⟨18⟩ (by decide +kernel) (by decide +kernel)
    have hfalse : (Run.after libraryRun).answer (Query.assignable ⟨17⟩ ⟨18⟩) = .ok false := by
      decide +kernel
    obtain rfl := Except.ok.inj (hanswer.symm.trans hfalse)
    exact fun hwidens => Bool.noConfusion (hb.2 hwidens)

end Graph

end TypeGraph
