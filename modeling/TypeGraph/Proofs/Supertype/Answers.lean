import Mathlib.Logic.Relation
import TypeGraph.Proofs.Supertype.Clear

/-!
# Answers in well-formed graphs

In a well-formed graph the way up from every type is clear, so the questions about supertypes are
all answered. The graph stays well-formed while they are: what a question accepts makes no
difference to the links.
-/

namespace TypeGraph

open Relation

variable {r : Registry} {m₀ m : Memory} {t target : Handle} {trail : List Handle}

lemma Registry.Lawful.clear (h : r.Lawful m) (t : Handle) : r.Clear m t :=
  ⟨fun _ => h.not_fails _, fun _ => h.acyclic_link _⟩

namespace Query

/-- The memory during questions to a well-formed graph that had the memory `m₀` at first. -/
structure Settled (r : Registry) (m₀ m : Memory) : Prop where
  lawful : r.Lawful m
  same : r.SameLinks m₀ m

lemma settled_refl (h : r.Lawful m₀) : Settled r m₀ m₀ := ⟨h, rfl, rfl⟩

section Settled

variable (h₀ : r.Lawful m₀)
include h₀

/-- Nothing but the links decides whether a graph is well-formed. -/
lemma settled_iff_during : Settled r m₀ m ↔ During r m₀ m := by
  constructor
  · exact fun hm => ⟨hm.lawful.memory, hm.same⟩
  · exact fun hm => ⟨⟨hm.same.wellFormed h₀.toWellFormed, h₀.registry, hm.sound⟩, hm.same⟩

lemma Triple.settled {α : Type} {q : Query α} {p : α → Prop}
    (h : Triple r (During r m₀) q (fun a m => During r m₀ m ∧ p a) fun _ _ => False) :
    Triple r (Settled r m₀) q (fun a m => Settled r m₀ m ∧ p a) fun _ _ => False :=
  h.conseq (fun _ => (settled_iff_during h₀).1)
    (fun _ _ hm => ⟨(settled_iff_during h₀).2 hm.1, hm.2⟩) fun _ _ h => h

lemma climbs_settled (ht : r.Issued t) (htrail : ∀ x ∈ trail, TransGen (r.Link m₀) x t) :
    Triple r (Settled r m₀) (climbs r.size target trail t)
      (fun b m => Settled r m₀ m ∧ (b = true ↔ TransGen (r.SuperLink m₀) t target))
      fun _ _ => False :=
  (climbs_during h₀.registry h₀.memory ht (h₀.clear t) htrail).settled h₀

lemma reaches_settled (ht : r.Issued t) (htrail : ∀ x ∈ trail, TransGen (r.Link m₀) x t) :
    Triple r (Settled r m₀) (reaches r.size target trail t)
      (fun b m => Settled r m₀ m ∧ (b = true ↔ r.Implements m₀ t target))
      fun _ _ => False :=
  (reaches_during h₀.registry h₀.memory ht (h₀.clear t) htrail).settled h₀

lemma allMethods_settled (ht : r.Issued t) :
    Triple r (Settled r m₀) (allMethods t) (fun _ => Settled r m₀) fun _ _ => False :=
  (allMethods_during h₀.registry h₀.memory ht (h₀.clear t)).conseq
    (fun _ => (settled_iff_during h₀).1) (fun _ _ => (settled_iff_during h₀).2) fun _ _ h => h

end Settled

end Query

end TypeGraph
