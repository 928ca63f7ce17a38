import TypeGraph.Proofs.Overload.MostSpecific

/-!
# Specificity is inclusion of argument lists

A parameter list stands for the argument lists that it takes. In a well-formed graph these are the
lists that widen to it place by place, so a different parameter list is more specific exactly when
it takes no argument list that the other one does not take as well. The one direction is
transitivity of widening; for the other a parameter list is looked at as an argument list, which
it takes itself.
-/

namespace TypeGraph

namespace Registry.WidensAll

variable {r : Registry} {m : Memory} {these those : List Handle}

lemma refl (these : List Handle) : r.WidensAll m these these :=
  List.forall₂_same.2 fun t _ => .refl t

/-- What widens to the first list also widens to the second, for all lists of issued types. -/
lemma iff_forall (hthese : ∀ t ∈ these, r.Issued t) :
    r.WidensAll m these those ↔ ∀ arguments, (∀ s ∈ arguments, r.Issued s) →
      r.WidensAll m arguments these → r.WidensAll m arguments those :=
  ⟨fun h _ _ harguments => harguments.trans h, fun h => h these hthese (refl these)⟩

end Registry.WidensAll

namespace Graph

variable {g : Graph} {these those parameters arguments : List Handle}

section Lawful

variable (h : g.registry.Lawful g.memory)
include h

lemma answer_applicable (harguments : ∀ s ∈ arguments, g.registry.Issued s)
    (parameters : List Handle) :
    ∃ b, g.answer (Query.applicable parameters arguments) = .ok b ∧
      (b = true ↔ g.registry.WidensAll g.memory arguments parameters) := by
  obtain ⟨b, m, hanswer, -, hb⟩ :=
    (Query.applicable_settled h harguments parameters).exists_ok (Query.settled_refl h)
  exact ⟨b, by simp [answer, hanswer], hb⟩

lemma answer_applicable_eq_true_iff (harguments : ∀ s ∈ arguments, g.registry.Issued s)
    (parameters : List Handle) :
    g.answer (Query.applicable parameters arguments) = .ok true ↔
      g.registry.WidensAll g.memory arguments parameters := by
  obtain ⟨b, hanswer, hb⟩ := answer_applicable h harguments parameters
  rw [hanswer, ← hb]
  simp

lemma answer_moreSpecific (hthese : ∀ s ∈ these, g.registry.Issued s) (those : List Handle) :
    ∃ b, g.answer (Query.moreSpecific these those) = .ok b ∧
      (b = true ↔ g.registry.MoreSpecific g.memory these those) := by
  obtain ⟨b, m, hanswer, -, hb⟩ :=
    (Query.moreSpecific_settled h hthese those).exists_ok (Query.settled_refl h)
  exact ⟨b, by simp [answer, hanswer], hb⟩

/-- The answers of the pairwise test are the steps of widening, for all places at once. -/
lemma forall₂_assignable_iff (hthese : ∀ s ∈ these, g.registry.Issued s) :
    List.Forall₂ (fun s t => g.answer (Query.assignable t s) = .ok true) these those ↔
      g.registry.WidensAll g.memory these those := by
  induction these generalizing those with
  | nil => simp [Registry.WidensAll]
  | cons s these ih =>
    have hfirst := answer_assignable_eq_true_iff h (hthese s (by simp))
    have hissued : ∀ x ∈ these, g.registry.Issued x := fun x hx => hthese x (by simp [hx])
    cases those with
    | nil => simp [Registry.WidensAll]
    | cons t those =>
      rw [List.forall₂_cons, hfirst, ih hissued]
      exact List.forall₂_cons.symm

end Lawful

/-- **Specificity is inclusion.** In a well-formed graph that some run leads to, the questions
whether a parameter list is more specific than another and whether it takes some arguments are
always answered. The first list is more specific exactly when the lists differ and the second takes
every argument list that the first takes. And a parameter list that takes some arguments also takes
narrower ones. -/
theorem moreSpecific_iff_forall_applicable (hg : g.Reachable) (hwf : g.WellFormed) :
    (∀ parameters arguments : List Handle, (∀ s ∈ arguments, g.registry.Issued s) →
      ∃ b, g.answer (Query.applicable parameters arguments) = .ok b) ∧
    (∀ these those : List Handle, (∀ t ∈ these, g.registry.Issued t) →
      ∃ b, g.answer (Query.moreSpecific these those) = .ok b ∧
        (b = true ↔ these ≠ those ∧ ∀ arguments, (∀ s ∈ arguments, g.registry.Issued s) →
          g.answer (Query.applicable these arguments) = .ok true →
          g.answer (Query.applicable those arguments) = .ok true)) ∧
    ∀ parameters arguments narrowed : List Handle, (∀ s ∈ arguments, g.registry.Issued s) →
      (∀ s ∈ narrowed, g.registry.Issued s) →
      List.Forall₂ (fun s t => g.answer (Query.assignable t s) = .ok true) narrowed arguments →
      g.answer (Query.applicable parameters arguments) = .ok true →
      g.answer (Query.applicable parameters narrowed) = .ok true := by
  have h := hg.lawful hwf
  refine ⟨fun parameters arguments harguments => ?_, fun these those hthese => ?_, ?_⟩
  · obtain ⟨b, hanswer, -⟩ := answer_applicable h harguments parameters
    exact ⟨b, hanswer⟩
  · obtain ⟨b, hanswer, hb⟩ := answer_moreSpecific h hthese those
    refine ⟨b, hanswer, hb.trans ?_⟩
    have hinclusion : (∀ arguments, (∀ s ∈ arguments, g.registry.Issued s) →
        g.answer (Query.applicable these arguments) = .ok true →
        g.answer (Query.applicable those arguments) = .ok true) ↔
        g.registry.WidensAll g.memory these those := by
      rw [Registry.WidensAll.iff_forall hthese]
      refine forall₂_congr fun arguments harguments => ?_
      rw [answer_applicable_eq_true_iff h harguments, answer_applicable_eq_true_iff h harguments]
    rw [hinclusion]
    exact and_comm
  · intro parameters arguments narrowed harguments hnarrowed hnarrower happlicable
    rw [forall₂_assignable_iff h hnarrowed] at hnarrower
    rw [answer_applicable_eq_true_iff h harguments] at happlicable
    rw [answer_applicable_eq_true_iff h hnarrowed]
    exact hnarrower.trans happlicable

/-- With an array of a subclass and an integer as parameters a method is more specific than with an
array of the interface and a long, so it takes nothing else; and a call with a byte for the integer
stays possible. -/
theorem moreSpecific_iff_forall_applicable_library :
    (Run.after libraryRun).Reachable ∧ (Run.after libraryRun).WellFormed ∧
    (∀ arguments, (∀ s ∈ arguments, (Run.after libraryRun).registry.Issued s) →
      (Run.after libraryRun).answer
        (Query.applicable [⟨16⟩, .ofPrimitive .int] arguments) = .ok true →
      (Run.after libraryRun).answer
        (Query.applicable [⟨17⟩, .ofPrimitive .long] arguments) = .ok true) ∧
    (Run.after libraryRun).answer
      (Query.applicable [⟨17⟩, .ofPrimitive .long] [⟨16⟩, .ofPrimitive .byte]) = .ok true := by
  have hreach : (Run.after libraryRun).Reachable := ⟨_, Run.of_allowed (by decide +kernel)⟩
  have hwf : (Run.after libraryRun).WellFormed :=
    Registry.wellFormed_of_orderly hreach.sound.memory Handle.index (by decide +kernel)
  obtain ⟨-, hspecific, hnarrow⟩ := moreSpecific_iff_forall_applicable hreach hwf
  refine ⟨hreach, hwf, ?_, ?_⟩
  · obtain ⟨b, hanswer, hb⟩ := hspecific [⟨16⟩, .ofPrimitive .int] [⟨17⟩, .ofPrimitive .long]
      (by decide +kernel)
    have htrue : (Run.after libraryRun).answer (Query.moreSpecific [⟨16⟩, .ofPrimitive .int]
        [⟨17⟩, .ofPrimitive .long]) = .ok true := by decide +kernel
    exact (hb.1 (Except.ok.inj (hanswer.symm.trans htrue))).2
  · refine hnarrow _ [⟨16⟩, .ofPrimitive .int] _ (by decide +kernel) (by decide +kernel) ?_
      (by decide +kernel)
    exact .cons (by decide +kernel) (.cons (by decide +kernel) .nil)

end Graph

end TypeGraph
