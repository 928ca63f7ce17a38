import Mathlib.Logic.Relation
import TypeGraph.Proofs.Run
import TypeGraph.Proofs.Supertype.WellFormed

/-!
# Interfaces that lead back

A type whose interfaces were not accepted yet is asked for them: then everything above the listed
interfaces is searched for the type. The search goes along superclasses as well, but it counts only
if the type is met as an interface. Where no type on the way reports an error, this settles the
answer: the list is refused when a path of effective links leads from one of its members back to the
type and ends in an interface link, and it is accepted as it is declared in all other cases. So it
does not matter how often a type is met on the way, or whether there are circles elsewhere.
-/

namespace TypeGraph

open Relation

namespace Registry

variable {r : Registry} {m : Memory} {t : Handle} {links : List Handle}

/-- A list of interfaces is refused when one of them leads back. -/
lemma checkInterfaces_eq_circularity (hlinks : ∀ u v, r.Issued u → r.Link m u v → r.Issued v)
    (hissued : ∀ i ∈ links, r.Issued i)
    (hclean : ∀ i ∈ links, ∀ u, ReflTransGen (r.Link m) i u → ∀ e, ¬ r.Fails m u e)
    (hback : ∃ i ∈ links, r.Implements m i t) :
    r.checkInterfaces m t links =
      .error (.interfaceCircularity (r.className t) (r.location t)) := by
  induction links with
  | nil => simp at hback
  | cons i rest ih =>
    rw [checkInterfaces]
    split
    next e he =>
      obtain ⟨u, hu, hfail⟩ := reachesInterface_eq_error he
      exact absurd hfail (hclean i (by simp) u hu e)
    next => rfl
    next hfalse =>
      -- the first one does not lead back, so one of the others does
      have hfirst : ¬ r.Implements m i t := fun himpl =>
        absurd ((reachesInterface_eq_ok_iff hlinks (hissued i (by simp)) hfalse).2 himpl) (by simp)
      have hrest : ∃ j ∈ rest, r.Implements m j t := by
        obtain ⟨j, hj, himpl⟩ := hback
        rcases List.mem_cons.1 hj with rfl | hj
        · exact absurd himpl hfirst
        · exact ⟨j, hj, himpl⟩
      exact ih (fun j hj => hissued j (by simp [hj])) (fun j hj => hclean j (by simp [hj])) hrest

/-- A path that leads back closes a circle through the type. -/
lemma transGen_of_leadsBack (hfree : (m.about t).interfaces = none)
    (hdecl : r.declaredInterfaces t = .ok links) (hback : ∃ i ∈ links, r.Implements m i t) :
    TransGen (r.Link m) t t := by
  obtain ⟨i, hi, u, hiu, hut⟩ := hback
  have hlink : r.Link m t i := Or.inr ⟨links, (effectiveInterfaces_of_none hfree).trans hdecl, hi⟩
  exact TransGen.head' hlink (hiu.tail (Or.inr hut))

/-- A failed question for the interfaces of a type leaves the memory as it is. -/
lemma memory_of_interfaces_error {m' : Memory} {e : Error}
    (h : (Query.interfaces t).answer r m = (.error e, m')) : m' = m := by
  rcases Query.interfaces_effective r m t with ⟨_, hfails⟩ | ⟨_, _, hanswers, -⟩
  · exact (Prod.mk.inj (h.symm.trans hfails)).2
  · cases h.symm.trans hanswers

/-- Where no issued type reports an error, none does. -/
lemma not_fails_of_forall (hm : m.Sound r)
    (h : ∀ n < r.size, (r.effectiveSuperclass m ⟨n⟩).isOk ∧ (r.effectiveInterfaces m ⟨n⟩).isOk)
    (u : Handle) (e : Error) : ¬ r.Fails m u e := by
  by_cases hu : r.Issued u
  · obtain ⟨hsuper, hinterfaces⟩ := h u.index hu
    rintro (he | he)
    · rw [he] at hsuper
      cases hsuper
    · rw [he] at hinterfaces
      cases hinterfaces
  · obtain ⟨hsuper, hinterfaces⟩ := alone_of_primitive hm (shape_of_not_issued hu)
    simp [Fails, hsuper, hinterfaces]

end Registry

namespace Graph

variable {g : Graph} {t : Handle}

/-- **The outcome of the question for interfaces.** Let the interfaces of a type not be accepted
yet, in any graph that some run leads to, and let no error be reported by the type or by anything
that effective links lead to from the interfaces that it lists. The question fails and names the
type, with its place, exactly when a path of effective links leads from a listed interface back to
the type and ends in an interface link; otherwise the list is answered in its order and accepted.
Only a circle through the type itself is reported: neither a type that is met along several ways or
listed several times, nor a circle elsewhere. A failed question leaves the memory as it is. -/
theorem interfaces_outcome (hg : g.Reachable) (hfree : (g.memory.about t).interfaces = none) :
    (∀ links, g.registry.declaredInterfaces t = .ok links →
      (∀ i ∈ links, ∀ u, ReflTransGen (g.registry.Link g.memory) i u →
        ∀ e, ¬ g.registry.Fails g.memory u e) →
      (((Query.interfaces t).answer g.registry g.memory).1 =
          .error (.interfaceCircularity (g.registry.className t) (g.registry.location t)) ↔
        ∃ i ∈ links, g.registry.Implements g.memory i t) ∧
      ((¬ ∃ i ∈ links, g.registry.Implements g.memory i t) →
        (Query.interfaces t).answer g.registry g.memory =
          (.ok links, g.memory.update t fun slots => { slots with interfaces := some links })) ∧
      ((∃ i ∈ links, g.registry.Implements g.memory i t) →
        TransGen (g.registry.Link g.memory) t t)) ∧
    ∀ e m, (Query.interfaces t).answer g.registry g.memory = (.error e, m) → m = g.memory := by
  obtain ⟨hr, hm⟩ := hg.sound
  refine ⟨fun links hdecl hclean => ?_, fun e m => Registry.memory_of_interfaces_error⟩
  have hlinks : ∀ u v, g.registry.Issued u → g.registry.Link g.memory u v → g.registry.Issued v :=
    fun u v _ => hm.issued_of_effectiveLink hr
  have hissued : ∀ i ∈ links, g.registry.Issued i :=
    fun i hi => hr.closed.issued_of_declaredInterfaces hdecl hi
  have haccept : (¬ ∃ i ∈ links, g.registry.Implements g.memory i t) →
      (Query.interfaces t).answer g.registry g.memory =
        (.ok links, g.memory.update t fun slots => { slots with interfaces := some links }) := by
    intro hnone
    have hcheck := Registry.checkInterfaces_eq_ok hlinks hissued hclean
      fun i hi himpl => hnone ⟨i, hi, himpl⟩
    simp only [Query.answer_interfaces_none hfree, hdecl, hcheck]
  refine ⟨⟨fun hcircle => ?_, fun hback => ?_⟩, haccept,
    Registry.transGen_of_leadsBack hfree hdecl⟩
  · by_contra hnone
    rw [haccept hnone] at hcircle
    cases hcircle
  · have hcheck := Registry.checkInterfaces_eq_circularity hlinks hissued hclean hback
    simp only [Query.answer_interfaces_none hfree, hdecl, hcheck]

/-- The interface `Bottom` lists `Left`, `Right` and `Left` again. Both extend `Top`, which extends
`Ring`, which extends itself. The interface `Upper` lists `Lower`; that has a superclass, and this
has `Upper` for an interface. -/
def diamondRun : List Action :=
  [.edit ⟨9⟩ (.addInterface ⟨9⟩),
   .edit ⟨14⟩ (.addInterface ⟨16⟩),
   .define (.draft { Draft.ofInterface "Lower" with superclass := some ⟨15⟩ }),
   .define (.draft { Draft.ofClass "Base" with interfaces := [⟨14⟩] }),
   .define (.draft { Draft.ofInterface "Upper" with location := some ⟨0, 5, 1⟩ }),
   .define (.draft { Draft.ofInterface "Bottom" with interfaces := [⟨11⟩, ⟨12⟩, ⟨11⟩] }),
   .define (.draft { Draft.ofInterface "Right" with interfaces := [⟨10⟩, ⟨10⟩] }),
   .define (.draft { Draft.ofInterface "Left" with interfaces := [⟨10⟩] }),
   .define (.draft { Draft.ofInterface "Top" with interfaces := [⟨9⟩] }),
   .define (.draft (Draft.ofInterface "Ring"))]

/-- The list of `Bottom` is accepted, in spite of the diamond, the repetition and the circle above
it. The list of `Upper` is refused, since `Lower` leads back through its superclass. -/
theorem interfaces_outcome_diamond :
    (Run.after diamondRun).Reachable ∧
    (Query.interfaces ⟨13⟩).answer (Run.after diamondRun).registry (Run.after diamondRun).memory =
      (.ok [⟨11⟩, ⟨12⟩, ⟨11⟩], (Run.after diamondRun).memory.update ⟨13⟩ fun slots =>
        { slots with interfaces := some [⟨11⟩, ⟨12⟩, ⟨11⟩] }) ∧
    (Run.after diamondRun).registry.Implements (Run.after diamondRun).memory ⟨16⟩ ⟨14⟩ ∧
    ((Query.interfaces ⟨14⟩).answer (Run.after diamondRun).registry
        (Run.after diamondRun).memory).1 =
      .error (.interfaceCircularity "Upper" (some ⟨0, 5, 1⟩)) := by
  have hreach : (Run.after diamondRun).Reachable := ⟨_, Run.of_allowed (by decide +kernel)⟩
  -- no type reports an error
  have hclean : ∀ u e, ¬ (Run.after diamondRun).registry.Fails (Run.after diamondRun).memory u e :=
    Registry.not_fails_of_forall hreach.sound.memory (by decide +kernel)
  obtain ⟨hbottom, -⟩ := interfaces_outcome (t := ⟨13⟩) hreach (by decide +kernel)
  obtain ⟨hiff, haccept, -⟩ := hbottom [⟨11⟩, ⟨12⟩, ⟨11⟩] (by decide +kernel)
    fun _ _ u _ => hclean u
  obtain ⟨hupper, -⟩ := interfaces_outcome (t := ⟨14⟩) hreach (by decide +kernel)
  obtain ⟨hiff', -⟩ := hupper [⟨16⟩] (by decide +kernel) fun _ _ u _ => hclean u
  have himpl : (Run.after diamondRun).registry.Implements (Run.after diamondRun).memory
      ⟨16⟩ ⟨14⟩ :=
    ⟨⟨15⟩, .single (Or.inl (by unfold Registry.SuperLink; decide +kernel)), [⟨14⟩],
      by decide +kernel, by simp⟩
  have hname : (Run.after diamondRun).registry.className ⟨14⟩ = "Upper" := by decide +kernel
  have hplace : (Run.after diamondRun).registry.location ⟨14⟩ = some ⟨0, 5, 1⟩ := by
    decide +kernel
  rw [hname, hplace] at hiff'
  refine ⟨hreach, haccept fun hback => ?_, himpl, hiff'.2 ⟨⟨16⟩, by simp, himpl⟩⟩
  have hanswer : ((Query.interfaces ⟨13⟩).answer (Run.after diamondRun).registry
      (Run.after diamondRun).memory).1 = .ok [⟨11⟩, ⟨12⟩, ⟨11⟩] := by decide +kernel
  rw [hiff.2 hback] at hanswer
  cases hanswer

end Graph

end TypeGraph
