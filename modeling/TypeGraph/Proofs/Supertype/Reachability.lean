import Mathlib.Logic.Relation
import TypeGraph.Proofs.Query.Answered

/-!
# Walks find what is above a type

There are three ways to look at what is above a type. Climbing follows superclasses, one question
after the other. The search for an interface asks for the interfaces of a type and goes through each
of them before it turns to the superclass; it may come to a type several times. The check of an
interface list looks at each type once, in another order, and asks no questions. Where the questions
for supertypes are answered and nothing leads back to itself, the first finds what superclass links
lead to, and the other two give one answer: whether a path that ends in an interface link leads to
the target.
-/

namespace TypeGraph

open Relation

namespace Registry

variable {r : Registry} {m : Memory} {t : Handle}

/-- The links of the type are known and lead to types that were defined before it. -/
def refersBack (r : Registry) (m : Memory) (t : Handle) : Bool :=
  match r.effectiveSuperclass m t, r.effectiveInterfaces m t with
  | .ok link, .ok links => (link.toList ++ links).all fun s => s.index < t.index
  | _, _ => false

/-- The way up is clear where no type up to this one refers to a later one. -/
lemma Clear.of_refersBack {n : Nat} (h : ∀ i < n + 1, r.refersBack m ⟨i⟩ = true) :
    r.Clear m ⟨n⟩ := by
  induction n using Nat.strong_induction_on with
  | _ n ih =>
    have hback := h n n.lt_succ_self
    rcases hsuper : r.effectiveSuperclass m ⟨n⟩ with e | link
    · simp [refersBack, hsuper] at hback
    rcases hinterfaces : r.effectiveInterfaces m ⟨n⟩ with e | links
    · simp [refersBack, hsuper, hinterfaces] at hback
    simp only [refersBack, hsuper, hinterfaces, List.all_eq_true, decide_eq_true_eq] at hback
    exact .of_links hsuper hinterfaces fun s hs =>
      ih s.index (hback s hs) fun i hi => h i (hi.trans (Nat.succ_lt_succ (hback s hs)))

end Registry

namespace Graph

variable {g : Graph} {t : Handle}

/-- The direct supertypes of the type are answered for, and so are those of everything above it;
nothing above it leads back to itself. -/
structure Ascends (g : Graph) (t : Handle) : Prop where
  superclass : ∀ {u}, ReflTransGen (g.registry.Link g.memory) t u → g.Answers (Query.superclass u)
  interfaces : ∀ {u}, ReflTransGen (g.registry.Link g.memory) t u → g.Answers (Query.interfaces u)
  acyclic : ∀ {u}, ReflTransGen (g.registry.Link g.memory) t u →
    ¬ TransGen (g.registry.Link g.memory) u u

lemma Ascends.clear (h : g.Ascends t) : g.registry.Clear g.memory t := by
  refine ⟨fun {u} hu e he => ?_, h.acyclic⟩
  obtain ⟨link, hlink⟩ := h.superclass hu
  obtain ⟨links, hlinks⟩ := h.interfaces hu
  rcases he with he | he
  · rcases Query.superclass_effective g.registry g.memory u with ⟨_, hfails⟩ | ⟨_, _, -, heffective⟩
    · rw [answer, hfails] at hlink
      cases hlink
    · cases heffective.symm.trans he
  · rcases Query.interfaces_effective g.registry g.memory u with ⟨_, hfails⟩ | ⟨_, _, -, heffective⟩
    · rw [answer, hfails] at hlinks
      cases hlinks
    · cases heffective.symm.trans he

lemma Sound.issued_of_above (hg : g.Sound) (ht : g.registry.Issued t) {u : Handle}
    (hu : ReflTransGen (g.registry.Link g.memory) t u) : g.registry.Issued u := by
  rcases ReflTransGen.cases_tail hu with rfl | ⟨s, -, hl⟩
  · exact ht
  · exact hg.memory.issued_of_effectiveLink hg.registry hl

/-- On a clear way up the questions for supertypes are answered. -/
lemma Sound.ascends (hg : g.Sound) (ht : g.registry.Issued t)
    (hclear : g.registry.Clear g.memory t) : g.Ascends t := by
  have habove : ∀ {u}, ReflTransGen (g.registry.Link g.memory) t u →
      g.registry.Clear g.memory u := fun hu =>
    ⟨fun hv => hclear.clean (hu.trans hv), fun hv => hclear.acyclic (hu.trans hv)⟩
  have h₀ := Query.during_refl hg.memory
  refine ⟨fun hu => ?_, fun hu => ?_, hclear.acyclic⟩
  · exact answers_of_triple
      (Query.superclass_during hg.registry (hg.issued_of_above ht hu) (habove hu)) h₀
  · exact answers_of_triple
      (Query.interfaces_during hg.registry (hg.issued_of_above ht hu) (habove hu)) h₀

lemma answer_isSubclass (hg : g.Sound) (ht : g.registry.Issued t)
    (hclear : g.registry.Clear g.memory t) (target : Handle) :
    ∃ b, g.answer (Query.isSubclass t target) = .ok b ∧
      (b = true ↔ TransGen (g.registry.SuperLink g.memory) t target) := by
  have hclimb : Query.Triple g.registry (Query.During g.registry g.memory)
      (Query.isSubclass t target) _ fun _ _ => False :=
    .read_bind (Query.climbs_during hg.registry hg.memory ht hclear (by simp))
  obtain ⟨b, m, hanswer, -, hb⟩ := hclimb.exists_ok (Query.during_refl hg.memory)
  exact ⟨b, by rw [answer, hanswer], hb⟩

lemma answer_implements (hg : g.Sound) (ht : g.registry.Issued t)
    (hclear : g.registry.Clear g.memory t) (target : Handle) :
    ∃ b, g.answer (Query.implements t target) = .ok b ∧
      (b = true ↔ g.registry.Implements g.memory t target) := by
  have hreach : Query.Triple g.registry (Query.During g.registry g.memory)
      (Query.implements t target) _ fun _ _ => False :=
    .read_bind (Query.reaches_during hg.registry hg.memory ht hclear (by simp))
  obtain ⟨b, m, hanswer, -, hb⟩ := hreach.exists_ok (Query.during_refl hg.memory)
  exact ⟨b, by rw [answer, hanswer], hb⟩

/-- On a clear way up the search of the interface check does not fail. -/
lemma exists_reachesInterface (hg : g.Sound) (ht : g.registry.Issued t)
    (hclear : g.registry.Clear g.memory t) (target : Handle) :
    ∃ b, g.registry.reachesInterface g.memory t target = .ok b ∧
      (b = true ↔ g.registry.Implements g.memory t target) := by
  rcases hsearch : g.registry.reachesInterface g.memory t target with e | b
  · obtain ⟨u, hu, hfail⟩ := Registry.reachesInterface_eq_error hsearch
    exact absurd hfail (hclear.clean hu e)
  · exact ⟨b, rfl, Registry.reachesInterface_eq_ok_iff
      (fun u v _ => hg.memory.issued_of_effectiveLink hg.registry) ht hsearch⟩

/-- **Walks find exactly what is above a type.** Let the direct supertypes of a type and of
everything above it be answered for, and let nothing above it lead back to itself, in any graph that
some run leads to. Then it is answered whether the type is a subclass of another one, and it is if
one or more superclass links lead to that. It is answered whether it implements another type, and it
does if a path of superclass and interface links that ends in an interface link leads there; the
search that checks interface lists gives the same answer. -/
theorem walks_find_above (hg : g.Reachable) (ht : g.registry.Issued t) (hup : g.Ascends t)
    (target : Handle) :
    g.Answers (Query.isSubclass t target) ∧
    (g.answer (Query.isSubclass t target) = .ok true ↔
      TransGen (g.registry.SuperLink g.memory) t target) ∧
    g.Answers (Query.implements t target) ∧
    (g.answer (Query.implements t target) = .ok true ↔
      g.registry.Implements g.memory t target) ∧
    g.answer (Query.implements t target) = g.registry.reachesInterface g.memory t target := by
  obtain ⟨climbs, hclimbs, hsubclass⟩ := answer_isSubclass hg.sound ht hup.clear target
  obtain ⟨reaches, hreaches, himplements⟩ := answer_implements hg.sound ht hup.clear target
  obtain ⟨found, hfound, hsearch⟩ := exists_reachesInterface hg.sound ht hup.clear target
  have hsame : reaches = found := Bool.eq_iff_iff.2 (himplements.trans hsearch.symm)
  refine ⟨⟨climbs, hclimbs⟩, ?_, ⟨reaches, hreaches⟩, ?_, ?_⟩
  · rw [hclimbs, ← hsubclass]
    simp
  · rw [hreaches, ← himplements]
    simp
  · rw [hreaches, hfound, hsame]

/-- The class `Child` extends `Parent` and has the interface `Side`; `Parent` has the interface
`Lower`. Both interfaces extend `Upper`. Apart from them there is `Ring`, which extends itself. -/
def branchRun : List Action :=
  [.edit ⟨14⟩ (.addInterface ⟨14⟩),
   .define (.draft (Draft.ofInterface "Ring")),
   .define (.draft { Draft.ofClass "Child" with superclass := some ⟨12⟩, interfaces := [⟨11⟩] }),
   .define (.draft { Draft.ofClass "Parent" with interfaces := [⟨10⟩] }),
   .define (.draft { Draft.ofInterface "Side" with interfaces := [⟨9⟩] }),
   .define (.draft { Draft.ofInterface "Lower" with interfaces := [⟨9⟩] }),
   .define (.draft (Draft.ofInterface "Upper"))]

/-- `Child` implements `Lower`, which only its superclass has, and it does not extend it. -/
theorem walks_find_above_branch :
    (Run.after branchRun).Reachable ∧ (Run.after branchRun).Ascends ⟨13⟩ ∧
    (Run.after branchRun).registry.Implements (Run.after branchRun).memory ⟨13⟩ ⟨10⟩ ∧
    ¬ TransGen ((Run.after branchRun).registry.SuperLink (Run.after branchRun).memory) ⟨13⟩ ⟨10⟩ ∧
    (Run.after branchRun).registry.reachesInterface (Run.after branchRun).memory ⟨13⟩ ⟨10⟩ =
      .ok true := by
  have hreach : (Run.after branchRun).Reachable := ⟨_, Run.of_allowed (by decide +kernel)⟩
  have hchild : (Run.after branchRun).registry.Clear (Run.after branchRun).memory ⟨13⟩ :=
    .of_refersBack (by decide +kernel)
  have hissued : (Run.after branchRun).registry.Issued ⟨13⟩ := by decide +kernel
  have hup := hreach.sound.ascends hissued hchild
  obtain ⟨-, hsubclass, -, himplements, hsearch⟩ := walks_find_above hreach hissued hup ⟨10⟩
  have hanswer : (Run.after branchRun).answer (Query.implements ⟨13⟩ ⟨10⟩) = .ok true := by
    decide +kernel
  have hfalse : (Run.after branchRun).answer (Query.isSubclass ⟨13⟩ ⟨10⟩) = .ok false := by
    decide +kernel
  refine ⟨hreach, hup, himplements.1 hanswer, fun hlinks => ?_, hsearch.symm.trans hanswer⟩
  rw [hsubclass.2 hlinks] at hfalse
  cases hfalse

end Graph

end TypeGraph
