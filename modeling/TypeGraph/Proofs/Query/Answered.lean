import TypeGraph.Proofs.Conversion.Assignable
import TypeGraph.Proofs.Supertype.Clear

/-!
# Graphs in which every question is answered

A graph is safe when every type has a clear way up and no part of its declaration is an error. The
questions about supertypes are then answered, and so are those that only read or combine what
supertypes and enclosing types declare: member types, the search through a scope and assignability.
Enclosing types may still form a circle, but the search does not enter a type twice.
-/

namespace TypeGraph

namespace Registry

variable {r : Registry} {t : Handle}

/-- The enclosing types and the member types are declared, with no error in their place. -/
structure Intact (r : Registry) (t : Handle) : Prop where
  outerClass : ∃ link, r.declaredOuterClass t = .ok link
  declaringClass : ∃ link, r.declaredDeclaringClass t = .ok link
  memberTypes : ∃ list, r.declaredMemberTypes t = .ok list

lemma intact_of_not_declared (h : r.declaration? t = none) : r.Intact t := by
  constructor
  · exact ⟨none, by rw [declaredOuterClass, h]⟩
  · exact ⟨none, by rw [declaredDeclaringClass, h]⟩
  · exact ⟨[], by rw [declaredMemberTypes, h]⟩

/-- Every type has a clear way up and is declared without errors. -/
structure Safe (r : Registry) (m : Memory) : Prop where
  clear : ∀ {t}, r.Issued t → r.Clear m t
  intact : ∀ {t}, r.Issued t → r.Intact t

end Registry

namespace Query

variable {α : Type} {r : Registry} {inv : Memory → Prop} {m₀ : Memory} {t : Handle}

/-- The rule for a slot that is filled with what the registry declares without an error. -/
lemma once_declared_triple {slot : Slots → Option α} {keep : α → Slots → Slots} {ask : Query α}
    (hinv : Stable r inv) (hfills : Fills r (once t slot keep ask)) {declared : Except Error α}
    (hask : ∀ m, ask.answer r m = (declared, m)) (hdeclared : ∃ a, declared = .ok a) :
    Triple r inv (once t slot keep ask) (fun _ => inv) fun _ _ => False := by
  obtain ⟨a, rfl⟩ := hdeclared
  refine Triple.of_ok fun m hm => ?_
  have hafter := hinv.fills hm (hfills m)
  cases hslot : slot (m.about t) with
  | some known =>
    rw [answer_once_some hslot]
    exact ⟨known, m, rfl, hm⟩
  | none =>
    rw [answer_once_none hslot, hask] at hafter ⊢
    exact ⟨a, _, rfl, hafter⟩

section Safe

variable (hr : r.Sound) (h₀ : m₀.Sound r) (hsafe : r.Safe m₀)
include hr hsafe

lemma memberTypes_during (ht : r.Issued t) :
    Triple r (During r m₀) (memberTypes t) (fun _ => During r m₀) fun _ _ => False :=
  once_declared_triple (During.stable hr m₀) (fills_memberTypes ht)
    (answer_declaration t Declaration.memberTypes []) (hsafe.intact ht).memberTypes

lemma declaringClass_during (ht : r.Issued t) :
    Triple r (During r m₀) (declaringClass t) (fun _ => During r m₀) fun _ _ => False :=
  once_declared_triple (During.stable hr m₀) (fills_declaringClass ht)
    (answer_declaration t Declaration.declaringClass none) (hsafe.intact ht).declaringClass

lemma outerClass_during (ht : r.Issued t) :
    Triple r (During r m₀) (outerClass t) (fun _ => During r m₀) fun _ _ => False :=
  once_declared_triple (During.stable hr m₀) (fills_outerClass ht)
    (answer_declaration t Declaration.outerClass none) (hsafe.intact ht).outerClass

/-- A type that cannot be entered has nothing in its scope, so nothing is assumed of the type. -/
lemma searchScope_during (trail : List Handle) (t : Handle) :
    Triple r (During r m₀) (searchScope r.size none trail t) (fun _ => During r m₀)
      fun _ _ => False := by
  induction trail, t using searchScope.induct r.size with
  | case1 trail t hopen ih =>
    rw [searchScope, dif_pos hopen]
    have hclear := hsafe.clear hopen.1
    have hsearch : ∀ scopes : List Handle, Triple r (During r m₀)
        (scopes.mapM (searchScope r.size none (t :: trail))) (fun _ => During r m₀)
        fun _ _ => False := fun scopes => Triple.mapM fun s _ => ih s
    refine (memberTypes_during hr hsafe hopen.1).bind fun members => ?_
    have hnamed : Triple r (During r m₀) (memberNamed t members none) (fun _ => During r m₀)
        fun _ _ => False := Triple.pure none fun m hm => hm
    refine hnamed.bind fun found => ?_
    cases found with
    | some member => exact Triple.pure _ fun m hm => hm
    | none =>
      refine (superclass_during hr hopen.1 hclear).bind fun link => Triple.given fun _ => ?_
      refine (hsearch _).bind fun _ => ?_
      refine (interfaces_during hr hopen.1 hclear).bind fun links => Triple.given fun _ => ?_
      refine (hsearch _).bind fun _ => ?_
      refine (declaringClass_during hr hsafe hopen.1).bind fun declaring => ?_
      refine (hsearch _).bind fun _ => ?_
      refine (outerClass_during hr hsafe hopen.1).bind fun outer => (hsearch _).bind fun _ => ?_
      exact Triple.pure _ fun m hm => hm
  | case2 trail t hclosed =>
    rw [searchScope, dif_neg hclosed]
    exact Triple.pure [] fun m hm => hm

lemma findMemberTypes_during (ht : r.Issued t) :
    Triple r (During r m₀) (findMemberTypes t none) (fun _ => During r m₀) fun _ _ => False := by
  refine Triple.of_ok fun m hm => ?_
  have hafter := (During.stable hr m₀).fills hm (fills_findMemberTypes ht none m)
  cases hslot : (m.about t).scopes.lookup none with
  | some found => exact ⟨found, m, answer_once_some hslot, hm⟩
  | none =>
    obtain ⟨found, m', hsearch, -⟩ := (searchScope_during hr hsafe [] t).exists_ok hm
    rw [findMemberTypes, answer_once_none hslot, answer_bind_ok (answer_read r m), hsearch]
      at hafter ⊢
    exact ⟨found, _, rfl, hafter⟩

include h₀

lemma isSubclass_during (ht : r.Issued t) (target : Handle) :
    Triple r (During r m₀) (isSubclass t target) (fun _ => During r m₀) fun _ _ => False :=
  (Triple.read_bind (climbs_during hr h₀ ht (hsafe.clear ht) (by simp))).conseq (fun _ h => h)
    (fun _ _ h => h.1) (fun _ _ h => h)

lemma implements_during (ht : r.Issued t) (target : Handle) :
    Triple r (During r m₀) (implements t target) (fun _ => During r m₀) fun _ _ => False :=
  (Triple.read_bind (reaches_during hr h₀ ht (hsafe.clear ht) (by simp))).conseq (fun _ h => h)
    (fun _ _ h => h.1) (fun _ _ h => h)

lemma assignable_during (ht : r.Issued t) (target : Handle) :
    Triple r (During r m₀) (assignable target t) (fun _ => During r m₀) fun _ _ => False :=
  assignable_rule hr (isSubclass_during hr h₀ hsafe) (implements_during hr h₀ hsafe) ht target

end Safe

end Query

/-! ## Graphs -/

namespace Graph

variable {g : Graph} {t : Handle}

/-- The question is answered in the graph. -/
def Answers {α : Type} (g : Graph) (q : Query α) : Prop := ∃ a, g.answer q = .ok a

/-- Whatever is asked about the types of the graph is answered. -/
structure Answered (g : Graph) : Prop where
  superclass : ∀ a, g.registry.Issued a → g.Answers (Query.superclass a)
  interfaces : ∀ a, g.registry.Issued a → g.Answers (Query.interfaces a)
  memberTypes : ∀ a, g.registry.Issued a → g.Answers (Query.memberTypes a)
  allMethods : ∀ a, g.registry.Issued a → g.Answers (Query.allMethods a)
  findMemberTypes : ∀ a, g.registry.Issued a → g.Answers (Query.findMemberTypes a none)
  isSubclass : ∀ a b, g.registry.Issued a → g.registry.Issued b → g.Answers (Query.isSubclass a b)
  implements : ∀ a b, g.registry.Issued a → g.registry.Issued b → g.Answers (Query.implements a b)
  assignable : ∀ a b, g.registry.Issued a → g.registry.Issued b → g.Answers (Query.assignable a b)

lemma answers_of_triple {α : Type} {q : Query α} {inv : Memory → Prop} {post : α → Memory → Prop}
    (h : Query.Triple g.registry inv q post fun _ _ => False) (hm : inv g.memory) :
    g.Answers q := by
  obtain ⟨a, m, hanswer, -⟩ := h.exists_ok hm
  exact ⟨a, by rw [answer, hanswer]⟩

lemma Sound.answered (hg : g.Sound) (hsafe : g.registry.Safe g.memory) : g.Answered := by
  have hr := hg.registry
  have h₀ := Query.during_refl hg.memory
  constructor
  · exact fun a ha => answers_of_triple (Query.superclass_during hr ha (hsafe.clear ha)) h₀
  · exact fun a ha => answers_of_triple (Query.interfaces_during hr ha (hsafe.clear ha)) h₀
  · exact fun a ha => answers_of_triple (Query.memberTypes_during hr hsafe ha) h₀
  · exact fun a ha =>
      answers_of_triple (Query.allMethods_during hr hg.memory ha (hsafe.clear ha)) h₀
  · exact fun a ha => answers_of_triple (Query.findMemberTypes_during hr hsafe ha) h₀
  · exact fun a b ha _ => answers_of_triple (Query.isSubclass_during hr hg.memory hsafe ha b) h₀
  · exact fun a b ha _ => answers_of_triple (Query.implements_during hr hg.memory hsafe ha b) h₀
  · exact fun a b _ hb => answers_of_triple (Query.assignable_during hr hg.memory hsafe hb a) h₀

end Graph

end TypeGraph
