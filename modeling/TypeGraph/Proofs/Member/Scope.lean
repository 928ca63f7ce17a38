import Mathlib.Logic.Relation
import TypeGraph.Proofs.Member.Inherited
import TypeGraph.Proofs.Query.Lasting

/-!
# What is in the scope of a type

A step through a scope goes from a type to its superclass, to an interface, to its declaring type or
to its outer type. The search for member types goes along such steps, but it never enters a type
that it is in already, it stops at a match, and it leaves out an outer type that is the declaring
one. None of this makes a difference to what is found: a path that comes back to a type can be cut
short. The search therefore finds what the types on all paths declare, and in a search by name what
is declared on paths that have not met a match before.
-/

namespace TypeGraph

open Relation

/-! ## Paths that avoid a trail -/

namespace Trail

variable {α : Type} {R : α → α → Prop} {trail : List α} {a b s : α}

/-- There is a path that does not touch the trail. -/
def Avoiding (R : α → α → Prop) (trail : List α) (a b : α) : Prop :=
  a ∉ trail ∧ ReflTransGen (fun x y => R x y ∧ y ∉ trail) a b

lemma Avoiding.refl (ha : a ∉ trail) : Avoiding R trail a a := ⟨ha, .refl⟩

lemma Avoiding.reflTransGen (h : Avoiding R trail a b) : ReflTransGen R a b :=
  ReflTransGen.mono (fun _ _ => And.left) _ _ h.2

lemma avoiding_nil : Avoiding R [] a b ↔ ReflTransGen R a b := by
  simp [Avoiding]

/-- A path ends where it starts, or it can be cut short so that it leaves its start for good. -/
lemma avoiding_iff : Avoiding R trail a b ↔
    a ∉ trail ∧ (b = a ∨ ∃ s, R a s ∧ Avoiding R (a :: trail) s b) := by
  constructor
  · rintro ⟨ha, hpath⟩
    refine ⟨ha, ?_⟩
    induction hpath with
    | refl => exact Or.inl rfl
    | @tail x y _ hxy ih =>
      by_cases hy : y = a
      · exact Or.inl hy
      · have hfresh : y ∉ a :: trail := by simp [hy, hxy.2]
        rcases ih with rfl | ⟨s, hs, hsx⟩
        · exact Or.inr ⟨y, hxy.1, .refl hfresh⟩
        · exact Or.inr ⟨s, hs, hsx.1, hsx.2.tail ⟨hxy.1, hfresh⟩⟩
  · rintro ⟨ha, rfl | ⟨s, hs, hsb⟩⟩
    · exact .refl ha
    · have hsub : ∀ {x}, x ∉ a :: trail → x ∉ trail := fun hx hmem => hx (by simp [hmem])
      refine ⟨ha, ReflTransGen.head ⟨hs, hsub hsb.1⟩ ?_⟩
      exact ReflTransGen.mono (fun _ _ hxy => ⟨hxy.1, hsub hxy.2⟩) _ _ hsb.2

end Trail

namespace Graph

/-! ## Scopes -/

/-- One step through a scope. -/
def ScopeLink (g : Graph) (t s : Handle) : Prop :=
  g.answer (Query.superclass t) = .ok (some s) ∨
    (∃ links, g.answer (Query.interfaces t) = .ok links ∧ s ∈ links) ∨
    g.answer (Query.declaringClass t) = .ok (some s) ∨
    g.answer (Query.outerClass t) = .ok (some s)

/-- The type declares the member. -/
def Declares (g : Graph) (t member : Handle) : Prop :=
  ∃ members, g.answer (Query.memberTypes t) = .ok members ∧ member ∈ members

/-- The member is the first one that the type declares under the given simple name. -/
def DeclaresAs (g : Graph) (name : String) (t member : Handle) : Prop :=
  ∃ members wanted, g.answer (Query.memberTypes t) = .ok members ∧
    g.registry.memberDescriptor t name = .ok wanted ∧
    members.find? (fun other => g.registry.descriptor other = wanted) = some member

/-- What a type has to offer to a search, of any name or of the given one. -/
def Offers (g : Graph) : Option String → Handle → Handle → Prop
  | none => g.Declares
  | some name => g.DeclaresAs name

/-- One step of a search, from a type that does not declare the name asked for. -/
def Passes (g : Graph) (name : Option String) (t s : Handle) : Prop :=
  (∀ n ∈ name, ∀ member, ¬ g.DeclaresAs n t member) ∧ g.ScopeLink t s

/-- The name that a match would have in the type can be spelled. -/
def Spells (g : Graph) (name : Option String) (t : Handle) : Prop :=
  ∀ n ∈ name, ∃ wanted, g.registry.memberDescriptor t n = .ok wanted

/-- A search that comes to the type can fail there with the given error. -/
def Stuck (g : Graph) (name : Option String) (t : Handle) (e : Error) : Prop :=
  g.answer (Query.memberTypes t) = .error e ∨
    (∃ n ∈ name, g.registry.memberDescriptor t n = .error e) ∨
    g.answer (Query.superclass t) = .error e ∨ g.answer (Query.interfaces t) = .error e ∨
    g.answer (Query.declaringClass t) = .error e ∨ g.answer (Query.outerClass t) = .error e

/-- A search that avoids the trail comes from one of the types to the other. -/
def Reaches (g : Graph) (name : Option String) (trail starts : List Handle) (u : Handle) : Prop :=
  ∃ s ∈ starts, Trail.Avoiding (g.Passes name) trail s u

/-- The list has what is offered by the types that a search reaches, and all of them spell the
name. -/
structure Surveys (g : Graph) (name : Option String) (trail starts found : List Handle) :
    Prop where
  spells : ∀ {u}, g.Reaches name trail starts u → g.Spells name u
  mem_iff : ∀ {x}, x ∈ found ↔ ∃ u, g.Reaches name trail starts u ∧ g.Offers name u x

variable {g : Graph} {name : Option String} {trail starts : List Handle} {s t u : Handle}

lemma passes_none : g.Passes none = g.ScopeLink := by
  funext t s
  simp [Passes]

lemma passes_some (name : String) : g.Passes (some name) =
    fun t s => (∀ member, ¬ g.DeclaresAs name t member) ∧ g.ScopeLink t s := by
  funext t s
  simp [Passes]

lemma reaches_singleton :
    g.Reaches name trail [t] u ↔ Trail.Avoiding (g.Passes name) trail t u := by
  simp [Reaches]

/-- Where a search goes on to. An outer type that is the declaring one is not counted twice. -/
lemma passes_iff_mem {link declaring outer : Option Handle} {links : List Handle}
    (hpass : ∀ n ∈ name, ∀ member, ¬ g.DeclaresAs n t member)
    (hlink : g.answer (Query.superclass t) = .ok link)
    (hlinks : g.answer (Query.interfaces t) = .ok links)
    (hdeclaring : g.answer (Query.declaringClass t) = .ok declaring)
    (houter : g.answer (Query.outerClass t) = .ok outer) :
    g.Passes name t s ↔ s ∈ link.toList ++ links ++ declaring.toList ++
      (outer.filter fun outer => some outer ≠ declaring).toList := by
  have hscope : g.Passes name t s ↔
      s ∈ link ∨ s ∈ links ∨ s ∈ declaring ∨ s ∈ outer := by
    rw [Passes, and_iff_right hpass, ScopeLink, hlink, hlinks, hdeclaring, houter]
    simp
  rw [hscope]
  simp only [List.mem_append, Option.mem_toList, Option.mem_def, or_assoc]
  by_cases hs : declaring = some s
  · simp [hs]
  · have hne : some s ≠ declaring := fun heq => hs heq.symm
    simp [hs, Option.filter_eq_some_iff, hne]

/-- A search comes from a type to itself and to all that it reaches from the next types. -/
lemma reaches_of_links {links : List Handle} (ht : t ∉ trail)
    (hlinks : ∀ s, g.Passes name t s ↔ s ∈ links) :
    g.Reaches name trail [t] u ↔ u = t ∨ g.Reaches name (t :: trail) links u := by
  rw [reaches_singleton, Trail.avoiding_iff]
  simp [ht, hlinks, Reaches]

/-- Scope links lead to issued types. -/
lemma Sound.issued_of_scopeLink (hg : g.Sound) (hplaced : g.memory.Placed g.registry)
    (hl : g.ScopeLink t s) : g.registry.Issued s := by
  rcases hl with hl | ⟨links, hlinks, hs⟩ | hl | hl
  · rcases Query.superclass_effective g.registry g.memory t with
      ⟨e, hfails⟩ | ⟨link, m, hans, heffective⟩
    · rw [answer, hfails] at hl
      cases hl
    · rw [answer, hans] at hl
      cases hl
      exact hg.memory.issued_of_effectiveLink hg.registry (Or.inl heffective)
  · rcases Query.interfaces_effective g.registry g.memory t with
      ⟨e, hfails⟩ | ⟨links', m, hans, heffective⟩
    · rw [answer, hfails] at hlinks
      cases hlinks
    · rw [answer, hans] at hlinks
      cases hlinks
      exact hg.memory.issued_of_effectiveLink hg.registry (Or.inr ⟨links, heffective, hs⟩)
  · rw [answer, Query.answer_declaringClass] at hl
    cases hslot : (g.memory.about t).declaringClass <;> rw [hslot] at hl
    · exact hg.registry.closed.issued_of_declaredDeclaringClass hl
    · cases hl
      exact hplaced t s (Or.inr (Or.inr (Or.inr (Or.inl hslot))))
  · rw [answer, Query.answer_outerClass] at hl
    cases hslot : (g.memory.about t).outerClass <;> rw [hslot] at hl
    · exact hg.registry.closed.issued_of_declaredOuterClass hl
    · cases hl
      exact hplaced t s (Or.inr (Or.inr (Or.inl hslot)))

namespace Surveys

lemma nil (g : Graph) (name : Option String) (trail : List Handle) :
    g.Surveys name trail [] [] := by
  constructor <;> simp [Reaches]

/-- Nothing is found from a type that the search is in already. -/
lemma of_mem_trail (ht : t ∈ trail) : g.Surveys name trail [t] [] := by
  constructor <;> simp [Reaches, Trail.Avoiding, ht]

lemma append {starts' found found' : List Handle} (h : g.Surveys name trail starts found)
    (h' : g.Surveys name trail starts' found') :
    g.Surveys name trail (starts ++ starts') (found ++ found') := by
  have hreaches : ∀ u, g.Reaches name trail (starts ++ starts') u ↔
      g.Reaches name trail starts u ∨ g.Reaches name trail starts' u := by
    intro u
    simp [Reaches, or_and_right, exists_or]
  constructor
  · intro u hu
    exact ((hreaches u).1 hu).elim h.spells h'.spells
  · intro x
    simp only [List.mem_append, h.mem_iff, h'.mem_iff, hreaches, or_and_right, exists_or]

lemma flatten {lists : List (List Handle)}
    (h : List.Forall₂ (fun s found => g.Surveys name trail [s] found) starts lists) :
    g.Surveys name trail starts lists.flatten := by
  induction h with
  | nil => exact .nil g name trail
  | cons hhead _ ih => exact hhead.append ih

/-- A type that declares a match hides all that is behind it. -/
lemma of_match {n : String} {member : Handle} (ht : t ∉ trail)
    (hmember : ∀ x, g.DeclaresAs n t x ↔ x = member) (hspells : g.Spells (some n) t) :
    g.Surveys (some n) trail [t] [member] := by
  have hreaches : ∀ u, g.Reaches (some n) trail [t] u ↔ u = t := by
    intro u
    have hlinks : ∀ s, g.Passes (some n) t s ↔ s ∈ ([] : List Handle) := by simp [Passes, hmember]
    rw [reaches_of_links ht hlinks]
    simp [Reaches]
  constructor
  · intro u hu
    obtain rfl := (hreaches u).1 hu
    exact hspells
  · intro x
    simp [hreaches, Offers, hmember]

/-- What is found from a type is what it offers itself and what is found behind it. -/
lemma of_links {links own found : List Handle} (ht : t ∉ trail)
    (hlinks : ∀ s, g.Passes name t s ↔ s ∈ links) (hspells : g.Spells name t)
    (hown : ∀ x, x ∈ own ↔ g.Offers name t x) (h : g.Surveys name (t :: trail) links found) :
    g.Surveys name trail [t] (own ++ found) := by
  constructor
  · intro u hu
    rcases (reaches_of_links ht hlinks).1 hu with rfl | hu
    · exact hspells
    · exact h.spells hu
  · intro x
    simp only [List.mem_append, hown, h.mem_iff, reaches_of_links ht hlinks, or_and_right,
      exists_or, exists_eq_left]

end Surveys

end Graph

/-! ## The search -/

namespace Query

variable {g : Graph} {name : Option String} {trail : List Handle} {t : Handle}

/-- The memory during questions to a graph. -/
def Since (g : Graph) (m : Memory) : Prop := ReflTransGen (Fill g.registry) g.memory m

/-- A search that starts at the type and avoids the trail can fail with the given error. -/
def CanFail (g : Graph) (name : Option String) (trail : List Handle) (t : Handle) (e : Error) :
    Prop :=
  ∃ u, g.Reaches name trail [t] u ∧ g.Stuck name u e

lemma canFail_self (ht : t ∉ trail) {e : Error} (he : g.Stuck name t e) :
    CanFail g name trail t e :=
  ⟨t, Graph.reaches_singleton.2 (.refl ht), he⟩

/-- What fails behind a type fails from there on. -/
lemma CanFail.of_passes {s : Handle} {e : Error} (ht : t ∉ trail) (hs : g.Passes name t s)
    (h : CanFail g name (t :: trail) s e) : CanFail g name trail t e := by
  obtain ⟨u, hu, he⟩ := h
  refine ⟨u, Graph.reaches_singleton.2 (Trail.avoiding_iff.2 ⟨ht, Or.inr ⟨s, hs, ?_⟩⟩), he⟩
  exact Graph.reaches_singleton.1 hu

/-- A direct question about a type is answered as it was at first. -/
lemma ask_triple {α : Type} {q : Query α} (ht : t ∉ trail) (hq : Unaffected g.registry q)
    (hfills : Fills g.registry q) (hstuck : ∀ e, g.answer q = .error e → g.Stuck name t e) :
    Triple g.registry (Since g) q (fun a m => Since g m ∧ g.answer q = .ok a)
      fun e _ => CanFail g name trail t e :=
  (hq.triple hfills g.memory).conseq (fun _ h => h) (fun _ _ h => h)
    fun e _ he => canFail_self ht (hstuck e he)

lemma memberNamed_triple {members : List Handle} (ht : t ∉ trail)
    (hmembers : g.answer (memberTypes t) = .ok members) :
    Triple g.registry (Since g) (memberNamed t members name)
      (fun found m => Since g m ∧ g.Spells name t ∧ (name = none → found = none) ∧
        ∀ n ∈ name, ∀ x, g.DeclaresAs n t x ↔ found = some x)
      fun e _ => CanFail g name trail t e := by
  cases name with
  | none => exact Triple.pure none fun m hm => ⟨hm, by simp [Graph.Spells], by simp⟩
  | some name =>
    refine Triple.read_bind ?_
    rcases hwanted : g.registry.memberDescriptor t name with e | wanted
    · exact Triple.throw e fun m _ => canFail_self ht (Or.inr (Or.inl ⟨name, rfl, hwanted⟩))
    · refine Triple.pure _ fun m hm => ⟨hm, by simp [Graph.Spells, hwanted], by simp, ?_⟩
      simp [Graph.DeclaresAs, hmembers, hwanted]

/-- A question about a type, followed by searches from all that its answer leads to. -/
lemma follow_triple {α β : Type} {q : Query α} {links : α → List Handle}
    {search : Handle → Query (List Handle)} {next : α → List (List Handle) → Query β}
    {post : β → Memory → Prop} (ht : t ∉ trail)
    (hsearch : ∀ s, g.Passes name t s → Triple g.registry (Since g) (search s)
      (fun found m => Since g m ∧ g.Surveys name (t :: trail) [s] found)
      fun e _ => CanFail g name (t :: trail) s e)
    (hq : Unaffected g.registry q) (hfills : Fills g.registry q)
    (hstuck : ∀ e, g.answer q = .error e → g.Stuck name t e)
    (hlinks : ∀ a, g.answer q = .ok a → ∀ s ∈ links a, g.Passes name t s)
    (hnext : ∀ a lists, g.answer q = .ok a →
      g.Surveys name (t :: trail) (links a) lists.flatten →
      Triple g.registry (Since g) (next a lists) post fun e _ => CanFail g name trail t e) :
    Triple g.registry (Since g) (q >>= fun a => (links a).mapM search >>= next a) post
      fun e _ => CanFail g name trail t e := by
  refine (ask_triple ht hq hfills hstuck).bind fun a => Triple.given fun ha => ?_
  have heach := fun s (hs : s ∈ links a) => (hsearch s (hlinks a ha s hs)).conseq (fun _ h => h)
    (fun _ _ h => h) fun e _ he => he.of_passes ht (hlinks a ha s hs)
  refine (Triple.mapM_forall₂ heach).bind fun lists => Triple.given fun hlists => ?_
  exact hnext a lists ha (.flatten hlists)

/-- The search from a type finds what is offered on paths that avoid the trail, or it fails with an
error that one of the types on them gives. -/
lemma searchScope_triple (hg : g.Sound) (hplaced : g.memory.Placed g.registry)
    (name : Option String) (trail : List Handle) (ht : g.registry.Issued t) :
    Triple g.registry (Since g) (searchScope g.registry.size name trail t)
      (fun found m => Since g m ∧ g.Surveys name trail [t] found)
      fun e _ => CanFail g name trail t e := by
  induction trail, t using searchScope.induct g.registry.size with
  | case1 trail t hopen ih =>
    have hsearch := fun s (hs : g.Passes name t s) => ih s (hg.issued_of_scopeLink hplaced hs.2)
    rw [searchScope, dif_pos hopen]
    refine (ask_triple hopen.2 (unaffected_memberTypes t) (fills_memberTypes ht)
      fun e he => Or.inl he).bind fun members => Triple.given fun hmembers => ?_
    refine (memberNamed_triple hopen.2 hmembers).bind
      fun found => Triple.given fun hnamed => ?_
    obtain ⟨hspells, hnone, hfound⟩ := hnamed
    cases found with
    | some member =>
      cases name with
      | none => cases hnone rfl
      | some n =>
        refine Triple.pure _ fun m hm => ⟨hm, .of_match hopen.2 (fun x => ?_) hspells⟩
        rw [hfound n rfl, Option.some_inj, eq_comm]
    | none =>
      have hpass : ∀ n ∈ name, ∀ x, ¬ g.DeclaresAs n t x := fun n hn x hx => by
        cases (hfound n hn x).1 hx
      refine follow_triple hopen.2 hsearch (unaffected_superclass t) (fills_superclass ht)
        (fun e he => Or.inr (Or.inr (Or.inl he))) (fun link hlink s hs => ⟨hpass, Or.inl ?_⟩)
        fun link inSuperclass hlink hinSuperclass => ?_
      · rw [hlink, Option.mem_toList.1 hs]
      refine follow_triple hopen.2 hsearch (unaffected_interfaces t) (fills_interfaces ht)
        (fun e he => Or.inr (Or.inr (Or.inr (Or.inl he))))
        (fun links hlinks s hs => ⟨hpass, Or.inr (Or.inl ⟨links, hlinks, hs⟩)⟩)
        fun links inInterfaces hlinks hinInterfaces => ?_
      refine follow_triple hopen.2 hsearch (unaffected_declaringClass t) (fills_declaringClass ht)
        (fun e he => Or.inr (Or.inr (Or.inr (Or.inr (Or.inl he)))))
        (fun declaring hdeclaring s hs => ⟨hpass, Or.inr (Or.inr (Or.inl ?_))⟩)
        fun declaring inDeclaring hdeclaring hinDeclaring => ?_
      · rw [hdeclaring, Option.mem_toList.1 hs]
      refine follow_triple hopen.2 hsearch (unaffected_outerClass t) (fills_outerClass ht)
        (fun e he => Or.inr (Or.inr (Or.inr (Or.inr (Or.inr he)))))
        (fun outer houter s hs => ⟨hpass, Or.inr (Or.inr (Or.inr ?_))⟩)
        fun outer inOuter houter hinOuter => Triple.pure _ fun m hm => ⟨hm, ?_⟩
      · rw [houter, (Option.filter_eq_some_iff.1 (Option.mem_toList.1 hs)).1]
      rw [List.flatten_append, List.flatten_append, List.flatten_append]
      refine .of_links hopen.2 (fun s => ?_) hspells (fun x => ?_)
        (((hinSuperclass.append hinInterfaces).append hinDeclaring).append hinOuter)
      · exact Graph.passes_iff_mem hpass hlink hlinks hdeclaring houter
      · cases name with
        | none => simp [Graph.Offers, Graph.Declares, hmembers]
        | some n => simp [Graph.Offers, hpass n rfl x]
  | case2 trail t hclosed =>
    rw [searchScope, dif_neg hclosed]
    have hmem : t ∈ trail := by
      by_contra hn
      exact hclosed ⟨ht, hn⟩
    exact Triple.pure [] fun m hm => ⟨hm, .of_mem_trail hmem⟩

end Query

/-! ## Graphs -/

namespace Graph

variable {g : Graph} {t : Handle}

/-- The search through a scope finds what is offered there, or it fails with an error that a type in
the scope gives. -/
lemma Reachable.findMemberTypes_outcome (hg : g.Reachable) (ht : g.registry.Issued t)
    (name : Option String) :
    (∃ found, g.answer (Query.findMemberTypes t name) = .ok found ∧ g.Surveys name [] [t] found) ∨
      ∃ e, g.answer (Query.findMemberTypes t name) = .error e ∧ Query.CanFail g name [] t e := by
  have hsearch := Query.searchScope_triple hg.sound hg.recalls.placed name [] ht g.memory .refl
  rw [hg.answer_findMemberTypes, answer]
  rcases hans : (Query.searchScope g.registry.size name [] t).answer g.registry g.memory with
    ⟨e | found, m⟩ <;> rw [hans] at hsearch
  · exact Or.inr ⟨e, rfl, hsearch⟩
  · exact Or.inl ⟨found, rfl, hsearch.2⟩

/-- All that a search may ask about the types in a scope is answered. -/
structure ScopeAnswered (g : Graph) (t : Handle) : Prop where
  superclass : ∀ {u}, ReflTransGen g.ScopeLink t u → g.Answers (Query.superclass u)
  interfaces : ∀ {u}, ReflTransGen g.ScopeLink t u → g.Answers (Query.interfaces u)
  memberTypes : ∀ {u}, ReflTransGen g.ScopeLink t u → g.Answers (Query.memberTypes u)
  declaringClass : ∀ {u}, ReflTransGen g.ScopeLink t u → g.Answers (Query.declaringClass u)
  outerClass : ∀ {u}, ReflTransGen g.ScopeLink t u → g.Answers (Query.outerClass u)

lemma Reaches.scopeLinks {name : Option String} {trail : List Handle} {u : Handle}
    (h : g.Reaches name trail [t] u) : ReflTransGen g.ScopeLink t u :=
  ReflTransGen.mono (fun _ _ => And.right) _ _ (reaches_singleton.1 h).reflTransGen

/-- Where all is answered, a search fails only at a name that cannot be spelled. -/
lemma ScopeAnswered.not_spells (h : g.ScopeAnswered t) {name : Option String} {e : Error}
    (hfail : Query.CanFail g name [] t e) :
    ∃ u, g.Reaches name [] [t] u ∧ ∃ n ∈ name, g.registry.memberDescriptor u n = .error e := by
  have hanswered : ∀ {α : Type} {q : Query α}, g.Answers q → g.answer q ≠ .error e := by
    rintro α q ⟨a, ha⟩ he
    cases ha.symm.trans he
  obtain ⟨u, hu, hstuck⟩ := hfail
  have hpath := hu.scopeLinks
  rcases hstuck with he | he | he | he | he | he
  · exact absurd he (hanswered (h.memberTypes hpath))
  · exact ⟨u, hu, he⟩
  · exact absurd he (hanswered (h.superclass hpath))
  · exact absurd he (hanswered (h.interfaces hpath))
  · exact absurd he (hanswered (h.declaringClass hpath))
  · exact absurd he (hanswered (h.outerClass hpath))

/-- A search finds what is offered in a scope where all is answered and every name can be
spelled. -/
lemma ScopeAnswered.exists_found (hscope : g.ScopeAnswered t) (hg : g.Reachable)
    (ht : g.registry.Issued t) (name : Option String)
    (hspells : ∀ c, ReflTransGen g.ScopeLink t c → g.Spells name c) :
    ∃ found, g.answer (Query.findMemberTypes t name) = .ok found ∧
      ∀ x, x ∈ found ↔ ∃ c, ReflTransGen (g.Passes name) t c ∧ g.Offers name c x := by
  rcases hg.findMemberTypes_outcome ht name with ⟨found, hfound, hsurveys⟩ | ⟨e, -, hfail⟩
  · refine ⟨found, hfound, fun x => ?_⟩
    simp only [hsurveys.mem_iff, reaches_singleton, Trail.avoiding_nil]
  · obtain ⟨u, hu, n, hn, he⟩ := hscope.not_spells hfail
    obtain ⟨wanted, hwanted⟩ := hspells u hu.scopeLinks n hn
    cases hwanted.symm.trans he

/-- **A search finds exactly the member types in scope.** Let the direct questions about all types
in the scope of a type be answered, in any graph that some run leads to; enclosing types may form
circles, and anything may have been asked before. Then the member types in scope are given, and they
are those that some type in the scope declares. The member types with a simple name are given too if
the name can be spelled in every type of the scope, and they are the first ones that types declare
under this name, as long as a path of scope links leads to the type on which no earlier type
declares the name. -/
theorem findMemberTypes_in_scope (hg : g.Reachable) (ht : g.registry.Issued t)
    (hscope : g.ScopeAnswered t) :
    (∃ found, g.answer (Query.findMemberTypes t none) = .ok found ∧
      ∀ x, x ∈ found ↔ ∃ c, ReflTransGen g.ScopeLink t c ∧ g.Declares c x) ∧
    ∀ name, (∀ c, ReflTransGen g.ScopeLink t c →
        ∃ wanted, g.registry.memberDescriptor c name = .ok wanted) →
      ∃ found, g.answer (Query.findMemberTypes t (some name)) = .ok found ∧
        ∀ x, x ∈ found ↔ ∃ c,
          ReflTransGen (fun a b => (∀ y, ¬ g.DeclaresAs name a y) ∧ g.ScopeLink a b) t c ∧
            g.DeclaresAs name c x := by
  constructor
  · have hfound := hscope.exists_found hg ht none fun c _ => by simp [Spells]
    rwa [passes_none] at hfound
  · intro name hspells
    have hfound := hscope.exists_found hg ht (some name) fun c hc => by
      simpa [Spells] using hspells c hc
    rwa [passes_some] at hfound

/-- Whether all direct questions about a type are answered. -/
def answersDirectly (g : Graph) (t : Handle) : Bool :=
  (g.answer (Query.superclass t)).isOk && (g.answer (Query.interfaces t)).isOk &&
    (g.answer (Query.memberTypes t)).isOk && (g.answer (Query.declaringClass t)).isOk &&
    (g.answer (Query.outerClass t)).isOk

lemma Reachable.issued_of_scopeLinks (hg : g.Reachable) (ht : g.registry.Issued t) {u : Handle}
    (hu : ReflTransGen g.ScopeLink t u) : g.registry.Issued u := by
  rcases ReflTransGen.cases_tail hu with rfl | ⟨s, -, hl⟩
  · exact ht
  · exact hg.sound.issued_of_scopeLink hg.recalls.placed hl

/-- It is enough to ask about all types of the graph. -/
lemma ScopeAnswered.of_answersDirectly (hg : g.Reachable) (ht : g.registry.Issued t)
    (h : ∀ i < g.registry.size, g.answersDirectly ⟨i⟩ = true) : g.ScopeAnswered t := by
  have hok : ∀ {α : Type} {q : Query α}, (g.answer q).isOk = true → g.Answers q := by
    intro α q hq
    rcases hans : g.answer q with e | a
    · rw [hans] at hq
      cases hq
    · exact ⟨a, hans⟩
  have hall : ∀ {u}, ReflTransGen g.ScopeLink t u → g.answersDirectly u = true :=
    fun hu => h _ (hg.issued_of_scopeLinks ht hu)
  simp only [answersDirectly, Bool.and_eq_true] at hall
  exact ⟨fun hu => hok (hall hu).1.1.1.1, fun hu => hok (hall hu).1.1.1.2,
    fun hu => hok (hall hu).1.1.2, fun hu => hok (hall hu).1.2, fun hu => hok (hall hu).2⟩

/-- `Outer` and its member `Inner` are declared in each other. `Inner` extends `Parent` and `Outer`
extends `Base`; all but `Inner` declare a member with the name `Other`. -/
def enclosedRun : List Action :=
  [.edit ⟨14⟩ (.setDeclaringClass (some ⟨15⟩)),
   .edit ⟨14⟩ (.addMemberType ⟨15⟩),
   .define (.draft { Draft.ofClass "Outer$Inner" with
     superclass := some ⟨13⟩, declaringClass := some ⟨14⟩, outerClass := some ⟨14⟩ }),
   .define (.draft { Draft.ofClass "Outer" with superclass := some ⟨10⟩, memberTypes := [⟨11⟩] }),
   .define (.draft { Draft.ofClass "Parent" with memberTypes := [⟨12⟩] }),
   .define (.draft (Draft.ofClass "Parent$Other")),
   .define (.draft (Draft.ofClass "Outer$Other")),
   .define (.draft { Draft.ofClass "Base" with memberTypes := [⟨9⟩] }),
   .define (.draft (Draft.ofClass "Base$Other"))]

/-- In `Inner` the name `Other` stands for a member of `Parent` and for one of `Outer`, which hides
the one of `Base`. -/
theorem findMemberTypes_in_scope_circle :
    (Run.after enclosedRun).Reachable ∧ (Run.after enclosedRun).ScopeAnswered ⟨15⟩ ∧
    (∀ x, (∃ c, ReflTransGen (Run.after enclosedRun).ScopeLink ⟨15⟩ c ∧
      (Run.after enclosedRun).Declares c x) ↔ x ∈ [⟨12⟩, ⟨11⟩, ⟨15⟩, ⟨9⟩]) ∧
    ∀ x, (∃ c, ReflTransGen (fun a b => (∀ y, ¬ (Run.after enclosedRun).DeclaresAs "Other" a y) ∧
        (Run.after enclosedRun).ScopeLink a b) ⟨15⟩ c ∧
      (Run.after enclosedRun).DeclaresAs "Other" c x) ↔ x ∈ [⟨12⟩, ⟨11⟩] := by
  have hreach : (Run.after enclosedRun).Reachable := ⟨_, Run.of_allowed (by decide +kernel)⟩
  have hissued : (Run.after enclosedRun).registry.Issued ⟨15⟩ := by decide +kernel
  have hscope : (Run.after enclosedRun).ScopeAnswered ⟨15⟩ :=
    .of_answersDirectly hreach hissued (by decide +kernel)
  have hspells : ∀ i < (Run.after enclosedRun).registry.size,
      ((Run.after enclosedRun).registry.memberDescriptor ⟨i⟩ "Other").isOk = true := by
    decide +kernel
  obtain ⟨⟨all, hall, hdeclares⟩, hnamed⟩ := findMemberTypes_in_scope hreach hissued hscope
  obtain ⟨found, hfound, hmatches⟩ := hnamed "Other" fun c hc => by
    have hok := hspells c.index (hreach.issued_of_scopeLinks hissued hc)
    rcases hwanted : (Run.after enclosedRun).registry.memberDescriptor c "Other" with e | wanted
    · rw [show (⟨c.index⟩ : Handle) = c from rfl, hwanted] at hok
      cases hok
    · exact ⟨wanted, rfl⟩
  have hanswer : (Run.after enclosedRun).answer (Query.findMemberTypes ⟨15⟩ none) =
      .ok [⟨12⟩, ⟨11⟩, ⟨15⟩, ⟨9⟩] := by
    decide +kernel
  have hanswer' : (Run.after enclosedRun).answer (Query.findMemberTypes ⟨15⟩ (some "Other")) =
      .ok [⟨12⟩, ⟨11⟩] := by
    decide +kernel
  cases hall.symm.trans hanswer
  cases hfound.symm.trans hanswer'
  exact ⟨hreach, hscope, fun x => (hdeclares x).symm, fun x => (hmatches x).symm⟩

end Graph

end TypeGraph
