import Mathlib.Data.List.Basic
import TypeGraph.Proofs.Member.Inherited
import TypeGraph.Proofs.Query.Permanent

/-!
# Methods and their index are of one generation

The methods that a type declares are remembered twice, as a list and by name. The list is read from
the declaration by the first question that needs it: a question for the methods themselves, for the
methods of a name, or for what a subtype inherits. The index is made of the list that is remembered
then. Both are forgotten together. So at every moment of a run all questions about the declared
methods of a type are answered from one list, and this list is the one that the type declared when
it was first needed after the methods had last been forgotten.
-/

namespace TypeGraph

open Relation

/-! ## The index is made of the list -/

lemma Fill.methodIndex_about {r : Registry} {m m' : Memory} (h : Fill r m m') (t : Handle) :
    (m'.about t).methodIndex = (m.about t).methodIndex ∨
      ∃ list, (m.about t).methods = some list ∧
        (m'.about t).methodIndex = some (MethodIndex.ofList list) := by
  cases h with
  | @methodIndex s list hs hfree hmethods =>
    by_cases ht : t = s
    · subst ht
      exact Or.inr ⟨list, hmethods, by rw [Memory.about_update_self]⟩
    · rw [Memory.about_update_of_ne ht]
      exact Or.inl rfl
  | reading => exact Or.inl rfl
  | _ =>
    refine Or.inl (Memory.about_update_eq Slots.methodIndex ?_ t)
    exact fun _ => rfl

namespace Memory

variable {r : Registry} {m m' : Memory}

/-- Where methods are remembered by name, the list is remembered that the index is made of. -/
def Indexed (m : Memory) : Prop :=
  ∀ t index, (m.about t).methodIndex = some index →
    ∃ list, (m.about t).methods = some list ∧ index = MethodIndex.ofList list

lemma indexed_empty : empty.Indexed := fun t index h => by simp at h

lemma Indexed.fill (hm : m.Indexed) (h : Fill r m m') : m'.Indexed := by
  intro t index hindex
  have hbefore : ∃ list, (m.about t).methods = some list ∧ index = MethodIndex.ofList list := by
    rcases h.methodIndex_about t with heq | ⟨list, hlist, hnew⟩
    · exact hm t index (heq.symm.trans hindex)
    · exact ⟨list, hlist, Option.some.inj (hindex.symm.trans hnew)⟩
  obtain ⟨list, hlist, rfl⟩ := hbefore
  exact ⟨list, h.methods_eq_some hlist, rfl⟩

/-- The two are forgotten together. -/
lemma Indexed.forgetMethods (hm : m.Indexed) (t : Handle) : (m.forgetMethods t).Indexed := by
  intro s index hindex
  by_cases hs : s = t
  · subst hs
    rw [Memory.forgetMethods, about_update_self] at hindex
    cases hindex
  · rw [Memory.forgetMethods, about_update_of_ne hs] at hindex ⊢
    exact hm s index hindex

lemma Indexed.forgetFields (hm : m.Indexed) (t : Handle) : (m.forgetFields t).Indexed := by
  intro s index hindex
  have hmethods : ((m.forgetFields t).about s).methods = (m.about s).methods :=
    about_update_eq Slots.methods (fun _ => by rfl) s
  have hsame : ((m.forgetFields t).about s).methodIndex = (m.about s).methodIndex :=
    about_update_eq Slots.methodIndex (fun _ => by rfl) s
  rw [hmethods]
  exact hm s index (hsame.symm.trans hindex)

end Memory

lemma Graph.Step.indexed {g g' : Graph} (h : g.Step g') (hm : g.memory.Indexed) :
    g'.memory.Indexed := by
  cases h with
  | extend => exact hm
  | ask hfills =>
    induction hfills with
    | refl => exact hm
    | tail _ hfill ih => exact ih.fill hfill
  | forget _ hforgets =>
    obtain ⟨t, rfl | rfl⟩ := hforgets
    · exact hm.forgetMethods t
    · exact hm.forgetFields t

lemma Run.indexed {g : Graph} {past : List Graph} (h : Run (g :: past)) : g.memory.Indexed :=
  h.induction (motive := fun g => g.memory.Indexed) Memory.indexed_empty
    fun _ _ _ _ hm hstep => hstep.indexed hm

namespace Query

variable {r : Registry} {m m' : Memory} {t : Handle} {list : List Method}

/-- All questions about the declared methods are answered from the list of methods, and the list is
remembered afterwards. -/
lemma answer_methodIndex (hm : m.Indexed) (h : (methods t).answer r m = (.ok list, m')) :
    ∃ m₁, (methodIndex t).answer r m = (.ok (MethodIndex.ofList list), m₁) ∧
      (m₁.about t).methods = some list := by
  cases hindex : (m.about t).methodIndex with
  | some index =>
    obtain ⟨list', hlist', rfl⟩ := hm t index hindex
    have heq : (.ok list', m) = ((.ok list : Except Error _), m') :=
      (answer_once_some hlist').symm.trans h
    cases heq
    exact ⟨m, answer_once_some hindex, hlist'⟩
  | none =>
    rw [methodIndex, answer_once_none hindex, answer_bind_ok h]
    refine ⟨_, rfl, ?_⟩
    rw [Memory.about_update_self, about_of_methods h]

lemma answer_methodsNamed (hm : m.Indexed) (h : (methods t).answer r m = (.ok list, m'))
    (name : String) :
    ∃ m₁, (methodsNamed t name).answer r m =
        (.ok (list.filter fun method => method.decl.name = name), m₁) ∧
      (m₁.about t).methods = some list := by
  obtain ⟨m₁, hindex, hslot⟩ := answer_methodIndex hm h
  refine ⟨m₁, ?_, hslot⟩
  rw [methodsNamed_eq, answer_bind_ok hindex, answer_pure, MethodIndex.named_ofList]

lemma answer_findMethod (hm : m.Indexed) (h : (methods t).answer r m = (.ok list, m'))
    (name : String) (parameters : List Handle) :
    ∃ m₁, (findMethod t name parameters).answer r m =
        (.ok (list.find? fun method =>
          method.decl.name = name ∧ method.decl.parameters = parameters), m₁) ∧
      (m₁.about t).methods = some list := by
  obtain ⟨m₁, hnamed, hslot⟩ := answer_methodsNamed hm h name
  refine ⟨m₁, ?_, hslot⟩
  rw [findMethod, answer_bind_ok hnamed, answer_pure, List.find?_filter]
  simp only [Bool.decide_and, Bool.decide_eq_true]

lemma answer_hasMethod (hm : m.Indexed) (h : (methods t).answer r m = (.ok list, m'))
    (name : String) (parameters : List Handle) :
    ∃ m₁, (hasMethod t name parameters).answer r m =
        (.ok (list.any fun method =>
          method.decl.name = name ∧ method.decl.parameters = parameters), m₁) ∧
      (m₁.about t).methods = some list := by
  obtain ⟨m₁, hfind, hslot⟩ := answer_findMethod hm h name parameters
  refine ⟨m₁, ?_, hslot⟩
  rw [hasMethod, answer_bind_ok hfind, answer_pure, List.isSome_find?]

/-- Collecting what a type inherits reads the methods of all types above it. -/
lemma exists_methods_of_allMethods (hr : r.Sound) {s : Handle}
    (hfree : (m.about s).allMethods = none) (h : (allMethods s).answer r m = (.ok list, m'))
    (ht : ReflTransGen (r.Link m) s t) : ∃ own, (m'.about t).methods = some own := by
  rcases once_eq_ok h with ⟨hslot, -⟩ | ⟨-, m₁, hans, rfl⟩
  · rw [hfree] at hslot
    cases hslot
  · rw [answer_bind_ok (answer_read r m)] at hans
    obtain ⟨full, hfull, -⟩ := spread_of_collectMethods hr hans
    have hsame : r.SameLinks m m₁ := by
      have hfills := fills_collectMethods (r := r) [] [] s m
      rw [hans] at hfills
      exact .of_fills hfills
    obtain ⟨own, hown, -⟩ := Spread.exists_own hfull (List.mem_singleton.2 rfl) ht
      fun habove hlink => (hsame.above (Registry.above_of_memory habove)).link_iff.1 hlink
    exact ⟨own, (Memory.about_update_eq Slots.methods (fun _ => by rfl) t).trans hown⟩

end Query

/-! ## When the methods were read -/

namespace Inquiry

/-- After the question the methods that the type declares have been read. -/
def reads (g : Graph) (t : Handle) (inquiry : Inquiry) : Bool :=
  ((inquiry.query.answer g.registry g.memory).2.about t).methods.isSome

/-- The question is about the methods that the type declares. -/
def AsksDeclared (t : Handle) : Inquiry → Prop
  | methods s | methodsNamed s _ | findMethod s _ _ | hasMethod s _ _ => s = t
  | _ => False

/-- The question is answered from the methods that the type declares or inherits. -/
def AsksInherited (s : Handle) : Inquiry → Prop
  | allMethods t | call t _ _ => t = s
  | _ => False

/-- The question needs the methods that the type declares: it is about these, or what a type below
inherits has to be collected for it. -/
def Needs (g : Graph) (t : Handle) (inquiry : Inquiry) : Prop :=
  inquiry.AsksDeclared t ∨ ∃ s list, inquiry.AsksInherited s ∧
    (g.memory.about s).allMethods = none ∧ g.answer (Query.allMethods s) = .ok list ∧
    ReflTransGen (g.registry.Link g.memory) s t

variable {r : Registry} {m m' : Memory} {g : Graph} {s t : Handle} {inquiry : Inquiry}
  {list : List Method}

/-- What comes after the inherited methods takes nothing back. -/
lemma AsksInherited.fills (h : inquiry.AsksInherited s)
    (hans : (Query.allMethods s).answer r m = (.ok list, m')) :
    ReflTransGen (Fill r) m' (inquiry.query.answer r m).2 := by
  cases inquiry with
  | allMethods t =>
    obtain rfl : t = s := h
    rw [query, Query.memory_discard, hans]
  | call t name arguments =>
    obtain rfl : t = s := h
    obtain ⟨choose, hcall, hchoose⟩ := Query.fills_walks.exists_call_eq (r := r) t name arguments
    rw [query, Query.memory_discard, hcall, Query.answer_bind_ok hans]
    exact hchoose list m'
  | _ => exact h.elim

lemma AsksDeclared.exists_methods (h : inquiry.AsksDeclared t) (hm : m.Indexed) :
    ∃ list, ((inquiry.query.answer r m).2.about t).methods = some list := by
  obtain ⟨list, m', hlist⟩ := Query.exists_methods (r := r) t m
  refine ⟨list, ?_⟩
  cases inquiry with
  | methods s =>
    obtain rfl : s = t := h
    rw [query, Query.memory_discard, hlist, Query.about_of_methods hlist]
  | methodsNamed s name =>
    obtain rfl : s = t := h
    obtain ⟨m₁, hans, hslot⟩ := Query.answer_methodsNamed hm hlist name
    rw [query, Query.memory_discard, hans, hslot]
  | findMethod s name parameters =>
    obtain rfl : s = t := h
    obtain ⟨m₁, hans, hslot⟩ := Query.answer_findMethod hm hlist name parameters
    rw [query, Query.memory_discard, hans, hslot]
  | hasMethod s name parameters =>
    obtain rfl : s = t := h
    obtain ⟨m₁, hans, hslot⟩ := Query.answer_hasMethod hm hlist name parameters
    rw [query, Query.memory_discard, hans, hslot]
  | _ => exact h.elim

/-- Methods that are needed are read. -/
lemma Needs.reads (h : inquiry.Needs g t) (hg : g.Sound) (hm : g.memory.Indexed) :
    inquiry.reads g t = true := by
  rw [Inquiry.reads, Option.isSome_iff_exists]
  rcases h with hdeclared | ⟨s, list, hinherited, hfree, hlist, hpath⟩
  · exact hdeclared.exists_methods hm
  · have hans : (Query.allMethods s).answer g.registry g.memory = (.ok list, _) :=
      Prod.ext hlist rfl
    obtain ⟨own, hown⟩ := Query.exists_methods_of_allMethods hg.registry hfree hans hpath
    rcases methods_of_fills (hinherited.fills hans) t with heq | ⟨hnone, -⟩
    · exact ⟨own, heq.trans hown⟩
    · rw [hnone] at hown
      cases hown

end Inquiry

namespace Action

variable {action : Action} {g : Graph} {t : Handle}

/-- Nothing but questions and forgetting has to do with the methods that are remembered. -/
lemma methods_run_eq (hask : ∀ inquiry, action ≠ .ask inquiry)
    (hforget : action ≠ .forgetMethods t) :
    ((action.run g).memory.about t).methods = (g.memory.about t).methods := by
  cases action with
  | ask inquiry => exact absurd rfl (hask inquiry)
  | forgetMethods s =>
    have hne : t ≠ s := by
      rintro rfl
      exact hforget rfl
    exact congrArg Slots.methods (Memory.about_update_of_ne hne _)
  | forgetFields s => exact Memory.about_update_eq Slots.methods (fun _ => by rfl) t
  | _ => rw [Action.run, Action.work, Work.result_load]

lemma memory_ask (inquiry : Inquiry) (g : Graph) :
    ((ask inquiry).run g).memory = (inquiry.query.answer g.registry g.memory).2 := by
  rw [Action.run, Action.work, Work.result_ask]

lemma methods_run_eq_some (hadmissible : action.Admissible g) (hforget : action ≠ .forgetMethods t)
    {list : List Method} (hslot : (g.memory.about t).methods = some list) :
    ((action.run g).memory.about t).methods = some list := by
  by_cases hask : ∃ inquiry, action = .ask inquiry
  · obtain ⟨inquiry, rfl⟩ := hask
    rw [memory_ask]
    rcases methods_of_fills (inquiry.fills_query hadmissible g.memory) t with heq | ⟨hfree, -⟩
    · exact heq.trans hslot
    · rw [hfree] at hslot
      cases hslot
  · rw [methods_run_eq (fun inquiry heq => hask ⟨inquiry, heq⟩) hforget]
    exact hslot

end Action

namespace Run

/-- The graph in which the methods of a type were read that are remembered after some actions, if
there are any. They are read by the first question that needs them, and forgotten on request. -/
def readAt (t : Handle) : List Action → Option Graph
  | [] => none
  | .forgetMethods s :: earlier => if s = t then none else readAt t earlier
  | .ask inquiry :: earlier =>
    (readAt t earlier).or (if inquiry.reads (after earlier) t then some (after earlier) else none)
  | _ :: earlier => readAt t earlier

variable {t : Handle} {action : Action} {actions : List Action} {source : Graph}

lemma readAt_cons_eq_some (hforget : action ≠ .forgetMethods t)
    (h : readAt t actions = some source) : readAt t (action :: actions) = some source := by
  cases action with
  | ask inquiry => rw [readAt, h, Option.some_or]
  | forgetMethods s =>
    have hne : s ≠ t := by
      rintro rfl
      exact hforget rfl
    rw [readAt, if_neg hne, h]
  | _ => exact h

lemma readAt_cons_eq_none (hask : ∀ inquiry, action ≠ .ask inquiry)
    (h : readAt t actions = none) : readAt t (action :: actions) = none := by
  cases action with
  | ask inquiry => exact absurd rfl (hask inquiry)
  | forgetMethods s =>
    rw [readAt, h]
    exact ite_self none
  | _ => exact h

lemma readAt_ask {inquiry : Inquiry} (h : inquiry.reads (after actions) t = true) :
    readAt t (.ask inquiry :: actions) = some ((readAt t actions).getD (after actions)) := by
  rw [readAt, if_pos h]
  cases readAt t actions <;> rfl

end Run

/-- What is remembered of the methods that a type declares, if they were read in the given graph. -/
def Graph.MethodsFrom (g : Graph) (t : Handle) : Option Graph → Prop
  | none => (g.memory.about t).methods = none
  | some source => ∃ reading, (g.memory.about t).methods =
      some (Bound.ofList t reading (source.registry.declaredMethods t)) ∧
      source.registry.Reading t reading

/-- A question reads methods that were not remembered, or it has nothing to do with them. -/
lemma Graph.methodsFrom_ask {g : Graph} {t : Handle} {inquiry : Inquiry}
    (hadmissible : (Action.ask inquiry).Admissible g) (hfree : (g.memory.about t).methods = none) :
    ((Action.ask inquiry).run g).MethodsFrom t (if inquiry.reads g t then some g else none) := by
  have hafter := Action.memory_ask inquiry g
  rcases methods_of_fills (inquiry.fills_query hadmissible g.memory) t with
    heq | ⟨-, reading, hslot, hreading⟩
  · have hnone := heq.trans hfree
    rw [if_neg (by simp [Inquiry.reads, hnone])]
    rw [← hafter] at hnone
    exact hnone
  · rw [if_pos (by simp [Inquiry.reads, hslot])]
    rw [← hafter] at hslot
    exact ⟨reading, hslot, hreading⟩

/-- The methods that are remembered are those that were declared when they were read. -/
lemma Run.methodsFrom_readAt {actions : List Action} (h : Run.Allowed actions) (t : Handle) :
    (Run.after actions).MethodsFrom t (Run.readAt t actions) := by
  induction actions with
  | nil => exact congrArg Slots.methods (Memory.about_empty t)
  | cons action earlier ih =>
    have hbefore := ih h.2
    by_cases hforget : action = .forgetMethods t
    · subst hforget
      rw [Run.readAt, if_pos rfl]
      exact congrArg Slots.methods (Memory.about_update_self _ _ _)
    cases hread : Run.readAt t earlier with
    | some source =>
      rw [hread] at hbefore
      obtain ⟨reading, hslot, hreading⟩ := hbefore
      rw [Run.readAt_cons_eq_some hforget hread]
      exact ⟨reading, Action.methods_run_eq_some h.1 hforget hslot, hreading⟩
    | none =>
      rw [hread] at hbefore
      by_cases hask : ∃ inquiry, action = .ask inquiry
      · obtain ⟨inquiry, rfl⟩ := hask
        rw [Run.readAt, hread, Option.none_or]
        exact Graph.methodsFrom_ask h.1 hbefore
      · have hother : ∀ inquiry, action ≠ .ask inquiry := fun inquiry heq => hask ⟨inquiry, heq⟩
        rw [Run.readAt_cons_eq_none hother hread]
        exact (Action.methods_run_eq hother hforget).trans hbefore

/-- Inherited methods that were once collected are remembered from then on. -/
lemma Run.allMethods_collected {later earlier : List Action} {inquiry : Inquiry} {s : Handle}
    {list : List Method} (h : Run.Allowed (later ++ .ask inquiry :: earlier))
    (hinherited : inquiry.AsksInherited s)
    (hanswer : (Run.after earlier).answer (Query.allMethods s) = .ok list) :
    ((Run.after (later ++ .ask inquiry :: earlier)).memory.about s).allMethods = some list := by
  have hans : (Query.allMethods s).answer (Run.after earlier).registry (Run.after earlier).memory =
      (.ok list, _) := Prod.ext hanswer rfl
  have hslot := (Structural.allMethods s).slot_of_ok hans
  refine Run.structural_eq_some (.allMethods s) h ?_
  rw [Run.after, Action.memory_ask]
  exact Structural.eq_some_of_fills _ (hinherited.fills hans) hslot

namespace Graph

variable {g : Graph} {t : Handle}

/-- Methods that were not read before are read now. -/
lemma MethodsFrom.answer_methods {source : Option Graph} (h : g.MethodsFrom t source) :
    ∃ reading m, (Query.methods t).answer g.registry g.memory =
        (.ok (Bound.ofList t reading ((source.getD g).registry.declaredMethods t)), m) ∧
      (source.getD g).registry.Reading t reading := by
  cases source with
  | none =>
    obtain ⟨list, m, hans, ⟨reading, hlist, hreading⟩, -⟩ :=
      Query.readMethods_spec (r := g.registry) t g.memory
    refine ⟨reading, m.update t fun slots => { slots with methods := some list }, ?_, hreading⟩
    rw [Query.methods_eq_once, Query.answer_once_none h, hans, hlist]
    rfl
  | some source =>
    obtain ⟨reading, hslot, hreading⟩ := h
    exact ⟨reading, _, Query.answer_once_some hslot, hreading⟩

/-- The fields of a type have nothing to do with its methods. -/
lemma answer_fieldIndex_forgetMethods (g : Graph) (s u : Handle) :
    ((Action.forgetMethods s).run g).answer (Query.fieldIndex u) =
      g.answer (Query.fieldIndex u) := by
  have hslot : ((g.memory.forgetMethods s).about u).fields = (g.memory.about u).fields :=
    Memory.about_update_eq Slots.fields (fun _ => by rfl) u
  change ((Query.fieldIndex u).answer g.registry (g.memory.forgetMethods s)).1 =
    ((Query.fieldIndex u).answer g.registry g.memory).1
  cases hfields : (g.memory.about u).fields with
  | some index =>
    rw [Query.fieldIndex, Query.answer_once_some (hslot.trans hfields),
      Query.answer_once_some hfields]
  | none =>
    rw [Query.fieldIndex, Query.answer_once_none (hslot.trans hfields),
      Query.answer_once_none hfields, Query.answer_bind_ok (Query.answer_read _ _),
      Query.answer_bind_ok (Query.answer_read _ _)]
    cases g.registry.shape u with
    | declared origin => cases origin <;> rfl
    | _ => rfl

/-- What is computed from an answer is computed from it in every graph. -/
lemma answer_bind_pure {α β : Type} (g : Graph) (q : Query α) (f : α → β) :
    g.answer (q >>= fun a => pure (f a)) = (g.answer q).map f := by
  rw [answer, Query.answer_bind, answer]
  rcases q.answer g.registry g.memory with ⟨e | a, m⟩ <;> rfl

lemma answer_fields_forgetMethods (g : Graph) (s u : Handle) :
    ((Action.forgetMethods s).run g).answer (Query.fields u) = g.answer (Query.fields u) := by
  rw [Query.fields, answer_bind_pure, answer_bind_pure, answer_fieldIndex_forgetMethods]

lemma answer_field_forgetMethods (g : Graph) (s u : Handle) (name : String) :
    ((Action.forgetMethods s).run g).answer (Query.field u name) =
      g.answer (Query.field u name) := by
  rw [Query.field, answer_bind_pure, answer_bind_pure, answer_fieldIndex_forgetMethods]

/-- **The methods of a type and their index are of one generation.** At every moment of a run, the
declared methods of a type are those that it declared when they were first needed after they had
last been forgotten, or those that it declares now if they are needed for the first time; and they
stay the same until they are forgotten. The methods of a name are the methods in the list that have
the name, in their order, and a method is looked for in the same list. Forgetting the methods of a
type changes neither the inherited methods that were collected before nor the fields. -/
theorem methods_of_one_generation {actions : List Action} (h : Run.Allowed actions) (t : Handle) :
    let g := Run.after actions
    let source := (Run.readAt t actions).getD g
    (∃ list reading, g.answer (Query.methods t) = .ok list ∧
      list = Bound.ofList t reading (source.registry.declaredMethods t) ∧
      source.registry.Reading t reading ∧
      (∀ name, g.answer (Query.methodsNamed t name) =
        .ok (list.filter fun method => method.decl.name = name)) ∧
      (∀ name parameters,
        g.answer (Query.findMethod t name parameters) = .ok (list.find? fun method =>
          method.decl.name = name ∧ method.decl.parameters = parameters) ∧
        g.answer (Query.hasMethod t name parameters) = .ok (list.any fun method =>
          method.decl.name = name ∧ method.decl.parameters = parameters)) ∧
      ∀ action : Action, action.Admissible g → action ≠ .forgetMethods t →
        (Run.readAt t actions).isSome → (action.run g).answer (Query.methods t) = .ok list) ∧
    (∀ inquiry : Inquiry, inquiry.Needs g t →
      Run.readAt t (.ask inquiry :: actions) = some source) ∧
    ∀ s u,
      (∀ later earlier inquiry inherited, actions = later ++ .ask inquiry :: earlier →
        inquiry.AsksInherited u → (Run.after earlier).answer (Query.allMethods u) = .ok inherited →
        ((Action.forgetMethods s).run g).answer (Query.allMethods u) = .ok inherited) ∧
      ((Action.forgetMethods s).run g).answer (Query.fields u) = g.answer (Query.fields u) ∧
      ∀ name, ((Action.forgetMethods s).run g).answer (Query.field u name) =
        g.answer (Query.field u name) := by
  intro g source
  have hrun := Run.of_allowed h
  have hm : g.memory.Indexed := hrun.indexed
  have hfrom := Run.methodsFrom_readAt h t
  obtain ⟨reading, m, hans, hreading⟩ := hfrom.answer_methods
  refine ⟨⟨_, reading, congrArg Prod.fst hans, rfl, hreading, fun name => ?_,
    fun name parameters => ⟨?_, ?_⟩, fun action hadmissible hforget hread => ?_⟩,
    fun inquiry hneeds => Run.readAt_ask (hneeds.reads hrun.sound hm),
    fun s u => ⟨?_, answer_fields_forgetMethods g s u, answer_field_forgetMethods g s u⟩⟩
  · obtain ⟨m₁, hnamed, -⟩ := Query.answer_methodsNamed hm hans name
    exact congrArg Prod.fst hnamed
  · obtain ⟨m₁, hfind, -⟩ := Query.answer_findMethod hm hans name parameters
    exact congrArg Prod.fst hfind
  · obtain ⟨m₁, hhas, -⟩ := Query.answer_hasMethod hm hans name parameters
    exact congrArg Prod.fst hhas
  · -- what was read is remembered, and the action leaves it alone
    obtain ⟨origin, horigin⟩ := Option.isSome_iff_exists.1 hread
    rw [horigin] at hfrom
    obtain ⟨reading', hslot, -⟩ := hfrom
    have hknown := (Query.answer_once_some hslot).symm.trans hans
    obtain ⟨hlist, -⟩ := Prod.mk.inj hknown
    rw [← hlist]
    exact congrArg Prod.fst (Query.answer_once_some
      (Action.methods_run_eq_some hadmissible hforget hslot))
  · rintro later earlier inquiry inherited rfl hinherited hanswer
    have hslot := Run.allMethods_collected h hinherited hanswer
    refine congrArg Prod.fst (Query.answer_once_some (.trans ?_ hslot))
    exact Memory.about_update_eq Slots.allMethods (fun _ => by rfl) u

/-- `Base` declares `f()` and has a subclass. Its methods are asked for and forgotten, it gets
`g()`, a call on the subclass reads its methods again, and then it gets `f(int)`. -/
def generationRun : List Action :=
  [.edit ⟨9⟩ (.addMethod { name := "f", parameters := [⟨5⟩], result := ⟨0⟩ }),
   .ask (.call ⟨10⟩ "f" []),
   .edit ⟨9⟩ (.addMethod { name := "g", result := ⟨0⟩ }),
   .forgetMethods ⟨9⟩,
   .ask (.methodsNamed ⟨9⟩ "f"),
   .define (.draft { Draft.ofClass "Child" with superclass := some ⟨9⟩ }),
   .define (.draft { Draft.ofClass "Base" with methods := [{ name := "f", result := ⟨0⟩ }] })]

/-- The call has set the methods to `f()` and `g()`, so `f(int)` is not seen by name either. When
the methods are forgotten it is seen, and what the subclass inherits is still without it. -/
theorem methods_of_one_generation_call :
    Run.Allowed (.forgetMethods ⟨9⟩ :: generationRun) ∧
    (∃ list, (Run.after generationRun).answer (Query.methods ⟨9⟩) = .ok list ∧
      (list.map Bound.decl).map MethodDecl.name = ["f", "g"] ∧
      (Run.after generationRun).answer (Query.methodsNamed ⟨9⟩ "f") =
        .ok (list.filter fun method => method.decl.name = "f") ∧
      (Run.after generationRun).answer (Query.hasMethod ⟨9⟩ "f" [⟨5⟩]) = .ok false) ∧
    (∃ list, (Run.after (.forgetMethods ⟨9⟩ :: generationRun)).answer (Query.methods ⟨9⟩) =
        .ok list ∧ (list.map Bound.decl).map MethodDecl.name = ["f", "g", "f"]) ∧
    ∃ list, (Run.after (.forgetMethods ⟨9⟩ :: generationRun)).answer (Query.allMethods ⟨10⟩) =
      .ok list ∧ (list.map Bound.decl).map MethodDecl.name = ["f", "g"] := by
  have hallowed : Run.Allowed (.forgetMethods ⟨9⟩ :: generationRun) := by decide +kernel
  obtain ⟨⟨list, reading, hlist, hread, -, hnamed, -⟩, -, hforget⟩ :=
    methods_of_one_generation hallowed.2 ⟨9⟩
  obtain ⟨⟨list', reading', hlist', hread', -⟩, -⟩ := methods_of_one_generation hallowed ⟨9⟩
  -- the call found the methods that the subclass inherited then
  have hbefore : ((Run.after (generationRun.drop 2)).answer (Query.allMethods ⟨10⟩)).map
      (fun list => (list.map Bound.decl).map MethodDecl.name) = .ok ["f", "g"] := by decide +kernel
  refine ⟨hallowed, ⟨list, hlist, ?_, hnamed "f", by decide +kernel⟩, ⟨list', hlist', ?_⟩, ?_⟩
  · rw [hread, Bound.map_decl_ofList]
    decide +kernel
  · rw [hread', Bound.map_decl_ofList]
    decide +kernel
  · rcases hall : (Run.after (generationRun.drop 2)).answer (Query.allMethods ⟨10⟩) with e | all <;>
      rw [hall] at hbefore
    · cases hbefore
    · exact ⟨all, (hforget ⟨9⟩ ⟨10⟩).1 (generationRun.take 1) (generationRun.drop 2)
        (.call ⟨10⟩ "f" []) all rfl rfl hall, Except.ok.inj hbefore⟩

end Graph

end TypeGraph
