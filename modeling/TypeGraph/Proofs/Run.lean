import Mathlib.Logic.Relation
import TypeGraph.Graph
import TypeGraph.Proofs.Loading.Source
import TypeGraph.Proofs.Supertype.Accepted

/-!
# Runs

A run starts from the empty graph and takes actions in any order: it defines classes, makes array
types, edits drafts, loads types from sources, asks questions and forgets answers. An action may
fail; what it did before stays. All that is asked of an action is that it names types which exist.

Of each action it is enough to know which of three things it does: it extends the registry, it
takes steps of questions, or it forgets answers that are no links. This file proves that, and that
registry and memory are sound after every run.
-/

namespace TypeGraph

open Relation

/-! ## Actions -/

/-- A way to fill in a draft. -/
inductive Edit where
  | setSuperclass (link : Option Handle)
  | addInterface (interface : Handle)
  | setOuterClass (link : Option Handle)
  | setDeclaringClass (link : Option Handle)
  | addConstructor (constructor : ConstructorDecl)
  | addMethod (method : MethodDecl)
  | addField (field : FieldDecl)
  | addMemberType (member : Handle)
  | fail (error : Error)

namespace Edit

/-- What becomes of the draft. -/
def change : Edit → Draft → Draft
  | setSuperclass link => Draft.setSuperclass link
  | addInterface interface => Draft.addInterface interface
  | setOuterClass link => Draft.setOuterClass link
  | setDeclaringClass link => Draft.setDeclaringClass link
  | addConstructor constructor => Draft.addConstructor constructor
  | addMethod method => Draft.addMethod method
  | addField field => Draft.addField field
  | addMemberType member => Draft.addMemberType member
  | fail error => Draft.fail error

/-- The types that the draft is linked to. -/
def links : Edit → List Handle
  | setSuperclass link | setOuterClass link | setDeclaringClass link => link.toList
  | addInterface t | addMemberType t => [t]
  | _ => []

/-- The errors that the draft is given. -/
def errors : Edit → List Error
  | fail error => [error]
  | _ => []

lemma edits_change (edit : Edit) : Draft.Edits edit.change edit.links edit.errors := by
  cases edit with
  | setSuperclass link => exact Draft.edits_setSuperclass link
  | addInterface interface => exact Draft.edits_addInterface interface
  | setOuterClass link => exact Draft.edits_setOuterClass link
  | setDeclaringClass link => exact Draft.edits_setDeclaringClass link
  | addConstructor constructor => exact Draft.edits_addConstructor constructor
  | addMethod method => exact Draft.edits_addMethod method
  | addField field => exact Draft.edits_addField field
  | addMemberType member => exact Draft.edits_addMemberType member
  | fail error => exact Draft.edits_fail error

end Edit

/-- A question about the types of a graph. -/
inductive Inquiry where
  | superclass (t : Handle)
  | interfaces (t : Handle)
  | outerClass (t : Handle)
  | declaringClass (t : Handle)
  | memberTypes (t : Handle)
  | findMemberTypes (t : Handle) (name : Option String)
  | constructors (t : Handle)
  | constructorDescriptor (constructor : Constructor)
  | methods (t : Handle)
  | methodsNamed (t : Handle) (name : String)
  | findMethod (t : Handle) (name : String) (parameters : List Handle)
  | hasMethod (t : Handle) (name : String) (parameters : List Handle)
  | allMethods (t : Handle)
  | fields (t : Handle)
  | field (t : Handle) (name : String)
  | syntheticFields (t : Handle)
  | isSubclass (t target : Handle)
  | implements (t target : Handle)
  | assignable (target source : Handle)
  | applicable (parameters arguments : List Handle)
  | moreSpecific (these those : List Handle)
  | mostSpecific (candidates : List (List Handle))
  | call (t : Handle) (name : String) (arguments : List Handle)

namespace Inquiry

/-- The question as a query whose answer is not looked at. -/
def query : Inquiry → Query Unit
  | superclass t => discard (Query.superclass t)
  | interfaces t => discard (Query.interfaces t)
  | outerClass t => discard (Query.outerClass t)
  | declaringClass t => discard (Query.declaringClass t)
  | memberTypes t => discard (Query.memberTypes t)
  | findMemberTypes t name => discard (Query.findMemberTypes t name)
  | constructors t => discard (Query.constructors t)
  | constructorDescriptor constructor => discard (Query.constructorDescriptor constructor)
  | methods t => discard (Query.methods t)
  | methodsNamed t name => discard (Query.methodsNamed t name)
  | findMethod t name parameters => discard (Query.findMethod t name parameters)
  | hasMethod t name parameters => discard (Query.hasMethod t name parameters)
  | allMethods t => discard (Query.allMethods t)
  | fields t => discard (Query.fields t)
  | field t name => discard (Query.field t name)
  | syntheticFields t => discard (Query.syntheticFields t)
  | isSubclass t target => discard (Query.isSubclass t target)
  | implements t target => discard (Query.implements t target)
  | assignable target source => discard (Query.assignable target source)
  | applicable parameters arguments => discard (Query.applicable parameters arguments)
  | moreSpecific these those => discard (Query.moreSpecific these those)
  | mostSpecific candidates => discard (Query.mostSpecific id candidates)
  | call t name arguments => discard (Query.call t name arguments)

/-- The types that the question is about. -/
def types : Inquiry → List Handle
  | superclass t | interfaces t | outerClass t | declaringClass t | memberTypes t => [t]
  | findMemberTypes t _ | constructors t | methods t | methodsNamed t _ | allMethods t => [t]
  | fields t | field t _ | syntheticFields t => [t]
  | constructorDescriptor constructor => [constructor.owner]
  | findMethod t _ parameters | hasMethod t _ parameters => t :: parameters
  | isSubclass t target | implements t target => [t, target]
  | assignable target source => [target, source]
  | applicable parameters arguments => parameters ++ arguments
  | moreSpecific these those => these ++ those
  | mostSpecific candidates => candidates.flatten
  | call t _ arguments => t :: arguments

lemma fills_query {r : Registry} (inquiry : Inquiry) (h : ∀ t ∈ inquiry.types, r.Issued t) :
    Query.Fills r inquiry.query := by
  have hdiscard : ∀ {α : Type} {q : Query α}, Query.Fills r q → Query.Fills r (discard q) :=
    fun hq => hq.bind fun _ => Query.fills_pure _
  cases inquiry with
  | superclass t => exact hdiscard (Query.fills_superclass (h t (by simp [types])))
  | interfaces t => exact hdiscard (Query.fills_interfaces (h t (by simp [types])))
  | outerClass t => exact hdiscard (Query.fills_outerClass (h t (by simp [types])))
  | declaringClass t => exact hdiscard (Query.fills_declaringClass (h t (by simp [types])))
  | memberTypes t => exact hdiscard (Query.fills_memberTypes (h t (by simp [types])))
  | findMemberTypes t name =>
    exact hdiscard (Query.fills_findMemberTypes (h t (by simp [types])) name)
  | constructors t => exact hdiscard (Query.fills_constructors (h t (by simp [types])))
  | constructorDescriptor constructor =>
    exact hdiscard (Query.fills_constructorDescriptor (h _ (by simp [types])))
  | methods t => exact hdiscard (Query.fills_methods (h t (by simp [types])))
  | methodsNamed t name => exact hdiscard (Query.fills_methodsNamed (h t (by simp [types])) name)
  | findMethod t name parameters =>
    exact hdiscard (Query.fills_findMethod (h t (by simp [types])) name parameters)
  | hasMethod t name parameters =>
    exact hdiscard (Query.fills_hasMethod (h t (by simp [types])) name parameters)
  | allMethods t => exact hdiscard (Query.fills_allMethods (h t (by simp [types])))
  | fields t => exact hdiscard (Query.fills_fields (h t (by simp [types])))
  | field t name => exact hdiscard (Query.fills_field (h t (by simp [types])) name)
  | syntheticFields t => exact hdiscard Query.fills_syntheticFields
  | isSubclass t target => exact hdiscard (Query.fills_walks.isSubclass t target)
  | implements t target => exact hdiscard (Query.fills_walks.implements t target)
  | assignable target source => exact hdiscard (Query.fills_walks.assignable target source)
  | applicable parameters arguments =>
    exact hdiscard (Query.fills_walks.applicable parameters arguments)
  | moreSpecific these those => exact hdiscard (Query.fills_walks.moreSpecific these those)
  | mostSpecific candidates => exact hdiscard (Query.fills_walks.mostSpecific id candidates)
  | call t name arguments =>
    exact hdiscard (Query.fills_call (h t (by simp [types])) name arguments)

end Inquiry

/-- What can be done to a graph. -/
inductive Action where
  | define (origin : Origin)
  | array (element root : Handle) (dimensions : Nat)
  | edit (t : Handle) (part : Edit)
  | defineSynthetic (t : Handle) (field : FieldDecl)
  | resolve (source : Source) (descriptor : String)
  | require (source : Source) (span : Option Span) (name : String)
  | ask (inquiry : Inquiry)
  | forgetMethods (t : Handle)
  | forgetFields (t : Handle)

namespace Action

/-- The action as work on a graph. -/
def work : Action → Work Unit
  | define origin => Work.load (discard (Load.define origin))
  | array element root dimensions =>
    Work.load (discard (Load.arrayOfDimensions element root dimensions))
  | edit t part => Work.load (Load.edit t part.change)
  | defineSynthetic t field => Work.load (Load.defineSynthetic t field)
  | resolve source descriptor => Work.load (discard (source.resolve descriptor))
  | require source span name => Work.load (discard (source.require span name))
  | ask inquiry => Work.ask inquiry.query
  | forgetMethods t => Work.forget fun m => m.forgetMethods t
  | forgetFields t => Work.forget fun m => m.forgetFields t

/-- The graph after the action. -/
def run (action : Action) (g : Graph) : Graph := (action.work.result g).2

/-- The action names issued types, and no class is given an endless walk for an error: that error
is for walks to report. -/
def Admissible (g : Graph) : Action → Prop
  | define origin =>
    (∀ s ∈ origin.links, g.registry.Issued s) ∧ ∀ e ∈ origin.failures, e.isEndless = false
  | array element root _ => g.registry.Issued element ∧ g.registry.Issued root
  | edit t part => g.registry.Issued t ∧ (∀ s ∈ part.links, g.registry.Issued s) ∧
      ∀ e ∈ part.errors, e.isEndless = false
  | defineSynthetic t _ | forgetMethods t | forgetFields t => g.registry.Issued t
  | resolve .. | require .. => True
  | ask inquiry => ∀ t ∈ inquiry.types, g.registry.Issued t

end Action

/-- A run of actions, as the graphs that it went through, the last one first. -/
inductive Run : List Graph → Prop
  | start : Run [{}]
  | step {g : Graph} {past : List Graph} (h : Run (g :: past)) (action : Action)
      (hadmissible : action.Admissible g) : Run (action.run g :: g :: past)

namespace Run

/-! ### Runs that are carried out

The actions are listed like the graphs, the last one first. -/

/-- The graph after some actions. -/
def after : List Action → Graph
  | [] => {}
  | action :: earlier => action.run (after earlier)

/-- The graphs before the last of some actions. -/
def past : List Action → List Graph
  | [] => []
  | _ :: earlier => after earlier :: past earlier

/-- Each of the actions names types that exist when it is taken. -/
def Allowed : List Action → Prop
  | [] => True
  | action :: earlier => action.Admissible (after earlier) ∧ Allowed earlier

instance (g : Graph) (action : Action) : Decidable (action.Admissible g) :=
  match action with
  | .define _ | .array .. => inferInstanceAs (Decidable (_ ∧ _))
  | .edit .. => inferInstanceAs (Decidable (_ ∧ _ ∧ _))
  | .defineSynthetic .. | .forgetMethods _ | .forgetFields _ =>
    inferInstanceAs (Decidable (g.registry.Issued _))
  | .resolve .. | .require .. => inferInstanceAs (Decidable True)
  | .ask _ => inferInstanceAs (Decidable (∀ t ∈ _, g.registry.Issued t))

instance decidableAllowed : (actions : List Action) → Decidable (Allowed actions)
  | [] => inferInstanceAs (Decidable True)
  | action :: earlier =>
    have := decidableAllowed earlier
    inferInstanceAs (Decidable (action.Admissible (after earlier) ∧ Allowed earlier))

lemma of_allowed {actions : List Action} (h : Allowed actions) :
    Run (after actions :: past actions) := by
  induction actions with
  | nil => exact Run.start
  | cons action earlier ih => exact Run.step (ih h.2) action h.1

end Run

/-! ## What one action does -/

/-- The three things that an action can do. -/
inductive Graph.Step (g : Graph) : Graph → Prop
  | extend {r : Registry} (hextends : g.registry.Extends r) (hsound : r.Sound) :
      Step g { g with registry := r }
  | ask {m : Memory} (hfills : ReflTransGen (Fill g.registry) g.memory m) :
      Step g { g with memory := m }
  | forget {m : Memory} (hsame : Memory.SameLinks g.memory m)
      (hforgets : ∃ t, m = g.memory.forgetMethods t ∨ m = g.memory.forgetFields t) :
      Step g { g with memory := m }

namespace Work

variable {α β : Type}

lemma result_bind_ok {work : Work α} {g g' : Graph} {a : α} (h : work.result g = (.ok a, g'))
    (f : α → Work β) : (work >>= f).result g = (f a).result g' := by
  simp only [result, ExceptT.run_bind, StateT.run_bind] at h ⊢
  rw [h]
  rfl

lemma result_bind_error {work : Work α} {g g' : Graph} {e : Error}
    (h : work.result g = (.error e, g')) (f : α → Work β) :
    (work >>= f).result g = (.error e, g') := by
  simp only [result, ExceptT.run_bind, StateT.run_bind] at h ⊢
  rw [h]
  rfl

lemma result_bind_eq_ok {work : Work α} {f : α → Work β} {g g' : Graph} {b : β}
    (h : (work >>= f).result g = (.ok b, g')) :
    ∃ a g₁, work.result g = (.ok a, g₁) ∧ (f a).result g₁ = (.ok b, g') := by
  rcases hwork : work.result g with ⟨e | a, g₁⟩
  · rw [result_bind_error hwork] at h
    cases h
  · rw [result_bind_ok hwork] at h
    exact ⟨a, g₁, rfl, h⟩

lemma result_load (action : Load α) (g : Graph) :
    (Work.load action).result g =
      ((action.result g.registry).1, { g with registry := (action.result g.registry).2 }) := by
  rw [Work.load, result_bind_ok (show (get : Work Graph).result g = (.ok g, g) from rfl)]
  rcases h : action.run.run g.registry with ⟨e | a, r⟩
  · rw [show action.result g.registry = (.error e, r) from h]
    rfl
  · rw [show action.result g.registry = (.ok a, r) from h]
    rfl

lemma result_ask (q : Query α) (g : Graph) :
    (Work.ask q).result g =
      ((q.answer g.registry g.memory).1,
        { g with memory := (q.answer g.registry g.memory).2 }) := by
  rw [Work.ask, result_bind_ok (show (get : Work Graph).result g = (.ok g, g) from rfl)]
  rcases q.answer g.registry g.memory with ⟨e | a, m⟩ <;> rfl

end Work

lemma Registry.Sound.arrayOfDimensions {r : Registry} (h : r.Sound) {element root : Handle}
    (helement : r.Issued element) (hroot : r.Issued root) (n : Nat) :
    (r.arrayOfDimensions element root n).2.Sound ∧ r.Grows (r.arrayOfDimensions element root n).2 ∧
      (r.arrayOfDimensions element root n).2.Issued (r.arrayOfDimensions element root n).1 := by
  induction n with
  | zero => exact ⟨h, Grows.refl r, helement⟩
  | succ n ih =>
    obtain ⟨hsound, hgrows, hissued⟩ := ih
    obtain ⟨hsound', root', hshape⟩ := hsound.arrayOf hissued (hgrows.issued hroot)
    exact ⟨hsound', hgrows.trans (Registry.grows_arrayOf _ _ root), Registry.issued_of_array hshape⟩

/-- Every admissible action takes one of the three steps. -/
theorem Action.step {g : Graph} (hr : g.registry.Sound) (action : Action)
    (h : action.Admissible g) : g.Step (action.run g) := by
  have hloads : ∀ {source : Source} {r : Registry}, source.Loads g.registry r →
      g.Step { g with registry := r } := fun hl => .extend hl.grows.toExtends (hl.sound hr)
  cases action with
  | define origin =>
    rw [Action.run, Action.work, Work.result_load, Load.result_discard, Load.result_define]
    rcases hdefine : g.registry.define origin with e | ⟨t, r'⟩
    · exact .extend (Registry.Extends.refl _) hr
    · obtain ⟨hclass, hnew, -, rfl⟩ := Registry.define_eq_ok_iff.1 hdefine
      exact .extend (Registry.grows_withClass _ origin).toExtends
        (hr.withClass hclass hnew h.1 h.2)
  | array element root n =>
    rw [Action.run, Action.work, Work.result_load, Load.result_discard]
    obtain ⟨hsound, hgrows, -⟩ := hr.arrayOfDimensions h.1 h.2 n
    exact .extend hgrows.toExtends hsound
  | edit t part =>
    rw [Action.run, Action.work, Work.result_load]
    exact .extend (Registry.extends_edits part.edits_change t)
      (hr.edits part.edits_change t h.2.1 h.2.2)
  | defineSynthetic t field =>
    rw [Action.run, Action.work, Work.result_load, Load.result_defineSynthetic]
    rcases hdefine : g.registry.defineSynthetic t field with e | r'
    · exact .extend (Registry.Extends.refl _) hr
    · rcases Registry.defineSynthetic_eq_ok hdefine with rfl | ⟨fields, rfl⟩
      · exact .extend (Registry.Extends.refl _) hr
      · have hedits := Draft.edits_syntheticFields fields
        exact .extend (Registry.extends_edits hedits t) (hr.edits hedits t (by simp) (by simp))
  | resolve source descriptor =>
    rw [Action.run, Action.work, Work.result_load, Load.result_discard]
    exact hloads ((Load.finds_resolve source.finds_load descriptor).loads hr)
  | require source span name =>
    rw [Action.run, Action.work, Work.result_load, Load.result_discard]
    exact hloads ((Load.gets_require source.finds_load span name).loads hr)
  | ask inquiry =>
    rw [Action.run, Action.work, Work.result_ask]
    exact .ask (inquiry.fills_query h g.memory)
  | forgetMethods t =>
    exact .forget (Memory.sameLinks_update (fun _ => rfl) fun _ => rfl) ⟨t, Or.inl rfl⟩
  | forgetFields t =>
    exact .forget (Memory.sameLinks_update (fun _ => rfl) fun _ => rfl) ⟨t, Or.inr rfl⟩

/-! ## What holds after every run -/

/-- The registry of the graph is sound, and so is its memory. -/
structure Graph.Sound (g : Graph) : Prop where
  registry : g.registry.Sound
  memory : g.memory.Sound g.registry

lemma Graph.Sound.step {g g' : Graph} (h : g.Sound) (hstep : g.Step g') : g'.Sound := by
  cases hstep with
  | extend hextends hsound => exact ⟨hsound, h.memory.of_extends hextends⟩
  | ask hfills =>
    refine ⟨h.registry, ?_⟩
    induction hfills with
    | refl => exact h.memory
    | tail _ hfill ih => exact ih.fill h.registry hfill
  | forget hsame => exact ⟨h.registry, h.memory.sameLinks hsame⟩

theorem Run.sound {g : Graph} {past : List Graph} (h : Run (g :: past)) : g.Sound := by
  generalize hgraphs : g :: past = graphs at h
  induction h generalizing g past with
  | start =>
    cases hgraphs
    exact ⟨Registry.sound_initial, Memory.sound_empty _⟩
  | step _ action hadmissible ih =>
    cases hgraphs
    have hsound := ih rfl
    exact hsound.step (action.step hsound.registry hadmissible)

/-- What holds at the start and is kept by the steps of a run holds at its end. -/
theorem Run.induction {motive : Graph → Prop} {g : Graph} {past : List Graph} (h : Run (g :: past))
    (hstart : motive {})
    (hstep : ∀ g₁ ∈ past, ∀ g₂, g₁.Sound → motive g₁ → g₁.Step g₂ → motive g₂) : motive g := by
  generalize hgraphs : g :: past = graphs at h
  induction h generalizing g past with
  | start =>
    cases hgraphs
    exact hstart
  | @step g₁ past hrun action hadmissible ih =>
    cases hgraphs
    have hinv := ih (fun g₂ hg₂ => hstep g₂ (by simp [hg₂])) rfl
    exact hstep g₁ (by simp) _ hrun.sound hinv (action.step hrun.sound.registry hadmissible)

/-- Types and accepted links last. -/
lemma Graph.Step.lasts {g g' : Graph} (h : g.Step g') :
    g.registry.Extends g'.registry ∧ g.memory.Keeps g'.memory := by
  cases h with
  | extend hextends => exact ⟨hextends, .refl _⟩
  | ask hfills => exact ⟨.refl _, .of_fills hfills⟩
  | forget hsame => exact ⟨.refl _, .of_sameLinks hsame⟩

/-- What holds of the first graph and is passed on by every step holds of a run with its past. -/
theorem Run.history_induction {motive : ∀ g past, Run (g :: past) → Prop}
    (start : motive {} [] Run.start)
    (step : ∀ {g₁ g₂ : Graph} {past : List Graph} (hrun : Run (g₁ :: past))
      (hrun' : Run (g₂ :: g₁ :: past)), g₁.Step g₂ → motive g₁ past hrun →
      motive g₂ (g₁ :: past) hrun')
    {g : Graph} {past : List Graph} (h : Run (g :: past)) : motive g past h := by
  have hall : ∀ {graphs}, Run graphs → ∀ {g past} (h : Run (g :: past)), graphs = g :: past →
      motive g past h := by
    intro graphs hgraphs
    induction hgraphs with
    | start =>
      rintro g past h heq
      cases heq
      exact start
    | step hrun action hadmissible ih =>
      rintro g past h heq
      cases heq
      exact step hrun h (action.step hrun.sound.registry hadmissible) (ih hrun rfl)
  exact hall h h rfl

lemma Run.lasts {g g' : Graph} {past : List Graph} (h : Run (g :: past)) (hg : g' ∈ g :: past) :
    g'.registry.Extends g.registry ∧ g'.memory.Keeps g.memory := by
  induction h using Run.history_induction with
  | start =>
    obtain rfl := List.mem_singleton.1 hg
    exact ⟨.refl _, .refl _⟩
  | step _ _ hstep ih =>
    rcases List.mem_cons.1 hg with rfl | hg
    · exact ⟨.refl _, .refl _⟩
    · obtain ⟨hextends, hkeeps⟩ := ih hg
      exact ⟨hextends.trans hstep.lasts.1, hkeeps.trans hstep.lasts.2⟩

/-- Every graph that a run went through is the end of a run. -/
lemma Run.exists_suffix {g g' : Graph} {past : List Graph} (h : Run (g :: past))
    (hg : g' ∈ g :: past) : ∃ past', Run (g' :: past') ∧ g' :: past' <:+ g :: past := by
  induction h using Run.history_induction with
  | start =>
    obtain rfl := List.mem_singleton.1 hg
    exact ⟨[], .start, List.suffix_refl _⟩
  | step _ hrun _ ih =>
    rcases List.mem_cons.1 hg with rfl | hg
    · exact ⟨_, hrun, List.suffix_refl _⟩
    · obtain ⟨past', hrun', hsuffix⟩ := ih hg
      exact ⟨past', hrun', hsuffix.trans (List.suffix_cons _ _)⟩

/-- A graph that some run leads to. -/
def Graph.Reachable (g : Graph) : Prop := ∃ past, Run (g :: past)

lemma Graph.Reachable.sound {g : Graph} (h : g.Reachable) : g.Sound := by
  obtain ⟨past, hrun⟩ := h
  exact hrun.sound

end TypeGraph
