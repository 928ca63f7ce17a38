import TypeGraph.Proofs.Query.Lasting

/-!
# Answers that are never taken back

A question about the structure of a type is asked of its declaration until it succeeds, and of the
memory from then on. A step of a question leaves a slot alone that is filled, forgetting touches no
slot of these questions, and everything else does nothing to the memory. So an answer that was given
once is given for the rest of the run, also when the declaration has changed or fails by now.

A failure leaves nothing behind in the slot of the question that failed. For the questions that read
one declaration this is so because they write nothing before they succeed. A walk fills slots on its
way, but not those of the question that it is taken for.
-/

namespace TypeGraph

open Relation

/-- A question about the structure of a type, and the kind of answers to it. -/
inductive Structural : Type → Type
  | superclass (t : Handle) : Structural (Option Handle)
  | interfaces (t : Handle) : Structural (List Handle)
  | outerClass (t : Handle) : Structural (Option Handle)
  | declaringClass (t : Handle) : Structural (Option Handle)
  | memberTypes (t : Handle) : Structural (List Handle)
  | constructors (t : Handle) : Structural (List Constructor)
  | allMethods (t : Handle) : Structural (List Method)
  | findMemberTypes (t : Handle) (name : Option String) : Structural (List Handle)

namespace Structural

variable {α : Type} {r : Registry} {m m' : Memory}

/-- The question as a query. -/
def query : Structural α → Query α
  | superclass t => Query.superclass t
  | interfaces t => Query.interfaces t
  | outerClass t => Query.outerClass t
  | declaringClass t => Query.declaringClass t
  | memberTypes t => Query.memberTypes t
  | constructors t => Query.constructors t
  | allMethods t => Query.allMethods t
  | findMemberTypes t name => Query.findMemberTypes t name

/-- The question as one that is asked in a run. -/
def inquiry : Structural α → Inquiry
  | superclass t => .superclass t
  | interfaces t => .interfaces t
  | outerClass t => .outerClass t
  | declaringClass t => .declaringClass t
  | memberTypes t => .memberTypes t
  | constructors t => .constructors t
  | allMethods t => .allMethods t
  | findMemberTypes t name => .findMemberTypes t name

/-- The type that the question is about. -/
def type : Structural α → Handle
  | superclass t | interfaces t | outerClass t | declaringClass t | memberTypes t => t
  | constructors t | allMethods t | findMemberTypes t _ => t

/-- Where the answer is remembered. -/
def slot : Structural α → Slots → Option α
  | superclass _ => Slots.superclass
  | interfaces _ => Slots.interfaces
  | outerClass _ => Slots.outerClass
  | declaringClass _ => Slots.declaringClass
  | memberTypes _ => Slots.memberTypes
  | constructors _ => Slots.constructors
  | allMethods _ => Slots.allMethods
  | findMemberTypes _ name => fun slots => slots.scopes.lookup name

lemma query_inquiry (q : Structural α) : q.inquiry.query = discard q.query := by
  cases q <;> rfl

/-! ## One call -/

/-- The question is answered from its slot, or else by asking, which does not touch the slot. -/
def ViaSlot (r : Registry) (q : Structural α) : Prop :=
  ∃ keep ask, q.query = Query.once q.type q.slot keep ask ∧
    (∀ a slots, q.slot (keep a slots) = some a) ∧
    ∀ m, q.slot ((ask.answer r m).2.about q.type) = q.slot (m.about q.type)

lemma viaSlot_of_direct {q : Structural α} {keep : α → Slots → Slots}
    (h : Query.Direct r q.type q.slot keep q.query)
    (hkeep : ∀ a slots, q.slot (keep a slots) = some a) : q.ViaSlot r := by
  obtain ⟨ask, hquery, hleaves⟩ := h
  refine ⟨keep, ask, hquery, hkeep, fun m => ?_⟩
  rw [Memory.about, hleaves m, Memory.about]

lemma viaSlot (r : Registry) (q : Structural α) : q.ViaSlot r := by
  cases q with
  | superclass t => exact viaSlot_of_direct (Query.direct_superclass t) fun _ _ => rfl
  | interfaces t => exact viaSlot_of_direct (Query.direct_interfaces t) fun _ _ => rfl
  | outerClass t => exact viaSlot_of_direct (Query.direct_outerClass t) fun _ _ => rfl
  | declaringClass t => exact viaSlot_of_direct (Query.direct_declaringClass t) fun _ _ => rfl
  | memberTypes t => exact viaSlot_of_direct (Query.direct_memberTypes t) fun _ _ => rfl
  | constructors t => exact viaSlot_of_direct (Query.direct_constructors t) fun _ _ => rfl
  | allMethods t =>
    refine ⟨_, _, rfl, fun _ _ => rfl, fun m => ?_⟩
    exact Query.apart_allMethods.walksAlong.collectMethods [] [] t m t
  | findMemberTypes t name =>
    refine ⟨_, _, rfl, fun _ _ => List.lookup_cons_self, fun m => ?_⟩
    exact congrArg (List.lookup name)
      (Query.apart_scopes.walksAlong.searchScope name [] t m t)

lemma answer_of_slot (q : Structural α) {v : α} (h : q.slot (m.about q.type) = some v) :
    q.query.answer r m = (.ok v, m) := by
  obtain ⟨keep, ask, hquery, -, -⟩ := q.viaSlot r
  rw [hquery]
  exact Query.answer_once_some h

lemma slot_of_ok (q : Structural α) {v : α} (h : q.query.answer r m = (.ok v, m')) :
    q.slot (m'.about q.type) = some v := by
  obtain ⟨keep, ask, hquery, hkeep, -⟩ := q.viaSlot r
  rw [hquery] at h
  exact Query.slot_of_once_ok hkeep h

/-- A failure is not remembered. -/
lemma slot_of_error (q : Structural α) {e : Error} (h : q.query.answer r m = (.error e, m')) :
    q.slot (m'.about q.type) = none := by
  obtain ⟨keep, ask, hquery, -, hleaves⟩ := q.viaSlot r
  rw [hquery] at h
  obtain ⟨hfree, hask⟩ := Query.once_eq_error h
  have hslot := hleaves m
  rw [hask, hfree] at hslot
  exact hslot

end Structural

/-! ## Steps and runs -/

lemma Fill.constructors_eq_some {r : Registry} {m m' : Memory} (h : Fill r m m') {t : Handle}
    {list : List Constructor} (ht : (m.about t).constructors = some list) :
    (m'.about t).constructors = some list := by
  cases h with
  | @constructors s list' hs hfree hdeclared =>
    have hne : t ≠ s := by
      rintro rfl
      rw [ht] at hfree
      cases hfree
    rw [Memory.about_update_of_ne hne]
    exact ht
  | reading => exact ht
  | _ =>
    refine (Memory.about_update_eq Slots.constructors ?_ t).trans ht
    exact fun _ => rfl

section Kept

variable {α : Type} (q : Structural α) {v : α}

lemma Fill.structural_eq_some {r : Registry} {m m' : Memory} (h : Fill r m m')
    (hv : q.slot (m.about q.type) = some v) : q.slot (m'.about q.type) = some v := by
  cases q with
  | superclass t => exact (h.filled t).superclass.eq_some hv
  | interfaces t => exact (h.filled t).interfaces.eq_some hv
  | outerClass t => exact (h.filled t).outerClass.eq_some hv
  | declaringClass t => exact (h.filled t).declaringClass.eq_some hv
  | memberTypes t => exact (h.filled t).memberTypes.eq_some hv
  | constructors t => exact h.constructors_eq_some hv
  | allMethods t => exact h.allMethods_eq_some hv
  | findMemberTypes t name => exact h.lookup_scopes_eq_some hv

lemma Structural.eq_some_of_fills {r : Registry} {m m' : Memory} (h : ReflTransGen (Fill r) m m')
    (hv : q.slot (m.about q.type) = some v) : q.slot (m'.about q.type) = some v := by
  induction h with
  | refl => exact hv
  | tail _ hfill ih => exact hfill.structural_eq_some q ih

lemma Graph.Step.structural_eq_some {g g' : Graph} (h : g.Step g')
    (hv : q.slot (g.memory.about q.type) = some v) :
    q.slot (g'.memory.about q.type) = some v := by
  cases h with
  | extend => exact hv
  | ask hfills => exact q.eq_some_of_fills hfills hv
  | forget _ hforgets =>
    -- what is forgotten is in none of these slots
    obtain ⟨t, rfl | rfl⟩ := hforgets
    · exact (Memory.about_update_eq q.slot (fun _ => by cases q <;> rfl) _).trans hv
    · exact (Memory.about_update_eq q.slot (fun _ => by cases q <;> rfl) _).trans hv

lemma Run.structural_eq_some {earlier later : List Action} (h : Run.Allowed (later ++ earlier))
    (hv : q.slot ((Run.after earlier).memory.about q.type) = some v) :
    q.slot ((Run.after (later ++ earlier)).memory.about q.type) = some v := by
  induction later with
  | nil => exact hv
  | cons action later ih =>
    have hstep := action.step (Run.of_allowed h.2).sound.registry h.1
    exact hstep.structural_eq_some q (ih h.2)

/-- Asking in a run leaves behind what the query leaves behind. -/
lemma Structural.memory_after (earlier : List Action) :
    (Run.after (.ask q.inquiry :: earlier)).memory =
      (q.query.answer (Run.after earlier).registry (Run.after earlier).memory).2 := by
  rw [Run.after, Action.run, Action.work, Work.result_ask, q.query_inquiry]
  exact Query.memory_discard _ _ _

end Kept

namespace Graph

/-- **Structural answers last, and failures are not remembered.** When a question about the
structure of a type has been answered in a run, it is answered in the same way after everything that
is done later. When it has failed, nothing is remembered of it. The question for constructors is
always answered. -/
theorem structural_answers_last {α : Type} (q : Structural α) {earlier later : List Action}
    (h : Run.Allowed (later ++ .ask q.inquiry :: earlier)) :
    (∀ v, (Run.after earlier).answer q.query = .ok v →
      (Run.after (later ++ .ask q.inquiry :: earlier)).answer q.query = .ok v) ∧
    (∀ e, (Run.after earlier).answer q.query = .error e →
      q.slot ((Run.after (.ask q.inquiry :: earlier)).memory.about q.type) = none) ∧
    ∀ t, ∃ list, (Run.after earlier).answer (Query.constructors t) = .ok list := by
  refine ⟨fun v hv => ?_, fun e he => ?_, fun t => ?_⟩
  · have hslot : q.slot ((Run.after (.ask q.inquiry :: earlier)).memory.about q.type) = some v := by
      rw [q.memory_after]
      exact q.slot_of_ok (Prod.ext hv rfl)
    have hkept := Run.structural_eq_some q h hslot
    rw [answer, q.answer_of_slot hkept]
  · rw [q.memory_after]
    exact q.slot_of_error (Prod.ext he rfl)
  · obtain ⟨list, m, hans⟩ := Query.exists_constructors (r := (Run.after earlier).registry) t
      (Run.after earlier).memory
    exact ⟨list, congrArg Prod.fst hans⟩

/-- A class with a method, and a subclass with another one. -/
def inheritingRun : List Action :=
  [.define (.draft { Draft.ofClass "Child" with
      superclass := some ⟨9⟩
      methods := [{ name := "f", result := ⟨0⟩ }] }),
   .define (.draft { Draft.ofClass "Base" with methods := [{ name := "g", result := ⟨0⟩ }] })]

/-- The superclass extends the subclass, this gets a method more and is found to be broken, and its
methods are forgotten. A class that comes later extends itself. -/
def decayRun : List Action :=
  [.edit ⟨11⟩ (.setSuperclass (some ⟨11⟩)),
   .define (.draft (Draft.ofClass "Late")),
   .forgetMethods ⟨10⟩,
   .edit ⟨10⟩ (.fail (.unknownType "Gone" none)),
   .edit ⟨10⟩ (.addMethod { name := "h", result := ⟨0⟩ }),
   .edit ⟨9⟩ (.setSuperclass (some ⟨10⟩))]

/-- The methods of the subclass stay as they were. The class that extends itself has its own methods
read before its superclass is refused, but nothing is remembered of what it inherits. -/
theorem structural_answers_last_decay :
    let past := decayRun ++ .ask (.allMethods ⟨10⟩) :: inheritingRun
    Run.Allowed (.ask (.allMethods ⟨11⟩) :: past) ∧
    (∃ list, list.map (fun method => method.decl.name) = ["f", "g"] ∧
      (Run.after inheritingRun).answer (Query.allMethods ⟨10⟩) = .ok list ∧
      (Run.after past).answer (Query.allMethods ⟨10⟩) = .ok list) ∧
    ((Run.after (.ask (.allMethods ⟨11⟩) :: past)).memory.about ⟨11⟩).methods.isSome ∧
    ((Run.after (.ask (.allMethods ⟨11⟩) :: past)).memory.about ⟨11⟩).allMethods = none := by
  intro past
  have hallowed : Run.Allowed (.ask (.allMethods ⟨11⟩) :: past) := by decide +kernel
  have hnames : ((Run.after inheritingRun).answer (Query.allMethods ⟨10⟩)).map
      (List.map fun method => method.decl.name) = .ok ["f", "g"] := by decide +kernel
  have hfails : ((Run.after past).answer (Query.allMethods ⟨11⟩)).map List.length =
      .error (.classCircularity "Late" none) := by decide +kernel
  refine ⟨hallowed, ?_, by decide +kernel, ?_⟩
  · rcases hlist : (Run.after inheritingRun).answer (Query.allMethods ⟨10⟩) with e | list <;>
      rw [hlist] at hnames
    · cases hnames
    · exact ⟨list, Except.ok.inj hnames, rfl,
        (structural_answers_last (.allMethods ⟨10⟩) hallowed.2).1 list hlist⟩
  · rcases hlist : (Run.after past).answer (Query.allMethods ⟨11⟩) with e | list
    · have hask : Run.Allowed ([] ++ .ask (.allMethods ⟨11⟩) :: past) := hallowed
      exact (structural_answers_last (.allMethods ⟨11⟩) hask).2.1 e hlist
    · rw [hlist] at hfails
      cases hfails

end Graph

end TypeGraph
