import Mathlib.Data.List.Nodup
import TypeGraph.Proofs.Run

/-!
# Synthetic fields

A draft can be given a synthetic field at any time while it is filled in. The first definition of a
name decides: a later one that gives the field the same type does nothing, and one that gives it
another type fails and does nothing either. The fields are kept in the order of the bytes of their
names, so definitions of distinct names may come in any order.
-/

namespace TypeGraph

/-! ## The order of names -/

lemma Text.utf8_injective : Function.Injective Text.utf8 := by
  intro a b h
  have hdata : a.toByteArray.data = b.toByteArray.data := Array.toList_inj.1 h
  exact String.toByteArray_inj.1 (ByteArray.ext hdata)

namespace Draft

variable {f field : FieldDecl} {fields fields' : List FieldDecl}

/-- The names come strictly one after the other in the order of their bytes. -/
def Ascending (fields : List FieldDecl) : Prop :=
  fields.Pairwise fun f g => Text.utf8 f.name < Text.utf8 g.name

lemma mem_insertByName : f ∈ insertByName field fields ↔ f = field ∨ f ∈ fields := by
  induction fields with
  | nil => simp [insertByName]
  | cons other rest ih =>
    rw [insertByName]
    split
    · simp
    · rw [List.mem_cons, ih, List.mem_cons]
      tauto

lemma Ascending.insertByName (h : Ascending fields) (hnew : ∀ f ∈ fields, f.name ≠ field.name) :
    Ascending (insertByName field fields) := by
  induction fields with
  | nil => exact List.pairwise_singleton _ _
  | cons other rest ih =>
    have hother : ∀ g ∈ rest, Text.utf8 other.name < Text.utf8 g.name :=
      fun g hg => List.rel_of_pairwise_cons h hg
    rw [Draft.insertByName]
    split
    next hlt =>
      have hbefore : Text.utf8 field.name < Text.utf8 other.name := of_decide_eq_true hlt
      refine List.pairwise_cons.2 ⟨fun g hg => ?_, h⟩
      rcases List.mem_cons.1 hg with rfl | hg
      · exact hbefore
      · exact List.lt_trans hbefore (hother g hg)
    next hnot =>
      -- the names differ, so the one that does not come before the other comes behind it
      have hbehind : Text.utf8 other.name < Text.utf8 field.name := by
        by_contra hle
        have hge : ¬ Text.utf8 field.name < Text.utf8 other.name := fun hlt =>
          hnot (decide_eq_true hlt)
        exact hnew other (by simp) (Text.utf8_injective (List.le_antisymm hge hle))
      refine List.pairwise_cons.2 ⟨fun g hg => ?_, ?_⟩
      · rcases mem_insertByName.1 hg with rfl | hg
        · exact hbehind
        · exact hother g hg
      · exact ih h.of_cons fun g hg => hnew g (by simp [hg])

lemma Ascending.nodup_names (h : Ascending fields) : (fields.map FieldDecl.name).Nodup := by
  refine List.pairwise_map.2 (List.Pairwise.imp ?_ h)
  intro f g hlt heq
  rw [heq] at hlt
  exact List.lt_irrefl _ hlt

/-- Fields in ascending order are determined by what they are. -/
lemma Ascending.ext (h : Ascending fields) (h' : Ascending fields')
    (hmem : ∀ f, f ∈ fields ↔ f ∈ fields') : fields = fields' := by
  refine List.Perm.eq_of_pairwise (fun f g _ _ hfg hgf => ?_) h h' ?_
  · exact absurd hgf (List.lt_asymm hfg)
  · have hnodup : fields.Nodup := List.Nodup.of_map _ h.nodup_names
    have hnodup' : fields'.Nodup := List.Nodup.of_map _ h'.nodup_names
    exact (List.perm_ext_iff_of_nodup hnodup hnodup').2 hmem

/-! ## Definitions one after the other -/

/-- Something that is done to a draft. -/
inductive Task where
  | edit (part : Edit)
  | define (field : FieldDecl)

namespace Task

/-- The draft after the task. A definition that fails leaves it as it was. -/
def perform (d : Draft) : Task → Draft
  | edit part => part.change d
  | define field => (d.defineSynthetic field).toOption.getD d

/-- The synthetic field that the task defines. -/
def definition? : Task → Option FieldDecl
  | edit _ => none
  | define field => some field

lemma descriptor_perform (d : Draft) (task : Task) :
    (task.perform d).descriptor = d.descriptor := by
  cases task with
  | edit part => exact part.edits_change.descriptor d
  | define field =>
    rcases h : d.defineSynthetic field with e | d'
    · rw [perform, h]
      rfl
    · obtain ⟨fields, rfl⟩ := defineSynthetic_eq_ok h
      rw [perform, h]
      rfl

lemma syntheticFields_edit (d : Draft) (part : Edit) :
    ((edit part).perform d).syntheticFields = d.syntheticFields := by
  cases part <;> rfl

end Task

/-- The draft after some tasks. -/
def performAll (d : Draft) (tasks : List Task) : Draft := tasks.foldl Task.perform d

/-- The synthetic fields that are defined by some tasks, as often as they are defined. -/
def definitions (tasks : List Task) : List FieldDecl := tasks.filterMap Task.definition?

lemma definitions_cons (task : Task) (tasks : List Task) :
    definitions (task :: tasks) = task.definition?.toList ++ definitions tasks := by
  cases task <;> rfl

lemma descriptor_performAll (d : Draft) (tasks : List Task) :
    (d.performAll tasks).descriptor = d.descriptor := by
  induction tasks generalizing d with
  | nil => rfl
  | cons task tasks ih => exact (ih _).trans (task.descriptor_perform d)

/-- The fields are the first definitions of their names. -/
structure Keeps (fields defined : List FieldDecl) : Prop where
  ascending : Ascending fields
  find?_eq : ∀ name, fields.find? (·.name = name) = defined.find? (·.name = name)

namespace Keeps

variable {d : Draft} {defined : List FieldDecl}

lemma mem_iff (h : Keeps fields defined) :
    f ∈ fields ↔ defined.find? (·.name = f.name) = some f := by
  rw [← h.find?_eq, find?_eq_some_iff_of_nodup h.ascending.nodup_names]
  exact (and_iff_left rfl).symm

/-- A name that was defined before is not defined anew. -/
lemma defineSynthetic_again (h : Keeps d.syntheticFields defined)
    (hname : ∃ f ∈ defined, f.name = field.name) :
    d.defineSynthetic field = .ok d ∨ ∃ e, d.defineSynthetic field = .error e := by
  obtain ⟨first, hfirst⟩ : ∃ first, defined.find? (·.name = field.name) = some first := by
    rw [← Option.isSome_iff_exists, List.find?_isSome]
    simpa using hname
  rw [← h.find?_eq] at hfirst
  by_cases htype : first.type = field.type
  · exact Or.inl (defineSynthetic_of_same hfirst htype)
  · exact Or.inr ⟨_, defineSynthetic_of_conflict hfirst htype⟩

lemma perform_again (h : Keeps d.syntheticFields defined)
    (hname : ∃ f ∈ defined, f.name = field.name) : (Task.define field).perform d = d := by
  rcases h.defineSynthetic_again hname with hok | ⟨e, he⟩
  · rw [Task.perform, hok]
    rfl
  · rw [Task.perform, he]
    rfl

/-- A definition fails exactly if the first one of its name has another type. -/
lemma defineSynthetic_eq_error_iff (h : Keeps d.syntheticFields defined) {e : Error} :
    d.defineSynthetic field = .error e ↔ e = .syntheticConflict d.name field.name ∧
      ∃ first, defined.find? (·.name = field.name) = some first ∧ first.type ≠ field.type := by
  rw [← h.find?_eq]
  cases hfirst : d.syntheticFields.find? (·.name = field.name) with
  | none => simp [defineSynthetic_of_new hfirst]
  | some first =>
    by_cases htype : first.type = field.type
    · simp [defineSynthetic_of_same hfirst htype, htype]
    · rw [defineSynthetic_of_conflict hfirst htype, Except.error.injEq, eq_comm]
      simp [htype]

/-- What a task leaves behind: the definition of a new name is added, and nothing else. -/
lemma perform (h : Keeps d.syntheticFields defined) (task : Task) :
    Keeps (task.perform d).syntheticFields (defined ++ task.definition?.toList) := by
  cases task with
  | edit part =>
    rw [Task.syntheticFields_edit]
    simpa [Task.definition?] using h
  | define field =>
    have hfind : ∀ name, (defined ++ [field]).find? (·.name = name) =
        (d.syntheticFields.find? (·.name = name)).or
          (if field.name = name then some field else none) := by
      intro name
      rw [List.find?_append, h.find?_eq]
      by_cases hname : field.name = name <;> simp [hname]
    cases hfirst : d.syntheticFields.find? (·.name = field.name) with
    | none =>
      have hnew : ∀ f ∈ d.syntheticFields, f.name ≠ field.name := by simpa using hfirst
      simp only [Task.perform, defineSynthetic_of_new hfirst]
      refine ⟨h.ascending.insertByName hnew, fun name => ?_⟩
      exact (find?_insertByName hfirst name).trans (hfind name).symm
    | some first =>
      have hmem : first ∈ defined := List.mem_of_find?_eq_some (h.find?_eq _ ▸ hfirst)
      have hfirstName : first.name = field.name := by simpa using List.find?_some hfirst
      rw [h.perform_again ⟨first, hmem, hfirstName⟩]
      refine ⟨h.ascending, fun name => ?_⟩
      rw [Task.definition?, Option.toList_some, hfind]
      by_cases hname : field.name = name
      · simp [← hname, hfirst]
      · simp [hname]

lemma performAll (h : Keeps d.syntheticFields defined) (tasks : List Task) :
    Keeps (d.performAll tasks).syntheticFields (defined ++ definitions tasks) := by
  induction tasks generalizing d defined with
  | nil => simpa [Draft.performAll, definitions] using h
  | cons task tasks ih =>
    rw [definitions_cons, ← List.append_assoc]
    exact ih (h.perform task)

end Keeps

/-- **The first definition of a synthetic field decides.** Let anything be done to a draft that has
no synthetic fields yet. Then its synthetic fields are in strictly ascending order of the bytes of
their names, and they are the first definitions of all names that were defined, as they were given.
A further definition fails exactly if the first one of its name has another type, and it names the
class and the field. If its name was defined before, it changes nothing, whether it fails or not.
Definitions of distinct names give the same fields in any order. -/
theorem first_definitions_decide {d : Draft} (hd : d.syntheticFields = []) (tasks : List Task) :
    let after := d.performAll tasks
    let defined := definitions tasks
    after.declaration.syntheticFields.Pairwise
      (fun f g => Text.utf8 f.name < Text.utf8 g.name) ∧
    (∀ f, f ∈ after.declaration.syntheticFields ↔
      defined.find? (·.name = f.name) = some f) ∧
    (∀ field e, after.defineSynthetic field = .error e ↔
      e = .syntheticConflict d.name field.name ∧
        ∃ first, defined.find? (·.name = field.name) = some first ∧ first.type ≠ field.type) ∧
    (∀ field, (∃ f ∈ defined, f.name = field.name) →
      d.performAll (tasks ++ [.define field]) = after ∧
      ∀ r t, r.draft? t = some after → ((Load.defineSynthetic t field).result r).2 = r) ∧
    ∀ tasks', (defined.map FieldDecl.name).Nodup → (definitions tasks').Perm defined →
      (d.performAll tasks').declaration.syntheticFields = after.declaration.syntheticFields := by
  intro after defined
  have hempty : Keeps d.syntheticFields [] := by
    rw [hd]
    exact ⟨.nil, fun _ => rfl⟩
  have hkeeps : Keeps after.syntheticFields defined := hempty.performAll tasks
  have hname : after.name = d.name := congrArg Descriptor.className (d.descriptor_performAll tasks)
  refine ⟨hkeeps.ascending, fun f => hkeeps.mem_iff, fun field e => ?_, fun field hfield => ?_,
    fun tasks' hnodup hperm => ?_⟩
  · rw [hkeeps.defineSynthetic_eq_error_iff, hname]
  · refine ⟨?_, fun r t hr => ?_⟩
    · rw [performAll, List.foldl_append]
      exact hkeeps.perform_again hfield
    · rw [Load.result_defineSynthetic, Registry.defineSynthetic, hr]
      rcases hkeeps.defineSynthetic_again hfield with hok | ⟨e, he⟩
      · simp only [hok]
        exact Registry.edit_eq_self hr
      · simp only [he]
        rfl
  · have hkeeps' : Keeps (d.performAll tasks').syntheticFields (definitions tasks') :=
      hempty.performAll tasks'
    have hnodup' : ((definitions tasks').map FieldDecl.name).Nodup :=
      (hperm.map FieldDecl.name).nodup_iff.2 hnodup
    refine hkeeps'.ascending.ext hkeeps.ascending fun f => ?_
    show f ∈ (d.performAll tasks').syntheticFields ↔ f ∈ after.syntheticFields
    rw [hkeeps'.mem_iff, hkeeps.mem_iff, find?_eq_some_iff_of_nodup hnodup',
      find?_eq_some_iff_of_nodup hnodup, hperm.mem_iff]

/-- What a local class captures: two variables, of which the second one comes last by its bytes,
then the outer instance, and the first variable once more, now as a static field. -/
def captures : List Task :=
  [.define { name := "val$x", type := ⟨5⟩ },
   .define { name := "val$é", type := ⟨5⟩ },
   .edit (.addMethod { name := "run", result := ⟨0⟩ }),
   .define { name := "this$0", type := ⟨6⟩ },
   .define { name := "val$x", type := ⟨5⟩, isStatic := true }]

theorem first_definitions_decide_captures :
    let after := (ofClass "p.Outer$1").performAll captures
    (after.declaration.syntheticFields.Pairwise
      fun f g => Text.utf8 f.name < Text.utf8 g.name) ∧
    { name := "val$x", type := ⟨5⟩ } ∈ after.declaration.syntheticFields ∧
    { name := "val$x", type := ⟨5⟩, isStatic := true } ∉ after.declaration.syntheticFields ∧
    after.defineSynthetic { name := "val$x", type := ⟨8⟩ } =
      .error (.syntheticConflict "p.Outer$1" "val$x") ∧
    (ofClass "p.Outer$1").performAll (captures ++ [.define { name := "val$x", type := ⟨8⟩ }]) =
      after ∧
    ((ofClass "p.Outer$1").performAll (captures.take 4).reverse).declaration.syntheticFields =
      ((ofClass "p.Outer$1").performAll (captures.take 4)).declaration.syntheticFields := by
  intro after
  have hempty : (ofClass "p.Outer$1").syntheticFields = [] := rfl
  obtain ⟨hsorted, hmem, herror, hagain, -⟩ := first_definitions_decide hempty captures
  obtain ⟨-, -, -, -, horder⟩ := first_definitions_decide hempty (captures.take 4)
  refine ⟨hsorted, (hmem _).2 (by decide), fun h => ?_, ?_, ?_, ?_⟩
  · exact absurd ((hmem _).1 h) (by decide)
  · exact (herror _ _).2 ⟨by decide +kernel, { name := "val$x", type := ⟨5⟩ }, by decide, by decide⟩
  · exact (hagain { name := "val$x", type := ⟨8⟩ } (by decide)).1
  · exact horder _ (by decide) (by decide)

end Draft

end TypeGraph
