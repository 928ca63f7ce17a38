import Mathlib.Data.List.Nodup
import TypeGraph.Proofs.Member.Generation

/-!
# Fields are the last declarations of their names

A class may declare a field twice. What counts is the last declaration of each name, and it stands
where the name was declared first. The fields are read by the first question about them, and they
are remembered until they are forgotten. No other question reads them, and nothing else that is done
to a graph has to do with them, so they are those that the class declared when a question about its
fields was first asked after they had last been forgotten.
-/

namespace TypeGraph

/-! ## One field for each name -/

namespace Field

variable {field other : Field} {fields declared index : List Field}

/-- The names of some fields. -/
def names (fields : List Field) : List String := fields.map fun field => field.decl.name

lemma put_of_mem (h : field.decl.name ∈ names fields) :
    put fields field =
      fields.map fun other => if other.decl.name = field.decl.name then field else other :=
  if_pos (by simpa [names] using h)

lemma put_of_not_mem (h : field.decl.name ∉ names fields) : put fields field = fields ++ [field] :=
  if_neg (by simpa [names] using h)

lemma names_put : names (put fields field) =
    if field.decl.name ∈ names fields then names fields else names fields ++ [field.decl.name] := by
  split
  next h =>
    rw [put_of_mem h, names, List.map_map]
    refine List.map_congr_left fun other _ => ?_
    by_cases hname : other.decl.name = field.decl.name <;> simp [hname]
  next h => rw [put_of_not_mem h, names, List.map_append, names, List.map_singleton]

lemma mem_put : other ∈ put fields field ↔
    other = field ∨ other ∈ fields ∧ other.decl.name ≠ field.decl.name := by
  by_cases h : field.decl.name ∈ names fields
  · obtain ⟨old, hold, hname⟩ := List.mem_map.1 h
    rw [put_of_mem h, List.mem_map]
    constructor
    · rintro ⟨x, hx, rfl⟩
      by_cases hsame : x.decl.name = field.decl.name
      · exact Or.inl (if_pos hsame)
      · exact Or.inr (by simp [hsame, hx])
    · rintro (rfl | ⟨hother, hne⟩)
      · exact ⟨old, hold, if_pos hname⟩
      · exact ⟨other, hother, if_neg hne⟩
  · rw [put_of_not_mem h, List.mem_append, List.mem_singleton, or_comm]
    refine or_congr_right ⟨fun hother => ⟨hother, fun heq => h ?_⟩, And.left⟩
    exact heq ▸ List.mem_map_of_mem hother

/-- The index has one field for each declared name, in the order in which the names were first
declared, and it is the last one that was declared under this name. -/
structure Indexes (index declared : List Field) : Prop where
  names_eq : names index = (names declared).eraseDups
  nodup : (names index).Nodup
  last : ∀ field ∈ index, ∃ before after, declared = before ++ field :: after ∧
    field.decl.name ∉ names after

lemma Indexes.put (h : Indexes index declared) (field : Field) :
    Indexes (put index field) (declared ++ [field]) := by
  have hnames : names (declared ++ [field]) = names declared ++ [field.decl.name] := by
    simp [names]
  refine ⟨?_, ?_, fun other hother => ?_⟩
  · rw [names_put, hnames, List.eraseDups_append, h.names_eq]
    by_cases hold : field.decl.name ∈ names declared <;>
      simp [List.removeAll, List.eraseDups_cons, hold]
  · rw [names_put]
    split
    next => exact h.nodup
    next hnew => exact List.nodup_append'.2 ⟨h.nodup, by simp, by simpa using hnew⟩
  · rcases mem_put.1 hother with rfl | ⟨hold, hne⟩
    · exact ⟨declared, [], rfl, by simp [names]⟩
    · obtain ⟨before, after, rfl, hafter⟩ := h.last other hold
      refine ⟨before, after ++ [field], by simp, ?_⟩
      have hnames' : names (after ++ [field]) = names after ++ [field.decl.name] := by
        simp [names]
      simp [hnames', hafter, hne]

lemma indexes_distinct (declared : List Field) : Indexes (distinct declared) declared := by
  induction declared using List.reverseRecOn with
  | nil => exact ⟨rfl, List.nodup_nil, fun field hfield => by cases hfield⟩
  | append_singleton declared field ih =>
    rw [distinct, List.foldl_append]
    exact ih.put field

/-- A name that was not declared is not found. -/
lemma Indexes.find?_eq_none_iff (h : Indexes index declared) {name : String} :
    index.find? (fun field => field.decl.name = name) = none ↔ name ∉ names declared := by
  rw [← List.mem_eraseDups, ← h.names_eq, List.find?_eq_none]
  simp [names]

lemma names_ofList (t : Handle) (reading : Nat) (decls : List FieldDecl) :
    names (Bound.ofList t reading decls) = decls.map FieldDecl.name := by
  conv_rhs => rw [← Bound.map_decl_ofList t reading decls, List.map_map]
  rfl

end Field

/-- The fields of an index are the last declarations of their names. -/
lemma FieldIndex.indexes_ofList (declared : List Field) :
    Field.Indexes (ofList declared).fields.toList declared := by
  rw [toList_ofList]
  exact Field.indexes_distinct declared

/-! ## Questions about fields, and all others -/

/-- The question is about the fields that the type declares. -/
def Inquiry.asksFields (t : Handle) : Inquiry → Bool
  | fields s | field s _ => s = t
  | _ => false

namespace Query

variable {r : Registry} {m m' : Memory} {index : FieldIndex}

lemma answer_fieldIndex_some {t : Handle} (h : (m.about t).fields = some index) :
    (fieldIndex t).answer r m = (.ok index, m) :=
  answer_once_some h

/-- Fields are always found. They are remembered, or else they are read from the declaration, and
then nothing that is remembered about other types changes. -/
lemma fieldIndex_spec (r : Registry) (t : Handle) (m : Memory) :
    ∃ index m', (fieldIndex t).answer r m = (.ok index, m') ∧
      (m'.about t).fields = some index ∧ (∀ s, s ≠ t → m'.about s = m.about s) ∧
      ((m.about t).fields = some index ∨ (m.about t).fields = none ∧ ∃ reading,
        index = FieldIndex.ofList (Bound.ofList t reading (r.declaredFields t)) ∧
          r.Reading t reading) := by
  cases hslot : (m.about t).fields with
  | some index =>
    exact ⟨index, m, answer_fieldIndex_some hslot, hslot, fun _ _ => rfl, Or.inl rfl⟩
  | none =>
    obtain ⟨list, m', hans, ⟨reading, hlist, hreading⟩, hslots, -⟩ := readFields_spec (r := r) t m
    refine ⟨_, m'.update t fun slots => { slots with fields := some (FieldIndex.ofList list) },
      ?_, ?_, fun s hs => ?_, Or.inr ⟨rfl, reading, congrArg FieldIndex.ofList hlist, hreading⟩⟩
    · rw [fieldIndex_eq_once, answer_once_none hslot, hans]
    · rw [Memory.about_update_self]
    · rw [Memory.about_update_of_ne hs, Memory.about, hslots, Memory.about]

lemma answer_fields {t : Handle} (h : (fieldIndex t).answer r m = (.ok index, m')) :
    (fields t).answer r m = (.ok index.fields.toList, m') :=
  answer_bind_ok h _

lemma answer_field {t : Handle} (h : (fieldIndex t).answer r m = (.ok index, m'))
    (name : String) :
    (field t name).answer r m =
      (.ok (index.fields.toList.find? fun field => field.decl.name = name), m') := by
  rw [field_eq, answer_bind_ok (answer_fields h)]
  rfl

lemma apart_fields : Apart Slots.fields := by constructor <;> exact fun _ _ => rfl

lemma spares_methodsNamed (t : Handle) (name : String) :
    Spares Slots.fields r (methodsNamed t name) := by
  have hmethods : Spares Slots.fields r (methods t) :=
    (direct_methods t).spares apart_fields.methods
  have hindex : Spares Slots.fields r (methodIndex t) :=
    spares_once (hmethods.bind fun _ => moves_pure _) fun _ _ => rfl
  rw [methodsNamed_eq]
  exact hindex.bind fun _ => moves_pure _

lemma spares_allMethods (t : Handle) : Spares Slots.fields r (allMethods t) :=
  spares_once (moves_read_bind (apart_fields.walksAlong.collectMethods [] [] t)) fun _ _ => rfl

lemma spares_findMemberTypes (t : Handle) (name : Option String) :
    Spares Slots.fields r (findMemberTypes t name) :=
  spares_once (moves_read_bind (apart_fields.walksAlong.searchScope name [] t)) fun _ _ => rfl

lemma spares_syntheticFields (t : Handle) : Spares Slots.fields r (syntheticFields t) := by
  refine moves_read_bind ?_
  cases r.declaration? t with
  | none => exact moves_pure _
  | some declaration => exact moves_pure _

end Query

namespace Inquiry

variable {r : Registry} {m : Memory} {t : Handle} {inquiry : Inquiry}

/-- Other questions have nothing to do with the fields of a type. -/
lemma fields_query_eq (h : inquiry.asksFields t = false) :
    ((inquiry.query.answer r m).2.about t).fields = (m.about t).fields := by
  have hspares : ∀ {α : Type} {q : Query α}, Query.Spares Slots.fields r q →
      (((discard q).answer r m).2.about t).fields = (m.about t).fields := by
    intro α q hq
    rw [Query.memory_discard]
    exact hq m t
  have hwalks : Query.WalksAlong (Query.SamePart Slots.fields) r := Query.apart_fields.walksAlong
  cases inquiry with
  | fields s =>
    obtain ⟨index, m', hans, -, hother, -⟩ := Query.fieldIndex_spec r s m
    have hne : t ≠ s := fun heq => by simp [asksFields, heq] at h
    rw [query, Query.memory_discard, Query.answer_fields hans, hother t hne]
  | field s name =>
    obtain ⟨index, m', hans, -, hother, -⟩ := Query.fieldIndex_spec r s m
    have hne : t ≠ s := fun heq => by simp [asksFields, heq] at h
    rw [query, Query.memory_discard, Query.answer_field hans, hother t hne]
  | superclass s => exact hspares ((Query.direct_superclass s).spares fun _ _ => rfl)
  | interfaces s => exact hspares ((Query.direct_interfaces s).spares fun _ _ => rfl)
  | outerClass s => exact hspares ((Query.direct_outerClass s).spares fun _ _ => rfl)
  | declaringClass s => exact hspares ((Query.direct_declaringClass s).spares fun _ _ => rfl)
  | memberTypes s => exact hspares ((Query.direct_memberTypes s).spares fun _ _ => rfl)
  | findMemberTypes s name => exact hspares (Query.spares_findMemberTypes s name)
  | constructors s => exact hspares ((Query.direct_constructors s).spares fun _ _ => rfl)
  | constructorDescriptor constructor =>
    have houter : Query.Spares Slots.fields r (Query.outerClass constructor.owner) :=
      (Query.direct_outerClass _).spares fun _ _ => rfl
    exact hspares (Query.moves_read_bind (houter.bind fun _ => Query.moves_pure _))
  | methods s => exact hspares ((Query.direct_methods s).spares fun _ _ => rfl)
  | methodsNamed s name => exact hspares (Query.spares_methodsNamed s name)
  | findMethod s name parameters =>
    exact hspares ((Query.spares_methodsNamed s name).bind fun _ => Query.moves_pure _)
  | hasMethod s name parameters =>
    have hfind : Query.Spares Slots.fields r (Query.findMethod s name parameters) :=
      (Query.spares_methodsNamed s name).bind fun _ => Query.moves_pure _
    exact hspares (hfind.bind fun _ => Query.moves_pure _)
  | allMethods s => exact hspares (Query.spares_allMethods s)
  | syntheticFields s => exact hspares (Query.spares_syntheticFields s)
  | isSubclass s target => exact hspares (hwalks.isSubclass s target)
  | implements s target => exact hspares (hwalks.implements s target)
  | assignable target source => exact hspares (hwalks.assignable target source)
  | applicable parameters arguments => exact hspares (hwalks.applicable parameters arguments)
  | moreSpecific these those => exact hspares (hwalks.moreSpecific these those)
  | mostSpecific candidates => exact hspares (hwalks.mostSpecific id candidates)
  | call s name arguments =>
    obtain ⟨choose, hcall, hchoose⟩ := hwalks.exists_call_eq s name arguments
    rw [query, hcall]
    exact hspares ((Query.spares_allMethods s).bind hchoose)

/-- A question about the fields of a type is answered from them, and leaves them remembered. -/
lemma memory_query_of_asksFields (h : inquiry.asksFields t = true) :
    (inquiry.query.answer r m).2 = ((Query.fieldIndex t).answer r m).2 := by
  obtain ⟨index, m', hans, -⟩ := Query.fieldIndex_spec r t m
  cases inquiry with
  | fields s =>
    obtain rfl : s = t := by simpa [asksFields] using h
    rw [query, Query.memory_discard, Query.answer_fields hans, hans]
  | field s name =>
    obtain rfl : s = t := by simpa [asksFields] using h
    rw [query, Query.memory_discard, Query.answer_field hans, hans]
  | _ => cases h

end Inquiry

/-! ## When the fields were read -/

namespace Action

variable {action : Action} {g : Graph} {t : Handle}

/-- Nothing but questions about fields, and forgetting them, has to do with what is remembered. -/
lemma fields_run_eq (hask : ∀ inquiry, action = .ask inquiry → inquiry.asksFields t = false)
    (hforget : action ≠ .forgetFields t) :
    ((action.run g).memory.about t).fields = (g.memory.about t).fields := by
  cases action with
  | ask inquiry =>
    rw [memory_ask]
    exact Inquiry.fields_query_eq (hask inquiry rfl)
  | forgetMethods s => exact Memory.about_update_eq Slots.fields (fun _ => by rfl) t
  | forgetFields s =>
    have hne : t ≠ s := by
      rintro rfl
      exact hforget rfl
    exact congrArg Slots.fields (Memory.about_update_of_ne hne _)
  | _ => rw [Action.run, Action.work, Work.result_load]

lemma fields_run_eq_some (hforget : action ≠ .forgetFields t) {index : FieldIndex}
    (hslot : (g.memory.about t).fields = some index) :
    ((action.run g).memory.about t).fields = some index := by
  by_cases hask : ∃ inquiry, action = .ask inquiry ∧ inquiry.asksFields t = true
  · obtain ⟨inquiry, rfl, hfields⟩ := hask
    rw [memory_ask, Inquiry.memory_query_of_asksFields hfields,
      Query.answer_fieldIndex_some hslot, hslot]
  · rw [fields_run_eq (fun inquiry heq => ?_) hforget, hslot]
    exact Bool.eq_false_iff.2 fun hfields => hask ⟨inquiry, heq, hfields⟩

end Action

/-- The graph in which the fields of a type were read that are remembered after some actions, if
there are any. They are read by the first question about them, and forgotten on request. -/
def Run.fieldsReadAt (t : Handle) : List Action → Option Graph
  | [] => none
  | .forgetFields s :: earlier => if s = t then none else fieldsReadAt t earlier
  | .ask inquiry :: earlier =>
    (fieldsReadAt t earlier).or (if inquiry.asksFields t then some (after earlier) else none)
  | _ :: earlier => fieldsReadAt t earlier

namespace Run

variable {t : Handle} {action : Action} {actions : List Action}

lemma fieldsReadAt_cons_eq (hask : ∀ inquiry, action = .ask inquiry → inquiry.asksFields t = false)
    (hforget : action ≠ .forgetFields t) :
    fieldsReadAt t (action :: actions) = fieldsReadAt t actions := by
  cases action with
  | ask inquiry => simp [fieldsReadAt, hask inquiry rfl]
  | forgetFields s =>
    have hne : s ≠ t := by
      rintro rfl
      exact hforget rfl
    rw [fieldsReadAt, if_neg hne]
  | _ => rfl

lemma fieldsReadAt_ask {inquiry : Inquiry} (h : inquiry.asksFields t = true) :
    fieldsReadAt t (.ask inquiry :: actions) =
      some ((fieldsReadAt t actions).getD (after actions)) := by
  rw [fieldsReadAt, if_pos h]
  cases fieldsReadAt t actions <;> rfl

end Run

namespace Graph

variable {g : Graph} {t : Handle} {source : Option Graph}

/-- What is remembered of the fields of a type, if they were read in the given graph. -/
def FieldsFrom (g : Graph) (t : Handle) : Option Graph → Prop
  | none => (g.memory.about t).fields = none
  | some source => ∃ reading, (g.memory.about t).fields =
      some (FieldIndex.ofList (Bound.ofList t reading (source.registry.declaredFields t))) ∧
      source.registry.Reading t reading

/-- Fields that were not read before are read now. -/
lemma FieldsFrom.answer_fieldIndex (h : g.FieldsFrom t source) :
    ∃ reading m, (Query.fieldIndex t).answer g.registry g.memory =
        (.ok (FieldIndex.ofList
          (Bound.ofList t reading ((source.getD g).registry.declaredFields t))), m) ∧
      (m.about t).fields = some (FieldIndex.ofList
        (Bound.ofList t reading ((source.getD g).registry.declaredFields t))) ∧
      (source.getD g).registry.Reading t reading := by
  obtain ⟨index, m, hans, hslot, -, hknown | ⟨hfree, reading, rfl, hreading⟩⟩ :=
    Query.fieldIndex_spec g.registry t g.memory
  · cases source with
    | none =>
      rw [show (g.memory.about t).fields = none from h] at hknown
      cases hknown
    | some source =>
      obtain ⟨reading, hfields, hreading⟩ := h
      obtain rfl := Option.some.inj (hfields.symm.trans hknown)
      exact ⟨reading, m, hans, hslot, hreading⟩
  · cases source with
    | none => exact ⟨reading, m, hans, hslot, hreading⟩
    | some source =>
      obtain ⟨reading', hfields, -⟩ := h
      rw [hfree] at hfields
      cases hfields

lemma FieldsFrom.ask (h : g.FieldsFrom t source) {inquiry : Inquiry}
    (hask : inquiry.asksFields t = true) :
    ((Action.ask inquiry).run g).FieldsFrom t (some (source.getD g)) := by
  obtain ⟨reading, m, hans, hslot, hreading⟩ := h.answer_fieldIndex
  refine ⟨reading, ?_, hreading⟩
  rw [Action.memory_ask, Inquiry.memory_query_of_asksFields hask, hans, hslot]

lemma FieldsFrom.of_fields_eq {g' : Graph} (h : g.FieldsFrom t source)
    (heq : (g'.memory.about t).fields = (g.memory.about t).fields) : g'.FieldsFrom t source := by
  cases source with
  | none => exact heq.trans h
  | some source =>
    obtain ⟨reading, hslot, hreading⟩ := h
    exact ⟨reading, heq.trans hslot, hreading⟩

end Graph

/-- The fields that are remembered are those that were declared when they were read. -/
lemma Run.fieldsFrom_fieldsReadAt (actions : List Action) (t : Handle) :
    (Run.after actions).FieldsFrom t (Run.fieldsReadAt t actions) := by
  induction actions with
  | nil => exact congrArg Slots.fields (Memory.about_empty t)
  | cons action earlier ih =>
    by_cases hforget : action = .forgetFields t
    · subst hforget
      rw [Run.fieldsReadAt, if_pos rfl]
      exact congrArg Slots.fields (Memory.about_update_self _ _ _)
    by_cases hask : ∃ inquiry, action = .ask inquiry ∧ inquiry.asksFields t = true
    · obtain ⟨inquiry, rfl, hfields⟩ := hask
      rw [Run.fieldsReadAt_ask hfields]
      exact ih.ask hfields
    · have hother : ∀ inquiry, action = .ask inquiry → inquiry.asksFields t = false :=
        fun inquiry heq => Bool.eq_false_iff.2 fun hfields => hask ⟨inquiry, heq, hfields⟩
      rw [Run.fieldsReadAt_cons_eq hother hforget]
      exact ih.of_fields_eq (Action.fields_run_eq hother hforget)

namespace Graph

/-- **The fields of a type are the last declarations of their names.** At every moment of a run, the
fields of a type are made of those that it declared when a question about its fields was first asked
after they had last been forgotten, or of those that it declares now if this is the first question.
There is one field for each declared name, in the order in which the names were first declared, and
it is the last one that was declared under its name. A field is found by name exactly if the name
was declared. Once the fields were read, nothing but forgetting them changes these answers. -/
theorem fields_of_one_generation (actions : List Action) (t : Handle) :
    let g := Run.after actions
    let source := (Run.fieldsReadAt t actions).getD g
    ∃ index reading, g.answer (Query.fields t) = .ok index ∧
      source.registry.Reading t reading ∧
      Field.Indexes index (Bound.ofList t reading (source.registry.declaredFields t)) ∧
      (∀ name, ∃ found, g.answer (Query.field t name) = .ok found ∧
        (∀ field, found = some field ↔ field ∈ index ∧ field.decl.name = name) ∧
        (found = none ↔ ∀ decl ∈ source.registry.declaredFields t, decl.name ≠ name)) ∧
      ∀ action : Action, action ≠ .forgetFields t → (Run.fieldsReadAt t actions).isSome →
        (action.run g).answer (Query.fields t) = .ok index ∧
        ∀ name, (action.run g).answer (Query.field t name) = g.answer (Query.field t name) := by
  intro g source
  have hfrom := Run.fieldsFrom_fieldsReadAt actions t
  obtain ⟨reading, m, hans, -, hreading⟩ := hfrom.answer_fieldIndex
  have hindexes := FieldIndex.indexes_ofList
    (Bound.ofList t reading (source.registry.declaredFields t))
  refine ⟨_, reading, congrArg Prod.fst (Query.answer_fields hans), hreading, hindexes,
    fun name => ?_, fun action hforget hread => ?_⟩
  · refine ⟨_, congrArg Prod.fst (Query.answer_field hans name), fun field => ?_, ?_⟩
    · exact find?_eq_some_iff_of_nodup hindexes.nodup
    · rw [hindexes.find?_eq_none_iff, Field.names_ofList]
      simp
  · -- what was read is remembered, and the action leaves it alone
    obtain ⟨origin, horigin⟩ := Option.isSome_iff_exists.1 hread
    rw [horigin] at hfrom
    obtain ⟨reading', hslot, -⟩ := hfrom
    have hknown := (Query.answer_fieldIndex_some hslot).symm.trans hans
    obtain ⟨hindex, -⟩ := Prod.mk.inj hknown
    rw [Except.ok.inj hindex] at hslot
    have hafter := Query.answer_fieldIndex_some (r := (action.run g).registry)
      (Action.fields_run_eq_some hforget hslot)
    refine ⟨congrArg Prod.fst (Query.answer_fields hafter), fun name => ?_⟩
    exact (congrArg Prod.fst (Query.answer_field hafter name)).trans
      (congrArg Prod.fst (Query.answer_field hans name)).symm

/-- `Point` declares `x`, `y` and then `x` again with another type. Its fields are asked for, and it
gets `z` and once more a field `y`. -/
def redeclaredRun : List Action :=
  [.edit ⟨9⟩ (.addField { name := "y", type := ⟨3⟩ }),
   .edit ⟨9⟩ (.addField { name := "z", type := ⟨5⟩ }),
   .ask (.field ⟨9⟩ "x"),
   .define (.draft { Draft.ofClass "Point" with
     fields := [{ name := "x", type := ⟨5⟩ }, { name := "y", type := ⟨5⟩ },
       { name := "x", type := ⟨6⟩ }] })]

/-- The later declarations are not seen, whatever else is asked, until the fields are forgotten.
Then the second `y` stands at the place of the first one. -/
theorem fields_of_one_generation_redeclared :
    (∃ index, (Run.after redeclaredRun).answer (Query.fields ⟨9⟩) = .ok index ∧
      index.map (fun field => (field.decl.name, field.decl.type)) = [("x", ⟨6⟩), ("y", ⟨5⟩)] ∧
      (Run.after redeclaredRun).answer (Query.field ⟨9⟩ "z") = .ok none ∧
      (Run.after (.ask (.allMethods ⟨9⟩) :: redeclaredRun)).answer (Query.fields ⟨9⟩) =
        .ok index) ∧
    ∃ index, (Run.after (.forgetFields ⟨9⟩ :: redeclaredRun)).answer (Query.fields ⟨9⟩) =
        .ok index ∧
      index.map (fun field => (field.decl.name, field.decl.type)) =
        [("x", ⟨6⟩), ("y", ⟨3⟩), ("z", ⟨5⟩)] := by
  obtain ⟨index, reading, hindex, -, -, hfound, hsame⟩ := fields_of_one_generation redeclaredRun ⟨9⟩
  obtain ⟨found, hfield, -, hnone⟩ := hfound "z"
  have hanswer : ((Run.after redeclaredRun).answer (Query.fields ⟨9⟩)).map
      (List.map fun field => (field.decl.name, field.decl.type)) =
        .ok [("x", ⟨6⟩), ("y", ⟨5⟩)] := by decide +kernel
  have hlater : ((Run.after (.forgetFields ⟨9⟩ :: redeclaredRun)).answer (Query.fields ⟨9⟩)).map
      (List.map fun field => (field.decl.name, field.decl.type)) =
        .ok [("x", ⟨6⟩), ("y", ⟨3⟩), ("z", ⟨5⟩)] := by decide +kernel
  obtain ⟨index', reading', hindex', -⟩ :=
    fields_of_one_generation (.forgetFields ⟨9⟩ :: redeclaredRun) ⟨9⟩
  rw [hindex] at hanswer
  rw [hindex'] at hlater
  refine ⟨⟨index, hindex, Except.ok.inj hanswer, ?_, ?_⟩, index', hindex', Except.ok.inj hlater⟩
  · rw [hfield, hnone.2 (by decide +kernel)]
  · exact (hsame (.ask (.allMethods ⟨9⟩)) (by simp) (by decide +kernel)).1

end Graph

end TypeGraph
