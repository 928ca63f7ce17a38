import TypeGraph.Proofs.Query.Coincide
import TypeGraph.Proofs.Supertype.Chain

/-!
# Remembering makes no difference

As long as no type is registered or changed, a question is answered as if nothing had been asked
before: the same answer, or the same error, whatever was asked or forgotten since the start and
whatever failed on the way. This holds of all registries, also of those with circles.
-/

namespace TypeGraph

open TypeGraph.Bound

namespace Query

variable {α : Type} {r : Registry} {t : Handle}

/-! ## Supertypes and enclosing types -/

lemma steady_superclass (t : Handle) : Steady r (superclass t) := by
  refine steady_once rfl (Coincide.read_bind ?_) (fun h => h.superclass) fun h hfresh =>
    { h with superclass := fun hlink => by cases hlink; exact hfresh }
  refine (Steady.ofExcept _).bind fun link => ?_
  cases link with
  | none => exact .pure rfl
  | some first =>
    refine Coincide.get_bind fun m m' hm hm' => ?_
    rw [hm.sameLinks.checkChain_eq, hm'.sameLinks.checkChain_eq]
    exact (Steady.ofExcept _).bind fun _ => .pure rfl

lemma steady_interfaces (t : Handle) : Steady r (interfaces t) := by
  refine steady_once rfl (Coincide.read_bind ?_) (fun h => h.interfaces) fun h hfresh =>
    { h with interfaces := fun hlinks => by cases hlinks; exact hfresh }
  refine (Steady.ofExcept _).bind fun links => Coincide.get_bind fun m m' hm hm' => ?_
  rw [hm.sameLinks.checkInterfaces_eq, hm'.sameLinks.checkInterfaces_eq]
  exact (Steady.ofExcept _).bind fun _ => .pure rfl

lemma steady_outerClass (t : Handle) : Steady r (outerClass t) := by
  refine steady_once rfl (Coincide.read_bind ?_) (fun h => h.outerClass) fun h hfresh =>
    { h with outerClass := fun hlink => by cases hlink; exact hfresh }
  cases r.declaration? t with
  | none => exact .pure rfl
  | some declaration => exact Steady.ofExcept _

lemma steady_declaringClass (t : Handle) : Steady r (declaringClass t) := by
  refine steady_once rfl (Coincide.read_bind ?_) (fun h => h.declaringClass) fun h hfresh =>
    { h with declaringClass := fun hlink => by cases hlink; exact hfresh }
  cases r.declaration? t with
  | none => exact .pure rfl
  | some declaration => exact Steady.ofExcept _

lemma steady_memberTypes (t : Handle) : Steady r (memberTypes t) := by
  refine steady_once rfl (Coincide.read_bind ?_) (fun h => h.memberTypes) fun h hfresh =>
    { h with memberTypes := fun hlist => by cases hlist; exact hfresh }
  cases r.declaration? t with
  | none => exact .pure rfl
  | some declaration => exact Steady.ofExcept _

/-! ## Members -/

/-- Any two readings give the same members but for their marks. -/
lemma coincide_newReading (t : Handle) (decls : List α) :
    Coincide r (Seen unmarkedAll) (do return Bound.ofList t (← newReading) decls)
      (do return Bound.ofList t (← newReading) decls) := by
  have hreading : Coincide r (fun _ _ => True) newReading newReading :=
    fun _ _ hm hm' => ⟨.ok trivial, hm, hm'⟩
  exact hreading.bind fun _ _ _ => .pure (unmarkedAll_ofList ..)

lemma coincide_readMembers (t : Handle) (origin : Origin) (decls : List α) :
    Coincide r (Seen unmarkedAll) (readMembers t origin decls) (readMembers t origin decls) := by
  unfold readMembers
  split
  · exact .pure rfl
  · exact coincide_newReading t decls

lemma coincide_constructors (t : Handle) :
    Coincide r (Seen unmarkedAll) (constructors t) (constructors t) := by
  refine coincide_once _ rfl (Coincide.read_bind ?_) (fun h => h.constructors) fun h hfresh =>
    { h with constructors := fun hlist => by cases hlist; exact hfresh }
  cases r.shape t with
  | declared origin => exact coincide_readMembers t origin _
  | primitive p => exact .pure rfl
  | array component root => exact .pure rfl

lemma coincide_methods (t : Handle) : Coincide r (Seen unmarkedAll) (methods t) (methods t) := by
  refine coincide_once _ rfl (Coincide.read_bind ?_) (fun h => h.methods) fun h hfresh =>
    { h with methods := fun hlist => by cases hlist; exact hfresh }
  cases r.shape t with
  | declared origin => exact coincide_readMembers t origin _
  | primitive p => exact .pure rfl
  | array component root => exact coincide_newReading t _

lemma coincide_fieldIndex (t : Handle) :
    Coincide r (Seen FieldIndex.unmarked) (fieldIndex t) (fieldIndex t) := by
  refine coincide_once _ rfl (Coincide.read_bind ?_) (fun h => h.fields) fun h hfresh =>
    { h with fields := fun hindex => by cases hindex; exact hfresh }
  cases r.shape t with
  | declared origin =>
    refine (coincide_readMembers t origin _).bind fun list list' hlist => .pure ?_
    rw [Seen, FieldIndex.unmarked_ofList, hlist, FieldIndex.unmarked_ofList]
  | primitive p => exact .pure rfl
  | array component root => exact .pure rfl

lemma coincide_fields (t : Handle) : Coincide r (Seen unmarkedAll) (fields t) (fields t) :=
  (coincide_fieldIndex t).bind fun _ _ h => .pure h

lemma coincide_methodIndex (t : Handle) :
    Coincide r (Seen MethodIndex.unmarked) (methodIndex t) (methodIndex t) := by
  refine coincide_once _ rfl ?_ (fun h => h.methodIndex) fun h hfresh =>
    { h with methodIndex := fun hindex => by cases hindex; exact hfresh }
  refine (coincide_methods t).bind fun list list' hlist => .pure ?_
  funext name
  rw [MethodIndex.unmarked_ofList, hlist, MethodIndex.unmarked_ofList]

lemma coincide_methodsNamed (t : Handle) (name : String) :
    Coincide r (Seen unmarkedAll) (methodsNamed t name) (methodsNamed t name) := by
  rw [methodsNamed_eq]
  exact (coincide_methodIndex t).bind fun index index' hindex => .pure (congrFun hindex name)

/-- What is found in lists that differ in their marks differs in its mark. -/
lemma seen_find? {δ : Type} (test : δ → Bool) {list list' : List (Bound δ)}
    (h : unmarkedAll list = unmarkedAll list') :
    Seen (Option.map unmarked) (list.find? fun member => test member.decl)
      (list'.find? fun member => test member.decl) := by
  have hfind : ∀ list : List (Bound δ), (list.find? fun member => test member.decl).map unmarked =
      (unmarkedAll list).find? fun member => test member.decl := by
    intro list
    rw [unmarkedAll, List.find?_map]
    rfl
  rw [Seen, hfind, h, hfind]

lemma coincide_findMethod (t : Handle) (name : String) (parameters : List Handle) :
    Coincide r (Seen (Option.map unmarked)) (findMethod t name parameters)
      (findMethod t name parameters) :=
  (coincide_methodsNamed t name).bind fun _ _ h =>
    .pure (seen_find? (fun decl => decl.parameters = parameters) h)

lemma coincide_field (t : Handle) (name : String) :
    Coincide r (Seen (Option.map unmarked)) (field t name) (field t name) := by
  rw [field_eq]
  exact (coincide_fields t).bind fun _ _ h => .pure (seen_find? (fun decl => decl.name = name) h)

lemma steady_hasMethod (t : Handle) (name : String) (parameters : List Handle) :
    Steady r (hasMethod t name parameters) := by
  refine (coincide_findMethod t name parameters).bind fun found found' h => .pure ?_
  rw [← Option.isSome_map (f := unmarked), h, Option.isSome_map]

lemma steady_syntheticFields (t : Handle) : Steady r (syntheticFields t) := by
  refine Coincide.read_bind ?_
  cases r.declaration? t with
  | none => exact .pure rfl
  | some declaration => exact .pure rfl

lemma steady_constructorDescriptor (constructor : Constructor) :
    Steady r (constructorDescriptor constructor) :=
  Coincide.read_bind ((steady_outerClass _).bind fun _ => .pure rfl)

/-! ## Walks -/

lemma steady_climbs (target : Handle) (trail : List Handle) (t : Handle) :
    Steady r (climbs r.size target trail t) := by
  induction trail, t using climbs.induct r.size with
  | case1 trail t hopen ih =>
    rw [climbs, dif_pos hopen]
    refine (steady_superclass t).bind fun link => ?_
    cases link with
    | none => exact .pure rfl
    | some s =>
      dsimp only
      split
      · exact .pure rfl
      · exact ih s
  | case2 trail t hclosed =>
    rw [climbs, dif_neg hclosed]
    exact Coincide.read_bind (.throw _)

lemma steady_isSubclass (t target : Handle) : Steady r (isSubclass t target) :=
  Coincide.read_bind (steady_climbs target [] t)

lemma steady_reaches (target : Handle) (trail : List Handle) (t : Handle) :
    Steady r (reaches r.size target trail t) := by
  induction trail, t using reaches.induct r.size target with
  | case1 trail t hopen ih =>
    rw [reaches, dif_pos hopen]
    refine (steady_interfaces t).bind fun links => Steady.bind ?_ fun direct => ?_
    · refine Steady.anyM (fun interface => ?_) links
      split
      · exact .pure rfl
      · exact ih interface
    · cases direct with
      | true => exact .pure rfl
      | false =>
        refine (steady_superclass t).bind fun link => ?_
        cases link with
        | none => exact .pure rfl
        | some s => exact ih s
  | case2 trail t hclosed =>
    rw [reaches, dif_neg hclosed]
    exact Coincide.read_bind (.throw _)

lemma steady_implements (t target : Handle) : Steady r (implements t target) :=
  Coincide.read_bind (steady_reaches target [] t)

lemma coincide_collectMethods (trail : List Handle) (collected : List Method) (t : Handle)
    {collected' : List Method} (h : unmarkedAll collected = unmarkedAll collected') :
    Coincide r (Seen unmarkedAll) (collectMethods r.size trail collected t)
      (collectMethods r.size trail collected' t) := by
  induction trail, collected, t using collectMethods.induct r.size generalizing collected' with
  | case1 trail collected t hopen ih =>
    rw [collectMethods, dif_pos hopen, collectMethods, dif_pos hopen]
    refine Coincide.read_bind ((coincide_methods t).bind fun list list' hlist => ?_)
    have hown : unmarkedAll (list.foldl r.addMethod collected) =
        unmarkedAll (list'.foldl r.addMethod collected') := by
      rw [r.unmarkedAll_foldl_addMethod, r.unmarkedAll_foldl_addMethod, hlist, h]
    refine (steady_superclass t).bind fun link => Coincide.bind (R := Seen unmarkedAll) ?_ ?_
    · exact Coincide.foldlM (fun b b' s hb => ih b s hb) hown
    · intro above above' habove
      refine (steady_interfaces t).bind fun links => ?_
      exact Coincide.foldlM (fun b b' s hb => ih b s hb) habove
  | case2 trail collected t hclosed =>
    rw [collectMethods, dif_neg hclosed, collectMethods, dif_neg hclosed]
    exact Coincide.read_bind (.throw _)

lemma coincide_allMethods (t : Handle) :
    Coincide r (Seen unmarkedAll) (allMethods t) (allMethods t) :=
  coincide_once _ rfl (Coincide.read_bind (coincide_collectMethods [] [] t rfl))
    (fun h => h.allMethods) fun h hfresh =>
      { h with allMethods := fun hlist => by cases hlist; exact hfresh }

lemma steady_memberNamed (t : Handle) (members : List Handle) (name : Option String) :
    Steady r (memberNamed t members name) := by
  cases name with
  | none => exact .pure rfl
  | some name => exact Coincide.read_bind ((Steady.ofExcept _).bind fun _ => .pure rfl)

lemma steady_searchScope (name : Option String) (trail : List Handle) (t : Handle) :
    Steady r (searchScope r.size name trail t) := by
  induction trail, t using searchScope.induct r.size with
  | case1 trail t hopen ih =>
    rw [searchScope, dif_pos hopen]
    refine (steady_memberTypes t).bind fun members => ?_
    refine (steady_memberNamed t members name).bind fun found => ?_
    cases found with
    | some member => exact .pure rfl
    | none =>
      refine (steady_superclass t).bind fun link => (Steady.mapM ih _).bind fun _ => ?_
      refine (steady_interfaces t).bind fun links => (Steady.mapM ih _).bind fun _ => ?_
      refine (steady_declaringClass t).bind fun declaring => (Steady.mapM ih _).bind fun _ => ?_
      refine (steady_outerClass t).bind fun outer => (Steady.mapM ih _).bind fun _ => ?_
      exact .pure rfl
  | case2 trail t hclosed =>
    rw [searchScope, dif_neg hclosed]
    exact .pure rfl

lemma steady_findMemberTypes (t : Handle) (name : Option String) :
    Steady r (findMemberTypes t name) := by
  refine steady_once rfl (Coincide.read_bind (steady_searchScope name [] t)) (fun h => h.scopes)
    fun h hfresh => { h with scopes := fun {name' found} hfound => ?_ }
  rw [List.lookup_cons] at hfound
  split at hfound
  next heq =>
    cases hfound
    rw [beq_iff_eq.1 heq]
    exact hfresh
  next => exact h.scopes hfound

/-! ## Conversions and overloads -/

lemma steady_assignable (target source : Handle) : Steady r (assignable target source) := by
  induction target, source using assignable.induct with
  | case1 target source ih =>
    rw [assignable]
    refine Coincide.read_bind ?_
    split
    · exact .pure rfl
    split
    · exact .pure rfl
    refine (steady_isSubclass source target).bind fun climbs => ?_
    split
    · exact .pure rfl
    refine (steady_implements source target).bind fun reaches => ?_
    split
    · exact .pure rfl
    split
    · exact .pure rfl
    split
    next targetComponent sourceComponent htarget _ =>
      split
      · exact .pure rfl
      · exact ih r targetComponent sourceComponent htarget
    next => exact .pure rfl

lemma steady_allAssignable (targets sources : List Handle) :
    Steady r (allAssignable targets sources) := by
  induction targets generalizing sources with
  | nil => exact .pure rfl
  | cons target targets ih =>
    cases sources with
    | nil => exact .pure rfl
    | cons source sources =>
      refine (steady_assignable target source).bind fun fits => ?_
      split
      · exact ih sources
      · exact .pure rfl

lemma steady_applicable (parameters arguments : List Handle) :
    Steady r (applicable parameters arguments) := by
  rw [applicable]
  split
  · exact steady_allAssignable parameters arguments
  · exact .pure rfl

lemma steady_moreSpecific (these those : List Handle) : Steady r (moreSpecific these those) := by
  rw [moreSpecific]
  split
  · exact .pure rfl
  · refine (steady_allAssignable those these).bind fun fits => ?_
    split
    · exact .pure rfl
    · exact .pure rfl

lemma steady_isBeaten (parameters : α → List Handle) (place : Nat) (candidate : α)
    (others : List (α × Nat)) : Steady r (isBeaten parameters place candidate others) := by
  induction others with
  | nil => exact .pure rfl
  | cons other others ih =>
    rw [isBeaten]
    split
    · exact ih
    · refine (steady_moreSpecific _ _).bind fun beaten => ?_
      split
      · exact .pure rfl
      · exact ih

/-- Of the candidates only the parameters count. -/
lemma isBeaten_eq (parameters : α → List Handle) (place : Nat) (candidate : α)
    (others : List (α × Nat)) :
    isBeaten parameters place candidate others =
      isBeaten id place (parameters candidate) (others.map (Prod.map parameters id)) := by
  induction others with
  | nil => rfl
  | cons other others ih =>
    obtain ⟨other, place'⟩ := other
    rw [List.map_cons, isBeaten, ih]
    rfl

lemma coincide_mostSpecific {γ : Type} (view : α → γ) (parameters : γ → List Handle)
    {candidates candidates' : List α} (h : candidates.map view = candidates'.map view) :
    Coincide r (Seen (List.map view)) (mostSpecific (parameters ∘ view) candidates)
      (mostSpecific (parameters ∘ view) candidates') := by
  -- the candidates look the same with their places, so they are beaten by the same ones
  have hplaces : candidates.zipIdx.map (Prod.map view id) =
      candidates'.zipIdx.map (Prod.map view id) := by
    rw [← List.zipIdx_map, h, List.zipIdx_map]
  have hparameters : candidates.zipIdx.map (Prod.map (parameters ∘ view) id) =
      candidates'.zipIdx.map (Prod.map (parameters ∘ view) id) := by
    rw [← List.zipIdx_map, ← List.zipIdx_map, ← List.map_map, h, List.map_map]
  refine Coincide.bind (R := Seen (List.map (Prod.map view id))) (Coincide.filterM ?_ hplaces) ?_
  · rintro ⟨a, place⟩ ⟨b, place'⟩ heq
    obtain ⟨hab, hplace⟩ := Prod.mk.inj heq
    obtain rfl : place = place' := hplace
    have hbeaten : isBeaten (parameters ∘ view) place a candidates.zipIdx =
        isBeaten (parameters ∘ view) place b candidates'.zipIdx := by
      rw [isBeaten_eq, hparameters, Function.comp_apply, hab, isBeaten_eq _ _ b]
      rfl
    dsimp only
    rw [hbeaten]
    exact (steady_isBeaten _ _ _ _).bind fun _ => .pure rfl
  · intro kept kept' hkept
    refine .pure ?_
    have hfst := congrArg (List.map Prod.fst) hkept
    simpa [Seen, Function.comp_def] using hfst

lemma coincide_call (t : Handle) (name : String) (arguments : List Handle) :
    Coincide r (fun a b => unmarkedAll a.applicable = unmarkedAll b.applicable ∧
      unmarkedAll a.mostSpecific = unmarkedAll b.mostSpecific)
      (call t name arguments) (call t name arguments) := by
  let parameters (method : Method) : List Handle := method.decl.parameters
  refine (coincide_allMethods t).bind fun list list' hlist => ?_
  have hfilter : ∀ list : List Method,
      unmarkedAll (list.filter fun method => method.decl.name = name) =
        (unmarkedAll list).filter fun method => method.decl.name = name := by
    intro list
    rw [unmarkedAll, unmarkedAll, List.filter_map]
    rfl
  have hnamed : unmarkedAll (list.filter fun method => method.decl.name = name) =
      unmarkedAll (list'.filter fun method => method.decl.name = name) := by
    rw [hfilter, hlist, hfilter]
  refine Coincide.bind (R := Seen unmarkedAll) (Coincide.filterM (fun a b h => ?_) hnamed) ?_
  · have hsame : parameters a.unmarked = parameters b.unmarked := congrArg parameters h
    rw [show a.decl.parameters = b.decl.parameters from hsame]
    exact steady_applicable _ arguments
  · intro candidates candidates' hcandidates
    refine (coincide_mostSpecific unmarked parameters hcandidates).bind fun kept kept' hkept => ?_
    exact .pure ⟨hcandidates, hkept⟩

end Query

/-! ## Replies -/

deriving instance DecidableEq for Bound

/-- What a question is answered with. Members stand without their marks. -/
inductive Reply where
  | link (type : Option Handle)
  | types (list : List Handle)
  | constructors (list : List Constructor)
  | methods (list : List Method)
  | method (found : Option Method)
  | fields (list : List Field)
  | field (found : Option Field)
  | truth (holds : Bool)
  | descriptor (text : String)
  | parameters (lists : List (List Handle))
  | call (applicable mostSpecific : List Method)
  deriving DecidableEq

namespace Inquiry

variable {r : Registry}

/-- The question as a query whose answer is compared. -/
def reply : Inquiry → Query Reply
  | superclass t => .link <$> Query.superclass t
  | interfaces t => .types <$> Query.interfaces t
  | outerClass t => .link <$> Query.outerClass t
  | declaringClass t => .link <$> Query.declaringClass t
  | memberTypes t => .types <$> Query.memberTypes t
  | findMemberTypes t name => .types <$> Query.findMemberTypes t name
  | constructors t => (.constructors <| unmarkedAll ·) <$> Query.constructors t
  | constructorDescriptor constructor => .descriptor <$> Query.constructorDescriptor constructor
  | methods t => (.methods <| unmarkedAll ·) <$> Query.methods t
  | methodsNamed t name => (.methods <| unmarkedAll ·) <$> Query.methodsNamed t name
  | findMethod t name parameters =>
    (.method <| Option.map unmarked ·) <$> Query.findMethod t name parameters
  | hasMethod t name parameters => .truth <$> Query.hasMethod t name parameters
  | allMethods t => (.methods <| unmarkedAll ·) <$> Query.allMethods t
  | fields t => (.fields <| unmarkedAll ·) <$> Query.fields t
  | field t name => (.field <| Option.map unmarked ·) <$> Query.field t name
  | syntheticFields t => .fields <$> Query.syntheticFields t
  | isSubclass t target => .truth <$> Query.isSubclass t target
  | implements t target => .truth <$> Query.implements t target
  | assignable target source => .truth <$> Query.assignable target source
  | applicable parameters arguments => .truth <$> Query.applicable parameters arguments
  | moreSpecific these those => .truth <$> Query.moreSpecific these those
  | mostSpecific candidates => .parameters <$> Query.mostSpecific id candidates
  | call t name arguments =>
    (fun call => .call (unmarkedAll call.applicable) (unmarkedAll call.mostSpecific)) <$>
      Query.call t name arguments

/-- Every question is answered alike from all faithful memories. -/
lemma steady_reply (inquiry : Inquiry) : Query.Steady r inquiry.reply := by
  have hsteady : ∀ {α : Type} {q : Query α} (f : α → Reply), Query.Steady r q →
      Query.Steady r (f <$> q) := fun f hq => hq.map fun _ _ h => congrArg f h
  cases inquiry with
  | superclass t => exact hsteady _ (Query.steady_superclass t)
  | interfaces t => exact hsteady _ (Query.steady_interfaces t)
  | outerClass t => exact hsteady _ (Query.steady_outerClass t)
  | declaringClass t => exact hsteady _ (Query.steady_declaringClass t)
  | memberTypes t => exact hsteady _ (Query.steady_memberTypes t)
  | findMemberTypes t name => exact hsteady _ (Query.steady_findMemberTypes t name)
  | constructors t =>
    exact (Query.coincide_constructors t).map fun _ _ h => congrArg Reply.constructors h
  | constructorDescriptor constructor =>
    exact hsteady _ (Query.steady_constructorDescriptor constructor)
  | methods t => exact (Query.coincide_methods t).map fun _ _ h => congrArg Reply.methods h
  | methodsNamed t name =>
    exact (Query.coincide_methodsNamed t name).map fun _ _ h => congrArg Reply.methods h
  | findMethod t name parameters =>
    exact (Query.coincide_findMethod t name parameters).map fun _ _ h => congrArg Reply.method h
  | hasMethod t name parameters => exact hsteady _ (Query.steady_hasMethod t name parameters)
  | allMethods t => exact (Query.coincide_allMethods t).map fun _ _ h => congrArg Reply.methods h
  | fields t => exact (Query.coincide_fields t).map fun _ _ h => congrArg Reply.fields h
  | field t name => exact (Query.coincide_field t name).map fun _ _ h => congrArg Reply.field h
  | syntheticFields t => exact hsteady _ (Query.steady_syntheticFields t)
  | isSubclass t target => exact hsteady _ (Query.steady_isSubclass t target)
  | implements t target => exact hsteady _ (Query.steady_implements t target)
  | assignable target source => exact hsteady _ (Query.steady_assignable target source)
  | applicable parameters arguments =>
    exact hsteady _ (Query.steady_applicable parameters arguments)
  | moreSpecific these those => exact hsteady _ (Query.steady_moreSpecific these those)
  | mostSpecific candidates =>
    refine (Query.coincide_mostSpecific id id rfl).map fun _ _ h => ?_
    exact congrArg Reply.parameters (by simpa [Query.Seen] using h)
  | call t name arguments =>
    exact (Query.coincide_call t name arguments).map fun _ _ h => congrArg₂ Reply.call h.1 h.2

/-- What the answer is used for makes no difference to the memory. -/
lemma memory_query (inquiry : Inquiry) (m : Memory) :
    (inquiry.query.answer r m).2 = (inquiry.reply.answer r m).2 := by
  cases inquiry <;> exact (Query.memory_map _ _ r m).trans (Query.memory_map _ _ r m).symm

end Inquiry

/-! ## Graphs -/

/-- The action asks or forgets, and does nothing to the types. -/
def Action.reads : Action → Bool
  | ask _ | forgetMethods _ | forgetFields _ => true
  | _ => false

namespace Graph

variable {g : Graph}

/-- The graph after some actions, the first one first. -/
def afterAll (g : Graph) (actions : List Action) : Graph :=
  actions.foldl (fun g action => action.run g) g

lemma faithful_run (h : g.memory.Faithful g.registry) {action : Action}
    (haction : action.reads = true) :
    (action.run g).registry = g.registry ∧ (action.run g).memory.Faithful g.registry := by
  cases action with
  | ask inquiry =>
    rw [Action.run, Action.work, Work.result_ask]
    refine ⟨rfl, ?_⟩
    rw [inquiry.memory_query]
    exact (inquiry.steady_reply g.memory g.memory h h).2.1
  | forgetMethods t => exact ⟨rfl, h.forgetMethods t⟩
  | forgetFields t => exact ⟨rfl, h.forgetFields t⟩
  | _ => cases haction

lemma faithful_afterAll (h : g.memory.Faithful g.registry) {actions : List Action}
    (hactions : ∀ action ∈ actions, action.reads = true) :
    (g.afterAll actions).registry = g.registry ∧
      (g.afterAll actions).memory.Faithful g.registry := by
  induction actions generalizing g with
  | nil => exact ⟨rfl, h⟩
  | cons action rest ih =>
    obtain ⟨hregistry, hmemory⟩ := faithful_run h (hactions action (by simp))
    have hrest := ih (g := action.run g) (by rwa [hregistry]) fun a ha => hactions a (by simp [ha])
    rw [hregistry] at hrest
    exact hrest

/-- **Remembering makes no difference.** Whatever was asked and forgotten of a registry since
nothing was remembered, every question is answered as if nothing had been asked: with the same
answer, where members are compared by their types and declarations, or with the same error. -/
theorem answer_afterAll (r : Registry) (actions : List Action)
    (hactions : ∀ action ∈ actions, action.reads = true) (inquiry : Inquiry) :
    (afterAll ⟨r, .empty⟩ actions).registry = r ∧
      (afterAll ⟨r, .empty⟩ actions).answer inquiry.reply = answer ⟨r, .empty⟩ inquiry.reply := by
  obtain ⟨hregistry, hmemory⟩ :=
    faithful_afterAll (g := ⟨r, .empty⟩) (Memory.faithful_empty r) hactions
  refine ⟨hregistry, ?_⟩
  obtain ⟨hends, -⟩ := inquiry.steady_reply _ _ hmemory (Memory.faithful_empty r)
  rw [answer, hregistry]
  exact hends.eq

/-- In a registry with a circle some questions fail and leave answers behind, and methods are read
twice. The question whether `Leaf` can be assigned to `Right` then fails as it would have failed at
first, and names `Left`. -/
theorem answer_afterAll_circle :
    let actions : List Action :=
      [.ask (.allMethods ⟨10⟩), .ask (.isSubclass ⟨9⟩ ⟨11⟩), .ask (.methods ⟨11⟩),
        .forgetMethods ⟨11⟩, .ask (.interfaces ⟨11⟩), .ask (.allMethods ⟨11⟩)]
    let r := (Run.after circleRun).registry
    (∀ action ∈ actions, action.reads = true) ∧
    (afterAll ⟨r, .empty⟩ actions).answer (Inquiry.assignable ⟨9⟩ ⟨11⟩).reply =
      .error (.classCircularity "Left" (some ⟨0, 4, 1⟩)) := by
  have hreads : ∀ action ∈ ([.ask (.allMethods ⟨10⟩), .ask (.isSubclass ⟨9⟩ ⟨11⟩),
      .ask (.methods ⟨11⟩), .forgetMethods ⟨11⟩, .ask (.interfaces ⟨11⟩),
      .ask (.allMethods ⟨11⟩)] : List Action), action.reads = true := by decide
  refine ⟨hreads, (answer_afterAll _ _ hreads _).2.trans ?_⟩
  decide +kernel

end Graph

end TypeGraph
