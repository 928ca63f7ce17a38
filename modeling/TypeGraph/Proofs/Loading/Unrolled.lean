import TypeGraph.Loading.Source
import TypeGraph.Proofs.Loading.Triple
import TypeGraph.Proofs.Registry.Edits

/-!
# The recursion of loading

Loading is recursive: to load a class is to register it and to fill it in, and filling it in loads
further classes. The list of fresh classes, which `Source.loadFrom` hands down, makes this a
recursion that ends. Here the list is taken away again. `Source.unrolled` loads without it, and is
cut off at a given depth, where it does something arbitrary. The main statement is that the cut is
never reached: at any depth above the number of known classes, loading is the same whatever is done
at the cut. So the nesting of loads ends by itself, because a class is registered before it is
filled in.

The proof goes once through all parts of a load, with two loads side by side. On the way it shows
that a load is a sequence of steps of the registry.
-/

namespace TypeGraph

open Relation

namespace Load

variable {α β : Type} {base inv : Registry → Prop}

/-! ## Loads side by side -/

/-- From every registry with the property `pre` the two loads come to the same, and what they come
to is as in `Load.Triple`. -/
structure Agree (pre : Registry → Prop) (q q' : Load α) (post : α → Registry → Prop)
    (fails : Registry → Prop) : Prop where
  same : ∀ r, pre r → q.result r = q'.result r
  triple : Triple pre q post fun _ => fails

namespace Agree

variable {q q' : Load α} {pre pre' fails fails' : Registry → Prop}
  {post post' : α → Registry → Prop}

lemma of_triple (h : Triple pre q post fun _ => fails) : Agree pre q q post fails :=
  ⟨fun _ _ => rfl, h⟩

lemma conseq (h : Agree pre q q' post fails) (hpre : ∀ r, pre' r → pre r)
    (hpost : ∀ a r, post a r → post' a r) (hfails : ∀ r, fails r → fails' r) :
    Agree pre' q q' post' fails' :=
  ⟨fun r hr => h.same r (hpre r hr), h.triple.conseq hpre hpost fun _ r h => hfails r h⟩

lemma bind {mid : α → Registry → Prop} {post : β → Registry → Prop} {f f' : α → Load β}
    (hq : Agree pre q q' mid fails) (hf : ∀ a, Agree (mid a) (f a) (f' a) post fails) :
    Agree pre (q >>= f) (q' >>= f') post fails := by
  refine ⟨fun r hr => ?_, Triple.bind hq.triple fun a => (hf a).triple⟩
  have hsame := hq.same r hr
  rcases hres : q.result r with ⟨e | a, r'⟩
  · rw [result_bind_error hres, result_bind_error (hsame.symm.trans hres)]
  · rw [result_bind_ok hres, result_bind_ok (hsame.symm.trans hres)]
    exact (hf a).same r' (hq.triple.post_of_ok hr hres)

lemma get_bind {post : β → Registry → Prop} {f f' : Registry → Load β}
    (hf : ∀ r, pre r → Agree (· = r) (f r) (f' r) post fails) :
    Agree pre (get >>= f) (get >>= f') post fails :=
  ⟨fun r hr => (hf r hr).same r rfl, Triple.get_bind fun r hr => (hf r hr).triple⟩

lemma tryCatch {handler handler' : Error → Load α}
    (hq : Agree pre q q' post fails') (hh : ∀ e, Agree fails' (handler e) (handler' e) post fails) :
    Agree pre (MonadExcept.tryCatch q handler) (MonadExcept.tryCatch q' handler') post fails := by
  refine ⟨fun r hr => ?_, Triple.tryCatch hq.triple fun e => (hh e).triple⟩
  rw [result_tryCatch, result_tryCatch, ← hq.same r hr]
  rcases hres : q.result r with ⟨e | a, r'⟩
  · exact (hh e).same r' (hq.triple.fails_of_error hr hres)
  · rfl

end Agree

/-- The two loads come to the same in all registries with a property, and keep the property. -/
def Alike (inv : Registry → Prop) (q q' : Load α) (post : α → Registry → Prop) : Prop :=
  Agree inv q q' (fun a r => inv r ∧ post a r) inv

/-- The two loads come to the same in all registries with a property, and keep the property. Nothing
is said about what they give. -/
def AlikeOnly (inv : Registry → Prop) (q q' : Load α) : Prop :=
  Agree inv q q' (fun _ => inv) inv

namespace AlikeOnly

variable {q q' : Load α}

lemma pure (a : α) : AlikeOnly inv (Pure.pure a) (Pure.pure a) :=
  Agree.of_triple (Triple.pure a fun _ hr => hr)

lemma throw (e : Error) : AlikeOnly inv (MonadExcept.throw e : Load α) (MonadExcept.throw e) :=
  Agree.of_triple (Triple.throw e fun _ hr => hr)

lemma ofExcept (result : Except Error α) :
    AlikeOnly inv (Load.ofExcept result) (Load.ofExcept result) :=
  Agree.of_triple (Triple.ofExcept (fun _ _ _ hr => hr) fun _ _ _ hr => hr)

lemma mapM {f f' : α → Load β} (hf : ∀ a, AlikeOnly inv (f a) (f' a)) (l : List α) :
    AlikeOnly inv (l.mapM f) (l.mapM f') := by
  induction l with
  | nil => exact pure []
  | cons a l ih =>
    rw [List.mapM_cons, List.mapM_cons]
    exact (hf a).bind fun b => ih.bind fun bs => pure (b :: bs)

lemma mapM_option {f f' : α → Load β} (hf : ∀ a, AlikeOnly inv (f a) (f' a)) (o : Option α) :
    AlikeOnly inv (o.mapM f) (o.mapM f') := by
  cases o with
  | none => exact pure none
  | some a => exact (hf a).bind fun b => pure (some b)

lemma forM {f f' : α → Load Unit} (hf : ∀ a, AlikeOnly inv (f a) (f' a)) (l : List α) :
    AlikeOnly inv (l.forM f) (l.forM f') := by
  induction l with
  | nil => exact pure ()
  | cons a l ih => exact (hf a).bind fun _ => ih

end AlikeOnly

/-! ## Finding types -/

/-- A property that steps keep, and that says at least as much as a given one. -/
structure Invariant (base inv : Registry → Prop) : Prop where
  base : ∀ {r}, inv r → base r
  step : ∀ {r r'}, inv r → r.Step r' → inv r'

lemma Invariant.and_issued (h : Invariant base inv) (t : Handle) :
    Invariant base fun r => inv r ∧ r.Issued t :=
  ⟨fun hr => h.base hr.1, fun hr hs => ⟨h.step hr.1 hs, hs.extends.issued hr.2⟩⟩

/-- What was found, if anything, is issued. -/
def FoundIssued (found : Option Handle) (r : Registry) : Prop :=
  ∀ t, found = some t → r.Issued t

/-- Two functions that find types agree in the registries with a property, and what they find is
issued. -/
def FindAlike (base : Registry → Prop) (find find' : String → Load (Option Handle)) : Prop :=
  ∀ inv, Invariant base inv → ∀ d, Alike inv (find d) (find' d) FoundIssued

/-- What is found is found by steps. -/
lemma FindAlike.steps {find find' : String → Load (Option Handle)} {r r' : Registry}
    (h : FindAlike base find find') (hbase : ∀ {r r'}, base r → r.Step r' → base r')
    (hr : base r) {d : String} {result : Except Error (Option Handle)}
    (hfind : (find d).result r = (result, r')) :
    ReflTransGen Registry.Step r r' ∧ ∀ t, result = .ok (some t) → r'.Issued t := by
  have hinv : Invariant base fun r' => base r' ∧ ReflTransGen Registry.Step r r' :=
    ⟨fun h => h.1, fun h hs => ⟨hbase h.1 hs, h.2.tail hs⟩⟩
  have htriple := (h _ hinv d).triple r ⟨hr, .refl⟩
  rw [hfind] at htriple
  cases result with
  | error e => exact ⟨htriple.2, by simp⟩
  | ok found => exact ⟨htriple.1.2, fun t ht => htriple.2 t (Except.ok.inj ht)⟩

section Finding

variable {load load' : String → Load (Option Handle)} (hbase : ∀ r, base r → r.Canonical)
include hbase

lemma alike_registered (hinv : Invariant base inv) (d : String) :
    Alike inv (registered d) (registered d) FoundIssued := by
  refine Agree.of_triple (Triple.get_bind fun r hr => ?_)
  cases hlookup : r.lookup d with
  | none => exact Triple.pure none fun r' h => ⟨h ▸ hr, by simp [FoundIssued]⟩
  | some t =>
    dsimp only
    cases r.loadError t with
    | some e => exact Triple.throw e fun r' h => h ▸ hr
    | none =>
      refine Triple.pure (some t) ?_
      rintro _ rfl
      refine ⟨hr, ?_⟩
      rintro _ ⟨⟩
      exact ((hbase _ (hinv.base hr)).lookup_iff.1 hlookup).1

variable (hload : FindAlike base load load')
include hload

lemma findAlike_resolveClass : FindAlike base (resolveClass load) (resolveClass load') := by
  intro inv hinv d
  refine (AlikeOnly.ofExcept _).bind fun _ => (alike_registered hbase hinv d).bind fun found => ?_
  cases found with
  | some t => exact Agree.of_triple (Triple.pure (some t) fun _ hr => hr)
  | none => exact (hload inv hinv d).conseq (fun _ hr => hr.1) (fun _ _ h => h) fun _ h => h

lemma alike_rootClass (hinv : Invariant base inv) :
    AlikeOnly inv (rootClass load) (rootClass load') := by
  refine (findAlike_resolveClass hbase hload inv hinv _).bind fun found => ?_
  cases found with
  | some t => exact (AlikeOnly.pure t).conseq (fun _ hr => hr.1) (fun _ _ h => h) fun _ h => h
  | none => exact (AlikeOnly.throw _).conseq (fun _ hr => hr.1) (fun _ _ h => h) fun _ h => h

lemma findAlike_resolve : FindAlike base (resolve load) (resolve load') := by
  intro inv hinv d
  induction d using resolve.induct generalizing inv with
  | case1 d ih =>
    rw [resolve, resolve]
    refine (AlikeOnly.ofExcept _).bind fun _ =>
      (alike_registered hbase hinv d).bind fun found => ?_
    cases found with
    | some t => exact Agree.of_triple (Triple.pure (some t) fun _ hr => hr)
    | none =>
      refine Agree.conseq ?_ (fun _ hr => hr.1) (fun _ _ h => h) fun _ h => h
      dsimp only
      split
      next => exact hload inv hinv d
      next component hcomponent =>
        refine (ih component hcomponent inv hinv).bind fun found => ?_
        cases found with
        | none => exact Agree.of_triple (Triple.pure none fun _ hr => hr)
        | some c =>
          have hissued := hinv.and_issued c
          refine (?_ : Agree (fun r => inv r ∧ r.Issued c) _ _ _ fun r => inv r ∧ r.Issued c).conseq
            (fun r hr => ⟨hr.1, hr.2 c rfl⟩) (fun _ _ h => h) fun _ h => h.1
          refine (alike_rootClass hbase hload hissued).bind fun root => ?_
          refine Agree.of_triple (Triple.bind
            (?_ : Triple _ _ (fun a r => (inv r ∧ r.Issued c) ∧ r.Issued a) _) fun a => ?_)
          · refine Triple.arrayOf fun r hr => ?_
            have hstep : r.Step (r.arrayOf c root).2 := .array hr.2 root
            obtain ⟨-, root', hshape⟩ := (hbase r (hinv.base hr.1)).arrayOf hr.2 root
            exact ⟨hissued.step hr hstep, Registry.issued_of_array hshape⟩
          · refine Triple.pure (some a) fun r hr => ⟨hr.1.1, ?_⟩
            rintro _ ⟨⟩
            exact hr.2

lemma alike_require (hinv : Invariant base inv) (span : Option Span) (name : String) :
    AlikeOnly inv (require load span name) (require load' span name) := by
  have hname : Alike inv (resolveName load name) (resolveName load' name) FoundIssued :=
    (AlikeOnly.ofExcept _).bind fun d => findAlike_resolve hbase hload inv hinv d
  refine hname.bind fun found => ?_
  cases found with
  | some t => exact (AlikeOnly.pure t).conseq (fun _ hr => hr.1) (fun _ _ h => h) fun _ h => h
  | none => exact (AlikeOnly.throw _).conseq (fun _ hr => hr.1) (fun _ _ h => h) fun _ h => h

end Finding

/-! ## Filling in -/

section Filling

variable {require require' : String → Load Handle} {t : Handle}
  (hedit : ∀ {r change}, inv r → (∀ d, (change d).descriptor = d.descriptor) →
    (∀ d, (change d).isInterface = d.isInterface) → inv (r.edit t change))
  (hrequire : ∀ name, AlikeOnly inv (require name) (require' name))

section Edits

include hedit

lemma alike_edit {change : Draft → Draft} {new : List Handle} {errors : List Error}
    (h : Draft.Edits change new errors) :
    AlikeOnly inv (Load.edit t change) (Load.edit t change) :=
  Agree.of_triple (Triple.edit fun _ hr => hedit hr h.descriptor h.isInterface)

lemma alike_defineSynthetic (field : FieldDecl) :
    AlikeOnly inv (Load.defineSynthetic t field) (Load.defineSynthetic t field) := by
  refine Agree.of_triple (Triple.get_bind fun r hr => ?_)
  refine Triple.bind (?_ : Triple _ _ (fun r' _ => inv r') _) fun r' _ hr' => hr'
  refine Triple.ofExcept ?_ fun _ _ _ hr' => hr' ▸ hr
  rintro r' _ hdefine rfl
  rcases Registry.defineSynthetic_eq_ok hdefine with rfl | ⟨fields, rfl⟩
  · exact hr
  · have hedits := Draft.edits_syntheticFields fields
    exact hedit hr hedits.descriptor hedits.isInterface

end Edits

include hedit hrequire

lemma alike_fillBuiltin (type : Builtin) :
    AlikeOnly inv (type.fill require t) (type.fill require' t) := by
  cases type with
  | object =>
    exact (hrequire _).bind fun object => (hrequire _).bind fun string =>
      alike_edit hedit (Draft.edits_addMethods _)
  | string =>
    exact (hrequire _).bind fun object => (hrequire _).bind fun serializable =>
      (hrequire _).bind fun string => (hrequire _).bind fun chars =>
      alike_edit hedit (Draft.edits_linksAndMembers _ _ _ _ _)
  | cloneable => exact AlikeOnly.pure ()
  | serializable => exact AlikeOnly.pure ()

lemma alike_fillLinks (item : ClassPath.ClassItem) (d : String) :
    AlikeOnly inv (item.fillLinks require t d) (item.fillLinks require' t d) := by
  have hlist : ∀ (add : Draft → Handle → Draft), (∀ s, Draft.Edits (add · s) [s] []) →
      ∀ ts : List Handle, AlikeOnly inv (Load.edit t fun draft => ts.foldl add draft)
        (Load.edit t fun draft => ts.foldl add draft) :=
    fun add hadd ts => alike_edit hedit (.foldl_links hadd ts)
  refine (AlikeOnly.mapM_option hrequire _).bind fun superclass =>
    (alike_edit hedit (Draft.edits_setSuperclass superclass)).bind fun _ => ?_
  refine (AlikeOnly.mapM hrequire _).bind fun interfaces =>
    (hlist _ Draft.edits_addInterface interfaces).bind fun _ => ?_
  refine (AlikeOnly.mapM_option hrequire _).bind fun outer =>
    (alike_edit hedit (Draft.edits_setOuterClass outer)).bind fun _ => ?_
  refine (AlikeOnly.mapM_option hrequire _).bind fun declaring =>
    (alike_edit hedit (Draft.edits_setDeclaringClass declaring)).bind fun _ => ?_
  exact (AlikeOnly.mapM hrequire _).bind fun members =>
    hlist _ Draft.edits_addMemberType members

lemma alike_fillItem (item : ClassPath.ClassItem) (d : String) :
    AlikeOnly inv (item.fill require t d) (item.fill require' t d) := by
  have hnames := AlikeOnly.mapM hrequire
  refine (alike_fillLinks hedit hrequire item d).bind fun _ => ?_
  refine (AlikeOnly.forM (fun constructor => ?_) _).bind fun _ => ?_
  · exact (hnames _).bind fun parameters => (hnames _).bind fun thrown =>
      alike_edit hedit (Draft.edits_addConstructor _)
  refine (AlikeOnly.forM (fun method => ?_) _).bind fun _ => ?_
  · exact (hnames _).bind fun parameters => (hrequire _).bind fun result =>
      (hnames _).bind fun thrown => alike_edit hedit (Draft.edits_addMethod _)
  refine (AlikeOnly.forM (fun field => ?_) _).bind fun _ => ?_
  · exact (hrequire _).bind fun type => alike_edit hedit (Draft.edits_addField _)
  exact AlikeOnly.forM (fun field => (hrequire _).bind fun type =>
    alike_defineSynthetic hedit _) _

end Filling

lemma alike_fill {load load' : String → Load (Option Handle)} (hinv : Invariant base inv)
    (hbase : ∀ r, base r → r.Canonical) (hload : FindAlike base load load') (t : Handle)
    (d : String) (recipe : Recipe) :
    AlikeOnly inv (recipe.fill load t d) (recipe.fill load' t d) := by
  have hrequire := fun span => alike_require hbase hload hinv span
  have hedit : ∀ {r change}, inv r → (∀ d, (change d).descriptor = d.descriptor) →
      (∀ d, (change d).isInterface = d.isInterface) → inv (r.edit t change) :=
    fun hr hd hk => hinv.step hr (.edit t hd hk)
  cases recipe with
  | builtin type => exact alike_fillBuiltin hedit (hrequire none) type
  | described item =>
    refine Agree.tryCatch (alike_fillItem hedit (hrequire item.span) item d) fun e => ?_
    exact (alike_edit hedit (Draft.edits_fail e)).bind fun _ => AlikeOnly.throw e

end Load

/-! ## Loading without the list of fresh classes -/

namespace Source

open Load

variable {source : Source} {fresh : List String} {r r' : Registry}

/-- Load a class, given a way to load the classes that it refers to. -/
def loadStep (source : Source) (nested : String → Load (Option Handle)) (descriptor : String) :
    Load (Option Handle) := do
  match source.recipe? descriptor with
  | none => return none
  | some recipe =>
    let r ← get
    match r.define (.draft recipe.draft) with
    | .error (.duplicateType _ _) => return r.lookup descriptor
    | .error error => throw error
    | .ok (t, r) =>
      set r
      recipe.fill nested t descriptor
      return some t

/-- Load a class, with nested loads down to the given depth. Below it, something arbitrary is
done. -/
def unrolled (source : Source) (bottom : String → Load (Option Handle)) :
    Nat → String → Load (Option Handle)
  | 0 => bottom
  | depth + 1 => source.loadStep (source.unrolled bottom depth)

/-- Every known class that is not fresh is registered. -/
structure Covered (source : Source) (fresh : List String) (r : Registry) : Prop where
  canonical : r.Canonical
  registered : ∀ {d recipe}, source.recipe? d = some recipe → d ∈ fresh ∨
    Descriptor.IsClass recipe.draft.descriptor ∧ (r.lookup recipe.draft.descriptor).isSome

lemma mem_known {d : String} {recipe : Recipe} (h : source.recipe? d = some recipe) :
    d ∈ source.known := by
  have hbuiltin : ∀ {d}, (Builtin.ofDescriptor? d).isSome →
      d ∈ Builtin.all.map Builtin.descriptor := by
    intro d hd
    obtain ⟨type, htype⟩ := Option.isSome_iff_exists.1 hd
    have hdescriptor : type.descriptor = d := by simpa using List.find?_some htype
    exact List.mem_map.2 ⟨type, List.mem_of_find?_eq_some htype, hdescriptor⟩
  cases source with
  | nothing => cases h
  | builtins =>
    obtain ⟨type, htype, -⟩ := Option.map_eq_some_iff.1 h
    exact hbuiltin (by rw [htype]; rfl)
  | classPath path =>
    refine List.mem_append.2 ?_
    cases hfind : path.find? d with
    | some item =>
      obtain ⟨before, after, hclasses, -⟩ := List.lookup_eq_some_iff.1 hfind
      exact Or.inl (by simp [ClassPath.descriptors, hclasses])
    | none =>
      simp only [recipe?, hfind] at h
      obtain ⟨type, htype, -⟩ := Option.map_eq_some_iff.1 h
      exact Or.inr (hbuiltin (by rw [htype]; rfl))

lemma covered_known (hr : r.Canonical) : source.Covered source.known r :=
  ⟨hr, fun h => Or.inl (mem_known h)⟩

lemma Covered.step (h : source.Covered fresh r) (hstep : r.Step r') : source.Covered fresh r' := by
  refine ⟨h.canonical.step hstep, fun hrecipe => (h.registered hrecipe).imp id ?_⟩
  rintro ⟨hclass, hsome⟩
  obtain ⟨t, ht⟩ := Option.isSome_iff_exists.1 hsome
  have ht' := hstep.extends.lookup_eq_some h.canonical (h.canonical.step hstep) ht
  exact ⟨hclass, by rw [ht']; rfl⟩

/-- A class that was registered is no longer fresh. -/
lemma Covered.erase {d : String} {recipe : Recipe} {t : Handle} (h : source.Covered fresh r)
    (hrecipe : source.recipe? d = some recipe)
    (hdefine : r.define (.draft recipe.draft) = .ok (t, r')) :
    source.Covered (fresh.erase d) r' := by
  have hstep := h.step (.define hdefine)
  obtain ⟨hclass, -, rfl, rfl⟩ := Registry.define_eq_ok_iff.1 hdefine
  refine ⟨hstep.canonical, fun {d' recipe'} hrecipe' => ?_⟩
  by_cases hd : d' = d
  · subst hd
    obtain rfl : recipe = recipe' := Option.some.inj (hrecipe.symm.trans hrecipe')
    refine Or.inr ⟨hclass, ?_⟩
    rw [Registry.lookup_withClass]
    exact if_pos rfl ▸ rfl
  · exact (hstep.registered hrecipe').imp (List.mem_erase_of_ne hd).2 id

/-- A class that is registered is not loaded again, so its load is not nested any deeper. -/
lemma Covered.define_eq {d : String} {recipe : Recipe} (h : source.Covered fresh r)
    (hrecipe : source.recipe? d = some recipe) (hd : d ∉ fresh) :
    r.define (.draft recipe.draft) =
      .error (.duplicateType recipe.draft.descriptor recipe.draft.location) := by
  obtain ⟨hclass, hsome⟩ := (h.registered hrecipe).resolve_left hd
  rw [Registry.define_eq]
  exact (if_pos hclass).trans (if_pos hsome)

/-- One load, with nested loads that agree. -/
lemma alike_loadStep {nested nested' : String → Load (Option Handle)} {inv : Registry → Prop}
    (hinv : Invariant (source.Covered fresh) inv) {d : String}
    (hnested : FindAlike (source.Covered (fresh.erase d)) nested nested') :
    Alike inv (source.loadStep nested d) (source.loadStep nested' d) FoundIssued := by
  unfold loadStep
  cases hrecipe : source.recipe? d with
  | none => exact Agree.of_triple (Triple.pure none fun r hr => ⟨hr, by simp [FoundIssued]⟩)
  | some recipe =>
    refine Agree.get_bind fun r hr => ?_
    have hcovered := hinv.base hr
    rcases hdefine : r.define (.draft recipe.draft) with e | ⟨t, r'⟩
    · have hlookup : FoundIssued (r.lookup d) r :=
        fun t ht => (hcovered.canonical.lookup_iff.1 ht).1
      cases e with
      | duplicateType _ _ =>
        refine Agree.of_triple (Triple.pure _ ?_)
        rintro _ rfl
        exact ⟨hr, hlookup⟩
      | _ => exact Agree.of_triple (Triple.throw _ fun _ h => h ▸ hr)
    · -- while the class is filled in, it is registered and no longer fresh
      have hstep : r.Step r' := .define hdefine
      have hfilling : Invariant (source.Covered (fresh.erase d)) fun r₁ =>
          (inv r₁ ∧ r₁.Issued t) ∧ source.Covered (fresh.erase d) r₁ :=
        ⟨fun h => h.2, fun h hs => ⟨(hinv.and_issued t).step h.1 hs, h.2.step hs⟩⟩
      have hissued : r'.Issued t := by
        obtain ⟨-, -, rfl, rfl⟩ := Registry.define_eq_ok_iff.1 hdefine
        exact Registry.issued_of_declared (Registry.shape_withClass_next r _)
      have hset : Agree (· = r) (set r' : Load PUnit) (set r') (fun _ => (· = r')) inv :=
        Agree.of_triple fun _ _ => rfl
      refine hset.bind fun _ =>
        (?_ : Agree _ _ _ (fun _ r₁ => inv r₁ ∧ r₁.Issued t) _).bind fun _ => ?_
      · refine (alike_fill hfilling (fun _ h => h.canonical) hnested t d recipe).conseq ?_
          (fun _ _ h => h.1) fun _ h => h.1.1
        rintro _ rfl
        exact ⟨⟨hinv.step hr hstep, hissued⟩, hcovered.erase hrecipe hdefine⟩
      · refine Agree.of_triple (Triple.pure (some t) fun r₁ h => ⟨h.1, ?_⟩)
        rintro _ ⟨⟩
        exact h.2

/-- A class that is not fresh is registered, so the step ends without a nested load. -/
lemma alike_loadFrom_of_notMem {inv : Registry → Prop}
    (hinv : Invariant (source.Covered fresh) inv) (nested : String → Load (Option Handle))
    {d : String} (hd : d ∉ fresh) :
    Alike inv (source.loadFrom fresh d) (source.loadStep nested d) FoundIssued := by
  rw [loadFrom, loadStep]
  cases hrecipe : source.recipe? d with
  | none => exact Agree.of_triple (Triple.pure none fun r hr => ⟨hr, by simp [FoundIssued]⟩)
  | some recipe =>
    refine Agree.get_bind fun r hr => ?_
    rw [dif_neg hd, (hinv.base hr).define_eq hrecipe hd]
    refine Agree.of_triple (Triple.pure _ ?_)
    rintro _ rfl
    exact ⟨hr, fun t ht => ((hinv.base hr).canonical.lookup_iff.1 ht).1⟩

/-- **The nesting of loads ends.** Where every class that is not fresh is registered, loading is the
same as with loads that are nested deeper than there are fresh classes, whatever is done below. -/
theorem findAlike_unrolled (source : Source) (bottom : String → Load (Option Handle)) {depth : Nat}
    {fresh : List String} (hdepth : fresh.length < depth) :
    FindAlike (source.Covered fresh) (source.loadFrom fresh) (source.unrolled bottom depth) := by
  -- each nested load takes a class off the list of fresh ones
  induction depth generalizing fresh with
  | zero => cases hdepth
  | succ depth ih =>
    intro inv hinv d
    by_cases hd : d ∈ fresh
    · have hstep : source.loadFrom fresh d =
          source.loadStep (source.loadFrom (fresh.erase d)) d := by
        rw [loadFrom, loadStep]
        cases source.recipe? d with
        | none => rfl
        | some recipe => exact bind_congr fun r => dif_pos hd
      have hlength := List.length_erase_of_mem hd
      have hpos := List.length_pos_of_mem hd
      rw [hstep]
      exact alike_loadStep hinv (ih (by omega))
    · exact alike_loadFrom_of_notMem hinv _ hd

/-- What types are found does not depend on what is done below a depth that exceeds the number of
known classes. -/
theorem requireAll_unrolled (source : Source) (bottom : String → Load (Option Handle)) {depth : Nat}
    (hdepth : source.known.length < depth) (hr : r.Canonical) (span : Option Span)
    (names : List String) :
    (names.mapM (Load.require (source.unrolled bottom depth) span)).result r =
      (source.requireAll span names).result r := by
  have hinv : Invariant (source.Covered source.known) Registry.Canonical :=
    ⟨covered_known, Registry.Canonical.step⟩
  have hrequire := alike_require (fun _ h => h.canonical)
    (source.findAlike_unrolled bottom hdepth) hinv span
  exact ((AlikeOnly.mapM hrequire names).same r hr).symm

/-- A load is a sequence of steps, and gives an issued type, if any. -/
lemma steps_load {d : String} {result : Except Error (Option Handle)} (hr : r.Canonical)
    (hload : (source.load d).result r = (result, r')) :
    ReflTransGen Registry.Step r r' ∧ ∀ t, result = .ok (some t) → r'.Issued t :=
  (source.findAlike_unrolled source.load (Nat.lt_succ_self _)).steps Covered.step
    (covered_known hr) hload

end Source

end TypeGraph
