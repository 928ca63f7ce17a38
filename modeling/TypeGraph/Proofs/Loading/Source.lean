import TypeGraph.Loading.Source
import TypeGraph.Proofs.Loading.Triple
import TypeGraph.Proofs.Registry.Edits

/-!
# What loading does to a registry

A load adds types and changes none that is there already: a class is filled in by the load that
registers it, and by no other. This holds through the recursion, where the filling of one class
loads others, and it holds when the load fails. `Source.Loads` is this relation between the
registry before and after; the main statement is that every way to find or load types obeys it.
-/

namespace TypeGraph

/-! ## The relation -/

/-- What loads from a source may do to a registry. -/
structure Source.Loads (source : Source) (r r' : Registry) : Prop where
  grows : r.Grows r'
  sound : r.Sound → r'.Sound
  /-- A new class has a descriptor from a recipe of the source. A built-in one is not broken. -/
  described : ∀ {t : Handle} {origin : Origin}, ¬ r.Issued t → r'.shape t = .declared origin →
    ∃ d recipe, source.recipe? d = some recipe ∧
      origin.declaration.descriptor = recipe.draft.descriptor ∧
      ∀ type, recipe = .builtin type → origin.declaration.loadError = none

namespace Source.Loads

variable {source : Source} {r r' r'' : Registry} {t : Handle}

lemma refl (source : Source) (r : Registry) : source.Loads r r :=
  ⟨Registry.Grows.refl r, id, fun ht hs => absurd (Registry.issued_of_declared hs) ht⟩

lemma trans (h : source.Loads r r') (h' : source.Loads r' r'') : source.Loads r r'' := by
  refine ⟨h.grows.trans h'.grows, fun hr => h'.sound (h.sound hr), ?_⟩
  intro t origin ht hs
  by_cases ht' : r'.Issued t
  · exact h.described ht (h'.grows.shape_eq t ht' ▸ hs)
  · exact h'.described ht' hs

lemma arrayOf {component root : Handle} (hc : r.Issued component) (hroot : r.Issued root) :
    source.Loads r (r.arrayOf component root).2 := by
  refine ⟨r.grows_arrayOf component root, fun hr => (hr.arrayOf hc hroot).1, ?_⟩
  intro t origin ht hs
  exact absurd (Registry.issued_of_declared_arrayOf hs) ht

end Source.Loads

namespace Load

variable {α β : Type} {source : Source} {inv : Registry → Prop} {t : Handle}

/-! ## Properties that loads keep -/

/-- A property of sound registries that loads from the source keep. -/
structure Stable (source : Source) (inv : Registry → Prop) : Prop where
  sound : ∀ {r}, inv r → r.Sound
  keep : ∀ {r r'}, inv r → source.Loads r r' → inv r'

/-- What the registry was before may be added to a stable property. -/
lemma stable_loads {r₀ : Registry} (h₀ : r₀.Sound) : Stable source (source.Loads r₀) :=
  ⟨fun h => h.sound h₀, fun h h' => h.trans h'⟩

lemma Stable.and_issued (h : Stable source inv) (t : Handle) :
    Stable source fun r => inv r ∧ r.Issued t :=
  ⟨fun hr => h.sound hr.1, fun hr hl => ⟨h.keep hr.1 hl, hl.grows.issued hr.2⟩⟩

/-- The load keeps the property, also when it fails, and it does not fail as an endless walk. -/
def Keeps (inv : Registry → Prop) (q : Load α) (post : α → Registry → Prop) : Prop :=
  Triple inv q (fun a r => inv r ∧ post a r) fun e r => inv r ∧ e.isEndless = false

lemma Keeps.bind {inv' : Registry → Prop} {q : Load α} {f : α → Load β}
    {mid : α → Registry → Prop} {post : β → Registry → Prop} (hq : Keeps inv' q mid)
    (hinv : ∀ r, inv' r → inv r)
    (hf : ∀ a, Triple (fun r => inv' r ∧ mid a r) (f a) post
      fun e r => inv r ∧ e.isEndless = false) :
    Triple inv' (q >>= f) post fun e r => inv r ∧ e.isEndless = false :=
  Triple.bind (hq.conseq (fun _ h => h) (fun _ _ h => h) fun _ r h => ⟨hinv r h.1, h.2⟩) hf

lemma keeps_ofExcept {result : Except Error α} (h : ∀ e, result = .error e → e.isEndless = false) :
    Keeps inv (Load.ofExcept result) fun a _ => result = .ok a :=
  Triple.ofExcept (fun _ _ ha hr => ⟨hr, ha⟩) fun e _ he hr => ⟨hr, h e he⟩

/-- The load gives an issued type, if any. -/
def Finds (source : Source) (q : Load (Option Handle)) : Prop :=
  ∀ inv, Stable source inv → Keeps inv q fun found r => ∀ t, found = some t → r.Issued t

/-- The load gives an issued type. -/
def Gets (source : Source) (q : Load Handle) : Prop :=
  ∀ inv, Stable source inv → Keeps inv q fun t r => r.Issued t

/-- What keeps every stable property does to the registry what loads may do. -/
lemma loads_of_keeps {q : Load α} {post : α → Registry → Prop} {r : Registry}
    (h : ∀ inv, Stable source inv → Keeps inv q post) (hr : r.Sound) :
    source.Loads r (q.result r).2 := by
  have hq := (h (source.Loads r) (stable_loads hr)).conseq (fun _ h => h) (fun _ _ h => h.1)
    fun _ _ h => h.1
  exact hq.after (Source.Loads.refl source r)

lemma Finds.loads {q : Load (Option Handle)} {r : Registry} (h : Finds source q) (hr : r.Sound) :
    source.Loads r (q.result r).2 :=
  loads_of_keeps h hr

lemma Gets.loads {q : Load Handle} {r : Registry} (h : Gets source q) (hr : r.Sound) :
    source.Loads r (q.result r).2 :=
  loads_of_keeps h hr

lemma Gets.mapM {f : α → Load Handle} (hf : ∀ a, Gets source (f a))
    (hinv : Stable source inv) (l : List α) :
    Keeps inv (l.mapM f) fun ts r => ∀ t ∈ ts, r.Issued t := by
  induction l generalizing inv with
  | nil => exact Triple.pure [] fun r hr => ⟨hr, by simp⟩
  | cons a l ih =>
    rw [List.mapM_cons]
    refine (hf a inv hinv).bind (fun _ h => h) fun t => ?_
    refine (ih (hinv.and_issued t)).bind (fun _ h => h.1) fun ts => ?_
    exact Triple.pure _ fun r hr => ⟨hr.1.1, by simpa using ⟨hr.1.2, hr.2⟩⟩

lemma Gets.mapM_option {f : α → Load Handle} (hf : ∀ a, Gets source (f a))
    (hinv : Stable source inv) (o : Option α) :
    Keeps inv (o.mapM f) fun link r => ∀ t ∈ link.toList, r.Issued t := by
  cases o with
  | none => exact Triple.pure none fun r hr => ⟨hr, by simp⟩
  | some a =>
    refine (hf a inv hinv).bind (fun _ h => h) fun t => ?_
    exact Triple.pure _ fun r hr => ⟨hr.1, by simpa using hr.2⟩

/-! ## Finding types -/

section Finding

variable {load : String → Load (Option Handle)} (hload : ∀ d, Finds source (load d))

lemma proper_of_validate {d : String} {e : Error} (h : Descriptor.validate d = .error e) :
    e.isEndless = false := by
  unfold Descriptor.validate at h
  split at h
  · cases h
  · cases h
    rfl

lemma proper_of_ofClassName {name : String} {e : Error}
    (h : Descriptor.ofClassName name = .error e) : e.isEndless = false := by
  unfold Descriptor.ofClassName at h
  split at h
  split at h
  · cases h
  · cases h
    rfl

lemma finds_registered (d : String) : Finds source (registered d) := by
  intro inv hinv
  refine Triple.get_bind fun r hr => ?_
  have hsound := hinv.sound hr
  cases hl : r.lookup d with
  | none => exact Triple.pure none fun r' h => ⟨h ▸ hr, by simp⟩
  | some t =>
    dsimp only
    cases he : r.loadError t with
    | some e => exact Triple.throw e fun r' h => ⟨h ▸ hr, hsound.proper_of_loadError he⟩
    | none =>
      refine Triple.pure (some t) fun r' h => ⟨h ▸ hr, fun s hs => ?_⟩
      cases hs
      exact h ▸ (hsound.lookup_iff.1 hl).1

include hload

lemma finds_resolveClass (d : String) : Finds source (resolveClass load d) := by
  intro inv hinv
  refine (keeps_ofExcept fun e => proper_of_validate).bind (fun _ h => h) fun _ => ?_
  refine Triple.conseq ?_ (fun r hr => hr.1) (fun _ _ h => h) (fun _ _ h => h)
  refine (finds_registered d inv hinv).bind (fun _ h => h) fun found => ?_
  cases found with
  | some t => exact Triple.pure (some t) fun r hr => hr
  | none => exact (hload d inv hinv).conseq (fun r hr => hr.1) (fun _ _ h => h) (fun _ _ h => h)

lemma gets_rootClass : Gets source (rootClass load) := by
  intro inv hinv
  refine (finds_resolveClass hload Descriptor.object inv hinv).bind (fun _ h => h) fun found => ?_
  cases found with
  | some t => exact Triple.pure t fun r hr => ⟨hr.1, hr.2 t rfl⟩
  | none => exact Triple.throw _ fun r hr => ⟨hr.1, rfl⟩

lemma finds_resolve (d : String) : Finds source (resolve load d) := by
  intro inv hinv
  induction d using resolve.induct generalizing inv with
  | case1 d ih =>
    rw [resolve]
    refine (keeps_ofExcept fun e => proper_of_validate).bind (fun _ h => h) fun _ => ?_
    refine Triple.conseq ?_ (fun r hr => hr.1) (fun _ _ h => h) (fun _ _ h => h)
    refine (finds_registered d inv hinv).bind (fun _ h => h) fun found => ?_
    cases found with
    | some t => exact Triple.pure (some t) fun r hr => hr
    | none =>
      refine Triple.conseq ?_ (fun r hr => hr.1) (fun _ _ h => h) (fun _ _ h => h)
      dsimp only
      split
      next => exact hload d inv hinv
      next component hcomponent =>
        refine (ih component hcomponent inv hinv).bind (fun _ h => h) fun found => ?_
        cases found with
        | none => exact Triple.pure none fun r hr => ⟨hr.1, by simp⟩
        | some c =>
          refine Triple.conseq (?_ : Triple (fun r => inv r ∧ r.Issued c) _ _ _)
            (fun r hr => ⟨hr.1, hr.2 c rfl⟩) (fun _ _ h => h) (fun _ _ h => h)
          refine (gets_rootClass hload _ (hinv.and_issued c)).bind (fun _ h => h.1) fun root => ?_
          refine Triple.bind (?_ : Triple _ _ (fun a r => inv r ∧ r.Issued a) _) fun a => ?_
          · refine Triple.arrayOf fun r hr => ⟨hinv.keep hr.1.1 (.arrayOf hr.1.2 hr.2), ?_⟩
            obtain ⟨-, root', hs⟩ := (hinv.sound hr.1.1).arrayOf hr.1.2 hr.2
            exact Registry.issued_of_array hs
          · refine Triple.pure (some a) fun r hr => ⟨hr.1, fun t ht => ?_⟩
            cases ht
            exact hr.2

lemma finds_resolveName (name : String) : Finds source (resolveName load name) := by
  intro inv hinv
  refine (keeps_ofExcept fun e => proper_of_ofClassName).bind (fun _ h => h) fun d => ?_
  exact (finds_resolve hload d inv hinv).conseq (fun r hr => hr.1) (fun _ _ h => h)
    (fun _ _ h => h)

lemma gets_require (span : Option Span) (name : String) :
    Gets source (require load span name) := by
  intro inv hinv
  refine (finds_resolveName hload name inv hinv).bind (fun _ h => h) fun found => ?_
  cases found with
  | some t => exact Triple.pure t fun r hr => ⟨hr.1, hr.2 t rfl⟩
  | none => exact Triple.throw _ fun r hr => ⟨hr.1, rfl⟩

end Finding

end Load

/-! ## Filling in -/

/-- A class is being filled in: it was registered as the next type of the given registry, and since
then only loads took place and edits of its draft, which is not broken. -/
structure Source.Filling (source : Source) (r₀ : Registry) (recipe : Recipe) (r : Registry) :
    Prop where
  known : ∃ d, source.recipe? d = some recipe
  before : r₀.Sound
  loads : source.Loads r₀ r
  draft : ∃ d, r.shape r₀.next = .declared (.draft d) ∧
    d.descriptor = recipe.draft.descriptor ∧ d.loadError = none

namespace Source.Filling

variable {source : Source} {r₀ r : Registry} {recipe : Recipe}

lemma stable (source : Source) (r₀ : Registry) (recipe : Recipe) :
    Load.Stable source (source.Filling r₀ recipe) where
  sound h := h.loads.sound h.before
  keep h hl := by
    obtain ⟨d, hs, hd⟩ := h.draft
    refine ⟨h.known, h.before, h.loads.trans hl, d, ?_, hd⟩
    rw [hl.grows.shape_eq _ (Registry.issued_of_declared hs), hs]

/-- The class that is being filled in is new, so its edits are no changes of the registry before. -/
lemma loads_edit {change : Draft → Draft} {new : List Handle} {errors : List Error}
    (h : source.Filling r₀ recipe r) (hedits : Draft.Edits change new errors)
    (hnew : ∀ s ∈ new, r.Issued s) (herrors : ∀ e ∈ errors, e.isEndless = false)
    (hbuiltin : ∀ type, recipe = .builtin type → errors = []) :
    source.Loads r₀ (r.edit r₀.next change) := by
  have hne : ∀ {t}, r₀.Issued t → t ≠ r₀.next := by
    rintro t ht rfl
    exact Registry.not_issued_next r₀ ht
  refine ⟨⟨?_, fun t ht => ?_⟩, fun h₀ => ?_, ?_⟩
  · rw [Registry.size_edit]
    exact h.loads.grows.size_le
  · rw [Registry.shape_edit_of_ne (hne ht), h.loads.grows.shape_eq t ht]
  · exact (h.loads.sound h₀).edits hedits _ hnew herrors
  · intro t origin ht hs
    by_cases htn : t = r₀.next
    · subst htn
      obtain ⟨d, hd, hdescriptor, hwhole⟩ := h.draft
      obtain ⟨d₀, hknown⟩ := h.known
      rw [Registry.shape_edit_self, hd] at hs
      cases hs
      refine ⟨d₀, recipe, hknown, (hedits.descriptor d).trans hdescriptor, fun type htype => ?_⟩
      obtain rfl := hbuiltin type htype
      exact hedits.loadError_eq_none hwhole
    · rw [Registry.shape_edit_of_ne htn] at hs
      exact h.loads.described ht hs

lemma edit {change : Draft → Draft} {new : List Handle} (h : source.Filling r₀ recipe r)
    (hedits : Draft.Edits change new []) (hnew : ∀ s ∈ new, r.Issued s) :
    source.Filling r₀ recipe (r.edit r₀.next change) := by
  refine ⟨h.known, h.before, h.loads_edit hedits hnew (by simp) (by simp), ?_⟩
  obtain ⟨d, hd, hdescriptor, hwhole⟩ := h.draft
  refine ⟨change d, ?_, (hedits.descriptor d).trans hdescriptor, hedits.loadError_eq_none hwhole⟩
  rw [Registry.shape_edit_self, hd]
  rfl

end Source.Filling

/-- What a class is marked with when it could not be filled in. Built-in types are not marked. -/
def Recipe.failure (e : Error) : Recipe → Option Error
  | builtin _ => none
  | described _ => some e

/-- A class was registered as the next type of the given registry, but could not be filled in. -/
structure Source.FailedFilling (source : Source) (r₀ : Registry) (recipe : Recipe) (e : Error)
    (r : Registry) : Prop where
  loads : source.Loads r₀ r
  draft : ∃ d, r.shape r₀.next = .declared (.draft d) ∧
    d.descriptor = recipe.draft.descriptor ∧ d.loadError = recipe.failure e
  proper : e.isEndless = false

namespace Load

variable {source : Source} {r₀ : Registry} {recipe : Recipe}

/-- The load fills in a class, step by step; what it did before a failure stays. -/
def FillsIn (source : Source) (r₀ : Registry) (recipe : Recipe) (q : Load Unit) : Prop :=
  Triple (source.Filling r₀ recipe) q (fun _ => source.Filling r₀ recipe)
    fun e r => source.Filling r₀ recipe r ∧ e.isEndless = false

lemma FillsIn.bind {q : Load Unit} {f : Unit → Load Unit} (hq : FillsIn source r₀ recipe q)
    (hf : FillsIn source r₀ recipe (f ())) : FillsIn source r₀ recipe (q >>= f) :=
  Triple.bind hq fun _ => hf

lemma FillsIn.forM {α : Type} {f : α → Load Unit} (hf : ∀ a, FillsIn source r₀ recipe (f a))
    (l : List α) : FillsIn source r₀ recipe (l.forM f) := by
  induction l with
  | nil => exact Triple.pure () fun r hr => hr
  | cons a l ih => exact (hf a).bind ih

/-- The last step of filling something in: an edit that links the class to types found before. -/
lemma fillsIn_edit {change : Draft → Draft} {inv : Registry → Prop} (new : List Handle)
    (hedits : Draft.Edits change new []) (hinv : ∀ r, inv r → source.Filling r₀ recipe r)
    (hnew : ∀ r, inv r → ∀ s ∈ new, r.Issued s) :
    Triple inv (Load.edit r₀.next change) (fun _ => source.Filling r₀ recipe)
      fun e r => source.Filling r₀ recipe r ∧ e.isEndless = false :=
  Triple.edit fun r hr => (hinv r hr).edit hedits (hnew r hr)

section Recipes

variable {require : String → Load Handle} (hrequire : ∀ name, Gets source (require name))

include hrequire

lemma fillsIn_object : FillsIn source r₀ recipe (Builtin.fillObject require r₀.next) := by
  have hstable := Source.Filling.stable source r₀ recipe
  refine (hrequire _ _ hstable).bind (fun _ h => h) fun object => ?_
  refine (hrequire _ _ (hstable.and_issued object)).bind (fun _ h => h.1) fun string => ?_
  exact fillsIn_edit [] (Draft.edits_addMethods _) (fun r hr => hr.1.1) (by simp)

lemma fillsIn_string : FillsIn source r₀ recipe (Builtin.fillString require r₀.next) := by
  have hstable := Source.Filling.stable source r₀ recipe
  have hobject := fun t => hstable.and_issued t
  refine (hrequire _ _ hstable).bind (fun _ h => h) fun object => ?_
  refine (hrequire _ _ (hobject object)).bind (fun _ h => h.1) fun serializable => ?_
  refine (hrequire _ _ ((hobject object).and_issued serializable)).bind (fun _ h => h.1.1)
    fun string => ?_
  refine (hrequire _ _ (((hobject object).and_issued serializable).and_issued string)).bind
    (fun _ h => h.1.1.1) fun chars => ?_
  refine fillsIn_edit [object, serializable] (Draft.edits_linksAndMembers _ _ _ _ _)
    (fun r hr => hr.1.1.1.1) ?_
  intro r hr s hs
  obtain rfl | rfl : s = object ∨ s = serializable := by simpa using hs
  · exact hr.1.1.1.2
  · exact hr.1.1.2

lemma fillsIn_builtin (type : Builtin) :
    FillsIn source r₀ recipe (type.fill require r₀.next) := by
  cases type with
  | object => exact fillsIn_object hrequire
  | string => exact fillsIn_string hrequire
  | cloneable => exact Triple.pure () fun r hr => hr
  | serializable => exact Triple.pure () fun r hr => hr

lemma fillsIn_links (item : ClassPath.ClassItem) (d : String) :
    FillsIn source r₀ recipe (item.fillLinks require r₀.next d) := by
  have hstable := Source.Filling.stable source r₀ recipe
  -- each part is found first and then put into the draft
  have hoption : ∀ (name : Option String) (change : Option Handle → Draft → Draft),
      (∀ link, Draft.Edits (change link) link.toList []) →
      FillsIn source r₀ recipe (do Load.edit r₀.next (change (← name.mapM require))) := by
    intro name change hedits
    refine (Gets.mapM_option hrequire hstable name).bind (fun _ h => h) fun link => ?_
    exact fillsIn_edit link.toList (hedits link) (fun r hr => hr.1) fun r hr => hr.2
  have hlist : ∀ (names : List String) (add : Draft → Handle → Draft),
      (∀ t, Draft.Edits (add · t) [t] []) →
      FillsIn source r₀ recipe (do
        let ts ← names.mapM require
        Load.edit r₀.next fun draft => ts.foldl add draft) := by
    intro names add hedits
    refine (Gets.mapM hrequire hstable names).bind (fun _ h => h) fun ts => ?_
    exact fillsIn_edit ts (.foldl_links hedits ts) (fun r hr => hr.1) fun r hr => hr.2
  have h := (hoption (item.superclassName d) _ Draft.edits_setSuperclass).bind (f := fun _ => _) <|
    (hlist item.interfaces _ Draft.edits_addInterface).bind (f := fun _ => _) <|
    (hoption item.outer _ Draft.edits_setOuterClass).bind (f := fun _ => _) <|
    (hoption item.declaring _ Draft.edits_setDeclaringClass).bind (f := fun _ => _) <|
    hlist item.memberTypes _ Draft.edits_addMemberType
  simpa [ClassPath.ClassItem.fillLinks] using h

lemma fillsIn_constructor (item : ClassPath.ConstructorItem) :
    FillsIn source r₀ recipe (ClassPath.ClassItem.fillConstructor require r₀.next item) := by
  have hstable := Source.Filling.stable source r₀ recipe
  refine (Gets.mapM hrequire hstable _).bind (fun _ h => h) fun parameters => ?_
  refine Triple.conseq ?_ (fun r hr => hr.1) (fun _ _ h => h) (fun _ _ h => h)
  refine (Gets.mapM hrequire hstable _).bind (fun _ h => h) fun thrown => ?_
  exact fillsIn_edit [] (Draft.edits_addConstructor _) (fun r hr => hr.1) (by simp)

lemma fillsIn_method (item : ClassPath.MethodItem) :
    FillsIn source r₀ recipe (ClassPath.ClassItem.fillMethod require r₀.next item) := by
  have hstable := Source.Filling.stable source r₀ recipe
  refine (Gets.mapM hrequire hstable _).bind (fun _ h => h) fun parameters => ?_
  refine Triple.conseq ?_ (fun r hr => hr.1) (fun _ _ h => h) (fun _ _ h => h)
  refine (hrequire _ _ hstable).bind (fun _ h => h) fun result => ?_
  refine Triple.conseq ?_ (fun r hr => hr.1) (fun _ _ h => h) (fun _ _ h => h)
  refine (Gets.mapM hrequire hstable _).bind (fun _ h => h) fun thrown => ?_
  exact fillsIn_edit [] (Draft.edits_addMethod _) (fun r hr => hr.1) (by simp)

lemma fillsIn_field (item : ClassPath.FieldItem) :
    FillsIn source r₀ recipe (ClassPath.ClassItem.fillField require r₀.next item) := by
  refine (hrequire _ _ (Source.Filling.stable source r₀ recipe)).bind (fun _ h => h) fun type => ?_
  exact fillsIn_edit [] (Draft.edits_addField _) (fun r hr => hr.1) (by simp)

lemma fillsIn_synthetic (item : ClassPath.FieldItem) :
    FillsIn source r₀ recipe (ClassPath.ClassItem.fillSynthetic require r₀.next item) := by
  refine (hrequire _ _ (Source.Filling.stable source r₀ recipe)).bind (fun _ h => h) fun type => ?_
  refine Triple.get_bind fun r hr => ?_
  refine Triple.bind (?_ : Triple _ _ (fun r' _ => source.Filling r₀ recipe r') _)
    fun r' _ hr' => hr'
  refine Triple.ofExcept ?_ ?_
  · rintro r' _ hdefine rfl
    rcases Registry.defineSynthetic_eq_ok hdefine with rfl | ⟨fields, rfl⟩
    · exact hr.1
    · exact hr.1.edit (Draft.edits_syntheticFields fields) (by simp)
  · rintro e _ hdefine rfl
    exact ⟨hr.1, Registry.defineSynthetic_eq_error hdefine⟩

lemma fillsIn_described (item : ClassPath.ClassItem) (d : String) :
    FillsIn source r₀ recipe (item.fill require r₀.next d) :=
  (fillsIn_links hrequire item d).bind <|
    (FillsIn.forM (fillsIn_constructor hrequire) _).bind <|
    (FillsIn.forM (fillsIn_method hrequire) _).bind <|
    (FillsIn.forM (fillsIn_field hrequire) _).bind <|
    FillsIn.forM (fillsIn_synthetic hrequire) _

end Recipes

/-- A recipe fills in its class, or it fails and the class is marked broken. -/
lemma recipe_fill_triple {load : String → Load (Option Handle)}
    (hload : ∀ d, Finds source (load d)) (d : String) :
    Triple (source.Filling r₀ recipe) (recipe.fill load r₀.next d)
      (fun _ => source.Filling r₀ recipe) (source.FailedFilling r₀ recipe) := by
  cases recipe with
  | builtin type =>
    exact (fillsIn_builtin (gets_require hload none) type).conseq (fun _ h => h) (fun _ _ h => h)
      fun _ _ h => ⟨h.1.loads, h.1.draft, h.2⟩
  | described item =>
    refine Triple.tryCatch (fillsIn_described (gets_require hload item.span) item d) fun e => ?_
    refine Triple.bind
      (?_ : Triple _ _ (fun _ => source.FailedFilling r₀ (.described item) e) _) ?_
    · refine Triple.edit fun r hr => ?_
      have hloads := hr.1.loads_edit (Draft.edits_fail e) (by simp) (by simpa using hr.2) (by simp)
      obtain ⟨draft, hs, hdescriptor, hwhole⟩ := hr.1.draft
      refine ⟨hloads, ⟨draft.fail e, ?_, hdescriptor, ?_⟩, hr.2⟩
      · rw [Registry.shape_edit_self, hs]
        rfl
      · simp [Draft.fail, hwhole, Recipe.failure]
    · exact fun _ => Triple.throw e fun r hr => hr

end Load

/-! ## Loading -/

namespace Source

open Load

variable {source : Source} {r r' : Registry} {t : Handle}

/-- The draft of a recipe has no links yet, and is not broken. -/
lemma draft_blank (recipe : Recipe) : recipe.draft.links = [] ∧ recipe.draft.loadError = none := by
  cases recipe with
  | builtin type => cases type <;> exact ⟨rfl, rfl⟩
  | described item =>
    simp only [Recipe.draft, ClassPath.ClassItem.draft]
    split <;> exact ⟨rfl, rfl⟩

/-- A class that was just registered is being filled in. -/
lemma filling_withClass {recipe : Recipe} {d : String} (hr : r.Sound)
    (hrecipe : source.recipe? d = some recipe)
    (hdefine : r.define (.draft recipe.draft) = .ok (t, r')) :
    t = r.next ∧ source.Filling r recipe r' := by
  obtain ⟨hclass, hnew, rfl, rfl⟩ := Registry.define_eq_ok_iff.1 hdefine
  obtain ⟨hlinks, hwhole⟩ := draft_blank recipe
  have hnext := Registry.shape_withClass_next r (.draft recipe.draft)
  refine ⟨rfl, ⟨d, hrecipe⟩, hr, ⟨r.grows_withClass _, fun _ => ?_, ?_⟩,
    recipe.draft, hnext, rfl, hwhole⟩
  · exact hr.withClass hclass hnew (by simp [Origin.links, hlinks])
      (by simp [Origin.failures, hwhole])
  · intro s origin hs hshape
    have hissued := Registry.issued_of_declared hshape
    rcases (Registry.issued_iff_of_size (Registry.size_withClass r _)).1 hissued with hs' | rfl
    · exact absurd hs' hs
    · rw [hnext] at hshape
      cases hshape
      exact ⟨d, recipe, hrecipe, rfl, fun _ _ => hwhole⟩

lemma define_eq_error {origin : Origin} {e : Error} (h : r.define origin = .error e) :
    (∃ d span, e = .duplicateType d span) ∨ ∃ d, e = .invalidDescriptor d := by
  rw [Registry.define_eq] at h
  split at h
  · split at h
    · cases h
      exact Or.inl ⟨_, _, rfl⟩
    · cases h
  · cases h
    exact Or.inr ⟨_, rfl⟩

/-- A class that is fresh and new is registered and then filled in. -/
lemma loadFrom_of_define {fresh : List String} {d : String} {recipe : Recipe} (hfresh : d ∈ fresh)
    (hrecipe : source.recipe? d = some recipe)
    (hdefine : r.define (.draft recipe.draft) = .ok (t, r')) :
    (source.loadFrom fresh d).result r =
      (recipe.fill (source.loadFrom (fresh.erase d)) t d >>= fun _ => pure (some t)).result r' := by
  rw [loadFrom, hrecipe]
  dsimp only
  rw [result_bind_ok (show (get : Load Registry).result r = (.ok r, r) from rfl), dif_pos hfresh,
    hdefine]
  rfl

/-- What loading one class comes to: nothing happens and a registered class is given, or the class
is registered and filled in, or the load fails. -/
lemma loadFrom_result {fresh : List String} {d : String}
    (hnested : d ∈ fresh → ∀ d', Finds source (source.loadFrom (fresh.erase d) d'))
    (hr : r.Sound) :
    match (source.loadFrom fresh d).result r with
    | (.ok found, r') =>
      (r' = r ∧ (found = none ∨ found = r.lookup d)) ∨
        ∃ recipe, source.recipe? d = some recipe ∧ found = some r.next ∧
          source.Filling r recipe r'
    | (.error e, r') => source.Loads r r' ∧ e.isEndless = false := by
  cases hrecipe : source.recipe? d with
  | none =>
    rw [loadFrom, hrecipe]
    exact Or.inl ⟨rfl, Or.inl rfl⟩
  | some recipe =>
    by_cases hfresh : d ∈ fresh
    · rcases hdefine : r.define (.draft recipe.draft) with e | ⟨t, r₁⟩
      · rw [loadFrom, hrecipe]
        dsimp only
        rw [result_bind_ok (show (get : Load Registry).result r = (.ok r, r) from rfl),
          dif_pos hfresh, hdefine]
        rcases define_eq_error hdefine with ⟨d', span, rfl⟩ | ⟨d', rfl⟩
        · exact Or.inl ⟨rfl, Or.inr rfl⟩
        · exact ⟨Loads.refl source r, rfl⟩
      · obtain ⟨rfl, hfilling⟩ := filling_withClass hr hrecipe hdefine
        rw [loadFrom_of_define hfresh hrecipe hdefine]
        have hfill := recipe_fill_triple (hnested hfresh) d r₁ hfilling
        rcases hres : (recipe.fill (source.loadFrom (fresh.erase d)) r.next d).result r₁ with
          ⟨e | u, r₂⟩ <;> rw [hres] at hfill
        · rw [result_bind_error hres]
          exact ⟨hfill.loads, hfill.proper⟩
        · rw [result_bind_ok hres]
          exact Or.inr ⟨recipe, rfl, rfl, hfill⟩
    · rw [loadFrom, hrecipe]
      dsimp only
      rw [result_bind_ok (show (get : Load Registry).result r = (.ok r, r) from rfl),
        dif_neg hfresh]
      exact Or.inl ⟨rfl, Or.inr rfl⟩

/-- Loading a class from a source does to the registry what loads may do. -/
theorem finds_loadFrom (source : Source) (fresh : List String) (d : String) :
    Finds source (source.loadFrom fresh d) := by
  -- the recursion is on the classes that are not being filled in
  induction hn : fresh.length using Nat.strongRecOn generalizing fresh d with
  | ind n ih =>
    intro inv hinv r hr
    have hsound := hinv.sound hr
    have hnested : d ∈ fresh → ∀ d', Finds source (source.loadFrom (fresh.erase d) d') := by
      intro hd d'
      have hpos := List.length_pos_of_mem hd
      exact ih (fresh.erase d).length (by rw [List.length_erase_of_mem hd]; omega) _ d' rfl
    have h := loadFrom_result hnested hsound
    rcases hres : (source.loadFrom fresh d).result r with ⟨e | found, r'⟩ <;> rw [hres] at h
    · exact ⟨hinv.keep hr h.1, h.2⟩
    · rcases h with ⟨rfl, hfound⟩ | ⟨recipe, -, rfl, hfilling⟩
      · refine ⟨hr, fun t ht => ?_⟩
        subst ht
        rcases hfound with hfound | hfound
        · cases hfound
        · exact (hsound.lookup_iff.1 hfound.symm).1
      · refine ⟨hinv.keep hr hfilling.loads, fun t ht => ?_⟩
        cases ht
        obtain ⟨draft, hdraft, -⟩ := hfilling.draft
        exact Registry.issued_of_declared hdraft

/-- The source as a whole loads classes so. -/
theorem finds_load (source : Source) (d : String) : Finds source (source.load d) :=
  finds_loadFrom source source.known d

end Source

/-- To install the built-in types is to ask for each of them. -/
lemma Builtins.install_triple {source : Source} {inv : Registry → Prop}
    {fails : Error → Registry → Prop}
    (h : ∀ name, Load.Triple inv (source.require none name) (fun _ => inv) fails) :
    Load.Triple inv (Builtins.install source) (fun _ => inv) fails :=
  (h _).bind fun _ => (h _).bind fun _ => (h _).bind fun _ => (h _).bind fun _ =>
    Load.Triple.pure _ fun _ hr => hr

end TypeGraph
