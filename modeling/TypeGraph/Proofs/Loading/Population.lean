import TypeGraph.Proofs.Loading.Failure

/-!
# The classes that a class path brings into a registry

A class of a class path is registered under its name as it is written, a built-in class that the
class path leaves out under its own descriptor, and there are no other classes. The links of a class
that is described may be any. Those of a built-in class that is left out are known: a string has the
root class and one interface above it, and the others have nothing. The class that arrays extend is
the root class, too. A registry is populated by the class path when all of this holds, and it does
so at every moment of a load, also in the middle of a class that is being filled in.
-/

namespace TypeGraph

/-- The built-in types right above a built-in type. -/
def Builtin.above : Builtin → List Builtin
  | string => [object, serializable]
  | _ => []

namespace ClassPath

variable {path : ClassPath} {r r' : Registry} {t : Handle} {d : String} {type : Builtin}
  {item : ClassItem} {change : Draft → Draft}

/-! ## Registered descriptors -/

/-- The descriptor under which the class for a descriptor is registered. -/
def registeredAs (path : ClassPath) (d : String) : String :=
  match path.find? d with
  | some item => Descriptor.ofRawName item.name
  | none => d

lemma registeredAs_of_some (h : path.find? d = some item) :
    path.registeredAs d = Descriptor.ofRawName item.name := by
  rw [registeredAs, h]

lemma registeredAs_of_none (h : path.find? d = none) : path.registeredAs d = d := by
  rw [registeredAs, h]

lemma registeredAs_of_recipe {recipe : Recipe}
    (h : (Source.classPath path).recipe? d = some recipe) :
    recipe.draft.descriptor = path.registeredAs d := by
  rcases Source.descriptor_of_recipe h with ⟨item, hfind, hraw⟩ | ⟨hnone, hd⟩
  · rw [hraw, registeredAs_of_some hfind]
  · rw [hd, registeredAs_of_none hnone]

/-- A registered descriptor is either no key, or the key of the class that is registered. -/
lemma Keyed.registeredAs_idem (hpath : path.Keyed) (d : String) :
    path.registeredAs (path.registeredAs d) = path.registeredAs d := by
  cases hfind : path.find? d with
  | none => rw [registeredAs_of_none hfind, registeredAs_of_none hfind]
  | some item =>
    have hraw := registeredAs_of_some hfind
    cases hagain : path.find? (path.registeredAs d) with
    | none => exact registeredAs_of_none hagain
    | some other =>
      have htrimmed : item.Trimmed := hpath.trimmed_of_ofRawName_eq hagain hraw.symm
      rw [(hpath.ofRawName_eq_iff hfind).2 htrimmed] at hraw
      rw [hraw, hraw]

/-- A class that is described is not registered as a built-in one that is left out. -/
lemma Keyed.registeredAs_ne_builtin (hpath : path.Keyed) (hfind : path.find? d = some item)
    (htype : path.find? type.descriptor = none) : path.registeredAs d ≠ type.descriptor := by
  intro heq
  rw [registeredAs_of_some hfind] at heq
  have hname : type.descriptor = Descriptor.ofRawName type.name := by cases type <;> decide
  have hblank : (Descriptor.swap '.' '/' type.name.toList).all (!Text.isBlank ·) = true := by
    cases type <;> decide
  have htrimmed : item.Trimmed := by
    refine Text.trim_of_none (Descriptor.not_isBlank_of_swap ?_)
    rw [Descriptor.swap_eq_of_ofRawName_eq (heq.trans hname)]
    simpa only [List.all_eq_true, Bool.not_eq_true'] using hblank
  rw [(hpath.ofRawName_eq_iff hfind).2 htrimmed] at heq
  rw [heq, htype] at hfind
  cases hfind

/-! ## Populated registries -/

/-- The type is the one that is registered for a descriptor. -/
def Registers (path : ClassPath) (r : Registry) (d : String) (t : Handle) : Prop :=
  r.Issued t ∧ r.descriptor t = path.registeredAs d

lemma Registers.keep (h : path.Registers r d t) (hextends : r.Extends r') :
    path.Registers r' d t :=
  ⟨hextends.issued h.1, (hextends.descriptor_eq h.1).trans h.2⟩

lemma registers_withClass {recipe : Recipe}
    (hrecipe : (Source.classPath path).recipe? d = some recipe) :
    path.Registers (r.withClass (.draft recipe.draft)) d r.next := by
  have hshape := r.shape_withClass_next (.draft recipe.draft)
  exact ⟨Registry.issued_of_declared hshape,
    (Registry.descriptor_of_declared hshape).trans (registeredAs_of_recipe hrecipe)⟩

/-- The type is issued. If the name is that of a class, it is the class registered for it. -/
def Denotes (path : ClassPath) (r : Registry) (name : String) (t : Handle) : Prop :=
  r.Issued t ∧ ∀ d, Descriptor.ofClassName name = .ok d → Descriptor.component? d = none →
    path.Registers r d t

lemma Denotes.keep {name : String} (h : path.Denotes r name t) (hextends : r.Extends r') :
    path.Denotes r' name t :=
  ⟨hextends.issued h.1, fun d hd hcomponent => (h.2 d hd hcomponent).keep hextends⟩

lemma Denotes.builtin (h : path.Denotes r type.name t) : path.Registers r type.descriptor t :=
  h.2 _ type.ofClassName_name type.component?_descriptor

/-- The type may be found in a registry that was loaded from the class path. -/
structure Fits (path : ClassPath) (r : Registry) (t : Handle) : Prop where
  known : ∀ {origin}, r.shape t = .declared origin → ∃ draft d recipe, origin = .draft draft ∧
    (Source.classPath path).recipe? d = some recipe ∧ draft.descriptor = path.registeredAs d
  root : ∀ {c root}, r.shape t = .array c root → path.Registers r Descriptor.object root
  above : ∀ {draft} {type : Builtin}, r.shape t = .declared (.draft draft) →
    draft.descriptor = type.descriptor → path.find? type.descriptor = none →
    ∀ s ∈ draft.links, ∃ b ∈ type.above, path.Registers r b.descriptor s

lemma Fits.keep (h : path.Fits r t) (hshape : r'.shape t = r.shape t) (hextends : r.Extends r') :
    path.Fits r' t where
  known hs := h.known (hshape ▸ hs)
  root hs := (h.root (hshape ▸ hs)).keep hextends
  above hs htype hnone s hlink := by
    obtain ⟨b, hb, hregisters⟩ := h.above (hshape ▸ hs) htype hnone s hlink
    exact ⟨b, hb, hregisters.keep hextends⟩

/-- All types of the registry fit to the class path. -/
structure Populates (path : ClassPath) (r : Registry) : Prop where
  canonical : r.Canonical
  fits : ∀ t, path.Fits r t

lemma populates_initial (path : ClassPath) : path.Populates .initial where
  canonical := Registry.canonical_initial
  fits _ := {
    known := fun hs => absurd hs Registry.shape_initial_ne_declared
    root := fun hs => absurd hs Registry.shape_initial_ne_array
    above := fun hs => absurd hs Registry.shape_initial_ne_declared }

namespace Populates

variable (h : path.Populates r)
include h

/-- It is enough to look at the one type that is new or was changed. -/
lemma extend (hextends : r.Extends r') (hr' : r'.Canonical)
    (hshape : ∀ s, s ≠ t → r'.shape s = r.shape s) (hfits : path.Fits r' t) :
    path.Populates r' := by
  refine ⟨hr', fun s => ?_⟩
  by_cases hs : s = t
  · exact hs ▸ hfits
  · exact (h.fits s).keep (hshape s hs) hextends

/-- A type is registered for its own descriptor. -/
lemma registers_descriptor (hpath : path.Keyed) (ht : r.Issued t) :
    path.Registers r (r.descriptor t) t := by
  refine ⟨ht, ?_⟩
  cases hfind : path.find? (r.descriptor t) with
  | none => exact (registeredAs_of_none hfind).symm
  | some item =>
    obtain ⟨origin, hs⟩ := h.canonical.exists_declared (hpath.isClass hfind)
    obtain ⟨draft, d, recipe, rfl, -, hd⟩ := (h.fits t).known hs
    have hdescriptor : r.descriptor t = path.registeredAs d :=
      (Registry.descriptor_of_declared hs).trans hd
    rw [hdescriptor, hpath.registeredAs_idem]

lemma withClass {recipe : Recipe} (hrecipe : (Source.classPath path).recipe? d = some recipe)
    (hclass : Descriptor.IsClass recipe.draft.descriptor)
    (hnew : r.lookup recipe.draft.descriptor = none) :
    path.Populates (r.withClass (.draft recipe.draft)) := by
  have hnext := r.shape_withClass_next (.draft recipe.draft)
  have hgrows := r.grows_withClass (.draft recipe.draft)
  refine h.extend hgrows.toExtends (h.canonical.withClass hclass hnew) (t := r.next)
    (fun s hs => hgrows.shape_eq_of_ne_next (Registry.size_withClass r _) hs)
    ⟨fun hs => ?_, fun hs => ?_, fun hs _ _ s hlink => ?_⟩
  · rw [hnext] at hs
    cases hs
    exact ⟨recipe.draft, d, recipe, rfl, hrecipe, registeredAs_of_recipe hrecipe⟩
  · rw [hnext] at hs
    cases hs
  · rw [hnext] at hs
    cases hs
    rw [(Source.draft_blank recipe).1] at hlink
    cases hlink

lemma arrayOf {c root : Handle} (hc : r.Issued c)
    (hroot : path.Registers r Descriptor.object root) :
    path.Populates (r.arrayOf c root).2 := by
  cases hnone : r.arrayType? c with
  | some a =>
    rw [Registry.arrayOf_of_some hnone]
    exact h
  | none =>
    have hcanonical := (h.canonical.arrayOf hc root).1
    rw [Registry.arrayOf_of_none hnone] at hcanonical ⊢
    have hnext := r.shape_withArray_next c root
    have hgrows := r.grows_withArray c root
    refine h.extend hgrows.toExtends hcanonical (t := r.next)
      (fun s hs => hgrows.shape_eq_of_ne_next (Registry.size_withArray r c root) hs)
      ⟨fun hs => ?_, fun hs => ?_, fun hs => ?_⟩
    · rw [hnext] at hs
      cases hs
    · rw [hnext] at hs
      cases hs
      exact hroot.keep hgrows.toExtends
    · rw [hnext] at hs
      cases hs

lemma edit (hd : ∀ d, (change d).descriptor = d.descriptor)
    (hk : ∀ d, (change d).isInterface = d.isInterface)
    (habove : ∀ {draft} {type : Builtin}, r.shape t = .declared (.draft draft) →
      draft.descriptor = type.descriptor → path.find? type.descriptor = none →
      ∀ s ∈ (change draft).links, ∃ b ∈ type.above, path.Registers r b.descriptor s) :
    path.Populates (r.edit t change) := by
  have hextends : r.Extends (r.edit t change) := Registry.extends_edit t hd hk
  have hdraft : ∀ {origin}, (r.edit t change).shape t = .declared origin →
      ∃ draft, r.shape t = .declared (.draft draft) ∧ origin = .draft (change draft) := by
    intro origin hs
    rw [Registry.shape_edit_self] at hs
    cases hshape : r.shape t with
    | primitive p => simp [hshape, Shape.edit] at hs
    | array c root => simp [hshape, Shape.edit] at hs
    | declared old =>
      obtain ⟨draft, -, -, rfl, -⟩ := (h.fits t).known hshape
      rw [hshape] at hs
      cases hs
      exact ⟨draft, rfl, rfl⟩
  refine h.extend hextends (h.canonical.edit t hd hk)
    (fun s hs => Registry.shape_edit_of_ne hs) (t := t) ⟨fun hs => ?_, fun hs => ?_, ?_⟩
  · obtain ⟨draft, hshape, rfl⟩ := hdraft hs
    obtain ⟨_, d, recipe, ⟨⟩, hrecipe, hregistered⟩ := (h.fits t).known hshape
    exact ⟨change draft, d, recipe, rfl, hrecipe, (hd draft).trans hregistered⟩
  · exact ((h.fits t).root ((Registry.shape_edit_eq_iff (by simp)).1 hs)).keep hextends
  · intro _ type hs htype hnone s hlink
    obtain ⟨draft, hshape, ⟨⟩⟩ := hdraft hs
    obtain ⟨b, hb, hregisters⟩ := habove hshape ((hd draft).symm.trans htype) hnone s hlink
    exact ⟨b, hb, hregisters.keep hextends⟩

end Populates

end ClassPath

/-! ## Loads -/

namespace Load

open ClassPath

variable {α β : Type} {path : ClassPath} {inv : Registry → Prop} {t : Handle} {d : String}

/-- A property of populated registries that is kept as long as they stay populated. -/
structure Persists (path : ClassPath) (inv : Registry → Prop) : Prop where
  populates : ∀ {r}, inv r → path.Populates r
  keep : ∀ {r r'}, inv r → r.Extends r' → path.Populates r' → inv r'

/-- What is kept while registries grow may be added to such a property. -/
lemma Persists.and (h : Persists path inv) {extra : Registry → Prop}
    (hextra : ∀ {r r'}, extra r → r.Extends r' → extra r') :
    Persists path fun r => inv r ∧ extra r :=
  ⟨fun hr => h.populates hr.1,
    fun hr hextends hr' => ⟨h.keep hr.1 hextends hr', hextra hr.2 hextends⟩⟩

/-- The load keeps the registry populated, and what it gives has a property. -/
def Populating (path : ClassPath) (q : Load α) (post : α → Registry → Prop) : Prop :=
  ∀ inv, Persists path inv → Triple inv q (fun a r => inv r ∧ post a r) fun _ => inv

lemma Populating.bind {inv' : Registry → Prop} {q : Load α} {f : α → Load β}
    {mid : α → Registry → Prop} {post : β → Registry → Prop} (hq : Populating path q mid)
    (hinv' : Persists path inv') (hinv : ∀ r, inv' r → inv r)
    (hf : ∀ a, Triple (fun r => inv' r ∧ mid a r) (f a) post fun _ => inv) :
    Triple inv' (q >>= f) post fun _ => inv :=
  Triple.bind ((hq inv' hinv').conseq (fun _ h => h) (fun _ _ h => h) fun _ r h => hinv r h) hf

/-- What is found for a descriptor is issued. If it is no array, it is the type that is registered
for the descriptor. -/
def FoundFor (path : ClassPath) (d : String) (found : Option Handle) (r : Registry) : Prop :=
  ∀ t, found = some t →
    r.Issued t ∧ (Descriptor.component? d = none → path.Registers r d t)

lemma keeps_result (result : Except Error α) :
    Triple inv (Load.ofExcept result) (fun _ => inv) fun _ => inv :=
  Triple.ofExcept (fun _ _ _ hr => hr) fun _ _ _ hr => hr

section Finding

variable (hpath : path.Keyed)
include hpath

lemma foundFor_lookup {r : Registry} (hr : path.Populates r) (d : String) :
    FoundFor path d (r.lookup d) r := by
  intro t ht
  obtain ⟨hissued, rfl⟩ := hr.canonical.lookup_iff.1 ht
  exact ⟨hissued, fun _ => hr.registers_descriptor hpath hissued⟩

lemma populating_registered (d : String) :
    Populating path (registered d) (FoundFor path d) := by
  intro inv hinv
  refine Triple.get_bind fun r hr => ?_
  have hfound := foundFor_lookup hpath (hinv.populates hr) d
  cases hlookup : r.lookup d with
  | none => exact Triple.pure none fun r' h => ⟨h ▸ hr, by simp [FoundFor]⟩
  | some t =>
    dsimp only
    cases r.loadError t with
    | some e => exact Triple.throw e fun r' h => h ▸ hr
    | none => exact Triple.pure (some t) fun r' h => h ▸ ⟨hr, hlookup ▸ hfound⟩

variable {load : String → Load (Option Handle)}
  (hload : ∀ d, Populating path (load d) (FoundFor path d))
include hload

lemma populating_resolveClass (d : String) :
    Populating path (resolveClass load d) (FoundFor path d) := by
  intro inv hinv
  refine Triple.bind (keeps_result _) fun _ => ?_
  refine (populating_registered hpath _ inv hinv).bind fun found => ?_
  cases found with
  | some t => exact Triple.pure (some t) fun r hr => hr
  | none => exact (hload d inv hinv).conseq (fun r hr => hr.1) (fun _ _ h => h) fun _ _ h => h

lemma populating_rootClass :
    Populating path (rootClass load) fun t r => path.Registers r Descriptor.object t := by
  intro inv hinv
  refine (populating_resolveClass hpath hload Descriptor.object inv hinv).bind fun found => ?_
  cases found with
  | some t => exact Triple.pure t fun r hr => ⟨hr.1, (hr.2 t rfl).2 (by decide)⟩
  | none => exact Triple.throw _ fun r hr => hr.1

lemma populating_resolve (d : String) : Populating path (resolve load d) (FoundFor path d) := by
  intro inv hinv
  induction d using resolve.induct generalizing inv with
  | case1 d ih =>
    rw [resolve]
    refine Triple.bind (keeps_result _) fun _ => ?_
    refine (populating_registered hpath d inv hinv).bind fun found => ?_
    cases found with
    | some t => exact Triple.pure (some t) fun r hr => hr
    | none =>
      refine Triple.conseq (?_ : Triple inv _ _ _) (fun r hr => hr.1) (fun _ _ h => h)
        fun _ _ h => h
      dsimp only
      split
      next => exact hload d inv hinv
      next component hcomponent =>
        refine (ih component hcomponent inv hinv).bind fun found => ?_
        cases found with
        | none => exact Triple.pure none fun r hr => ⟨hr.1, by simp [FoundFor]⟩
        | some c =>
          have hissued : Persists path fun r => inv r ∧ r.Issued c :=
            hinv.and fun hc hextends => hextends.issued hc
          refine Triple.conseq (?_ : Triple (fun r => inv r ∧ r.Issued c) _ _ _)
            (fun r hr => ⟨hr.1, (hr.2 c rfl).1⟩) (fun _ _ h => h) fun _ _ h => h
          refine (populating_rootClass hpath hload).bind hissued (fun _ h => h.1) fun root => ?_
          refine Triple.bind (?_ : Triple _ _ (fun a r => inv r ∧ r.Issued a) _) fun a => ?_
          · refine Triple.arrayOf fun r hr => ?_
            have hr₀ := hinv.populates hr.1.1
            obtain ⟨-, root', hshape⟩ := hr₀.canonical.arrayOf hr.1.2 root
            exact ⟨hinv.keep hr.1.1 (r.grows_arrayOf c root).toExtends (hr₀.arrayOf hr.1.2 hr.2),
              Registry.issued_of_array hshape⟩
          · refine Triple.pure (some a) fun r hr => ⟨hr.1, ?_⟩
            rintro _ ⟨⟩
            exact ⟨hr.2, fun hnone => by simp [hcomponent] at hnone⟩

lemma populating_require (span : Option Span) (name : String) :
    Populating path (require load span name) fun t r => path.Denotes r name t := by
  intro inv hinv
  refine Triple.bind (?_ : Triple inv (resolveName load name)
    (fun found r => inv r ∧ ∀ t, found = some t → path.Denotes r name t) _) fun found => ?_
  · intro r hr
    cases hname : Descriptor.ofClassName name with
    | error e =>
      rw [resolveName, hname]
      exact hr
    | ok d =>
      rw [resolveName, hname, result_bind_ok (result_ofExcept _ r)]
      refine (populating_resolve hpath hload d inv hinv).conseq (fun _ h => h)
        (fun found r h => ⟨h.1, fun t ht => ⟨(h.2 t ht).1, ?_⟩⟩) (fun _ _ h => h) r hr
      rintro d' hd' hcomponent
      obtain rfl := Except.ok.inj (hname.symm.trans hd')
      exact (h.2 t ht).2 hcomponent
  · cases found with
    | some t => exact Triple.pure t fun r hr => ⟨hr.1, hr.2 t rfl⟩
    | none => exact Triple.throw _ fun r hr => hr.1

end Finding

/-! ## Filling in -/

section Filling

variable {require : String → Load Handle} (hinv : Persists path inv)

/-- The new links of a built-in class have to be known. Those of other classes may be any. -/
lemma Persists.edits (hinv : Persists path inv) {change : Draft → Draft} {new : List Handle}
    {errors : List Error} (hedits : Draft.Edits change new errors) {r : Registry} (hr : inv r)
    (hnew : ∀ {type : Builtin}, r.descriptor t = type.descriptor →
      path.find? type.descriptor = none →
      ∀ s ∈ new, ∃ b ∈ type.above, path.Registers r b.descriptor s) : inv (r.edit t change) := by
  have hr₀ := hinv.populates hr
  refine hinv.keep hr (Registry.extends_edits hedits t)
    (hr₀.edit hedits.descriptor hedits.isInterface fun {draft type} hs hd hnone s hlink => ?_)
  rcases hedits.links draft s hlink with hlink | hlink
  · exact (hr₀.fits t).above hs hd hnone s hlink
  · exact hnew ((Registry.descriptor_of_declared hs).trans hd) hnone s hlink

variable (hrequire : ∀ name, Populating path (require name) fun t r => path.Denotes r name t)
include hinv hrequire

lemma populates_object : Triple inv (Builtin.fillObject require t) (fun _ => inv) fun _ => inv := by
  refine (hrequire _).bind hinv (fun _ h => h) fun object => ?_
  have hobject : Persists path fun r => inv r ∧ path.Denotes r Builtin.object.name object :=
    hinv.and .keep
  refine (hrequire _).bind hobject (fun _ h => h.1) fun string => Triple.edit fun r hr => ?_
  exact hinv.edits (Draft.edits_addMethods _) hr.1.1 (by simp)

lemma populates_string (ht : ∀ r, inv r → r.descriptor t = Builtin.string.descriptor) :
    Triple inv (Builtin.fillString require t) (fun _ => inv) fun _ => inv := by
  -- what was found stays what it is while the rest is looked for
  have hnamed : ∀ {inv : Registry → Prop}, Persists path inv → ∀ name u,
      Persists path fun r => inv r ∧ path.Denotes r name u := fun h name u => h.and .keep
  refine (hrequire _).bind hinv (fun _ h => h) fun object => ?_
  have hobject := hnamed hinv Builtin.object.name object
  refine (hrequire _).bind hobject (fun _ h => h.1) fun serializable => ?_
  have hserializable := hnamed hobject Builtin.serializable.name serializable
  refine (hrequire _).bind hserializable (fun _ h => h.1.1) fun string => ?_
  refine (hrequire _).bind (hnamed hserializable Builtin.string.name string)
    (fun _ h => h.1.1.1) fun chars => Triple.edit fun r hr => ?_
  obtain ⟨⟨⟨⟨hr, hobject⟩, hserializable⟩, -⟩, -⟩ := hr
  refine hinv.edits (Draft.edits_linksAndMembers _ _ _ _ _) hr fun {type} hd _ s hs => ?_
  obtain rfl : type = .string := by
    rw [ht r hr] at hd
    revert hd
    cases type <;> decide
  obtain rfl | rfl : s = object ∨ s = serializable := by simpa using hs
  · exact ⟨.object, by decide, hobject.builtin⟩
  · exact ⟨.serializable, by decide, hserializable.builtin⟩

lemma populates_builtin {type : Builtin} (ht : ∀ r, inv r → r.descriptor t = type.descriptor) :
    Triple inv (type.fill require t) (fun _ => inv) fun _ => inv := by
  cases type with
  | object => exact populates_object hinv hrequire
  | string => exact populates_string hinv hrequire ht
  | cloneable => exact Triple.pure () fun _ hr => hr
  | serializable => exact Triple.pure () fun _ hr => hr

end Filling

/-- A class that is described may be given any links. -/
lemma Persists.edit_described (hpath : path.Keyed) (hinv : Persists path inv) {item : ClassItem}
    (hfind : path.find? d = some item) (ht : ∀ r, inv r → path.Registers r d t) {r : Registry}
    {change : Draft → Draft} (hr : inv r) (hd : ∀ d, (change d).descriptor = d.descriptor)
    (hk : ∀ d, (change d).isInterface = d.isInterface) : inv (r.edit t change) := by
  refine hinv.keep hr (Registry.extends_edit t hd hk) ((hinv.populates hr).edit hd hk ?_)
  intro draft type hs htype hnone
  have hregistered := (ht r hr).2
  rw [Registry.descriptor_of_declared hs] at hregistered
  exact absurd (hregistered.symm.trans htype) (hpath.registeredAs_ne_builtin hfind hnone)

lemma populates_fill (hpath : path.Keyed) {load : String → Load (Option Handle)}
    (hload : ∀ d, Populating path (load d) (FoundFor path d)) {recipe : Recipe}
    (hrecipe : (Source.classPath path).recipe? d = some recipe) (hinv : Persists path inv)
    (ht : ∀ r, inv r → path.Registers r d t) :
    Triple inv (recipe.fill load t d) (fun _ => inv) fun _ => inv := by
  have hrequire := fun span name => populating_require hpath hload span name
  cases recipe with
  | builtin type =>
    refine populates_builtin hinv (hrequire none) fun r hr => ?_
    rw [(ht r hr).2, ← registeredAs_of_recipe hrecipe]
    cases type <;> decide
  | described item =>
    have hfind := Source.find?_of_described hrecipe
    have hedit : ∀ {r change}, inv r → (∀ d, (change d).descriptor = d.descriptor) →
        (∀ d, (change d).isInterface = d.isInterface) → inv (r.edit t change) :=
      fun hr hd hk => hinv.edit_described hpath hfind ht hr hd hk
    have hkeeps : ∀ name, AlikeOnly inv (require load item.span name)
        (require load item.span name) := fun name =>
      Agree.of_triple ((hrequire item.span name inv hinv).conseq (fun _ h => h) (fun _ _ h => h.1)
        fun _ _ h => h)
    refine Triple.tryCatch (alike_fillItem hedit hkeeps item d).triple fun e => ?_
    exact (alike_edit hedit (Draft.edits_fail e)).triple.bind fun _ => Triple.throw e fun _ h => h

end Load

/-! ## Class paths as sources -/

namespace Source

open Load ClassPath

variable {path : ClassPath}

/-- A load from a class path keeps the registry populated, whether it succeeds or fails. -/
theorem populating_loadFrom (hpath : path.Keyed) (fresh : List String) (d : String) :
    Populating path ((classPath path).loadFrom fresh d) (FoundFor path d) := by
  -- the recursion is on the classes that are not being filled in
  induction hn : fresh.length using Nat.strongRecOn generalizing fresh d with
  | ind n ih =>
    intro inv hinv
    rw [loadFrom]
    cases hrecipe : (classPath path).recipe? d with
    | none => exact Triple.pure none fun r hr => ⟨hr, by simp [FoundFor]⟩
    | some recipe =>
      refine Triple.get_bind fun r hr => ?_
      have hr₀ := hinv.populates hr
      have hlookup : Triple (· = r) (pure (r.lookup d) : Load (Option Handle))
          (fun found r => inv r ∧ FoundFor path d found r) fun _ => inv := by
        refine Triple.pure _ ?_
        rintro _ rfl
        exact ⟨hr, foundFor_lookup hpath hr₀ d⟩
      by_cases hfresh : d ∈ fresh
      · rw [dif_pos hfresh]
        rcases hdefine : r.define (.draft recipe.draft) with e | ⟨t, r'⟩
        · cases e with
          | duplicateType _ _ => exact hlookup
          | _ => exact Triple.throw _ fun _ h => h ▸ hr
        · obtain ⟨hclass, hnew, rfl, rfl⟩ := Registry.define_eq_ok_iff.1 hdefine
          have hnested : ∀ d', Populating path ((classPath path).loadFrom (fresh.erase d) d')
              (FoundFor path d') := by
            have hpos := List.length_pos_of_mem hfresh
            exact fun d' => ih (fresh.erase d).length
              (by rw [List.length_erase_of_mem hfresh]; omega) _ d' rfl
          -- while the class is filled in, it is registered for the descriptor
          have hfilling : Persists path fun r₁ => inv r₁ ∧ path.Registers r₁ d r.next :=
            hinv.and .keep
          have hregistered : Triple (· = r)
              (set (r.withClass (.draft recipe.draft)) : Load PUnit)
              (fun _ r₁ => inv r₁ ∧ path.Registers r₁ d r.next) fun _ => inv := fun _ _ =>
            ⟨hinv.keep hr (r.grows_withClass _).toExtends (hr₀.withClass hrecipe hclass hnew),
              registers_withClass hrecipe⟩
          refine hregistered.bind fun _ => ?_
          have hfill := populates_fill hpath hnested hrecipe hfilling fun _ h => h.2
          refine Triple.bind (hfill.conseq (fun _ h => h) (fun _ _ h => h) fun _ _ h => h.1)
            fun _ => Triple.pure (some r.next) fun r₁ h => ⟨h.1, ?_⟩
          rintro _ ⟨⟩
          exact ⟨h.2.1, fun _ => h.2⟩
      · rw [dif_neg hfresh]
        exact hlookup

lemma populating_require (hpath : path.Keyed) (span : Option Span) (name : String) :
    Populating path ((classPath path).require span name) fun t r => path.Denotes r name t :=
  Load.populating_require hpath (populating_loadFrom hpath _) span name

end Source

end TypeGraph
