import TypeGraph.Proofs.ClassPath.Keys
import TypeGraph.Proofs.Loading.Source

/-!
# Finding types again

A type that was found under a descriptor should be found under it again, as the same type and
without further loading. With a class path this is so for all descriptors but those of a class whose
name is written with blanks around it, and of arrays of such a class. The class path knows it by
its name without the blanks, and registers it under its name with them, so it is never found again.
-/

namespace TypeGraph

lemma Descriptor.ofArray_of_component {d c : String} (h : component? d = some c) :
    ofArray c = d := by
  unfold component? at h
  split at h
  next rest hd =>
    cases h
    apply String.toList_injective
    simp [hd]
  next => cases h

/-- The descriptor without the brackets of its dimensions. -/
def Descriptor.elementOf (d : String) : String := String.ofList (Descriptor.element d.toList)

namespace Source

variable {source : Source} {path : ClassPath} {r r' : Registry} {t : Handle} {d : String}
  {item : ClassPath.ClassItem}

/-- The registries that are reached by finding types in a source. -/
inductive Reached (source : Source) : Registry → Prop
  | start : Reached source .initial
  | resolve {r : Registry} (h : Reached source r) (d : String) :
      Reached source ((source.resolve d).result r).2
  | require {r : Registry} (h : Reached source r) (span : Option Span) (name : String) :
      Reached source ((source.require span name).result r).2

lemma Reached.loads (h : source.Reached r) : source.Loads .initial r := by
  induction h with
  | start => exact Loads.refl source _
  | resolve _ d ih =>
    exact ih.trans
      ((Load.finds_resolve source.finds_load d).loads (ih.sound Registry.sound_initial))
  | require _ span name ih =>
    exact ih.trans
      ((Load.gets_require source.finds_load span name).loads (ih.sound Registry.sound_initial))

/-! ## Registered descriptors -/

/-- The descriptor under which a class is registered. -/
lemma descriptor_of_recipe {recipe : Recipe}
    (h : (Source.classPath path).recipe? d = some recipe) :
    (∃ item, path.find? d = some item ∧
      recipe.draft.descriptor = Descriptor.ofRawName item.name) ∨
    path.find? d = none ∧ recipe.draft.descriptor = d := by
  cases hfind : path.find? d with
  | some item =>
    simp only [recipe?, hfind] at h
    cases h
    refine Or.inl ⟨item, rfl, ?_⟩
    simp only [Recipe.draft, ClassPath.ClassItem.draft]
    split <;> rfl
  | none =>
    simp only [recipe?, hfind] at h
    obtain ⟨type, htype, rfl⟩ := Option.map_eq_some_iff.1 h
    have hdescriptor : type.descriptor = d := by simpa using List.find?_some htype
    refine Or.inr ⟨rfl, ?_⟩
    rw [← hdescriptor]
    cases type <;> decide

lemma elementOf_of_component {c : String} (h : Descriptor.component? d = some c) :
    Descriptor.elementOf d = Descriptor.elementOf c := by
  unfold Descriptor.component? at h
  split at h
  next rest hd =>
    cases h
    simp [Descriptor.elementOf, Descriptor.element, hd]
  next => cases h

lemma elementOf_eq_self (h : Descriptor.component? d = none) : Descriptor.elementOf d = d := by
  apply String.toList_injective
  simp only [Descriptor.elementOf, Descriptor.element, String.toList_ofList]
  cases hd : d.toList with
  | nil => rfl
  | cons c rest =>
    have hc : c ≠ '[' := by
      rintro rfl
      simp [Descriptor.component?, hd] at h
    simp [hc]

/-- A class of the class path that is registered under its key, or that arrays are registered of
under it, has a name without blanks around it. -/
lemma trimmed_of_registered (hpath : path.Keyed) (hloads : (Source.classPath path).Loads .initial r)
    (ht : r.Issued t) (hfind : path.find? (Descriptor.elementOf (r.descriptor t)) = some item) :
    item.Trimmed := by
  have hr := hloads.sound Registry.sound_initial
  -- on the nesting of arrays
  induction hn : t.index using Nat.strongRecOn generalizing t with
  | ind n ih =>
    cases hs : r.shape t with
    | primitive p =>
      -- a key has at least two characters
      obtain ⟨-, hkey⟩ := hpath.key_eq hfind
      rw [Registry.descriptor_of_primitive hs,
        elementOf_eq_self (by simpa [Descriptor.isArray] using Descriptor.isArray_descriptor p)]
        at hkey
      have hlength := congrArg (fun d => d.toList.length) hkey
      simp [Primitive.descriptor] at hlength
    | array c root =>
      rw [hr.descriptor_of_array hs,
        elementOf_of_component (Descriptor.component?_ofArray _)] at hfind
      exact ih c.index (hn ▸ (hr.array_issued hs).1) (hr.issued_component hs) hfind rfl
    | declared origin =>
      have hclass := hr.isClass hs
      have helement : Descriptor.elementOf origin.declaration.descriptor =
          origin.declaration.descriptor :=
        elementOf_eq_self (by simpa [Descriptor.isArray] using hclass.2.2)
      rw [Registry.descriptor_of_declared hs, helement] at hfind
      have hnew : ¬ Registry.initial.Issued t := by
        intro hissued
        rw [hloads.grows.shape_eq t hissued] at hs
        exact Registry.shape_initial_ne_declared hs
      obtain ⟨d', recipe, hrecipe, hdescriptor, -⟩ := hloads.described hnew hs
      rw [hdescriptor] at hfind
      rcases descriptor_of_recipe hrecipe with ⟨item', hfind', hraw⟩ | ⟨hnone, hbuiltin⟩
      · rw [hraw] at hfind
        have htrimmed := hpath.trimmed_of_ofRawName_eq hfind rfl
        -- so the class stands under its own key, which is the given one
        rw [(hpath.ofRawName_eq_iff hfind').2 htrimmed, hfind'] at hfind
        exact Option.some.inj hfind ▸ htrimmed
      · rw [hbuiltin, hnone] at hfind
        cases hfind

end Source

/-! ## Types that are found -/

/-- The type is not broken and has the given descriptor. -/
structure Registry.Whole (r : Registry) (d : String) (t : Handle) : Prop where
  issued : r.Issued t
  descriptor : r.descriptor t = d
  loadError : r.loadError t = none

namespace Registry.Whole

variable {r r' : Registry} {d : String} {t : Handle}

lemma lookup_eq (h : r.Whole d t) (hr : r.Sound) : r.lookup d = some t :=
  hr.lookup_iff.2 ⟨h.issued, h.descriptor⟩

lemma grows (h : r.Whole d t) (hgrows : r.Grows r') : r'.Whole d t where
  issued := hgrows.issued h.issued
  descriptor := (hgrows.toExtends.descriptor_eq h.issued).trans h.descriptor
  loadError := (hgrows.loadError_eq h.issued).trans h.loadError

end Registry.Whole

/-- A class that is being filled in is not broken. -/
lemma Source.Filling.whole {source : Source} {r₀ r : Registry} {recipe : Recipe}
    (h : source.Filling r₀ recipe r) : r.Whole recipe.draft.descriptor r₀.next := by
  obtain ⟨draft, hs, hdescriptor, hwhole⟩ := h.draft
  exact ⟨Registry.issued_of_declared hs, (Registry.descriptor_of_declared hs).trans hdescriptor,
    (Registry.loadError_of_declared hs).trans hwhole⟩

namespace Source

open Load

variable {source : Source} {r r' : Registry} {t : Handle} {d : String}

/-- The source registers the class with the given descriptor under it, if it knows the class. -/
def Honest (source : Source) (d : String) : Prop :=
  ∀ recipe, source.recipe? d = some recipe → recipe.draft.descriptor = d

/-- What was found is whole and has the given descriptor. -/
def Found (d : String) (found : Option Handle) (r : Registry) : Prop :=
  r.Sound ∧ ∀ t, found = some t → r.Whole d t

lemma registered_triple (d : String) :
    Triple Registry.Sound (registered d)
      (fun found r => Found d found r ∧ (found = none → r.lookup d = none)) fun _ _ => True := by
  refine Triple.get_bind fun r hr => ?_
  cases hlookup : r.lookup d with
  | none =>
    refine Triple.pure none ?_
    rintro r' rfl
    exact ⟨⟨hr, by simp⟩, fun _ => hlookup⟩
  | some t =>
    dsimp only
    cases herror : r.loadError t with
    | some e => exact Triple.throw e fun _ _ => trivial
    | none =>
      refine Triple.pure (some t) ?_
      rintro r' rfl
      obtain ⟨hissued, hdescriptor⟩ := hr.lookup_iff.1 hlookup
      exact ⟨⟨hr, by rintro _ ⟨⟩; exact ⟨hissued, hdescriptor, herror⟩⟩, by simp⟩

lemma load_triple (hsource : source.Honest d) :
    Triple (fun r => r.Sound ∧ r.lookup d = none) (source.load d) (Found d) fun _ _ => True := by
  rintro r ⟨hr, hlookup⟩
  have hnested : d ∈ source.known →
      ∀ d', Finds source (source.loadFrom (source.known.erase d) d') :=
    fun _ => source.finds_loadFrom _
  have h := loadFrom_result hnested hr
  rw [load]
  rcases hres : (source.loadFrom source.known d).result r with ⟨e | found, r'⟩ <;> rw [hres] at h
  · trivial
  · rcases h with ⟨rfl, hfound⟩ | ⟨recipe, hrecipe, rfl, hfilling⟩
    · have hnone : found = none := by simpa [hlookup] using hfound
      exact ⟨hr, by simp [hnone]⟩
    · refine ⟨hfilling.loads.sound hr, ?_⟩
      rintro _ ⟨⟩
      exact hsource recipe hrecipe ▸ hfilling.whole

lemma whole_arrayOf {c : String} {component root : Handle} (hd : Descriptor.component? d = some c)
    (hr : r.Sound) (hissued : r.Issued component) (hc : r.descriptor component = c)
    (hroot : r.Issued root) :
    (r.arrayOf component root).2.Whole d (r.arrayOf component root).1 := by
  obtain ⟨hsound, root', hs⟩ := hr.arrayOf hissued hroot
  refine ⟨Registry.issued_of_array hs, ?_, ?_⟩
  · have hbelow := (r.grows_arrayOf component root).toExtends.descriptor_eq hissued
    rw [hsound.descriptor_of_array hs, hbelow, hc, Descriptor.ofArray_of_component hd]
  · simp [Registry.loadError, Registry.declaration?, hs]

/-- A type is found under its own descriptor, if the class at its bottom is. -/
lemma resolve_triple (hsource : source.Honest (Descriptor.elementOf d)) :
    Triple Registry.Sound (source.resolve d) (Found d) fun _ _ => True := by
  unfold Source.resolve
  induction d using Load.resolve.induct with
  | case1 d ih =>
    rw [Load.resolve]
    refine Triple.bind (?_ : Triple _ _ (fun _ => Registry.Sound) _) fun _ => ?_
    · exact Triple.ofExcept (fun _ _ _ h => h) fun _ _ _ _ => trivial
    refine (registered_triple d).bind fun found => ?_
    cases found with
    | some t => exact Triple.pure (some t) fun r hr => hr.1
    | none =>
      dsimp only
      split
      next hcomponent =>
        rw [elementOf_eq_self hcomponent] at hsource
        exact (load_triple hsource).conseq (fun r hr => ⟨hr.1.1, hr.2 rfl⟩) (fun _ _ h => h)
          (fun _ _ h => h)
      next c hcomponent =>
        rw [elementOf_of_component hcomponent] at hsource
        refine Triple.conseq ?_ (fun r hr => hr.1.1) (fun _ _ h => h) (fun _ _ h => h)
        refine (ih c hcomponent hsource).bind fun found => ?_
        cases found with
        | none => exact Triple.pure none fun r hr => ⟨hr.1, by simp⟩
        | some component =>
          have hstable : Stable source fun r => r.Sound ∧ r.Whole c component :=
            ⟨fun h => h.1, fun h hl => ⟨hl.sound h.1, h.2.grows hl.grows⟩⟩
          have hroot := (gets_rootClass source.finds_load _ hstable).conseq
            (fun r (hr : Found c (some component) r) => ⟨hr.1, hr.2 component rfl⟩)
            (fun _ _ h => h) (fun _ _ _ => trivial)
          refine hroot.bind fun root => Triple.bind (Triple.arrayOf fun r hr => ?_)
            fun array => Triple.pure (some array) fun r hr => hr
          refine ⟨(hr.1.1.arrayOf hr.1.2.issued hr.2).1, ?_⟩
          rintro _ ⟨⟩
          exact whole_arrayOf hcomponent hr.1.1 hr.1.2.issued hr.1.2.descriptor hr.2

lemma valid_of_resolve {found : Option Handle} (h : (source.resolve d).result r = (.ok found, r')) :
    Descriptor.validate d = .ok () := by
  rw [Source.resolve, Load.resolve] at h
  cases hvalid : Descriptor.validate d with
  | ok => rfl
  | error e =>
    rw [hvalid, result_bind_error (result_ofExcept _ r)] at h
    cases h

/-- A whole type is found again, and nothing is loaded for it. -/
lemma resolve_of_whole (hr : r.Sound) (h : r.Whole d t) (hvalid : Descriptor.validate d = .ok ()) :
    (source.resolve d).result r = (.ok (some t), r) := by
  have hregistered : (registered d).result r = (.ok (some t), r) := by
    rw [registered, result_bind_ok (show (get : Load Registry).result r = (.ok r, r) from rfl),
      h.lookup_eq hr]
    simp only [h.loadError]
    rfl
  rw [Source.resolve, Load.resolve, hvalid, result_bind_ok (result_ofExcept _ r),
    result_bind_ok hregistered]
  rfl

/-- A class path is honest about the classes whose names have no blanks around them. -/
lemma honest_of_trimmed {path : ClassPath} (hpath : path.Keyed)
    (h : ∀ item, path.find? d = some item → item.Trimmed) : (Source.classPath path).Honest d := by
  intro recipe hrecipe
  rcases descriptor_of_recipe hrecipe with ⟨item, hfind, hraw⟩ | ⟨-, hbuiltin⟩
  · rw [hraw]
    exact (hpath.ofRawName_eq_iff hfind).2 (h item hfind)
  · exact hbuiltin

/-- **Finding types again.** Let a type be found under a descriptor, after any number of types were
found in the same class path. Then it has this descriptor, it is registered under it and found under
it again without any further load, if and only if the class path does not describe the class at the
bottom of the descriptor by a name with blanks around it. -/
theorem resolve_again_iff_trimmed {items : List ClassPath.ClassItem} {path : ClassPath}
    {r r' : Registry} {d : String} {t : Handle} (hpath : ClassPath.ofItems items = .ok path)
    (hr : (Source.classPath path).Reached r)
    (hresolve : ((Source.classPath path).resolve d).result r = (.ok (some t), r')) :
    (r'.descriptor t = d ∧ r'.lookup d = some t ∧
      ((Source.classPath path).resolve d).result r' = (.ok (some t), r')) ↔
    ∀ item, path.find? (Descriptor.elementOf d) = some item → item.Trimmed := by
  have hkeyed := ClassPath.keyed_ofItems hpath
  have hloads : (Source.classPath path).Loads .initial r' := by
    have hafter := (Reached.resolve hr d).loads
    rwa [hresolve] at hafter
  have hsound := hr.loads.sound Registry.sound_initial
  constructor
  · rintro ⟨hdescriptor, hlookup, -⟩ item hfind
    have hissued := ((hloads.sound Registry.sound_initial).lookup_iff.1 hlookup).1
    exact trimmed_of_registered hkeyed hloads hissued (hdescriptor.symm ▸ hfind)
  · intro htrimmed
    obtain ⟨hsound', hfound⟩ :=
      (resolve_triple (honest_of_trimmed hkeyed htrimmed)).post_of_ok hsound hresolve
    have hwhole := hfound t rfl
    exact ⟨hwhole.descriptor, hwhole.lookup_eq hsound',
      resolve_of_whole hsound' hwhole (valid_of_resolve hresolve)⟩

/-- Two classes, one of them with blanks around its name. -/
def blankItems : List ClassPath.ClassItem := [{ name := " p.A " }, { name := "p.B" }]

/-- The class path of the two classes. -/
def blankPath : ClassPath := ⟨["Lp/A;", "Lp/B;"].zip blankItems⟩

/-- The registry after the class with blanks around its name was found. -/
def blankRegistry : Registry := (((Source.classPath blankPath).resolve "Lp/A;").result .initial).2

/-- Arrays of the other class are found again, also after the first class was found. -/
theorem resolve_again_iff_trimmed_array :
    (blankRegistry.lookup "[Lp/B;" = none) ∧
    ∃ t r', ((Source.classPath blankPath).resolve "[Lp/B;").result blankRegistry =
        (.ok (some t), r') ∧
      r'.descriptor t = "[Lp/B;" ∧ r'.lookup "[Lp/B;" = some t ∧
      ((Source.classPath blankPath).resolve "[Lp/B;").result r' = (.ok (some t), r') := by
  have hpath : ClassPath.ofItems blankItems = .ok blankPath := by decide +kernel
  have hfound : (((Source.classPath blankPath).resolve "[Lp/B;").result blankRegistry).1 =
      .ok (some ⟨15⟩) := by decide +kernel
  have hagain := resolve_again_iff_trimmed hpath (Reached.resolve .start "Lp/A;")
    (Prod.ext hfound rfl)
  refine ⟨by decide +kernel, ⟨15⟩, _, Prod.ext hfound rfl, hagain.2 ?_⟩
  intro item hitem
  have hplain : item = { name := "p.B" } := by
    have hkey : blankPath.find? (Descriptor.elementOf "[Lp/B;") = some { name := "p.B" } := by
      decide +kernel
    exact Option.some.inj (hitem.symm.trans hkey)
  subst hplain
  decide +kernel

/-- The class with blanks around its name is registered under another descriptor than the one it was
found under, and it is not found a second time. -/
theorem resolve_blank_name :
    ClassPath.ofItems blankItems = .ok blankPath ∧
    (((Source.classPath blankPath).resolve "Lp/A;").result .initial).1 = .ok (some ⟨9⟩) ∧
    blankRegistry.descriptor ⟨9⟩ = "L p/A ;" ∧
    blankRegistry.lookup "Lp/A;" = none ∧
    (((Source.classPath blankPath).resolve "Lp/A;").result blankRegistry).1 = .ok none := by
  decide +kernel

end Source

end TypeGraph
