import TypeGraph.Proofs.Loading.Outcome

/-!
# The order of requests

Whether a request for a class succeeds may depend on the requests that were made before. A class is
registered before the classes that it refers to are loaded, so these may refer back to it while it
is being filled in. They are complete then. When the class fails afterwards, it is marked broken,
but they are not: they are found by every later request, while a first request for one of them would
load the broken class again and fail.

This is the only way in which the order matters. What succeeds in a fresh registry succeeds in every
other one. What succeeds after other requests succeeds in a fresh registry if and only if it does
not reach a class that these requests left broken.
-/

namespace TypeGraph

open Relation

/-- The class is registered, and it is marked broken. -/
def Registry.Broken (r : Registry) (d : String) : Prop :=
  ∃ t e, r.lookup d = some t ∧ r.loadError t = some e

/-- The element type of an issued type is issued, and it is no array. -/
lemma Registry.Sound.exists_element {r : Registry} {t : Handle} (hr : r.Sound) (ht : r.Issued t) :
    ∃ s, r.Issued s ∧ r.descriptor s = Descriptor.elementOf (r.descriptor t) ∧
      ((∃ p, r.shape s = .primitive p) ∨ ∃ origin, r.shape s = .declared origin) := by
  -- on the nesting of arrays
  induction hn : t.index using Nat.strongRecOn generalizing t with
  | ind n ih =>
    cases hs : r.shape t with
    | primitive p =>
      refine ⟨t, ht, ?_, Or.inl ⟨p, hs⟩⟩
      rw [Registry.descriptor_of_primitive hs, Source.elementOf_eq_self]
      simpa [Descriptor.isArray] using Descriptor.isArray_descriptor p
    | array c root =>
      rw [hr.descriptor_of_array hs,
        Source.elementOf_of_component (Descriptor.component?_ofArray _)]
      exact ih c.index (hn ▸ (hr.array_issued hs).1) (hr.issued_component hs) rfl
    | declared origin =>
      refine ⟨t, ht, ?_, Or.inr ⟨origin, hs⟩⟩
      rw [Registry.descriptor_of_declared hs, Source.elementOf_eq_self]
      simpa [Descriptor.isArray] using (hr.isClass hs).2.2

namespace Source

open Load

variable {source : Source} {path : ClassPath} {items : List ClassPath.ClassItem}
  {item : ClassPath.ClassItem} {r r' : Registry} {t : Handle} {d d' name : String}
  {span : Option Span}

/-- The request gives a type. -/
def Succeeds (source : Source) (span : Option Span) (name : String) (r : Registry) : Prop :=
  ∃ t r', (source.require span name).result r = (.ok t, r')

lemma succeeds_of_loadable (hsource : source.Orderly) (h : source.Tidy r)
    (hname : source.LoadableName name) (span : Option Span) : source.Succeeds span name r := by
  have hrequire := require_delivers hsource span name r (.of_tidy h) trivial
  rcases hres : (source.require span name).result r with ⟨e | t, r'⟩ <;> rw [hres] at hrequire
  · exact absurd hname hrequire.2
  · exact ⟨t, r', hres⟩

/-- Broken classes are not loadable, nor is what reaches them. -/
lemma not_broken_of_loadable (h : source.Tidy r) (hd : source.Loadable d)
    (hpath : ReflTransGen source.Refers d d') : ¬ r.Broken d' := by
  rintro ⟨t, e, hlookup, hbroken⟩
  have hnot := (Ready.of_tidy h).fair hbroken
  rw [(h.sound.lookup_iff.1 hlookup).2] at hnot
  exact hnot fun d'' hpath' => hd d'' (hpath.trans hpath')

/-! ## What a request that succeeds tells -/

/-- The type is primitive or built in, or it is a class that is filled in. -/
def Standing (source : Source) (r : Registry) (d : String) : Prop :=
  Descriptor.isPrimitive d = true ∨ (∃ type : Builtin, d = type.descriptor) ∨
    ∃ t, r.lookup d = some t ∧ source.Complete r t

section Standing

variable (hsource : source.Orderly)
  (hbuiltin : ∀ type : Builtin, source.recipe? type.descriptor = some (.builtin type))

include hbuiltin in
lemma proper_of_standing (h : source.Standing r d) (hr : r.Sound) : source.Proper d := by
  rcases h with hprimitive | ⟨type, rfl⟩ | ⟨t, hlookup, recipe, draft, hrecipe, -, hfulfilled⟩
  · exact Or.inl hprimitive
  · refine Or.inr ⟨_, hbuiltin type, fun name hname => ?_, by simp⟩
    obtain ⟨c, hc, -⟩ := Builtin.ofClassName_of_references hname
    exact ⟨c, hc⟩
  · rw [(hr.lookup_iff.1 hlookup).2] at hrecipe hfulfilled
    exact Or.inr ⟨recipe, hrecipe, hfulfilled.sensible⟩

/-- Classes that a request added are complete, and so are those before it that are not broken. -/
lemma standing_of_issued (h : source.Tidy r) (hadds : source.Adds source.Complete r r')
    (ht : r'.Issued t)
    (hshape : (∃ p, r'.shape t = .primitive p) ∨ ∃ origin, r'.shape t = .declared origin)
    (hunbroken : ¬ r.Broken (r'.descriptor t)) : source.Standing r' (r'.descriptor t) := by
  rcases hshape with ⟨p, hs⟩ | ⟨origin, hs⟩
  · rw [Registry.descriptor_of_primitive hs]
    exact Or.inl (Descriptor.isPrimitive_descriptor p)
  have htidy := h.adds hadds.settled
  rcases htidy.settled hs with hcomplete | ⟨recipe, hrecipe, -, hmark⟩
  · exact Or.inr (Or.inr ⟨t, htidy.sound.canonical.lookup_descriptor ht, hcomplete⟩)
  cases recipe with
  | builtin type => exact Or.inr (Or.inl ⟨type, (descriptor_of_builtin hrecipe).symm⟩)
  | described item =>
    -- it is broken, so the request did not add it
    exfalso
    obtain ⟨e, he⟩ := Option.ne_none_iff_exists'.1 (hmark item rfl)
    by_cases hold : r.Issued t
    · refine hunbroken ⟨t, e, ?_, (hadds.loads.grows.loadError_eq hold).symm.trans he⟩
      rw [hadds.loads.grows.toExtends.descriptor_eq hold]
      exact h.sound.canonical.lookup_descriptor hold
    · rw [(hadds.new hold hs).loadError] at he
      cases he

include hsource hbuiltin in
/-- What a standing type refers to is standing, unless it was broken before. -/
lemma standing_refers (h : source.Tidy r) (hadds : source.Adds source.Complete r r')
    (hd : source.Standing r' d) (hrefers : source.Refers d d') (hunbroken : ¬ r.Broken d') :
    source.Standing r' d' := by
  have hsound := hadds.loads.sound h.sound
  cases hrefers with
  | root => exact Or.inr (Or.inl ⟨.object, rfl⟩)
  | element hrecipe hname hc =>
    rcases hd with hprimitive | ⟨type, rfl⟩ | ⟨t, hlookup, recipe, draft, hrecipe', -, hfulfilled⟩
    · rw [(hsource.isClass hrecipe).2.1] at hprimitive
      cases hprimitive
    · obtain rfl := Option.some.inj ((hbuiltin type).symm.trans hrecipe)
      obtain ⟨c, hc', hcase⟩ := Builtin.ofClassName_of_references hname
      obtain rfl := Except.ok.inj (hc'.symm.trans hc)
      exact hcase.imp id Or.inl
    · rw [(hsound.lookup_iff.1 hlookup).2] at hrecipe' hfulfilled
      obtain rfl := Option.some.inj (hrecipe'.symm.trans hrecipe)
      -- the type that is named is issued, and so is its element type
      obtain ⟨s, hs⟩ := hfulfilled.names hname
      obtain rfl := Except.ok.inj (hs.ofClassName_eq.symm.trans hc)
      obtain ⟨u, hu, hdescriptor, hshape⟩ := hsound.exists_element hs.issued
      rw [← hdescriptor] at hunbroken ⊢
      exact standing_of_issued h hadds hu hshape hunbroken

include hsource hbuiltin in
/-- A request for a class succeeds. If nothing that is reached from the class was broken before,
then all of it is proper. -/
lemma loadable_of_require (h : source.Tidy r) (hname : Descriptor.ofClassName name = .ok d)
    (hclass : Descriptor.isArray d = false)
    (hsucceeds : source.Succeeds span name r)
    (hunbroken : ∀ d', ReflTransGen source.Refers d d' → ¬ r.Broken d') : source.Loadable d := by
  obtain ⟨t, r', hres⟩ := hsucceeds
  have hrequire := require_delivers hsource span name r (.of_tidy h) trivial
  rw [hres] at hrequire
  obtain ⟨hadds, c, hc, hwhole⟩ := hrequire
  obtain rfl := Except.ok.inj (hname.symm.trans hc)
  have hsound := hadds.loads.sound h.sound
  have hstanding : ∀ d', ReflTransGen source.Refers d d' → source.Standing r' d' := by
    intro d' hpath
    induction hpath with
    | refl =>
      obtain ⟨s, hs, hdescriptor, hshape⟩ := hsound.exists_element hwhole.issued
      rw [hwhole.descriptor, elementOf_eq_self (by simpa [Descriptor.isArray] using hclass)]
        at hdescriptor
      have hstart := standing_of_issued h hadds hs hshape (hdescriptor ▸ hunbroken d .refl)
      rwa [hdescriptor] at hstart
    | tail hpath hstep ih =>
      exact standing_refers hsource hbuiltin h hadds ih hstep (hunbroken _ (hpath.tail hstep))
  exact fun d' hpath => proper_of_standing hbuiltin (hstanding d' hpath) hsound

end Standing

/-- **The order of requests.** A request for a class that succeeds in a fresh registry succeeds
after any other requests. One that succeeds after other requests succeeds in a fresh registry if and
only if it reaches no class that these requests left broken. -/
theorem succeeds_after_requests (hpath : ClassPath.ofItems items = .ok path)
    (htrimmed : ∀ item ∈ items, item.Trimmed)
    (hbuiltin : ∀ item ∈ items, ∀ type : Builtin,
      Descriptor.ofClassName item.name ≠ .ok type.descriptor)
    (hitem : item ∈ items) (hd : Descriptor.ofClassName item.name = .ok d) (span : Option Span)
    (earlier : List (Option Span × String)) :
    ((classPath path).Succeeds span item.name .initial →
      (classPath path).Succeeds span item.name ((classPath path).after earlier .initial)) ∧
    ((classPath path).Succeeds span item.name ((classPath path).after earlier .initial) →
      ((classPath path).Succeeds span item.name .initial ↔
        ∀ d', ReflTransGen (classPath path).Refers d d' →
          ¬ ((classPath path).after earlier .initial).Broken d')) := by
  have hsource := orderly_classPath hpath htrimmed
  have hrecipe : ∀ type : Builtin,
      (classPath path).recipe? type.descriptor = some (.builtin type) := by
    intro type
    rw [recipe?_builtin, Option.eq_none_iff_forall_not_mem]
    intro item hfind
    obtain ⟨hmem, hname⟩ := ClassPath.mem_of_find?_ofItems hpath hfind
    exact hbuiltin item hmem type hname
  have hclass : Descriptor.isArray d = false := by
    obtain ⟨d', hd', hfind⟩ := ClassPath.find?_of_mem hpath hitem
    obtain rfl := Except.ok.inj (hd.symm.trans hd')
    exact ((ClassPath.keyed_ofItems hpath).isClass hfind).2.2
  have hcomponent : Descriptor.component? d = none := by simpa [Descriptor.isArray] using hclass
  have hinitial := tidy_initial (classPath path)
  have hafter := hinitial.after hsource earlier
  have hloadable : (classPath path).Loadable d → ∀ {r}, (classPath path).Tidy r →
      (classPath path).Succeeds span item.name r :=
    fun h _ hr => succeeds_of_loadable hsource hr ⟨d, hd, (loadableAt_of_class hcomponent).2 h⟩ span
  -- nothing is broken in a fresh registry
  have hfresh (h : (classPath path).Succeeds span item.name .initial) :
      (classPath path).Loadable d := by
    refine loadable_of_require hsource hrecipe hinitial hd hclass h ?_
    rintro d' - ⟨t, e, -, hbroken⟩
    obtain ⟨origin, hs, -⟩ := Registry.declared_of_loadError hbroken
    exact Registry.shape_initial_ne_declared hs
  refine ⟨fun h => hloadable (hfresh h) hafter,
    fun h => ⟨fun hfirst d' hreach => ?_, fun hnone => ?_⟩⟩
  · exact not_broken_of_loadable hafter (hfresh hfirst) hreach
  · exact hloadable (loadable_of_require hsource hrecipe hafter hd hclass h hnone) hinitial

/-- A class that refers to a subclass of it, and then to a missing class. -/
def halfBroken : List ClassPath.ClassItem :=
  [{ name := "p.A"
     methods := [{ name := "f", parameters := ["p.B"] },
       { name := "g", parameters := ["p.Missing"] }] },
   { name := "p.B", superclass := some "p.A" }]

/-- The class path of these descriptions. -/
def halfBrokenPath : ClassPath := ⟨["Lp/A;", "Lp/B;"].zip halfBroken⟩

/-- The subclass is found after its superclass was refused, so it reaches a broken class. -/
theorem succeeds_after_requests_subclass :
    ∃ d', ReflTransGen (classPath halfBrokenPath).Refers "Lp/B;" d' ∧
      ((classPath halfBrokenPath).after [(none, "p.A")] .initial).Broken d' := by
  have hpath : ClassPath.ofItems halfBroken = .ok halfBrokenPath := by decide +kernel
  have hsubclass : { name := "p.B", superclass := some "p.A" } ∈ halfBroken := by decide +kernel
  have hafter : (((classPath halfBrokenPath).require none "p.B").result
      ((classPath halfBrokenPath).after [(none, "p.A")] .initial)).1 = .ok ⟨14⟩ := by decide +kernel
  have hfresh : (((classPath halfBrokenPath).require none "p.B").result .initial).1 =
      .error (.unknownType "p.Missing" none) := by decide +kernel
  have hbuiltin : ∀ item ∈ halfBroken, ∀ type : Builtin,
      Descriptor.ofClassName item.name ≠ .ok type.descriptor := by
    intro item hitem type
    revert item
    cases type <;> decide +kernel
  have hname : Descriptor.ofClassName "p.B" = .ok "Lp/B;" := by decide +kernel
  have horder := (succeeds_after_requests hpath (by decide +kernel) hbuiltin hsubclass hname none
    [(none, "p.A")]).2 ⟨_, _, Prod.ext hafter rfl⟩
  by_contra hnone
  obtain ⟨t, r', hres⟩ := horder.2 fun d' hreach hbroken => hnone ⟨d', hreach, hbroken⟩
  rw [hres] at hfresh
  cases hfresh

/-- The subclass is refused in a fresh registry, but not after its superclass was refused. -/
theorem require_after_superclass :
    ClassPath.ofItems halfBroken = .ok halfBrokenPath ∧
    (((classPath halfBrokenPath).require none "p.B").result .initial).1 =
      .error (.unknownType "p.Missing" none) ∧
    (((classPath halfBrokenPath).require none "p.A").result .initial).1 =
      .error (.unknownType "p.Missing" none) ∧
    (((classPath halfBrokenPath).require none "p.B").result
      ((classPath halfBrokenPath).after [(none, "p.A")] .initial)).1 = .ok ⟨14⟩ := by
  decide +kernel

end Source

end TypeGraph
