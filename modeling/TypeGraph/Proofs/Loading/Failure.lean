import TypeGraph.Proofs.Loading.Faithful
import TypeGraph.Proofs.Loading.Unrolled

/-!
# Loads that fail

A class that could not be loaded stays registered. One that a class path describes is marked with
the error, so whoever asks for it again is given that error. A built-in class is not marked. When it
could not be filled in, because the class path describes a class that it refers to and that one is
broken, it is found the next time as if nothing had happened. This file shows that there is no third
case: a request for a class that failed fails again with the same error, unless the class is a
built-in one that the class path does not describe.
-/

namespace TypeGraph

lemma Builtin.ofClassName_name (type : Builtin) :
    Descriptor.ofClassName type.name = .ok type.descriptor := by
  cases type <;> decide +kernel

lemma Builtin.component?_descriptor (type : Builtin) :
    Descriptor.component? type.descriptor = none := by
  cases type <;> decide

/-- The name is that of a built-in class that the class path does not describe. -/
def ClassPath.LeavesOut (path : ClassPath) (name : String) : Prop :=
  ∃ type : Builtin, Descriptor.ofClassName name = .ok type.descriptor ∧
    path.find? type.descriptor = none

namespace Source

open Load

variable {source : Source} {path : ClassPath} {items : List ClassPath.ClassItem}
  {r r' : Registry} {t : Handle} {d name : String} {span : Option Span} {e : Error}

/-! ## Requests -/

/-- The registry after some types were asked for, one after the other. A request is the name of a
type and the span of the declaration that needs it. It may fail. -/
def after (source : Source) (requests : List (Option Span × String)) (r : Registry) : Registry :=
  requests.foldl (fun r request => ((source.require request.1 request.2).result r).2) r

lemma loads_require (source : Source) (hr : r.Sound) (span : Option Span) (name : String) :
    source.Loads r ((source.require span name).result r).2 :=
  (gets_require source.finds_load span name).loads hr

lemma loads_after (source : Source) (hr : r.Sound) (requests : List (Option Span × String)) :
    source.Loads r (source.after requests r) := by
  induction requests generalizing r with
  | nil => exact Loads.refl source r
  | cons request requests ih =>
    have hfirst := source.loads_require hr request.1 request.2
    exact hfirst.trans (ih (hfirst.sound hr))

/-! ## Recipes -/

lemma descriptor_of_builtin {type : Builtin} (h : source.recipe? d = some (.builtin type)) :
    type.descriptor = d := by
  have hfound : Builtin.ofDescriptor? d = some type := by
    cases source with
    | nothing => cases h
    | builtins => simpa [recipe?] using h
    | classPath path =>
      cases hfind : path.find? d with
      | some item => simp [recipe?, hfind] at h
      | none => simpa [recipe?, hfind] using h
  simpa using List.find?_some hfound

lemma find?_of_described {item : ClassPath.ClassItem}
    (h : (classPath path).recipe? d = some (.described item)) : path.find? d = some item := by
  cases hfind : path.find? d with
  | none => simp [recipe?, hfind] at h
  | some item' => simpa [recipe?, hfind] using h

/-- A built-in class is made in its own way, unless the class path describes it. -/
lemma recipe?_builtin (type : Builtin) :
    (classPath path).recipe? type.descriptor = some (.builtin type) ↔
      path.find? type.descriptor = none := by
  have hbuiltin : Builtin.ofDescriptor? type.descriptor = some type := by cases type <;> decide
  cases hfind : path.find? type.descriptor with
  | none => simp [recipe?, hfind, hbuiltin]
  | some item => simp [recipe?, hfind]

/-- Every class is registered under the descriptor that it is asked for by. -/
structure Orderly (source : Source) : Prop where
  honest : ∀ d, source.Honest d
  isClass : ∀ {d recipe}, source.recipe? d = some recipe → Descriptor.IsClass d

/-- A class that is new is registered. -/
lemma Orderly.define (h : source.Orderly) {recipe : Recipe}
    (hrecipe : source.recipe? d = some recipe) (hnew : r.lookup d = none) :
    r.define (.draft recipe.draft) = .ok (r.next, r.withClass (.draft recipe.draft)) := by
  have hdescriptor : (Origin.draft recipe.draft).declaration.descriptor = d :=
    h.honest d recipe hrecipe
  rw [Registry.define_eq_ok_iff, hdescriptor]
  exact ⟨h.isClass hrecipe, hnew, rfl, rfl⟩

lemma orderly_classPath (hpath : ClassPath.ofItems items = .ok path)
    (htrimmed : ∀ item ∈ items, item.Trimmed) : (classPath path).Orderly := by
  have hkeyed := ClassPath.keyed_ofItems hpath
  constructor
  · exact fun d => honest_of_trimmed hkeyed fun item hfind =>
      htrimmed item (ClassPath.mem_of_find?_ofItems hpath hfind).1
  · intro d recipe hrecipe
    cases hfind : path.find? d with
    | some item => exact hkeyed.isClass hfind
    | none =>
      have hbuiltin := hrecipe
      simp only [recipe?, hfind] at hbuiltin
      obtain ⟨type, -, rfl⟩ := Option.map_eq_some_iff.1 hbuiltin
      rw [← descriptor_of_builtin hrecipe]
      cases type <;> decide

lemma result_registered (d : String) (r : Registry) :
    (registered d).result r =
      match r.lookup d with
      | none => (.ok none, r)
      | some t =>
        match r.loadError t with
        | none => (.ok (some t), r)
        | some e => (.error e, r) := by
  rw [registered, result_bind_ok (show (get : Load Registry).result r = (.ok r, r) from rfl)]
  cases r.lookup d with
  | none => rfl
  | some t => cases hbroken : r.loadError t <;> simp only [hbroken] <;> rfl

/-- A class is found in the registry, or it is loaded. -/
lemma resolve_of_class (hvalid : Descriptor.isValid d = true)
    (harray : Descriptor.isArray d = false) (r : Registry) :
    (source.resolve d).result r =
      match r.lookup d with
      | none => (source.load d).result r
      | some _ => (registered d).result r := by
  have hcomponent : Descriptor.component? d = none := by simpa [Descriptor.isArray] using harray
  rw [Source.resolve, Load.resolve, Descriptor.validate, if_pos hvalid,
    result_bind_ok (result_ofExcept _ r), result_bind, result_registered]
  cases r.lookup d with
  | some t =>
    cases hbroken : r.loadError t <;> simp only [hbroken]
    rfl
  | none =>
    dsimp only
    split
    next => rfl
    next c hc =>
      rw [hcomponent] at hc
      cases hc

/-- A request for a class finds it in the registry, or it loads it. -/
lemma require_of_class (hname : Descriptor.ofClassName name = .ok d)
    (span : Option Span) (r : Registry) :
    (source.require span name).result r =
      match (source.resolve d).result r with
      | (.ok (some t), r') => (.ok t, r')
      | (.ok none, r') => (.error (.unknownType name span), r')
      | (.error e, r') => (.error e, r') := by
  have hresolve : (Load.resolveName source.load name).result r = (source.resolve d).result r := by
    rw [Load.resolveName, hname, result_bind_ok (result_ofExcept _ r)]
    rfl
  rw [Source.require, Load.require, result_bind, hresolve]
  rcases (source.resolve d).result r with ⟨e | _ | t, r'⟩ <;> rfl

/-! ## What a failed request leaves behind -/

/-- A class that is new is registered. Then it is filled in, or it is left as far as it came. -/
lemma load_of_recipe (hsource : source.Orderly) (hr : r.Sound) (hnew : r.lookup d = none)
    {recipe : Recipe} (hrecipe : source.recipe? d = some recipe) :
    match (source.load d).result r with
    | (.ok found, r') => found = some r.next ∧ source.Filling r recipe r'
    | (.error e, r') => source.FailedFilling r recipe e r' := by
  have hdefine := hsource.define hrecipe hnew
  rw [load, loadFrom_of_define (mem_known hrecipe) hrecipe hdefine]
  have hfill := recipe_fill_triple (source.finds_loadFrom (source.known.erase d)) d _
    (filling_withClass hr hrecipe hdefine).2
  rcases hres : (recipe.fill (source.loadFrom (source.known.erase d)) r.next d).result _ with
    ⟨e | u, r₁⟩ <;> rw [hres] at hfill
  · rw [result_bind_error hres]
    exact hfill
  · rw [result_bind_ok hres]
    exact ⟨rfl, hfill⟩

/-- A class that the source does not know is not loaded by any other way. -/
lemma lookup_of_unknown (hsource : source.Orderly) (hr : r.Sound) (hloads : source.Loads r r')
    (harray : Descriptor.isArray d = false) (hrecipe : source.recipe? d = none)
    (hnew : r.lookup d = none) : r'.lookup d = none := by
  have hr' := hloads.sound hr
  cases hlookup : r'.lookup d with
  | none => rfl
  | some t =>
    exfalso
    obtain ⟨hissued, hd⟩ := hr'.lookup_iff.1 hlookup
    have hold : ¬ r.Issued t := by
      intro hold
      rw [← hd, hloads.grows.toExtends.descriptor_eq hold,
        hr.canonical.lookup_descriptor hold] at hnew
      cases hnew
    cases hs : r'.shape t with
    | primitive p =>
      rw [hr'.primitive_iff hissued] at hs
      exact hold (hs ▸ hr.issued_ofPrimitive p)
    | array c root =>
      rw [← hd, hr'.descriptor_of_array hs, Descriptor.isArray_ofArray] at harray
      cases harray
    | declared origin =>
      obtain ⟨d', recipe, hrecipe', hdescriptor, -⟩ := hloads.described hold hs
      rw [hsource.honest d' recipe hrecipe', ← Registry.descriptor_of_declared hs, hd]
        at hdescriptor
      rw [← hdescriptor, hrecipe] at hrecipe'
      cases hrecipe'

section Class

variable (hname : Descriptor.ofClassName name = .ok d) (harray : Descriptor.isArray d = false)
include hname harray

lemma require_of_broken (hlookup : r.lookup d = some t) (hbroken : r.loadError t = some e) :
    (source.require span name).result r = (.error e, r) := by
  rw [require_of_class hname, resolve_of_class (Descriptor.isValid_of_ofClassName hname) harray,
    hlookup]
  simp only [result_registered, hlookup, hbroken]

lemma require_of_whole (hr : r.Sound) (h : r.Whole d t) :
    (source.require span name).result r = (.ok t, r) := by
  rw [require_of_class hname, resolve_of_class (Descriptor.isValid_of_ofClassName hname) harray,
    h.lookup_eq hr]
  simp only [result_registered, h.lookup_eq hr, h.loadError]

lemma require_of_new (hnew : r.lookup d = none) :
    (source.require span name).result r =
      match (source.load d).result r with
      | (.ok (some t), r') => (.ok t, r')
      | (.ok none, r') => (.error (.unknownType name span), r')
      | (.error e, r') => (.error e, r') := by
  rw [require_of_class hname, resolve_of_class (Descriptor.isValid_of_ofClassName hname) harray,
    hnew]

lemma require_of_unknown (hrecipe : source.recipe? d = none) (hnew : r.lookup d = none) :
    (source.require span name).result r = (.error (.unknownType name span), r) := by
  have hload : (source.load d).result r = (.ok none, r) := by
    rw [load, loadFrom, hrecipe]
    rfl
  rw [require_of_new hname harray hnew, hload]

/-- A request for a class that fails leaves the class marked with the error, or it is a built-in
class and left as it is, or no such class is known. -/
lemma require_eq_error (hsource : source.Orderly) (hr : r.Sound)
    (h : (source.require span name).result r = (.error e, r')) :
    (∃ t, r'.lookup d = some t ∧ r'.loadError t = some e) ∨
    (∃ type t, source.recipe? d = some (.builtin type) ∧ r'.Whole d t) ∨
    (source.recipe? d = none ∧ r'.lookup d = none ∧ e = .unknownType name span) := by
  cases hlookup : r.lookup d with
  | some t =>
    cases hbroken : r.loadError t with
    | some e' =>
      rw [require_of_broken hname harray hlookup hbroken] at h
      cases h
      exact Or.inl ⟨t, hlookup, hbroken⟩
    | none =>
      obtain ⟨hissued, hdescriptor⟩ := hr.lookup_iff.1 hlookup
      rw [require_of_whole hname harray hr ⟨hissued, hdescriptor, hbroken⟩] at h
      cases h
  | none =>
    cases hrecipe : source.recipe? d with
    | none =>
      rw [require_of_unknown hname harray hrecipe hlookup] at h
      cases h
      exact Or.inr (Or.inr ⟨rfl, hlookup, rfl⟩)
    | some recipe =>
      have hload := load_of_recipe hsource hr hlookup hrecipe
      rw [require_of_new hname harray hlookup] at h
      rcases hres : (source.load d).result r with ⟨e' | found, r₁⟩ <;> rw [hres] at hload h
      · cases h
        obtain ⟨draft, hs, hdescriptor, hfailure⟩ := hload.draft
        have hissued := Registry.issued_of_declared hs
        have hd : r'.descriptor r.next = d :=
          (Registry.descriptor_of_declared hs).trans
            (hdescriptor.trans (hsource.honest d recipe hrecipe))
        have hmark : r'.loadError r.next = recipe.failure e :=
          (Registry.loadError_of_declared hs).trans hfailure
        cases recipe with
        | builtin type => exact Or.inr (Or.inl ⟨type, _, rfl, hissued, hd, hmark⟩)
        | described item =>
          exact Or.inl ⟨_, (hload.loads.sound hr).lookup_iff.2 ⟨hissued, hd⟩, hmark⟩
      · obtain ⟨rfl, -⟩ := hload
        cases h

end Class

/-- A broken class is not a built-in one. -/
lemma not_builtin_of_broken (hsource : source.Orderly) (hloads : source.Loads .initial r)
    (hlookup : r.lookup d = some t) (hbroken : r.loadError t = some e) {type : Builtin} :
    source.recipe? d ≠ some (.builtin type) := by
  intro hrecipe
  obtain ⟨-, hd⟩ := (hloads.sound Registry.sound_initial).lookup_iff.1 hlookup
  obtain ⟨origin, hs, herror⟩ := Registry.declared_of_loadError hbroken
  have hnew : ¬ Registry.initial.Issued t := by
    intro hissued
    rw [hloads.grows.shape_eq t hissued] at hs
    exact Registry.shape_initial_ne_declared hs
  obtain ⟨d', recipe, hrecipe', hdescriptor, hwhole⟩ := hloads.described hnew hs
  rw [hsource.honest d' recipe hrecipe', ← Registry.descriptor_of_declared hs, hd] at hdescriptor
  subst hdescriptor
  obtain rfl := Option.some.inj (hrecipe.symm.trans hrecipe')
  rw [hwhole type rfl] at herror
  cases herror

/-- A request that failed is made again, after other loads. It fails with the same error, or the
class is a built-in one and is found. -/
lemma require_again (hsource : source.Orderly) (hr : source.Loads .initial r)
    (hname : Descriptor.ofClassName name = .ok d) (harray : Descriptor.isArray d = false)
    (hfails : (source.require span name).result r = (.error e, r')) {r'' : Registry}
    (hlater : source.Loads r' r'') :
    ((source.require span name).result r'' = (.error e, r'') ∧
      ¬ ∃ type, source.recipe? d = some (.builtin type)) ∨
    ((∃ t, (source.require span name).result r'' = (.ok t, r'')) ∧
      ∃ type, source.recipe? d = some (.builtin type)) := by
  have hsound := hr.sound Registry.sound_initial
  have hloads : source.Loads r r' := by
    have h := source.loads_require hsound span name
    rwa [hfails] at h
  have hsound' := hloads.sound hsound
  have hsound'' := hlater.sound hsound'
  rcases require_eq_error hname harray hsource hsound hfails with
    ⟨t, hlookup, hbroken⟩ | ⟨type, t, hrecipe, hwhole⟩ | ⟨hrecipe, hnew, rfl⟩
  · -- the mark stays, and built-in classes have none
    have hissued := (hsound'.lookup_iff.1 hlookup).1
    have hlookup'' := hlater.grows.toExtends.lookup_eq_some hsound'.canonical hsound''.canonical
      hlookup
    have hbroken'' := (hlater.grows.loadError_eq hissued).trans hbroken
    refine Or.inl ⟨require_of_broken hname harray hlookup'' hbroken'', ?_⟩
    rintro ⟨type, hrecipe⟩
    exact not_builtin_of_broken hsource (hr.trans hloads) hlookup hbroken hrecipe
  · have hfound : (source.require span name).result r'' = (.ok t, r'') :=
      require_of_whole hname harray hsound'' (hwhole.grows hlater.grows)
    exact Or.inr ⟨⟨t, hfound⟩, type, hrecipe⟩
  · have hnew'' := lookup_of_unknown hsource hsound' hlater harray hrecipe hnew
    refine Or.inl ⟨require_of_unknown hname harray hrecipe hnew'', ?_⟩
    rintro ⟨type, hbuiltin⟩
    rw [hrecipe] at hbuiltin
    cases hbuiltin

lemma leavesOut_iff (hname : Descriptor.ofClassName name = .ok d) :
    path.LeavesOut name ↔ ∃ type, (classPath path).recipe? d = some (.builtin type) := by
  constructor
  · rintro ⟨type, htype, hfind⟩
    obtain rfl : d = type.descriptor := Except.ok.inj (hname.symm.trans htype)
    exact ⟨type, (recipe?_builtin type).2 hfind⟩
  · rintro ⟨type, hrecipe⟩
    obtain rfl := descriptor_of_builtin hrecipe
    exact ⟨type, hname, (recipe?_builtin type).1 hrecipe⟩

/-- **Failing again.** Let a request for a class fail, after any earlier requests. Then the same
request fails with the same error after any later requests, if and only if the class is not a
built-in one that the class path does not describe. Such a class is found instead. -/
theorem require_fails_again_iff (hpath : ClassPath.ofItems items = .ok path)
    (htrimmed : ∀ item ∈ items, item.Trimmed) (earlier later : List (Option Span × String))
    (hname : ∀ d, Descriptor.ofClassName name = .ok d → Descriptor.isArray d = false)
    (hfails : ((classPath path).require span name).result
      ((classPath path).after earlier .initial) = (.error e, r)) :
    (((classPath path).require span name).result ((classPath path).after later r) =
        (.error e, (classPath path).after later r) ↔ ¬ path.LeavesOut name) ∧
    (path.LeavesOut name →
      ∃ t, ((classPath path).require span name).result ((classPath path).after later r) =
        (.ok t, (classPath path).after later r)) := by
  have hearlier := (classPath path).loads_after Registry.sound_initial earlier
  have hsound := hearlier.sound Registry.sound_initial
  have hsound' : r.Sound := by
    have h := ((classPath path).loads_require hsound span name).sound hsound
    rwa [hfails] at h
  cases hd : Descriptor.ofClassName name with
  | error e' =>
    have hrefused : ∀ r, ((classPath path).require span name).result r = (.error e', r) := by
      intro r
      rw [Source.require, Load.require, Load.resolveName, hd]
      rfl
    have hleaves : ¬ path.LeavesOut name := by
      rintro ⟨type, htype, -⟩
      rw [hd] at htype
      cases htype
    rw [hrefused] at hfails
    cases hfails
    exact ⟨iff_of_true (hrefused _) hleaves, fun h => absurd h hleaves⟩
  | ok d =>
    rcases require_again (orderly_classPath hpath htrimmed) hearlier hd (hname d hd) hfails
      (loads_after _ hsound' later) with ⟨hagain, hnot⟩ | ⟨⟨t, hfound⟩, hbuiltin⟩
    · rw [← leavesOut_iff hd] at hnot
      exact ⟨iff_of_true hagain hnot, fun h => absurd h hnot⟩
    · rw [← leavesOut_iff hd] at hbuiltin
      refine ⟨iff_of_false ?_ (not_not_intro hbuiltin), fun _ => ⟨t, hfound⟩⟩
      rw [hfound]
      simp

/-- A class path on which the class of strings is broken. -/
def brokenString : List ClassPath.ClassItem :=
  [{ name := "java.lang.String", superclass := some "p.Missing" }]

/-- The class path of this description. -/
def brokenStringPath : ClassPath := ⟨["Ljava/lang/String;"].zip brokenString⟩

/-- The broken class is refused again after the root class was asked for, which refers to it. -/
theorem require_fails_again_iff_string :
    ((classPath brokenStringPath).require none "java.lang.String").result
        ((classPath brokenStringPath).after [(none, "java.lang.Object")]
          ((classPath brokenStringPath).after [(none, "java.lang.String")] .initial)) =
      (.error (.unknownType "p.Missing" none), (classPath brokenStringPath).after
        [(none, "java.lang.Object")]
          ((classPath brokenStringPath).after [(none, "java.lang.String")] .initial)) := by
  have hpath : ClassPath.ofItems brokenString = .ok brokenStringPath := by decide +kernel
  have hfails : (((classPath brokenStringPath).require none "java.lang.String").result
      ((classPath brokenStringPath).after [] .initial)).1 =
        .error (.unknownType "p.Missing" none) := by decide +kernel
  refine (require_fails_again_iff hpath (by decide +kernel) [] [(none, "java.lang.Object")] ?_
    (Prod.ext hfails rfl)).1.2 ?_
  · intro d hd
    have hstring : Descriptor.ofClassName "java.lang.String" = .ok Descriptor.string := by
      decide +kernel
    obtain rfl := Except.ok.inj (hstring.symm.trans hd)
    decide +kernel
  · rintro ⟨type, htype, hfind⟩
    revert htype hfind
    cases type <;> decide +kernel

/-- The root class is refused, because it refers to the broken class, and found the next time. -/
theorem require_object_again :
    ClassPath.ofItems brokenString = .ok brokenStringPath ∧
    (((classPath brokenStringPath).require none "java.lang.Object").result .initial).1 =
      .error (.unknownType "p.Missing" none) ∧
    (((classPath brokenStringPath).require none "java.lang.Object").result
      ((classPath brokenStringPath).after [(none, "java.lang.Object")] .initial)).1 =
      .ok ⟨9⟩ := by
  decide +kernel

end Source

end TypeGraph
