import TypeGraph.Proofs.Descriptor.Grammar
import TypeGraph.Proofs.Loading.Order
import TypeGraph.Proofs.Loading.Wrapping

/-!
# Arrays of broken classes

An array type is never broken itself. A request for arrays of a broken class is refused all the same
when the array type has to be made, for then its component is asked for. But a class may name arrays
of itself, and then the array type is made while the class is being filled in. If the class turns
out to be broken afterwards, the array type stays, and every later request for it or for arrays with
further dimensions is met. This is the only exception.
-/

namespace TypeGraph

open Relation

/-! ## Names of array types -/

namespace Descriptor

variable {name d : String} {text element : List Char}

/-- The name of the type of arrays with a number of dimensions. -/
def arrayName (name : String) (n : Nat) : String := name ++ String.ofList (repeated n ['[', ']'])

lemma ofClassName_brackets (h : isName name.toList = true) (n : Nat) :
    ofClassName (arrayName name n) =
      (elementOfName? n name.toList).elim (.error (.invalidDescriptor (arrayName name n)))
        fun element => .ok (String.ofList (List.replicate n '[' ++ element)) := by
  have htext : (arrayName name n).toList = [] ++ (name.toList ++ repeated n ['[', ']']) ++ [] := by
    simp [arrayName]
  simp only [ofClassName, htext,
    splitBrackets_trim h (brackets_repeated n) Text.blank_nil Text.blank_nil]
  cases elementOfName? n name.toList <;> rfl

/-- Only for keywords it matters how many brackets follow. -/
lemma elementOfName?_of_class (h : elementOfName? 0 text = some element)
    (hprimitive : isPrimitive (String.ofList element) = false) (n : Nat) :
    elementOfName? n text = some element := by
  unfold elementOfName? at h ⊢
  split at h
  next p hp =>
    rw [if_neg (by simp)] at h
    cases h
    exact absurd (isPrimitive_descriptor p) (by rw [Primitive.descriptor, hprimitive]; simp)
  next => exact h

/-- Brackets behind the name of a class are brackets in front of its descriptor. -/
lemma ofClassName_arrayName (htrim : Text.trim name.toList = name.toList)
    (hd : ofClassName name = .ok d) (hclass : IsClass d) (n : Nat) :
    ofClassName (arrayName name n) = .ok (ofDimensions n d) := by
  have hname : isName name.toList = true := by
    rw [← htrim]
    exact (ofClassName_of_class hd hclass.2.2 hclass.2.1).1
  have hplain : arrayName name 0 = name := by
    apply String.toList_injective
    simp [arrayName, repeated]
  rw [← hplain, ofClassName_brackets hname] at hd
  rw [ofClassName_brackets hname]
  cases helement : elementOfName? 0 name.toList with
  | none =>
    rw [helement] at hd
    cases hd
  | some element =>
    rw [helement] at hd
    obtain rfl := Except.ok.inj hd
    rw [elementOfName?_of_class helement hclass.2.1 n]
    simp [ofDimensions]

end Descriptor

namespace Source

open Load

variable {source : Source} {path : ClassPath} {items : List ClassPath.ClassItem}
  {item : ClassPath.ClassItem} {r r' : Registry} {t : Handle} {d d' name : String}
  {span : Option Span} {n : Nat}

/-! ## The root class -/

lemma not_broken_initial (d : String) : ¬ Registry.initial.Broken d := by
  rintro ⟨t, e, -, hbroken⟩
  obtain ⟨origin, hs, -⟩ := Registry.declared_of_loadError hbroken
  exact Registry.shape_initial_ne_declared hs

/-- The root class can be loaded, unless a class path describes one of the built-in classes. -/
lemma loadable_object (hsource : source.Orderly)
    (hbuiltin : ∀ type : Builtin, source.recipe? type.descriptor = some (.builtin type)) :
    source.Loadable Descriptor.object := by
  refine loadable_of_closed (P := source.Standing .initial)
    (fun d hd => proper_of_standing hbuiltin hd Registry.sound_initial) (fun d d' hd hrefers => ?_)
    (Or.inr (Or.inl ⟨.object, rfl⟩))
  exact standing_refers hsource hbuiltin (tidy_initial source) (Adds.refl source _ _) hd hrefers
    (not_broken_initial d')

lemma findsRoot_of_tidy (hsource : source.Orderly) (hobject : source.Loadable Descriptor.object)
    (h : source.Tidy r) (k : Nat) : source.loader.FindsRoot k r := by
  have hdelivers : Delivers source source.known (fun _ => True)
      (Load.rootClass source.loader.load) _ _ :=
    delivers_rootClass (loadDelivers_loadFrom hsource source.known)
  have hroot := hdelivers r (.of_tidy h) trivial
  rcases hres : (Load.rootClass source.loader.load).result r with ⟨e | root, r'⟩ <;>
    rw [hres] at hroot
  · exact absurd hobject hroot.2
  · exact Loader.findsRoot_of_whole (hroot.1.loads.sound h.sound).canonical hres hroot.2 k

/-! ## Requests -/

lemma steps_after (source : Source) (requests : List (Option Span × String))
    (hr : ReflTransGen Registry.Step .initial r) :
    ReflTransGen Registry.Step .initial (source.after requests r) := by
  induction requests generalizing r with
  | nil => exact hr
  | cons request requests ih =>
    have hrequire : ReflTransGen Registry.Step r
        ((source.require request.1 request.2).result r).2 :=
      Loader.steps_of_alike (fun hinv => alike_require
        (fun _ h => Registry.canonical_initial.steps h) source.loader.findAlike hinv request.1
        request.2) hr rfl
    exact ih (hr.trans hrequire)

/-- A class that is known is found, or it is refused for a reason. -/
lemma resolve_ne_none (hsource : source.Orderly) (hr : r.Sound) {recipe : Recipe}
    (hrecipe : source.recipe? d = some recipe) : (source.resolve d).result r ≠ (.ok none, r') := by
  obtain ⟨hvalid, -, harray⟩ := hsource.isClass hrecipe
  rw [resolve_of_class hvalid harray]
  cases hlookup : r.lookup d with
  | some t =>
    simp only [result_registered, hlookup]
    cases r.loadError t <;> simp
  | none =>
    have hload := load_of_recipe hsource hr hlookup hrecipe
    intro hnone
    rw [show (source.load d).result r = _ from hnone] at hload
    cases hload.1

/-- What the class fails for, the arrays of it fail for, if there are none yet. -/
lemma resolve_ofDimensions_error (hr : r.Canonical) {e : Error}
    (hvalid : ∀ n, Descriptor.isValid (Descriptor.ofDimensions n d) = true)
    (hnew : r.lookup (Descriptor.ofArray d) = none)
    (hfails : (source.resolve d).result r = (.error e, r')) (n : Nat) :
    (source.resolve (Descriptor.ofDimensions n d)).result r = (.error e, r') := by
  induction n with
  | zero => rwa [Descriptor.ofDimensions_zero]
  | succ n ih =>
    have hlookup : r.lookup (Descriptor.ofDimensions (n + 1) d) = none := by
      cases hlookup : r.lookup (Descriptor.ofDimensions (n + 1) d) with
      | none => rfl
      | some a =>
        rw [← Descriptor.ofDimensions_ofArray] at hlookup
        obtain ⟨c, hc⟩ := hr.exists_lookup hlookup
        rw [hnew] at hc
        cases hc
    rw [Source.resolve] at ih ⊢
    rw [resolve_of_component (hvalid _) (Descriptor.component?_ofDimensions n d) hlookup, ih]

lemma succeeds_iff_resolve (hname : Descriptor.ofClassName name = .ok d) :
    source.Succeeds span name r ↔ ∃ t r', (source.resolve d).result r = (.ok (some t), r') := by
  rw [Succeeds, require_of_class hname]
  rcases (source.resolve d).result r with ⟨e | _ | t, r₁⟩ <;> simp

section Arrays

variable (hsource : source.Orderly)
  (hbuiltin : ∀ type : Builtin, source.recipe? type.descriptor = some (.builtin type))
  (hr : ReflTransGen Registry.Step .initial r) (htidy : source.Tidy r)
  (hvalid : ∀ n, Descriptor.isValid (Descriptor.ofDimensions n d) = true)

include hsource hbuiltin hr htidy hvalid in
/-- Arrays of a class that is found are found. -/
lemma resolve_array_of_class (hname : Descriptor.ofClassName name = .ok d)
    (h : source.Succeeds span name r) (n : Nat) :
    ∃ a r', (source.resolve (Descriptor.ofDimensions n d)).result r = (.ok (some a), r') := by
  obtain ⟨t, r₁, hfound⟩ := (succeeds_iff_resolve hname).1 h
  have hrequire := require_delivers hsource span name r (.of_tidy htidy) trivial
  rw [require_of_class hname, hfound] at hrequire
  obtain ⟨hadds, c, hc, hwhole⟩ := hrequire
  obtain rfl := Except.ok.inj (hname.symm.trans hc)
  have hroot := findsRoot_of_tidy hsource (loadable_object hsource hbuiltin)
    (htidy.adds hadds.settled) n
  obtain ⟨a, r', hres, -⟩ :=
    source.loader.resolve_ofDimensions hr hvalid hfound hwhole.descriptor hroot
  exact ⟨a, r', hres⟩

include hsource hbuiltin hr htidy hvalid in
/-- An array type that is registered is found, and so are arrays with further dimensions. -/
lemma resolve_array_of_lookup {a : Handle} (h : r.lookup (Descriptor.ofArray d) = some a)
    (n : Nat) :
    ∃ a r', (source.resolve (Descriptor.ofDimensions (n + 1) d)).result r = (.ok (some a), r') := by
  have hcanonical := htidy.sound.canonical
  obtain ⟨-, hdescriptor⟩ := hcanonical.lookup_iff.1 h
  obtain ⟨c, root, hshape, -⟩ := hcanonical.exists_component hdescriptor
  have hmore : ∀ n,
      Descriptor.isValid (Descriptor.ofDimensions n (Descriptor.ofArray d)) = true := by
    intro n
    rw [Descriptor.ofDimensions_ofArray]
    exact hvalid (n + 1)
  have hfound : (Load.resolve source.loader.load (Descriptor.ofArray d)).result r =
      (.ok (some a), r) := by
    rw [resolve_of_lookup (Descriptor.ofDimensions_zero (Descriptor.ofArray d) ▸ hmore 0) h,
      Registry.loadError_of_array hshape]
  have hroot := findsRoot_of_tidy hsource (loadable_object hsource hbuiltin) htidy n
  obtain ⟨a, r', hres, -⟩ := source.loader.resolve_ofDimensions hr hmore hfound hdescriptor hroot
  rw [Descriptor.ofDimensions_ofArray] at hres
  exact ⟨a, r', hres⟩

include hsource htidy hvalid in
/-- The class is refused, and so are the arrays of it, if there are none yet. -/
lemma require_array_error {recipe : Recipe} (hrecipe : source.recipe? d = some recipe)
    (hname : Descriptor.ofClassName name = .ok d) {array : String}
    (harray : Descriptor.ofClassName array = .ok (Descriptor.ofDimensions n d))
    (hnew : r.lookup (Descriptor.ofArray d) = none) {e : Error}
    (hfails : (source.require span name).result r = (.error e, r')) :
    (source.require span array).result r = (.error e, r') := by
  rw [require_of_class hname] at hfails
  rcases hres : (source.resolve d).result r with ⟨e' | _ | t, r₁⟩ <;> rw [hres] at hfails
  · cases hfails
    rw [require_of_class harray,
      resolve_ofDimensions_error htidy.sound.canonical hvalid hnew hres n]
  · exact absurd hres (resolve_ne_none hsource htidy.sound hrecipe)
  · cases hfails

end Arrays

/-- **Arrays of broken classes.** Let a class of a class path be asked for after any requests, and
arrays of it. The request for the arrays succeeds if and only if the one for the class does, or an
array type of the class is registered already. If none is registered and the class is refused, then
the arrays are refused with the same error and leave the same registry. -/
theorem require_array_iff (hpath : ClassPath.ofItems items = .ok path)
    (htrimmed : ∀ item ∈ items, item.Trimmed)
    (hundescribed : ∀ item ∈ items, ∀ type : Builtin,
      Descriptor.ofClassName item.name ≠ .ok type.descriptor)
    (hitem : item ∈ items) (hd : Descriptor.ofClassName item.name = .ok d) (span : Option Span)
    (earlier : List (Option Span × String)) (hr : (classPath path).after earlier .initial = r)
    (hn : 1 ≤ n) :
    ((classPath path).Succeeds span (Descriptor.arrayName item.name n) r ↔
      (classPath path).Succeeds span item.name r ∨ (r.lookup (Descriptor.ofArray d)).isSome) ∧
    (r.lookup (Descriptor.ofArray d) = none →
      ∀ e r', ((classPath path).require span item.name).result r = (.error e, r') →
        ((classPath path).require span (Descriptor.arrayName item.name n)).result r =
          (.error e, r')) := by
  have hsource := orderly_classPath hpath htrimmed
  have hbuiltin : ∀ type : Builtin,
      (classPath path).recipe? type.descriptor = some (.builtin type) := by
    intro type
    rw [recipe?_builtin, Option.eq_none_iff_forall_not_mem]
    intro item hfind
    obtain ⟨hmem, hname⟩ := ClassPath.mem_of_find?_ofItems hpath hfind
    exact hundescribed item hmem type hname
  have hfind : path.find? d = some item := by
    obtain ⟨d', hd', hfind⟩ := ClassPath.find?_of_mem hpath hitem
    exact Except.ok.inj (hd.symm.trans hd') ▸ hfind
  have hrecipe : (classPath path).recipe? d = some (.described item) := by simp [recipe?, hfind]
  have hclass := hsource.isClass hrecipe
  have hvalid := hclass.isValid_ofDimensions
  have hname := Descriptor.ofClassName_arrayName (htrimmed item hitem) hd hclass n
  have htidy : (classPath path).Tidy r := hr ▸ (tidy_initial _).after hsource earlier
  have hsteps : ReflTransGen Registry.Step .initial r := hr ▸ steps_after _ earlier .refl
  have hrefused : r.lookup (Descriptor.ofArray d) = none → ∀ e r',
      ((classPath path).require span item.name).result r = (.error e, r') → _ :=
    fun hnew _ _ => require_array_error hsource htidy hvalid hrecipe hd hname hnew
  refine ⟨⟨fun hsucceeds => ?_, ?_⟩, hrefused⟩
  · cases hnew : r.lookup (Descriptor.ofArray d) with
    | some b => exact Or.inr rfl
    | none =>
      obtain ⟨a, r₁, harray⟩ := hsucceeds
      rcases hres : ((classPath path).require span item.name).result r with ⟨e | t, r'⟩
      · rw [hrefused hnew e r' hres] at harray
        cases harray
      · exact Or.inl ⟨t, r', hres⟩
  · rw [succeeds_iff_resolve hname]
    rintro (hsucceeds | hpresent)
    · exact resolve_array_of_class hsource hbuiltin hsteps htidy hvalid hd hsucceeds n
    · obtain ⟨a, ha⟩ := Option.isSome_iff_exists.1 hpresent
      obtain ⟨k, rfl⟩ := Nat.exists_eq_add_of_le' hn
      exact resolve_array_of_lookup hsource hbuiltin hsteps htidy hvalid ha k

/-- A class that refers to arrays of itself, and then to a missing class. -/
def selfArray : List ClassPath.ClassItem :=
  [{ name := "p.A"
     methods := [{ name := "f", parameters := ["p.A[]"] },
       { name := "g", parameters := ["p.Missing"] }] }]

/-- The class path of this description. -/
def selfArrayPath : ClassPath := ⟨["Lp/A;"].zip selfArray⟩

/-- In a fresh registry arrays of the class are refused like the class itself. After that they are
found, with any number of dimensions. -/
theorem require_array_iff_self :
    ((classPath selfArrayPath).require none "p.A[][]").result .initial =
      (.error (.unknownType "p.Missing" none),
        (classPath selfArrayPath).after [(none, "p.A")] .initial) ∧
    ∀ n, 1 ≤ n → (classPath selfArrayPath).Succeeds none (Descriptor.arrayName "p.A" n)
      ((classPath selfArrayPath).after [(none, "p.A")] .initial) := by
  have hpath : ClassPath.ofItems selfArray = .ok selfArrayPath := by decide +kernel
  have hundescribed : ∀ item ∈ selfArray, ∀ type : Builtin,
      Descriptor.ofClassName item.name ≠ .ok type.descriptor := by
    intro item hitem type
    revert item
    cases type <;> decide +kernel
  have hitem : selfArray.head (by decide) ∈ selfArray := List.head_mem _
  have hd : Descriptor.ofClassName "p.A" = .ok "Lp/A;" := by decide +kernel
  have hfails : (((classPath selfArrayPath).require none "p.A").result .initial).1 =
      .error (.unknownType "p.Missing" none) := by decide +kernel
  have hfresh := require_array_iff hpath (by decide +kernel) hundescribed hitem hd none [] rfl
    (n := 2) (by decide)
  refine ⟨hfresh.2 (by decide +kernel) _ _ (Prod.ext hfails rfl), fun n hn => ?_⟩
  refine (require_array_iff hpath (by decide +kernel) hundescribed hitem hd none [(none, "p.A")] rfl
    hn).1.2 (Or.inr ?_)
  decide +kernel

/-- After the class was refused it is refused again, but arrays of it are found. -/
theorem require_array_of_broken :
    ClassPath.ofItems selfArray = .ok selfArrayPath ∧
    (((classPath selfArrayPath).require none "p.A").result
      ((classPath selfArrayPath).after [(none, "p.A")] .initial)).1 =
      .error (.unknownType "p.Missing" none) ∧
    (((classPath selfArrayPath).require none "p.A[]").result
      ((classPath selfArrayPath).after [(none, "p.A")] .initial)).1 = .ok ⟨14⟩ := by
  decide +kernel

end Source

end TypeGraph
