import Mathlib.Logic.Function.Iterate
import TypeGraph.Proofs.Loading.Calls
import TypeGraph.Proofs.Loading.Failure

/-!
# Arrays by their descriptors

There are two ways to the type of arrays with several dimensions. It is wrapped around its element
type, one dimension after the other, and each dimension is kept with the one below it. Or it is
found by its descriptor, which has a bracket for each dimension: then the brackets are taken off
until a type is registered, and all that is missing is made on the way back, for which the root
class is asked for each time. Both ways lead to one type, whichever is taken first.

The second way needs the root class once for each dimension that is missing. It is not enough that
the root class is found once: a loader may register it under another descriptor than its own, and
then it is not found again.
-/

namespace TypeGraph

open Relation

/-! ## Brackets -/

namespace Descriptor

variable {d : String}

/-- The descriptor with a number of brackets in front. -/
def ofDimensions (n : Nat) (d : String) : String := String.ofList (List.replicate n '[') ++ d

lemma toList_ofDimensions (n : Nat) (d : String) :
    (ofDimensions n d).toList = List.replicate n '[' ++ d.toList := by
  simp [ofDimensions]

@[simp] lemma ofDimensions_zero (d : String) : ofDimensions 0 d = d := by
  apply String.toList_injective
  simp [toList_ofDimensions]

lemma ofDimensions_succ (n : Nat) (d : String) :
    ofDimensions (n + 1) d = ofArray (ofDimensions n d) := by
  apply String.toList_injective
  simp [toList_ofDimensions, List.replicate_succ]

lemma component?_ofDimensions (n : Nat) (d : String) :
    component? (ofDimensions (n + 1) d) = some (ofDimensions n d) := by
  rw [ofDimensions_succ, component?_ofArray]

lemma ofDimensions_ofDimensions (m n : Nat) (d : String) :
    ofDimensions m (ofDimensions n d) = ofDimensions (m + n) d := by
  apply String.toList_injective
  simp [toList_ofDimensions, ← List.append_assoc]

lemma ofDimensions_ofArray (n : Nat) (d : String) :
    ofDimensions n (ofArray d) = ofDimensions (n + 1) d := by
  rw [← ofDimensions_ofDimensions n 1, ofDimensions_succ, ofDimensions_zero]

/-- There are arrays of every class. -/
lemma IsClass.isValid_ofDimensions (h : IsClass d) (n : Nat) :
    isValid (ofDimensions n d) = true := by
  obtain ⟨hvalid, hprimitive, harray⟩ := h
  have hhead : d.toList.head? ≠ some '[' := by
    intro hhead
    obtain ⟨rest, hrest⟩ := List.head?_eq_some_iff.1 hhead
    simp [isArray, component?, hrest] at harray
  have hnone : Primitive.ofDescriptor? d.toList = none := by
    simpa [isPrimitive, primitive?] using hprimitive
  have helement : element d.toList = d.toList := by
    simpa using (element_dimensions_replicate hhead 0).1
  unfold isValid at hvalid ⊢
  simp only [helement, hnone] at hvalid
  simp only [toList_ofDimensions, (element_dimensions_replicate hhead n).1, hnone]
  exact hvalid

end Descriptor

/-! ## Arrays in a registry -/

namespace Registry

variable {r r' : Registry} {t a c : Handle} {n : Nat} {d : String}

/-- The type at the bottom of an array type. -/
def elementType (r : Registry) (t : Handle) : Handle :=
  match _h : r.component? t with
  | some component => elementType r component
  | none => t
termination_by t.index
decreasing_by exact component?_lt _h

lemma elementType_of_component (h : r.component? t = some c) :
    r.elementType t = r.elementType c := by
  rw [elementType]
  split
  next c' hc' => rw [Option.some.inj (h.symm.trans hc')]
  next hnone =>
    rw [h] at hnone
    cases hnone

lemma elementType_eq_self (h : r.component? t = none) : r.elementType t = t := by
  rw [elementType]
  split
  next c hc =>
    rw [h] at hc
    cases hc
  next => rfl

lemma loadError_of_array {root : Handle} (h : r.shape t = .array c root) :
    r.loadError t = none := by
  simp [loadError, declaration?, h]

/-- The letter of a primitive type is the descriptor of that type only. -/
lemma Canonical.eq_ofPrimitive (hr : r.Canonical) (hextends : initial.Extends r) {p : Primitive}
    (ht : r.Issued t) (hs : r.shape t = .primitive p) : t = .ofPrimitive p := by
  have hissued : initial.Issued (.ofPrimitive p) :=
    (canonical_initial.lookup_iff.1 (lookup_initial_descriptor p)).1
  refine hr.eq_of_descriptor_eq ht (hextends.issued hissued) ?_
  rw [descriptor_of_primitive hs, hextends.descriptor_eq hissued,
    descriptor_of_primitive (shape_initial_ofPrimitive p)]

/-- There are arrays of every type but `void` and the arrays of `void`. -/
lemma Canonical.isValid_ofDimensions (hr : r.Canonical) (hextends : initial.Extends r)
    (ht : r.Issued t) (hvoid : r.elementType t ≠ .void) (n : Nat) :
    Descriptor.isValid (Descriptor.ofDimensions n (r.descriptor t)) = true := by
  -- on the nesting of arrays
  induction hi : t.index using Nat.strongRecOn generalizing t n with
  | ind i ih =>
    cases hs : r.shape t with
    | primitive p =>
      have hp : p ≠ .void := by
        rintro rfl
        rw [elementType_eq_self (by simp [component?, hs])] at hvoid
        exact hvoid (hr.eq_ofPrimitive hextends ht hs)
      have hletter : Descriptor.ofDimensions n p.descriptor =
          String.ofList (List.replicate n '[' ++ [p.letter]) := by
        apply String.toList_injective
        simp [Descriptor.toList_ofDimensions, Primitive.descriptor]
      rw [descriptor_of_primitive hs, hletter]
      exact Descriptor.isValid_replicate_letter fun h => hp h.1
    | declared origin =>
      rw [descriptor_of_declared hs]
      exact (hr.isClass hs).isValid_ofDimensions n
    | array c root =>
      have hc := hr.component?_of_array hs
      rw [elementType_of_component hc] at hvoid
      rw [hr.descriptor_of_array hs, Descriptor.ofDimensions_ofArray]
      exact ih c.index (hi ▸ hr.component_lt hs) (hr.issued_component hs) hvoid (n + 1) rfl

/-- What the bracket in front of a descriptor tells. -/
lemma Canonical.exists_component (hr : r.Canonical)
    (hd : r.descriptor a = Descriptor.ofArray d) :
    ∃ c root, r.shape a = .array c root ∧ r.Issued c ∧ r.descriptor c = d := by
  cases hs : r.shape a with
  | primitive p =>
    rw [descriptor_of_primitive hs] at hd
    exact absurd hd.symm (Descriptor.ofArray_ne_descriptor d p)
  | declared origin =>
    rw [descriptor_of_declared hs] at hd
    exact absurd hd ((hr.isClass hs).ne_ofArray d)
  | array c root =>
    refine ⟨c, root, rfl, hr.issued_component hs, ?_⟩
    rw [hr.descriptor_of_array hs] at hd
    exact Descriptor.ofArray_injective hd

/-- With an array type all its components are registered. -/
lemma Canonical.exists_lookup (hr : r.Canonical)
    (h : r.lookup (Descriptor.ofDimensions n d) = some a) : ∃ c, r.lookup d = some c := by
  induction n generalizing a with
  | zero => exact ⟨a, by simpa using h⟩
  | succ n ih =>
    rw [Descriptor.ofDimensions_succ] at h
    obtain ⟨c, -, -, hc, hcd⟩ := hr.exists_component (hr.lookup_iff.1 h).2
    exact ih (hr.lookup_iff.2 ⟨hc, hcd⟩)

/-- An array type leads back to the type below its brackets, and wrapping that type gives it. -/
lemma Canonical.wrapped_of_descriptor (hr : r.Canonical) (ht : r.Issued t) (ha : r.Issued a)
    (hd : r.descriptor a = Descriptor.ofDimensions n (r.descriptor t)) :
    (·.bind r.component?)^[n] (some a) = some t ∧
      ∀ root, r.arrayOfDimensions t root n = (a, r) := by
  induction n generalizing a with
  | zero =>
    rw [Descriptor.ofDimensions_zero] at hd
    obtain rfl := hr.eq_of_descriptor_eq ha ht hd
    exact ⟨rfl, fun _ => rfl⟩
  | succ n ih =>
    rw [Descriptor.ofDimensions_succ] at hd
    obtain ⟨c, root', hs, hc, hcd⟩ := hr.exists_component hd
    have hcomponent := hr.component?_of_array hs
    obtain ⟨hback, hwrap⟩ := ih hc hcd
    refine ⟨?_, fun root => ?_⟩
    · rw [Function.iterate_succ_apply, Option.bind_some, hcomponent]
      exact hback
    · show (r.arrayOfDimensions t root n).2.arrayOf (r.arrayOfDimensions t root n).1 root = (a, r)
      rw [hwrap root]
      exact hr.component?_eq_some_iff_arrayOf.1 hcomponent root

/-- Wrapping a type puts brackets in front of its descriptor. -/
lemma Canonical.descriptor_arrayOfDimensions (hr : r.Canonical) (ht : r.Issued t) (root : Handle)
    (n : Nat) :
    (r.arrayOfDimensions t root n).2.descriptor (r.arrayOfDimensions t root n).1 =
      Descriptor.ofDimensions n (r.descriptor t) := by
  induction n with
  | zero => exact (Descriptor.ofDimensions_zero _).symm
  | succ n ih =>
    obtain ⟨hsteps, hissued⟩ := hr.steps_arrayOfDimensions ht root n
    have hcomponent := (hr.steps hsteps).component?_arrayOf hissued root
    have hgrows := (r.arrayOfDimensions t root n).2.grows_arrayOf (r.arrayOfDimensions t root n).1
      root
    rw [Descriptor.ofDimensions_succ, ← ih, ← hgrows.toExtends.descriptor_eq hissued]
    exact descriptor_of_component hcomponent

end Registry

/-! ## Finding arrays -/

namespace Load

variable {load : String → Load (Option Handle)} {r r' : Registry} {t : Handle} {c d : String}

/-- What is registered is not looked for. -/
lemma resolve_of_lookup (hvalid : Descriptor.isValid d = true) (hlookup : r.lookup d = some t) :
    (resolve load d).result r =
      match r.loadError t with
      | none => (.ok (some t), r)
      | some e => (.error e, r) := by
  rw [resolve, Descriptor.validate, if_pos hvalid, result_bind_ok (result_ofExcept _ r),
    result_bind, Source.result_registered, hlookup]
  cases hbroken : r.loadError t <;> simp only [hbroken]
  rfl

/-- An array type that is not registered is made from its component and the root class. -/
lemma resolve_of_component (hvalid : Descriptor.isValid d = true)
    (hcomponent : Descriptor.component? d = some c) (hnew : r.lookup d = none) :
    (resolve load d).result r =
      match (resolve load c).result r with
      | (.error e, r₁) => (.error e, r₁)
      | (.ok none, r₁) => (.ok none, r₁)
      | (.ok (some component), r₁) =>
        match (rootClass load).result r₁ with
        | (.error e, r₂) => (.error e, r₂)
        | (.ok root, r₂) =>
          (.ok (some (r₂.arrayOf component root).1), (r₂.arrayOf component root).2) := by
  have hregistered : (registered d).result r = (.ok none, r) := by
    rw [Source.result_registered, hnew]
  rw [resolve, Descriptor.validate, if_pos hvalid, result_bind_ok (result_ofExcept _ r),
    result_bind_ok hregistered]
  dsimp only
  split
  next hnone =>
    rw [hcomponent] at hnone
    cases hnone
  next c' hc' =>
    obtain rfl := Option.some.inj (hcomponent.symm.trans hc')
    rcases hfound : (resolve load c).result r with ⟨e | _ | component, r₁⟩
    · rw [result_bind_error hfound]
    · rw [result_bind_ok hfound]
      rfl
    · rw [result_bind_ok hfound]
      dsimp only
      rcases hroot : (rootClass load).result r₁ with ⟨e | root, r₂⟩
      · rw [result_bind_error hroot]
      · rw [result_bind_ok hroot]
        rfl

/-- The root class is found if it is registered under its own descriptor. -/
lemma rootClass_of_whole (hr : r.Canonical) (h : r.Whole Descriptor.object t) :
    (rootClass load).result r = (.ok t, r) := by
  have hvalid : Descriptor.validate Descriptor.object = .ok () := by decide
  have hregistered : (registered Descriptor.object).result r = (.ok (some t), r) := by
    rw [Source.result_registered, hr.lookup_iff.2 ⟨h.issued, h.descriptor⟩]
    simp only [h.loadError]
  have hclass : (resolveClass load Descriptor.object).result r = (.ok (some t), r) := by
    rw [resolveClass, hvalid, result_bind_ok (result_ofExcept _ r), result_bind_ok hregistered]
    rfl
  rw [rootClass, result_bind_ok hclass]
  rfl

end Load

namespace Loader

open Load

variable {loader : Loader} {r r₁ : Registry} {t : Handle} {d : String} {k : Nat}

/-- The root class is found so many times, one after the other, whatever arrays are made with it in
between. -/
def FindsRoot (loader : Loader) : Nat → Registry → Prop
  | 0, _ => True
  | k + 1, r => ∃ root r', (rootClass loader.load).result r = (.ok root, r') ∧
      ∀ c, r'.Issued c → FindsRoot loader k (r'.arrayOf c root).2

lemma FindsRoot.of_succ (h : loader.FindsRoot (k + 1) r) : loader.FindsRoot k r := by
  induction k generalizing r with
  | zero => trivial
  | succ k ih =>
    obtain ⟨root, r', hroot, hrest⟩ := h
    exact ⟨root, r', hroot, fun c hc => ih (hrest c hc)⟩

lemma FindsRoot.of_add {j : Nat} (h : loader.FindsRoot (k + j) r) : loader.FindsRoot j r := by
  induction k with
  | zero => rwa [Nat.zero_add] at h
  | succ k ih =>
    rw [Nat.succ_add] at h
    exact ih h.of_succ

/-- A root class that is registered under its own descriptor is always found. -/
lemma findsRoot_of_registered (hr : r.Canonical) (h : r.Whole Descriptor.object t) (k : Nat) :
    loader.FindsRoot k r := by
  induction k generalizing r with
  | zero => trivial
  | succ k ih =>
    refine ⟨t, r, rootClass_of_whole hr h, fun c hc => ih (hr.arrayOf hc t).1 ?_⟩
    exact h.grows (r.grows_arrayOf c t)

/-- It is enough that the root class is registered under its own descriptor when it is found. -/
lemma findsRoot_of_whole (hr : r₁.Canonical)
    (hroot : (rootClass loader.load).result r = (.ok t, r₁)) (h : r₁.Whole Descriptor.object t)
    (k : Nat) : loader.FindsRoot k r := by
  cases k with
  | zero => trivial
  | succ k =>
    refine ⟨t, r₁, hroot, fun c hc => ?_⟩
    exact findsRoot_of_registered (hr.arrayOf hc t).1 (h.grows (r₁.grows_arrayOf c t)) k

/-- A load that keeps whatever steps keep changes a registry by steps. -/
lemma steps_of_alike {α : Type} {q : Load α} {result : Except Error α}
    (hq : ∀ {inv}, Invariant (ReflTransGen Registry.Step .initial) inv → AlikeOnly inv q q)
    (hr : ReflTransGen Registry.Step .initial r) (h : q.result r = (result, r₁)) :
    ReflTransGen Registry.Step r r₁ := by
  have hinv : Invariant (ReflTransGen Registry.Step .initial) fun r' =>
      ReflTransGen Registry.Step .initial r' ∧ ReflTransGen Registry.Step r r' :=
    ⟨fun h => h.1, fun h hstep => ⟨h.1.tail hstep, h.2.tail hstep⟩⟩
  have htriple := (hq hinv).triple r ⟨hr, .refl⟩
  rw [h] at htriple
  cases result with
  | error e => exact htriple.2
  | ok a => exact htriple.2

lemma steps_rootClass (hr : ReflTransGen Registry.Step .initial r)
    {result : Except Error Handle} (h : (rootClass loader.load).result r = (result, r₁)) :
    ReflTransGen Registry.Step r r₁ :=
  steps_of_alike (alike_rootClass (fun _ h => Registry.canonical_initial.steps h) loader.findAlike)
    hr h

lemma steps_resolve (hr : ReflTransGen Registry.Step .initial r)
    {result : Except Error (Option Handle)}
    (h : (resolve loader.load d).result r = (result, r₁)) :
    ReflTransGen Registry.Step r r₁ ∧ ∀ t, result = .ok (some t) → r₁.Issued t :=
  (findAlike_resolve (fun _ h => Registry.canonical_initial.steps h) loader.findAlike).steps
    .tail hr h

/-- From a type that is found, arrays with further dimensions are found too, as long as the root
class is. -/
lemma resolve_ofDimensions (hr : ReflTransGen Registry.Step .initial r)
    (hvalid : ∀ n, Descriptor.isValid (Descriptor.ofDimensions n d) = true)
    (hfound : (resolve loader.load d).result r = (.ok (some t), r₁)) (hd : r₁.descriptor t = d)
    (hroot : loader.FindsRoot k r₁) :
    ∃ a r', (resolve loader.load (Descriptor.ofDimensions k d)).result r = (.ok (some a), r') ∧
      r'.descriptor a = Descriptor.ofDimensions k d ∧
      ∀ j, loader.FindsRoot (k + j) r₁ → loader.FindsRoot j r' := by
  have hcanonical := Registry.canonical_initial.steps hr
  induction k with
  | zero =>
    refine ⟨t, r₁, ?_, ?_, fun j hj => by rwa [Nat.zero_add] at hj⟩
    · rw [Descriptor.ofDimensions_zero]
      exact hfound
    · rw [Descriptor.ofDimensions_zero]
      exact hd
  | succ k ih =>
    cases hlookup : r.lookup (Descriptor.ofDimensions (k + 1) d) with
    | some a =>
      -- the type itself is registered as well, so finding it changed nothing
      have hsame : r₁ = r := by
        obtain ⟨s, hs⟩ := hcanonical.exists_lookup hlookup
        rw [resolve_of_lookup (Descriptor.ofDimensions_zero d ▸ hvalid 0) hs] at hfound
        split at hfound <;> cases hfound
        rfl
      have had := (hcanonical.lookup_iff.1 hlookup).2
      obtain ⟨c, root, hshape, -⟩ :=
        hcanonical.exists_component (had.trans (Descriptor.ofDimensions_succ k d))
      refine ⟨a, r, ?_, had, fun j hj => hsame ▸ hj.of_add⟩
      rw [resolve_of_lookup (hvalid _) hlookup, Registry.loadError_of_array hshape]
    | none =>
      obtain ⟨c, r₂, hbelow, hcd, hcount⟩ := ih hroot.of_succ
      obtain ⟨hsteps₂, hissued⟩ := steps_resolve hr hbelow
      obtain ⟨root, r₃, hfinds, -⟩ := hcount 1 hroot
      have hsteps₃ := steps_rootClass (hr.trans hsteps₂) hfinds
      have hextends := Registry.extends_of_steps hsteps₃
      have hc := hextends.issued (hissued c rfl)
      have hcanonical₃ := Registry.canonical_initial.steps ((hr.trans hsteps₂).trans hsteps₃)
      refine ⟨(r₃.arrayOf c root).1, (r₃.arrayOf c root).2, ?_, ?_, fun j hj => ?_⟩
      · rw [resolve_of_component (hvalid _) (Descriptor.component?_ofDimensions k d) hlookup,
          hbelow]
        dsimp only
        rw [hfinds]
      · have hcomponent := hcanonical₃.component?_arrayOf hc root
        have hgrows := r₃.grows_arrayOf c root
        rw [Registry.descriptor_of_component hcomponent, hgrows.toExtends.descriptor_eq hc,
          hextends.descriptor_eq (hissued c rfl), hcd, Descriptor.ofDimensions_succ]
      · obtain ⟨root', r₃', hfinds', hrest⟩ := hcount (j + 1) (by rwa [Nat.add_right_comm] at hj)
        rw [hfinds] at hfinds'
        cases hfinds'
        exact hrest c hc

end Loader

/-! ## The two ways -/

namespace Registry

open Load

variable {r r' : Registry} {t a : Handle} {n : Nat}

/-- The type is that of arrays of `t`, which has the descriptor `d`, with `n` dimensions, and it is
given whenever it is asked for, without any change to the registry. -/
structure Stacked (r : Registry) (t : Handle) (d : String) (n : Nat) (a : Handle) : Prop where
  descriptor : r.descriptor a = Descriptor.ofDimensions n d
  lookup : r.lookup (Descriptor.ofDimensions n d) = some a
  components : (·.bind r.component?)^[n] (some a) = some t
  wrapping : ∀ root, r.arrayOfDimensions t root n = (a, r)
  finding : ∀ loader : Loader,
    (resolve loader.load (Descriptor.ofDimensions n d)).result r = (.ok (some a), r)

/-- An array type is not broken, whatever its components are. -/
lemma Canonical.loadError_eq_none (hr : r.Canonical) (ht : r.Issued t) (ha : r.Issued a)
    (hd : r.descriptor a = Descriptor.ofDimensions n (r.descriptor t))
    (hwhole : n = 0 → r.loadError t = none) : r.loadError a = none := by
  cases n with
  | zero =>
    rw [Descriptor.ofDimensions_zero] at hd
    obtain rfl := hr.eq_of_descriptor_eq ha ht hd
    exact hwhole rfl
  | succ n =>
    rw [Descriptor.ofDimensions_succ] at hd
    obtain ⟨c, root, hs, -⟩ := hr.exists_component hd
    exact loadError_of_array hs

/-- The descriptor of an array type tells all about it. -/
lemma Canonical.stacked (hr : r.Canonical) (ht : r.Issued t) (ha : r.Issued a)
    (hd : r.descriptor a = Descriptor.ofDimensions n (r.descriptor t))
    (hvalid : Descriptor.isValid (Descriptor.ofDimensions n (r.descriptor t)) = true)
    (hwhole : n = 0 → r.loadError t = none) : r.Stacked t (r.descriptor t) n a := by
  have hlookup := hr.lookup_iff.2 ⟨ha, hd⟩
  obtain ⟨hcomponents, hwrapping⟩ := hr.wrapped_of_descriptor ht ha hd
  refine ⟨hd, hlookup, hcomponents, hwrapping, fun loader => ?_⟩
  rw [resolve_of_lookup hvalid hlookup, hr.loadError_eq_none ht ha hd hwhole]

/-- **Arrays by their descriptors.** Let a type be issued after any calls, neither `void` nor an
array of `void`, and not broken. It may be wrapped in any number of dimensions, or the array type
may be found by its descriptor, which is so many brackets and the descriptor of the type. To find
it, the root class has to be found once for each dimension that is missing. Whichever is done first,
the array type has this descriptor, is registered under it and leads back to the type. Both ways
then give this array type again, with any root class and any loader, and register nothing. -/
theorem arrays_by_descriptor (hr : ReflTransGen Called .initial r) (ht : r.Issued t)
    (hvoid : r.elementType t ≠ .void) (hwhole : r.loadError t = none) (n : Nat) :
    (∀ root, (r.arrayOfDimensions t root n).2.Stacked t (r.descriptor t) n
      (r.arrayOfDimensions t root n).1) ∧
    ∀ (loader : Loader) (present missing : Nat), present + missing = n →
      (r.lookup (Descriptor.ofDimensions present (r.descriptor t))).isSome →
      loader.FindsRoot missing r →
      ∃ a r', (resolve loader.load (Descriptor.ofDimensions n (r.descriptor t))).result r =
          (.ok (some a), r') ∧ r'.Stacked t (r.descriptor t) n a := by
  have hsteps := steps_of_calls .refl hr
  have hcanonical := canonical_initial.steps hsteps
  have hvalid := hcanonical.isValid_ofDimensions (extends_of_steps hsteps) ht hvoid
  -- later registries differ in what the types below the arrays declare only
  have hstacked : ∀ {r' a}, ReflTransGen Step r r' → r'.Issued a →
      r'.descriptor a = Descriptor.ofDimensions n (r.descriptor t) →
      (n = 0 → r'.loadError t = none) → r'.Stacked t (r.descriptor t) n a := by
    intro r' a hlater ha hd hwhole'
    have hextends := extends_of_steps hlater
    have hsame := hextends.descriptor_eq ht
    rw [← hsame] at hd hvalid ⊢
    exact (hcanonical.steps hlater).stacked (hextends.issued ht) ha hd (hvalid n) hwhole'
  refine ⟨fun root => ?_, fun loader present missing hsum hpresent hroot => ?_⟩
  · obtain ⟨hlater, hissued⟩ := hcanonical.steps_arrayOfDimensions ht root n
    refine hstacked hlater hissued (hcanonical.descriptor_arrayOfDimensions ht root n) ?_
    rintro rfl
    exact hwhole
  · obtain ⟨b, hb⟩ := Option.isSome_iff_exists.1 hpresent
    obtain ⟨hissued, hbd⟩ := hcanonical.lookup_iff.1 hb
    have hfound : (resolve loader.load (Descriptor.ofDimensions present (r.descriptor t))).result r
        = (.ok (some b), r) := by
      rw [resolve_of_lookup (hvalid present) hb,
        hcanonical.loadError_eq_none ht hissued hbd fun _ => hwhole]
    have hmore : ∀ k, Descriptor.isValid (Descriptor.ofDimensions k
        (Descriptor.ofDimensions present (r.descriptor t))) = true := by
      intro k
      rw [Descriptor.ofDimensions_ofDimensions]
      exact hvalid _
    obtain ⟨a, r', hres, hd, -⟩ := loader.resolve_ofDimensions hsteps hmore hfound hbd hroot
    rw [Descriptor.ofDimensions_ofDimensions, Nat.add_comm, hsum] at hres hd
    obtain ⟨hlater, hissued'⟩ := loader.steps_resolve hsteps hres
    refine ⟨a, r', hres, hstacked hlater (hissued' a rfl) hd fun hn => ?_⟩
    -- without brackets the type is found as it is
    obtain rfl : present = 0 := by omega
    subst hn
    rw [hfound] at hres
    cases hres
    exact hwhole

/-- A class, and the type of arrays of it. -/
def singleArray : List Call := [.define (.draft (Draft.ofClass "p.A")), .arrays ⟨9⟩ ⟨50⟩ 1]

/-- The registry after these calls. -/
def singleArrayRegistry : Registry :=
  singleArray.foldl (fun r call => (call.action.result r).2) .initial

/-- Two more dimensions are found, and the root class is loaded on the way. -/
theorem arrays_by_descriptor_single :
    singleArrayRegistry.lookup Descriptor.object = none ∧
    singleArrayRegistry.descriptor ⟨10⟩ = "[Lp/A;" ∧
    ∃ a r', (resolve Source.builtins.loader.load "[[[Lp/A;").result singleArrayRegistry =
      (.ok (some a), r') ∧ r'.Stacked ⟨10⟩ "[Lp/A;" 2 a := by
  have hcalls : ReflTransGen Called .initial singleArrayRegistry := by
    refine .head ⟨.define _, trivial, rfl⟩ (.single ⟨.arrays ⟨9⟩ ⟨50⟩ 1, ?_, rfl⟩)
    show Issued _ _
    decide +kernel
  have hdescriptor : singleArrayRegistry.descriptor ⟨10⟩ = "[Lp/A;" := by decide +kernel
  have hroot : ((rootClass Source.builtins.loader.load).result singleArrayRegistry).1 =
      .ok ⟨11⟩ := by decide +kernel
  have hsteps := steps_of_calls .refl hcalls
  have hlater := hsteps.trans (Loader.steps_rootClass hsteps (Prod.ext hroot rfl))
  have hwhole :
      ((rootClass Source.builtins.loader.load).result singleArrayRegistry).2.Issued ⟨11⟩ ∧
      ((rootClass Source.builtins.loader.load).result singleArrayRegistry).2.descriptor ⟨11⟩ =
        Descriptor.object ∧
      ((rootClass Source.builtins.loader.load).result singleArrayRegistry).2.loadError ⟨11⟩ =
        none := by decide +kernel
  have hfinds : Source.builtins.loader.FindsRoot 2 singleArrayRegistry :=
    Loader.findsRoot_of_whole (canonical_initial.steps hlater) (Prod.ext hroot rfl)
      ⟨hwhole.1, hwhole.2.1, hwhole.2.2⟩ 2
  have hfound := (arrays_by_descriptor hcalls (t := ⟨10⟩) (by decide +kernel) (by decide +kernel)
    (by decide +kernel) 2).2 Source.builtins.loader 0 2 rfl
  rw [hdescriptor] at hfound
  exact ⟨by decide +kernel, hdescriptor, hfound (by decide +kernel) hfinds⟩

end Registry

namespace Source

open Load

/-- A description of the root class, with blanks around its name. -/
def blankRoot : List ClassPath.ClassItem := [{ name := " java.lang.Object " }]

/-- The class path of this description. -/
def blankRootPath : ClassPath := ⟨["Ljava/lang/Object;"].zip blankRoot⟩

/-- The root class is found in a fresh registry, but only once: arrays of numbers are found, arrays
of such arrays are not. -/
theorem resolve_blank_root :
    ClassPath.ofItems blankRoot = .ok blankRootPath ∧
    ((classPath blankRootPath).rootClass.result .initial).1 = .ok ⟨9⟩ ∧
    (((classPath blankRootPath).resolve (Descriptor.ofDimensions 1 "I")).result .initial).1 =
      .ok (some ⟨10⟩) ∧
    (((classPath blankRootPath).resolve (Descriptor.ofDimensions 2 "I")).result .initial).1 =
      .error (.unknownType "java.lang.Object" none) := by
  decide +kernel

end Source

end TypeGraph
