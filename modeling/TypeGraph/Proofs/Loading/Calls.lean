import TypeGraph.Proofs.Loading.Unrolled

/-!
# Types by their descriptors

A registry is used through a few calls: a class is defined, an array type is asked for, a draft is
filled in, and types are found with the help of a loader, which may itself make calls. Whatever
calls were made, in any order and with any outcome, the types that a registry has issued and their
descriptors determine each other. So do types and the arrays of them, whichever class the arrays
were asked to extend. Nothing that was issued is ever taken back or turned into something else.
-/

namespace TypeGraph

open Relation

/-- A function that loads classes. It changes a registry by steps only, and the types that it loads
are types of the registry. -/
structure Loader where
  load : String → Load (Option Handle)
  steps : ∀ {r r' : Registry} {d : String} {result : Except Error (Option Handle)},
    ReflTransGen Registry.Step .initial r → (load d).result r = (result, r') →
    ReflTransGen Registry.Step r r' ∧ ∀ t, result = .ok (some t) → r'.Issued t

/-- The loader of a source. -/
def Source.loader (source : Source) : Loader where
  load := source.load
  steps hr hload := source.steps_load (Registry.canonical_initial.steps hr) hload

open Load in
lemma Loader.findAlike (loader : Loader) :
    FindAlike (ReflTransGen Registry.Step .initial) loader.load loader.load := by
  intro inv hinv d
  have hsteps : ∀ {r r'}, inv r → ReflTransGen Registry.Step r r' → inv r' := by
    intro r r' hr h
    induction h with
    | refl => exact hr
    | tail _ hstep ih => exact hinv.step ih hstep
  refine Agree.of_triple fun r hr => ?_
  rcases hload : (loader.load d).result r with ⟨e | found, r'⟩
  · exact hsteps hr (loader.steps (hinv.base hr) hload).1
  · obtain ⟨h, hissued⟩ := loader.steps (hinv.base hr) hload
    exact ⟨hsteps hr h, fun t ht => hissued t (congrArg Except.ok ht)⟩

/-! ## Calls -/

namespace Registry

/-- A call that may change a registry. -/
inductive Call where
  | define (origin : Origin)
  | array (component root : Handle)
  | arrays (element root : Handle) (dimensions : Nat)
  | edit (t : Handle) (change : Draft → Draft)
  | load (loader : Loader) (descriptor : String)
  | resolve (loader : Loader) (descriptor : String)

namespace Call

/-- What the call does. Its answer is not looked at. -/
def action : Call → Load Unit
  | define origin => discard (Load.define origin)
  | array component root => discard (Load.arrayOf component root)
  | arrays element root dimensions => discard (Load.arrayOfDimensions element root dimensions)
  | edit t change => Load.edit t change
  | load loader descriptor => discard (loader.load descriptor)
  | resolve loader descriptor => discard (Load.resolve loader.load descriptor)

/-- Arrays are asked for of types that were issued, and a class keeps its descriptor and kind. -/
def Allowed (r : Registry) : Call → Prop
  | array component _ => r.Issued component
  | arrays element _ _ => r.Issued element
  | edit _ change =>
    ∀ d, (change d).descriptor = d.descriptor ∧ (change d).isInterface = d.isInterface
  | _ => True

end Call

variable {r r' : Registry} {x a : Handle}

/-- The second registry is the first one after a call, which may have failed. -/
def Called (r r' : Registry) : Prop :=
  ∃ call : Call, call.Allowed r ∧ r' = (call.action.result r).2

lemma Canonical.steps_arrayOfDimensions (hr : r.Canonical) (hx : r.Issued x) (root : Handle)
    (n : Nat) :
    ReflTransGen Step r (r.arrayOfDimensions x root n).2 ∧
      (r.arrayOfDimensions x root n).2.Issued (r.arrayOfDimensions x root n).1 := by
  induction n with
  | zero => exact ⟨.refl, hx⟩
  | succ n ih =>
    obtain ⟨hsteps, hissued⟩ := ih
    obtain ⟨-, root', hshape⟩ := (hr.steps hsteps).arrayOf hissued root
    exact ⟨hsteps.tail (.array hissued root), issued_of_array hshape⟩

/-- A call is a sequence of steps. -/
lemma steps_of_called (hr : ReflTransGen Step .initial r) (h : r.Called r') :
    ReflTransGen Step r r' := by
  have hcanonical := canonical_initial.steps hr
  obtain ⟨call, hallowed, rfl⟩ := h
  cases call with
  | define origin =>
    rw [Call.action, Load.result_discard, Load.result_define]
    rcases hdefine : r.define origin with e | ⟨t, r'⟩
    · exact .refl
    · exact .single (.define hdefine)
  | array component root => exact .single (.array hallowed root)
  | arrays element root n => exact (hcanonical.steps_arrayOfDimensions hallowed root n).1
  | edit t change => exact .single (.edit t (fun d => (hallowed d).1) fun d => (hallowed d).2)
  | load loader d =>
    rw [Call.action, Load.result_discard]
    exact (loader.steps hr rfl).1
  | resolve loader d =>
    rw [Call.action, Load.result_discard]
    have hfind := Load.findAlike_resolve (fun _ h => canonical_initial.steps h) loader.findAlike
    exact (hfind.steps .tail hr rfl).1

lemma steps_of_calls (hr : ReflTransGen Step .initial r) (h : ReflTransGen Called r r') :
    ReflTransGen Step r r' := by
  induction h with
  | refl => exact .refl
  | tail _ hcall ih => exact ih.trans (steps_of_called (hr.trans ih) hcall)

/-! ## Arrays -/

lemma Canonical.component?_arrayOf (hr : r.Canonical) (hx : r.Issued x) (root : Handle) :
    (r.arrayOf x root).2.component? (r.arrayOf x root).1 = some x := by
  obtain ⟨hr', root', hshape⟩ := hr.arrayOf hx root
  exact hr'.component?_of_array hshape

/-- An array type is the one that is given for its component, whichever class it is to extend. -/
lemma Canonical.component?_eq_some_iff_arrayOf (hr : r.Canonical) :
    r.component? a = some x ↔ ∀ root, r.arrayOf x root = (a, r) := by
  rw [hr.component?_eq_some_iff, ← hr.arrayType?_iff]
  constructor
  · exact arrayOf_of_some
  · intro h
    cases hnone : r.arrayType? x with
    | some a' =>
      have h := h x
      rw [arrayOf_of_some hnone] at h
      exact congrArg (some ·.1) h
    | none =>
      -- a new array type would make the registry larger
      have h := h x
      rw [arrayOf_of_none hnone] at h
      have hsize := congrArg (size ·.2) h
      simp at hsize

/-- Once a type has an array type, other types have others. -/
lemma Canonical.arrayOf_eq_iff (hr : r.Canonical) (ha : r.component? a = some x) {y : Handle}
    (hy : r.Issued y) (root : Handle) : (r.arrayOf y root).1 = a ↔ y = x := by
  constructor
  · intro h
    have hcomponent := hr.component?_arrayOf hy root
    obtain ⟨_, hshape⟩ := hr.component?_eq_some_iff.1 ha
    have hsame := (r.grows_arrayOf y root).toExtends.component?_eq (issued_of_array hshape)
    rw [h, hsame, ha] at hcomponent
    exact (Option.some.inj hcomponent).symm
  · rintro rfl
    rw [hr.component?_eq_some_iff_arrayOf.1 ha root]

/-- **Types by their descriptors.** After any calls, a type is found under its own descriptor and
under no other, so types with one descriptor are the same. There is at most one array type for each
type. It is given whenever it is asked for, whichever class it is to extend, and its component is
the type that it was asked for; later calls do not change this, and give it for no other type. The
types that were issued stay, with their kinds and descriptors. A definition that fails changes
nothing. -/
theorem types_by_descriptor {r : Registry} (hr : ReflTransGen Called .initial r) :
    (∀ d t, r.lookup d = some t ↔ r.Issued t ∧ r.descriptor t = d) ∧
    (∀ s t, r.Issued s → r.Issued t → r.descriptor s = r.descriptor t → s = t) ∧
    (∀ x a, r.component? a = some x ↔ ∀ root, r.arrayOf x root = (a, r)) ∧
    (∀ x root, r.Issued x → ∃ a r₁, r.arrayOf x root = (a, r₁) ∧ r₁.component? a = some x ∧
      ∀ r₂, ReflTransGen Called r₁ r₂ → ∀ y root', r₂.Issued y →
        ((r₂.arrayOf y root').1 = a ↔ y = x)) ∧
    (∀ r', ReflTransGen Called r r' → ∀ t, r.Issued t →
      r'.Issued t ∧ Shape.Alike (r.shape t) (r'.shape t) ∧ r'.descriptor t = r.descriptor t) ∧
    (∀ origin e r', (Load.define origin).result r = (.error e, r') → r' = r) := by
  have hsteps := steps_of_calls .refl hr
  have hcanonical := canonical_initial.steps hsteps
  refine ⟨fun d t => hcanonical.lookup_iff, fun s t => hcanonical.eq_of_descriptor_eq,
    fun x a => hcanonical.component?_eq_some_iff_arrayOf, ?_, ?_, ?_⟩
  · intro x root hx
    refine ⟨_, _, rfl, hcanonical.component?_arrayOf hx root, ?_⟩
    intro r₂ hcalls y root' hy
    have hcall : r.Called (r.arrayOf x root).2 := ⟨.array x root, hx, rfl⟩
    have hsteps₁ := hsteps.trans (steps_of_called hsteps hcall)
    have hsteps₂ := steps_of_calls hsteps₁ hcalls
    have hissued : (r.arrayOf x root).2.Issued (r.arrayOf x root).1 := by
      obtain ⟨-, _, hshape⟩ := hcanonical.arrayOf hx root
      exact issued_of_array hshape
    have hcomponent := (extends_of_steps hsteps₂).component?_eq hissued
    rw [hcanonical.component?_arrayOf hx root] at hcomponent
    exact (canonical_initial.steps (hsteps₁.trans hsteps₂)).arrayOf_eq_iff hcomponent hy root'
  · intro r' hcalls t ht
    have hextends := extends_of_steps (steps_of_calls hsteps hcalls)
    exact ⟨hextends.issued ht, hextends.alike t ht, hextends.descriptor_eq ht⟩
  · intro origin e r' hdefine
    rw [Load.result_define] at hdefine
    split at hdefine
    · cases hdefine
    · exact (congrArg Prod.snd hdefine).symm

/-- A class, the arrays of it with one and two dimensions, which are to extend a class that does not
exist, a second class of that name, and an array of strings. -/
def sampleCalls : List Call :=
  [.define (.draft (Draft.ofClass "p.A")), .arrays ⟨9⟩ ⟨50⟩ 2,
    .define (.draft (Draft.ofInterface "p.A")),
    .resolve Source.builtins.loader "[Ljava/lang/String;"]

/-- The registry after these calls. -/
def sampleRegistry : Registry :=
  sampleCalls.foldl (fun r call => (call.action.result r).2) .initial

theorem types_by_descriptor_sample :
    ReflTransGen Called .initial sampleRegistry ∧ sampleRegistry.size = 17 ∧
    sampleRegistry.lookup "[[Lp/A;" = some ⟨11⟩ ∧ sampleRegistry.descriptor ⟨11⟩ = "[[Lp/A;" ∧
    ∀ root, sampleRegistry.arrayOf ⟨10⟩ root = (⟨11⟩, sampleRegistry) := by
  have hcalls : ReflTransGen Called .initial sampleRegistry := by
    refine .head ⟨.define _, trivial, rfl⟩ (.head ⟨.arrays ⟨9⟩ ⟨50⟩ 2, ?_, rfl⟩
      (.head ⟨.define _, trivial, rfl⟩ (.single ⟨.resolve _ _, trivial, rfl⟩)))
    show Issued _ _
    decide +kernel
  obtain ⟨hlookup, -, harray, -⟩ := types_by_descriptor hcalls
  have hfound : sampleRegistry.lookup "[[Lp/A;" = some ⟨11⟩ := by decide +kernel
  exact ⟨hcalls, by decide +kernel, hfound, ((hlookup _ _).1 hfound).2,
    (harray ⟨10⟩ ⟨11⟩).1 (by decide +kernel)⟩

end Registry

end TypeGraph
