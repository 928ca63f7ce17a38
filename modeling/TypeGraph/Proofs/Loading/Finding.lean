import TypeGraph.Proofs.Loading.Complete

/-!
# What finding types comes to

To find a type may load classes, and these loads may fail. This file follows a search for types
through its parts, given what single loads come to. When it succeeds, the type that was asked for is
found and all classes that were loaded for it are complete. When it fails, then for a reason that
lies in the descriptions: something that the type needs is not proper, so no search for it could
have succeeded.
-/

namespace TypeGraph

variable {α β : Type} {source : Source} {fresh : List String} {r r' : Registry} {t : Handle}
  {c d name : String}

/-! ## Registries that loads start from -/

/-- Broken classes are not loadable, and all known classes are registered but the fresh ones. -/
structure Source.Ready (source : Source) (fresh : List String) (r : Registry) : Prop where
  sound : r.Sound
  fair : ∀ {t e}, r.loadError t = some e → ¬ source.Loadable (r.descriptor t)
  covers : ∀ {d recipe}, source.recipe? d = some recipe → d ∈ fresh ∨ (r.lookup d).isSome

namespace Source.Ready

/-- Complete classes are not broken, so nothing changes when such classes are added. -/
lemma adds (h : source.Ready fresh r) (hadds : source.Adds source.Complete r r') :
    source.Ready fresh r' := by
  have hr' := hadds.loads.sound h.sound
  refine ⟨hr', fun {t e} he => ?_, fun hrecipe => (h.covers hrecipe).imp id fun hsome => ?_⟩
  · obtain ⟨origin, hs, -⟩ := Registry.declared_of_loadError he
    by_cases ht : r.Issued t
    · rw [hadds.loads.grows.toExtends.descriptor_eq ht]
      exact h.fair ((hadds.loads.grows.loadError_eq ht).symm.trans he)
    · rw [(hadds.new ht hs).loadError] at he
      cases he
  · obtain ⟨t, ht⟩ := Option.isSome_iff_exists.1 hsome
    rw [hadds.loads.grows.toExtends.lookup_eq_some h.sound.canonical hr'.canonical ht]
    rfl

lemma of_tidy (h : source.Tidy r) : source.Ready source.known r where
  sound := h.sound
  fair he := by
    obtain ⟨origin, hs, -⟩ := Registry.declared_of_loadError he
    rcases h.settled hs with hcomplete | hfailed
    · rw [hcomplete.loadError] at he
      cases he
    · obtain ⟨-, -, hnot, -⟩ := hfailed
      exact hnot
  covers hrecipe := Or.inl (mem_known hrecipe)

end Source.Ready

namespace Load

/-- A property that stays when types are added or filled in. -/
def Kept (P : Registry → Prop) : Prop :=
  ∀ ⦃r r'⦄, P r → r.Extends r' → r'.Sound → P r'

lemma Kept.and {P Q : Registry → Prop} (hP : Kept P) (hQ : Kept Q) : Kept fun r => P r ∧ Q r :=
  fun _ _ h hextends hr' => ⟨hP h.1 hextends hr', hQ h.2 hextends hr'⟩

lemma kept_const (p : Prop) : Kept fun _ => p := fun _ _ h _ _ => h

lemma kept_names (name : String) (t : Handle) : Kept fun r => r.Names name t :=
  fun _ _ => Registry.Names.keep

/-! ## Searches -/

/-- The search succeeds with `post`, and the classes that it adds are complete; or it fails because
of `bad`, and the classes that it adds are settled. -/
def Delivers (source : Source) (fresh : List String) (pre : Registry → Prop) (q : Load α)
    (post : α → Registry → Prop) (bad : Prop) : Prop :=
  ∀ r, source.Ready fresh r → pre r → match q.result r with
    | (.ok a, r') => source.Adds source.Complete r r' ∧ post a r'
    | (.error _, r') => source.Adds source.Settled r r' ∧ bad

namespace Delivers

variable {pre pre' : Registry → Prop} {q : Load α} {post post' : α → Registry → Prop}
  {bad bad' : Prop}

lemma pure (a : α) (h : ∀ r, source.Ready fresh r → pre r → post a r) :
    Delivers source fresh pre (Pure.pure a) post bad :=
  fun r hready hr => ⟨Source.Adds.refl source _ r, h r hready hr⟩

lemma throw (e : Error) (h : ∀ r, source.Ready fresh r → pre r → bad) :
    Delivers source fresh pre (MonadExcept.throw e : Load α) post bad :=
  fun r hready hr => ⟨Source.Adds.refl source _ r, h r hready hr⟩

lemma conseq (h : Delivers source fresh pre q post bad) (hpre : ∀ r, pre' r → pre r)
    (hpost : ∀ a r, r.Sound → post a r → post' a r) (hbad : bad → bad') :
    Delivers source fresh pre' q post' bad' := by
  intro r hready hr
  have hq := h r hready (hpre r hr)
  rcases hres : q.result r with ⟨e | a, r'⟩ <;> rw [hres] at hq
  · exact ⟨hq.1, hbad hq.2⟩
  · exact ⟨hq.1, hpost a r' (hq.1.loads.sound hready.sound) hq.2⟩

lemma bind {mid : α → Registry → Prop} {post : β → Registry → Prop} {f : α → Load β}
    (hq : Delivers source fresh pre q mid bad)
    (hf : ∀ a, Delivers source fresh (mid a) (f a) post bad) :
    Delivers source fresh pre (q >>= f) post bad := by
  intro r hready hr
  have hfirst := hq r hready hr
  rcases hres : q.result r with ⟨e | a, r₁⟩ <;> rw [hres] at hfirst
  · rw [result_bind_error hres]
    exact hfirst
  · rw [result_bind_ok hres]
    obtain ⟨hadds, hmid⟩ := hfirst
    have hsecond := hf a r₁ (hready.adds hadds) hmid
    rcases hres' : (f a).result r₁ with ⟨e | b, r₂⟩ <;> rw [hres'] at hsecond
    · exact ⟨hadds.settled.trans hsecond.1 source.lasting_settled hready.sound, hsecond.2⟩
    · exact ⟨hadds.trans hsecond.1 source.lasting_complete hready.sound, hsecond.2⟩

/-- What was found before is still there. -/
lemma frame {P : Registry → Prop} (h : Delivers source fresh pre q post bad) (hP : Kept P) :
    Delivers source fresh (fun r => pre r ∧ P r) q (fun a r => post a r ∧ P r) bad := by
  intro r hready hr
  have hq := h r hready hr.1
  rcases hres : q.result r with ⟨e | a, r'⟩ <;> rw [hres] at hq
  · exact hq
  · refine ⟨hq.1, hq.2, hP hr.2 hq.1.loads.grows.toExtends (hq.1.loads.sound hready.sound)⟩

lemma mapM {f : α → Load β} {R : Registry → α → β → Prop} {l : List α}
    (hf : ∀ a ∈ l, Delivers source fresh (fun _ => True) (f a) (fun b r => R r a b) bad)
    (hR : ∀ a b, Kept fun r => R r a b) :
    Delivers source fresh (fun _ => True) (l.mapM f) (fun bs r => List.Forall₂ (R r) l bs) bad := by
  induction l with
  | nil => exact pure [] fun _ _ _ => .nil
  | cons a l ih =>
    rw [List.mapM_cons]
    refine (hf a (by simp)).bind fun b => ?_
    have hrest := (ih fun a' ha' => hf a' (by simp [ha'])).frame (hR a b)
    refine (hrest.conseq (fun r hr => ⟨trivial, hr⟩) (fun _ _ _ h => h) id).bind fun bs => ?_
    exact pure (b :: bs) fun r _ hr => .cons hr.2 hr.1

lemma mapM_option {f : α → Load β} {R : Registry → α → β → Prop} {o : Option α}
    (hf : ∀ a ∈ o, Delivers source fresh (fun _ => True) (f a) (fun b r => R r a b) bad) :
    Delivers source fresh (fun _ => True) (o.mapM f) (fun link r => Option.Rel (R r) o link)
      bad := by
  cases o with
  | none => exact pure none fun _ _ _ => .none
  | some a => exact (hf a rfl).bind fun b => pure (some b) fun r _ hr => .some hr

end Delivers

/-! ## Types by descriptor -/

/-- What a search tells about the type with the given descriptor. -/
def Tells (source : Source) (c : String) (found : Option Handle) (r : Registry) : Prop :=
  (∀ t, found = some t → r.Whole c t) ∧ (found = none → ¬ source.LoadableAt c)

lemma delivers_registered (c : String) :
    Delivers source fresh (fun _ => True) (registered c)
      (fun found r => (∀ t, found = some t → r.Whole c t) ∧ (found = none → r.lookup c = none))
      (¬ source.LoadableAt c) := by
  intro r hready _
  have hadds := fun P => Source.Adds.refl source P r
  have hres := Source.result_registered c r
  cases hlookup : r.lookup c with
  | none =>
    rw [hres, hlookup]
    exact ⟨hadds _, by simp, fun _ => hlookup⟩
  | some t =>
    obtain ⟨hissued, hdescriptor⟩ := hready.sound.lookup_iff.1 hlookup
    rw [hlookup] at hres
    cases hbroken : r.loadError t with
    | none =>
      simp only [hbroken] at hres
      rw [hres]
      refine ⟨hadds _, ?_, by simp⟩
      rintro _ ⟨⟩
      exact ⟨hissued, hdescriptor, hbroken⟩
    | some e =>
      simp only [hbroken] at hres
      rw [hres]
      -- a broken type is a class
      obtain ⟨origin, hs, -⟩ := Registry.declared_of_loadError hbroken
      have hclass := hready.sound.isClass hs
      rw [← Registry.descriptor_of_declared hs, hdescriptor] at hclass
      have hcomponent : Descriptor.component? c = none := by
        simpa [Descriptor.isArray] using hclass.2.2
      refine ⟨hadds _, fun hloadable => hready.fair hbroken ?_⟩
      rw [hdescriptor]
      exact (Source.loadableAt_of_class hcomponent).1 hloadable

/-- What loading the class with a given descriptor comes to, if it is not registered. -/
def LoadDelivers (source : Source) (fresh : List String) (load : String → Load (Option Handle)) :
    Prop :=
  ∀ d, Descriptor.component? d = none →
    Delivers source fresh (fun r => r.lookup d = none) (load d) (Tells source d)
      (¬ source.LoadableAt d)

/-- An array type is made without any load. -/
lemma delivers_arrayOf {component root : Handle} {bad : Prop}
    (hcomponent : Descriptor.component? d = some c) :
    Delivers source fresh
      (fun r => (r.Issued component ∧ r.descriptor component = c) ∧ r.Issued root)
      (arrayOf component root) (fun a r => r.Whole d a) bad := by
  rintro r hready ⟨⟨hissued, hc⟩, hroot⟩
  refine ⟨⟨.arrayOf hissued hroot, fun ht hs => ?_⟩, ?_⟩
  · exact absurd (Registry.issued_of_declared_arrayOf hs) ht
  · exact Source.whole_arrayOf hcomponent hready.sound hissued hc hroot

section Finding

variable {load : String → Load (Option Handle)} (hload : LoadDelivers source fresh load)
include hload

lemma delivers_rootClass :
    Delivers source fresh (fun _ => True) (rootClass load) (fun t r => r.Whole Descriptor.object t)
      (¬ source.Loadable Descriptor.object) := by
  have hcomponent : Descriptor.component? Descriptor.object = none := by decide
  have hvalid : Descriptor.validate Descriptor.object = .ok () := by decide
  have hfind : Delivers source fresh (fun _ => True) (resolveClass load Descriptor.object)
      (Tells source Descriptor.object) (¬ source.Loadable Descriptor.object) := by
    rw [← Source.loadableAt_of_class hcomponent, resolveClass, hvalid]
    refine (delivers_registered Descriptor.object).bind fun found => ?_
    cases found with
    | some t => exact Delivers.pure (some t) fun r _ hr => ⟨hr.1, by simp⟩
    | none => exact (hload _ hcomponent).conseq (fun r hr => hr.2 rfl) (fun _ _ _ h => h) id
  refine hfind.bind fun found => ?_
  cases found with
  | some t => exact Delivers.pure t fun r _ hr => hr.1 t rfl
  | none =>
    refine Delivers.throw _ fun r _ hr => ?_
    rw [← Source.loadableAt_of_class hcomponent]
    exact hr.2 rfl

lemma delivers_resolve (hvalid : Descriptor.isValid c = true) :
    Delivers source fresh (fun _ => True) (resolve load c) (Tells source c)
      (¬ source.LoadableAt c) := by
  induction c using resolve.induct with
  | case1 c ih =>
    rw [resolve, Descriptor.validate, if_pos hvalid]
    refine (delivers_registered c).bind fun found => ?_
    cases found with
    | some t => exact Delivers.pure (some t) fun r _ hr => ⟨hr.1, by simp⟩
    | none =>
      dsimp only
      split
      next hcomponent =>
        exact (hload c hcomponent).conseq (fun r hr => hr.2 rfl) (fun _ _ _ h => h) id
      next c' hcomponent =>
        -- an array needs its component and the root class
        have hbad : ¬ source.LoadableAt c' → ¬ source.LoadableAt c :=
          mt fun h => (h.component hcomponent).1
        have hfind := ih c' hcomponent (Descriptor.isValid_of_component hcomponent hvalid)
        refine (hfind.conseq (fun _ _ => trivial) (fun _ _ _ h => h) hbad).bind fun found => ?_
        cases found with
        | none => exact Delivers.pure none fun r _ hr => ⟨by simp, fun _ => hbad (hr.2 rfl)⟩
        | some component =>
          have hkept : Kept fun r => r.Issued component ∧ r.descriptor component = c' :=
            fun _ _ h hextends _ => ⟨hextends.issued h.1, (hextends.descriptor_eq h.1).trans h.2⟩
          have hroot : Delivers source fresh (Tells source c' (some component)) (rootClass load)
              (fun root r => (r.Issued component ∧ r.descriptor component = c') ∧ r.Issued root)
              (¬ source.LoadableAt c) :=
            ((delivers_rootClass hload).frame hkept).conseq
              (fun r hr => ⟨trivial, (hr.1 component rfl).issued, (hr.1 component rfl).descriptor⟩)
              (fun _ _ _ h => ⟨h.2, h.1.issued⟩) (mt fun h => (h.component hcomponent).2)
          refine hroot.bind fun root => (delivers_arrayOf hcomponent).bind fun a => ?_
          refine Delivers.pure (some a) fun r _ hr => ⟨?_, by simp⟩
          rintro _ ⟨⟩
          exact hr

lemma delivers_require (span : Option Span) (name : String) :
    Delivers source fresh (fun _ => True) (require load span name)
      (fun t r => ∃ c, Descriptor.ofClassName name = .ok c ∧ r.Whole c t)
      (¬ source.LoadableName name) := by
  rw [require, resolveName]
  cases hname : Descriptor.ofClassName name with
  | error e =>
    have hbad : ¬ source.LoadableName name := by
      rintro ⟨c, hname', -⟩
      rw [hname] at hname'
      cases hname'
    exact fun r _ _ => ⟨Source.Adds.refl source _ r, hbad⟩
  | ok c =>
    have hbad : ¬ source.LoadableAt c → ¬ source.LoadableName name := by
      rintro h ⟨c', hname', hloadable⟩
      obtain rfl := Except.ok.inj (hname.symm.trans hname')
      exact h hloadable
    have hfind := delivers_resolve hload (Descriptor.isValid_of_ofClassName hname)
    refine Delivers.bind (hfind.conseq (fun _ h => h) (fun _ _ _ h => h) hbad) fun found => ?_
    cases found with
    | some t => exact Delivers.pure t fun r _ hr => ⟨c, rfl, hr.1 t rfl⟩
    | none => exact Delivers.throw _ fun r _ hr => hbad (hr.2 rfl)

end Finding

end Load

end TypeGraph
