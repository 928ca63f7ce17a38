import TypeGraph.Proofs.Loading.Filling

/-!
# What loading comes to

A load succeeds, and then the class and all classes that were loaded for it are complete: each of
them declares what its description says. Or it fails, and then something that the class needs is not
proper. It does not matter in which order the classes are entered, and whether they refer to each
other in circles.
-/

namespace TypeGraph

variable {source : Source} {fresh : List String} {r₀ r : Registry} {recipe : Recipe} {d : String}

namespace Load

/-! ## Recipes -/

section Recipes

variable {load : String → Load (Option Handle)}

lemma provides_require (hload : LoadDelivers source fresh load)
    (hrecipe : source.recipe? d = some recipe) (hd : Descriptor.isPrimitive d = false)
    (span : Option Span) :
    Provides source fresh d (require load span) (recipe.references d) := by
  intro name hname
  refine (delivers_require hload span name).conseq (fun _ h => h) ?_
    (mt fun h => h.reference hd hrecipe hname)
  rintro t r hr ⟨c, hc, hwhole⟩
  exact Registry.names_of_descriptor hr hc hwhole.issued hwhole.descriptor

/-- When the class is filled in, all new classes are complete. -/
lemma adds_of_underway (hrecipe : source.recipe? d = some recipe)
    (hdescriptor : recipe.draft.descriptor = d)
    (h : source.Underway fresh r₀ recipe (fun draft r => recipe.Fulfilled r d draft) r) :
    source.Adds source.Complete r₀ r := by
  refine ⟨h.filling.loads, fun {t origin} ht hs => ?_⟩
  by_cases hnext : t = r₀.next
  · subst hnext
    obtain ⟨draft, hdraft, hfulfilled⟩ := h.draft
    have hd := h.filling.whole.descriptor.trans hdescriptor
    exact ⟨recipe, draft, hd.symm ▸ hrecipe, hdraft, hd.symm ▸ hfulfilled⟩
  · exact h.others hnext ht hs

/-- When it could not be filled in, all new classes are settled. -/
lemma adds_of_stopped {e : Error} (hrecipe : source.recipe? d = some recipe)
    (hdescriptor : recipe.draft.descriptor = d) (hbad : ¬ source.Loadable d)
    (hfailed : source.FailedFilling r₀ recipe e r) (hstopped : source.Stopped r₀ r) :
    source.Adds source.Settled r₀ r := by
  refine ⟨hfailed.loads, fun {t origin} ht hs => ?_⟩
  by_cases hnext : t = r₀.next
  · subst hnext
    obtain ⟨draft, hdraft, hd, hmark⟩ := hfailed.draft
    have hd' : r.descriptor r₀.next = d :=
      (Registry.descriptor_of_declared hdraft).trans (hd.trans hdescriptor)
    refine Or.inr ⟨recipe, hd'.symm ▸ hrecipe, hd'.symm ▸ hbad, ?_⟩
    rintro item rfl hnone
    rw [Registry.loadError_of_declared hdraft] at hnone
    exact absurd (hmark.symm.trans hnone) (by simp [Recipe.failure])
  · exact hstopped hnext ht hs

/-- To mark a class as broken changes no other one. -/
lemma stopped_edit {e : Error} (hfilling : source.Filling r₀ recipe r)
    (hproper : e.isEndless = false) (hstopped : source.Stopped r₀ r) :
    source.Stopped r₀ (r.edit r₀.next (Draft.fail e)) := by
  intro t origin hne ht hs
  have hsame : (r.edit r₀.next (Draft.fail e)).shape t = r.shape t := Registry.shape_edit_of_ne hne
  have hsound : (r.edit r₀.next (Draft.fail e)).Sound :=
    (hfilling.loads.sound hfilling.before).edits (Draft.edits_fail e) _ (by simp)
      (by simpa using hproper)
  exact source.lasting_settled (hstopped hne ht (hsame ▸ hs))
    (Registry.issued_of_declared (hsame ▸ hs)) hsame
    (Registry.extends_edits (Draft.edits_fail e) r₀.next) hsound

lemma recipe_fill_stopped (hload : LoadDelivers source fresh load)
    (hfinds : ∀ d, Finds source (load d)) (hrecipe : source.recipe? d = some recipe)
    (hd : Descriptor.isPrimitive d = false) :
    Triple (source.Underway fresh r₀ recipe fun draft _ => draft = recipe.draft)
      (recipe.fill load r₀.next d)
      (fun _ => source.Underway fresh r₀ recipe fun draft r => recipe.Fulfilled r d draft)
      fun _ r => source.Stopped r₀ r ∧ ¬ source.Loadable d := by
  have hrequire := provides_require hload hrecipe hd
  cases recipe with
  | builtin type =>
    refine (advances_builtin (hrequire none)).conseq ?_ (fun _ _ h => h) fun _ _ h => h
    rintro r ⟨hfilling, hothers, hready, draft, hs, rfl⟩
    exact ⟨hfilling, hothers, hready, _, hs, (Source.draft_blank (.builtin type)).2, by simp⟩
  | described item =>
    have hconflict : ¬ item.Consistent → ¬ source.Loadable d :=
      mt fun h => (h.sensible hd hrecipe).2 item rfl
    have hadvances : Advances source fresh r₀ (.described item) d _ _ _ :=
      advances_described (hrequire item.span) hconflict
    have hfills : FillsIn source r₀ (.described item) _ :=
      fillsIn_described (gets_require hfinds item.span) item d
    have hboth := hadvances.and
      (hfills.conseq (fun r hr => hr.filling) (fun _ _ h => h) fun _ _ h => h)
    refine Triple.tryCatch (hboth.conseq (fun _ h => h) (fun _ _ h => h.1) fun _ _ h => h)
      fun e => ?_
    refine Triple.bind (?_ : Triple _ _ (fun _ r => source.Stopped r₀ r ∧ ¬ source.Loadable d) _)
      fun _ => Triple.throw e fun r hr => hr
    exact Triple.edit fun r hr => ⟨stopped_edit hr.2.1 hr.2.2 hr.1.1, hr.1.2⟩

/-- A recipe fills in its class, and then all new classes are complete; or it fails, and then the
class is not loadable. -/
lemma recipe_fill_outcome (hload : LoadDelivers source fresh load)
    (hfinds : ∀ d, Finds source (load d)) (hrecipe : source.recipe? d = some recipe)
    (hdescriptor : recipe.draft.descriptor = d) (hd : Descriptor.isPrimitive d = false) :
    Triple (source.Underway fresh r₀ recipe fun draft _ => draft = recipe.draft)
      (recipe.fill load r₀.next d)
      (fun _ r => source.Adds source.Complete r₀ r ∧ r.Whole d r₀.next)
      fun _ r => source.Adds source.Settled r₀ r ∧ ¬ source.Loadable d := by
  have hfill := (recipe_fill_triple hfinds d).conseq
    (fun r (hr : source.Underway fresh r₀ recipe (fun draft _ => draft = recipe.draft) r) =>
      hr.filling) (fun _ _ h => h) fun _ _ h => h
  refine ((recipe_fill_stopped hload hfinds hrecipe hd).and hfill).conseq (fun _ h => h)
    (fun _ _ h => ⟨?_, ?_⟩) fun _ _ h => ⟨?_, h.1.2⟩
  · exact adds_of_underway hrecipe hdescriptor h.1
  · exact hdescriptor ▸ h.2.whole
  · exact adds_of_stopped hrecipe hdescriptor h.1.2 h.2 h.1.1

end Recipes

/-! ## Loading -/

/-- A class that was just registered is being filled in. It is not fresh any more. -/
lemma underway_withClass (hsource : source.Orderly) (hready : source.Ready fresh r)
    (hrecipe : source.recipe? d = some recipe) (hnew : r.lookup d = none) :
    source.Underway (fresh.erase d) r recipe (fun draft _ => draft = recipe.draft)
      (r.withClass (.draft recipe.draft)) := by
  have hdefine := hsource.define hrecipe hnew
  obtain ⟨-, hfilling⟩ := Source.filling_withClass hready.sound hrecipe hdefine
  have hsound := hfilling.loads.sound hready.sound
  have hnext := Registry.shape_withClass_next r (.draft recipe.draft)
  have hold : ∀ {t}, (r.withClass (.draft recipe.draft)).Issued t → t ≠ r.next → r.Issued t :=
    fun ht hne =>
      ((Registry.issued_iff_of_size (Registry.size_withClass r _)).1 ht).resolve_right hne
  refine ⟨hfilling, fun hne ht hs => ?_, ⟨hsound, fun {t e} he => ?_, fun {d' _} hrecipe' => ?_⟩,
    _, hnext, rfl⟩
  · exact absurd (hold (Registry.issued_of_declared hs) hne) ht
  · obtain ⟨origin, hs, -⟩ := Registry.declared_of_loadError he
    have ht : r.Issued t := by
      refine hold (Registry.issued_of_declared hs) ?_
      rintro rfl
      rw [Registry.loadError_of_declared hnext] at he
      exact absurd (he.symm.trans ((Source.draft_blank recipe).2)) (by simp)
    rw [hfilling.loads.grows.toExtends.descriptor_eq ht]
    exact hready.fair ((hfilling.loads.grows.loadError_eq ht).symm.trans he)
  · by_cases hd' : d' = d
    · rw [hd', ← hsource.honest d recipe hrecipe, hfilling.whole.lookup_eq hsound]
      exact Or.inr rfl
    · refine (hready.covers hrecipe').imp (fun h => (List.mem_erase_of_ne hd').2 h) fun hsome => ?_
      obtain ⟨t, ht⟩ := Option.isSome_iff_exists.1 hsome
      rw [hfilling.loads.grows.toExtends.lookup_eq_some hready.sound.canonical hsound.canonical ht]
      rfl

/-- **Loading** a class succeeds, and then it and all classes that were loaded for it are complete;
or it fails, and then something that the class needs is not proper. -/
theorem loadDelivers_loadFrom (hsource : source.Orderly) (fresh : List String) :
    LoadDelivers source fresh (source.loadFrom fresh) := by
  -- the recursion is on the classes that are not being filled in
  induction hn : fresh.length using Nat.strongRecOn generalizing fresh with
  | ind n ih =>
    intro d hcomponent r hready hnew
    rw [Source.loadableAt_of_class hcomponent]
    cases hrecipe : source.recipe? d with
    | none =>
      rw [Source.loadFrom, hrecipe]
      refine ⟨Source.Adds.refl source _ r, by simp, fun _ hloadable => ?_⟩
      rw [Source.loadableAt_of_class hcomponent] at hloadable
      rcases hloadable.proper with hprimitive | ⟨recipe, hrecipe', -⟩
      · obtain ⟨p, rfl⟩ := Descriptor.exists_of_isPrimitive hprimitive
        rw [hready.sound.lookup_primitive] at hnew
        cases hnew
      · rw [hrecipe] at hrecipe'
        cases hrecipe'
    | some recipe =>
      have hfresh : d ∈ fresh := (hready.covers hrecipe).resolve_right (by simp [hnew])
      have hpos := List.length_pos_of_mem hfresh
      have hnested := ih (fresh.erase d).length
        (by rw [List.length_erase_of_mem hfresh]; omega) (fresh.erase d) rfl
      have hdescriptor := hsource.honest d recipe hrecipe
      have hfill := recipe_fill_outcome hnested (source.finds_loadFrom _) hrecipe hdescriptor
        (hsource.isClass hrecipe).2.1 _ (underway_withClass hsource hready hrecipe hnew)
      rw [Source.loadFrom_of_define hfresh hrecipe (hsource.define hrecipe hnew)]
      rcases hres : (recipe.fill (source.loadFrom (fresh.erase d)) r.next d).result _ with
        ⟨e | u, r₁⟩ <;> rw [hres] at hfill
      · rw [result_bind_error hres]
        exact hfill
      · rw [result_bind_ok hres]
        refine ⟨hfill.1, ?_, by simp⟩
        rintro _ ⟨⟩
        exact hfill.2

end Load

/-! ## Requests -/

namespace Source

open Load

variable {span : Option Span} {name : String} {t : Handle}

/-- **Requests** succeed, and then all new classes are complete; or they fail, and then something
that the type needs is not proper. -/
theorem require_delivers (hsource : source.Orderly) (span : Option Span) (name : String) :
    Delivers source source.known (fun _ => True) (source.require span name)
      (fun t r => ∃ c, Descriptor.ofClassName name = .ok c ∧ r.Whole c t)
      (¬ source.LoadableName name) :=
  delivers_require (loadDelivers_loadFrom hsource source.known) span name

/-- Requests leave the registry tidy, whether they succeed or not. -/
lemma Tidy.require (hsource : source.Orderly) (h : source.Tidy r) (span : Option Span)
    (name : String) : source.Tidy ((source.require span name).result r).2 := by
  have hrequire := require_delivers hsource span name r (.of_tidy h) trivial
  rcases hres : (source.require span name).result r with ⟨e | t, r'⟩ <;> rw [hres] at hrequire
  · exact h.adds hrequire.1
  · exact h.adds hrequire.1.settled

lemma Tidy.after (hsource : source.Orderly) (requests : List (Option Span × String))
    (h : source.Tidy r) : source.Tidy (source.after requests r) := by
  induction requests generalizing r with
  | nil => exact h
  | cons request requests ih => exact ih (h.require hsource request.1 request.2)

end Source

end TypeGraph
