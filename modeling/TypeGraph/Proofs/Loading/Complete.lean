import Mathlib.Data.List.Forall2
import TypeGraph.Proofs.Loading.References

/-!
# Classes that are filled in

A class is complete in a registry when its draft holds what its description says, in the same order,
and every name of the description is replaced by the type that has this name. A class that could not
be filled in is not loadable, and it is marked broken if it is described. `Source.Adds` says that
all classes that were added to a registry are complete, or that they are at least settled in one of
these two ways.
-/

namespace TypeGraph

variable {r r' r'' : Registry} {t : Handle} {name d : String}

lemma exists_of_forall₂ {α β : Type} {R : α → β → Prop} {as : List α} {bs : List β}
    (h : List.Forall₂ R as bs) {a : α} (ha : a ∈ as) : ∃ b ∈ bs, R a b := by
  induction h with
  | nil => cases ha
  | cons hhead _ ih =>
    rcases List.mem_cons.1 ha with rfl | ha
    · exact ⟨_, by simp, hhead⟩
    · obtain ⟨b, hb, hab⟩ := ih ha
      exact ⟨b, by simp [hb], hab⟩

/-! ## Types by name -/

namespace Registry

/-- The type is the one that has the given name. -/
def Names (r : Registry) (name : String) (t : Handle) : Prop :=
  ∃ c, Descriptor.ofClassName name = .ok c ∧ ∀ s, r.Issued s ∧ r.descriptor s = c ↔ s = t

lemma names_of_descriptor (hr : r.Sound) (hname : Descriptor.ofClassName name = .ok d)
    (ht : r.Issued t) (hd : r.descriptor t = d) : r.Names name t := by
  refine ⟨d, hname, fun s => ⟨fun hs => ?_, fun hs => hs ▸ ⟨ht, hd⟩⟩⟩
  exact hr.eq_of_descriptor_eq hs.1 ht (hs.2.trans hd.symm)

namespace Names

lemma issued (h : r.Names name t) : r.Issued t := by
  obtain ⟨c, -, hunique⟩ := h
  exact ((hunique t).2 rfl).1

lemma ofClassName_eq (h : r.Names name t) : Descriptor.ofClassName name = .ok (r.descriptor t) := by
  obtain ⟨c, hname, hunique⟩ := h
  rw [hname, ((hunique t).2 rfl).2]

lemma keep (h : r.Names name t) (hextends : r.Extends r') (hr' : r'.Sound) :
    r'.Names name t :=
  names_of_descriptor hr' h.ofClassName_eq (hextends.issued h.issued)
    (hextends.descriptor_eq h.issued)

lemma eq_of_ofClassName_eq {name' : String} {t' : Handle} (h : r.Names name t)
    (h' : r.Names name' t')
    (hname : Descriptor.ofClassName name = Descriptor.ofClassName name') : t = t' := by
  rw [h.ofClassName_eq, h'.ofClassName_eq] at hname
  obtain ⟨c, hc, hunique⟩ := h'
  refine (hunique t).1 ⟨h.issued, (Except.ok.inj hname).trans ?_⟩
  exact ((hunique t').2 rfl).2

end Names

end Registry

/-! ## The parts of a class -/

namespace ClassPath

/-- What a class is filled in with. -/
structure Parts where
  superclass : Option Handle := none
  interfaces : List Handle := []
  outerClass : Option Handle := none
  declaringClass : Option Handle := none
  memberTypes : List Handle := []
  constructors : List ConstructorDecl := []
  methods : List MethodDecl := []
  fields : List FieldDecl := []
  syntheticFields : List FieldDecl := []

lemma ClassItem.draft_eq (item : ClassItem) :
    item.draft = {
      descriptor := Descriptor.ofRawName item.name
      isInterface := item.isInterface
      access := item.access
      isFinal := item.isFinal
      isAbstract := item.isInterface || item.isAbstract
      location := item.span } := by
  rw [draft]
  cases item.isInterface <;> rfl

/-- The draft of a class with the given parts. -/
def ClassItem.filled (item : ClassItem) (parts : Parts) : Draft :=
  { item.draft with
    superclass := parts.superclass
    interfaces := parts.interfaces
    outerClass := parts.outerClass
    declaringClass := parts.declaringClass
    memberTypes := parts.memberTypes
    constructors := parts.constructors
    methods := parts.methods
    fields := parts.fields
    syntheticFields := parts.syntheticFields }

lemma ClassItem.filled_empty (item : ClassItem) : item.filled {} = item.draft := by
  rw [filled, draft_eq]

lemma ClassItem.loadError_filled (item : ClassItem) (parts : Parts) :
    (item.filled parts).loadError = none := by
  rw [filled, draft_eq]

end ClassPath

namespace Registry

open ClassPath

/-- The constructor is the one that is described. -/
def DeclaresConstructor (r : Registry) (item : ConstructorItem) (decl : ConstructorDecl) : Prop :=
  decl.access = item.access ∧ List.Forall₂ r.Names item.parameters decl.parameters ∧
    List.Forall₂ r.Names item.thrown decl.thrown

/-- The method is the one that is described. -/
def DeclaresMethod (r : Registry) (item : MethodItem) (decl : MethodDecl) : Prop :=
  (decl.name = item.name ∧ decl.access = item.access ∧ decl.isStatic = item.isStatic ∧
      decl.isAbstract = item.isAbstract) ∧
    List.Forall₂ r.Names item.parameters decl.parameters ∧ r.Names item.result decl.result ∧
    List.Forall₂ r.Names item.thrown decl.thrown

/-- The field is the one that is described. -/
def DeclaresField (r : Registry) (item : FieldItem) (decl : FieldDecl) : Prop :=
  r.Names item.type decl.type ∧ decl = item.decl decl.type

/-- The parts are those that are described, in the same order. Of synthetic fields with one name the
first one counts, and the others have the same type. -/
structure Fulfils (r : Registry) (item : ClassItem) (d : String) (parts : Parts) : Prop where
  superclass : Option.Rel r.Names (item.superclassName d) parts.superclass
  interfaces : List.Forall₂ r.Names item.interfaces parts.interfaces
  outerClass : Option.Rel r.Names item.outer parts.outerClass
  declaringClass : Option.Rel r.Names item.declaring parts.declaringClass
  memberTypes : List.Forall₂ r.Names item.memberTypes parts.memberTypes
  constructors : List.Forall₂ r.DeclaresConstructor item.constructors parts.constructors
  methods : List.Forall₂ r.DeclaresMethod item.methods parts.methods
  fields : List.Forall₂ r.DeclaresField item.fields parts.fields
  syntheticFields : ∃ decls, List.Forall₂ r.DeclaresField item.syntheticFields decls ∧
    (∀ name, parts.syntheticFields.find? (·.name = name) = decls.find? (·.name = name)) ∧
    ∀ f ∈ decls, ∀ g ∈ decls, f.name = g.name → f.type = g.type

/-! What is found in a registry is found in every later one. -/

section Keep

variable {item : ClassItem} {parts : Parts} (hextends : r.Extends r') (hr' : r'.Sound)
include hextends hr'

lemma DeclaresConstructor.keep {item : ConstructorItem} {decl : ConstructorDecl}
    (h : r.DeclaresConstructor item decl) : r'.DeclaresConstructor item decl := by
  have hnames : ∀ name t, r.Names name t → r'.Names name t := fun _ _ h => h.keep hextends hr'
  exact ⟨h.1, h.2.1.imp hnames, h.2.2.imp hnames⟩

lemma DeclaresMethod.keep {item : MethodItem} {decl : MethodDecl}
    (h : r.DeclaresMethod item decl) : r'.DeclaresMethod item decl := by
  have hnames : ∀ name t, r.Names name t → r'.Names name t := fun _ _ h => h.keep hextends hr'
  exact ⟨h.1, h.2.1.imp hnames, hnames _ _ h.2.2.1, h.2.2.2.imp hnames⟩

lemma DeclaresField.keep {item : FieldItem} {decl : FieldDecl} (h : r.DeclaresField item decl) :
    r'.DeclaresField item decl :=
  ⟨h.1.keep hextends hr', h.2⟩

lemma Fulfils.keep (h : r.Fulfils item d parts) : r'.Fulfils item d parts := by
  have hnames : ∀ name t, r.Names name t → r'.Names name t := fun _ _ h => h.keep hextends hr'
  have hoption : ∀ {name link}, Option.Rel r.Names name link → Option.Rel r'.Names name link := by
    intro name link h
    cases h with
    | none => exact .none
    | some h => exact .some (hnames _ _ h)
  have hfields : ∀ item decl, r.DeclaresField item decl → r'.DeclaresField item decl :=
    fun _ _ h => h.keep hextends hr'
  obtain ⟨decls, hdecls, hfind⟩ := h.syntheticFields
  exact {
    superclass := hoption h.superclass
    interfaces := h.interfaces.imp hnames
    outerClass := hoption h.outerClass
    declaringClass := hoption h.declaringClass
    memberTypes := h.memberTypes.imp hnames
    constructors := h.constructors.imp fun _ _ h => h.keep hextends hr'
    methods := h.methods.imp fun _ _ h => h.keep hextends hr'
    fields := h.fields.imp hfields
    syntheticFields := ⟨decls, hdecls.imp hfields, hfind⟩ }

end Keep

namespace Fulfils

variable {item : ClassItem} {parts : Parts} (h : r.Fulfils item d parts)
include h

/-- Every name that the class refers to is that of a type. -/
lemma names (hname : name ∈ item.references d) : ∃ t, r.Names name t := by
  have hlist : ∀ {names : List String} {ts : List Handle}, List.Forall₂ r.Names names ts →
      name ∈ names → ∃ t, r.Names name t := by
    intro names ts h hmem
    obtain ⟨t, -, ht⟩ := exists_of_forall₂ h hmem
    exact ⟨t, ht⟩
  have hoption : ∀ {o : Option String} {link : Option Handle}, Option.Rel r.Names o link →
      name ∈ o.toList → ∃ t, r.Names name t := by
    intro o link h hmem
    cases h with
    | none => simp at hmem
    | some h =>
      obtain rfl : name = _ := by simpa using hmem
      exact ⟨_, h⟩
  simp only [ClassItem.references, ClassItem.partNames, List.mem_append, List.mem_flatMap,
    List.mem_map, List.mem_cons] at hname
  rcases hname with
    hname | ((((((hname | hname) | hname) | hname) | hname) | hname) | hname) | hname
  · exact hoption h.superclass hname
  · exact hlist h.interfaces hname
  · exact hoption h.outerClass hname
  · exact hoption h.declaringClass hname
  · exact hlist h.memberTypes hname
  · obtain ⟨c, hc, hname⟩ := hname
    obtain ⟨decl, -, -, hparameters, hthrown⟩ := exists_of_forall₂ h.constructors hc
    exact hname.elim (hlist hparameters) (hlist hthrown)
  · obtain ⟨m, hm, hname⟩ := hname
    obtain ⟨decl, -, -, hparameters, hresult, hthrown⟩ := exists_of_forall₂ h.methods hm
    rcases hname with hname | rfl | hname
    · exact hlist hparameters hname
    · exact ⟨_, hresult⟩
    · exact hlist hthrown hname
  · obtain ⟨f, hf, rfl⟩ := hname
    obtain ⟨decl, -, htype, -⟩ := exists_of_forall₂ h.fields hf
    exact ⟨_, htype⟩
  · obtain ⟨f, hf, rfl⟩ := hname
    obtain ⟨decls, hdecls, -⟩ := h.syntheticFields
    obtain ⟨decl, -, htype, -⟩ := exists_of_forall₂ hdecls hf
    exact ⟨_, htype⟩

lemma consistent : item.Consistent := by
  obtain ⟨decls, hdecls, -, hagree⟩ := h.syntheticFields
  intro f hf g hg hfg
  obtain ⟨f', hf', hftype, hfdecl⟩ := exists_of_forall₂ hdecls hf
  obtain ⟨g', hg', hgtype, hgdecl⟩ := exists_of_forall₂ hdecls hg
  have hnames : f'.name = g'.name := by
    rw [hfdecl, hgdecl]
    exact hfg
  rw [hftype.ofClassName_eq, hgtype.ofClassName_eq, hagree f' hf' g' hg' hnames]

end Fulfils

end Registry

/-! ## Settled classes -/

/-- The draft holds all that the recipe makes of it. -/
def Recipe.Fulfilled (r : Registry) (d : String) (draft : Draft) : Recipe → Prop
  | builtin type => draft.loadError = none ∧ ∀ name ∈ type.references, ∃ t, r.Names name t
  | described item => ∃ parts, r.Fulfils item d parts ∧ draft = item.filled parts

lemma Recipe.Fulfilled.keep {draft : Draft} {recipe : Recipe} (h : recipe.Fulfilled r d draft)
    (hextends : r.Extends r') (hr' : r'.Sound) : recipe.Fulfilled r' d draft := by
  cases recipe with
  | builtin type =>
    refine ⟨h.1, fun name hname => ?_⟩
    obtain ⟨t, ht⟩ := h.2 name hname
    exact ⟨t, ht.keep hextends hr'⟩
  | described item =>
    obtain ⟨parts, hparts, hdraft⟩ := h
    exact ⟨parts, hparts.keep hextends hr', hdraft⟩

lemma Recipe.Fulfilled.loadError {draft : Draft} {recipe : Recipe}
    (h : recipe.Fulfilled r d draft) : draft.loadError = none := by
  cases recipe with
  | builtin type => exact h.1
  | described item =>
    obtain ⟨parts, -, rfl⟩ := h
    exact item.loadError_filled parts

lemma Recipe.Fulfilled.names {draft : Draft} {recipe : Recipe} (h : recipe.Fulfilled r d draft)
    (hname : name ∈ recipe.references d) : ∃ t, r.Names name t := by
  cases recipe with
  | builtin type => exact h.2 name hname
  | described item =>
    obtain ⟨parts, hparts, -⟩ := h
    exact hparts.names hname

lemma Recipe.Fulfilled.sensible {draft : Draft} {recipe : Recipe}
    (h : recipe.Fulfilled r d draft) : recipe.Sensible d := by
  refine ⟨fun name hname => ?_, ?_⟩
  · obtain ⟨t, ht⟩ := h.names hname
    exact ⟨_, ht.ofClassName_eq⟩
  · rintro item rfl
    obtain ⟨parts, hparts, -⟩ := h
    exact hparts.consistent

namespace Source

variable {source : Source} {P Q : Registry → Handle → Prop}

/-- The class is filled in. -/
def Complete (source : Source) (r : Registry) (t : Handle) : Prop :=
  ∃ recipe draft, source.recipe? (r.descriptor t) = some recipe ∧
    r.shape t = .declared (.draft draft) ∧ recipe.Fulfilled r (r.descriptor t) draft

/-- The class could not be filled in. -/
def Failed (source : Source) (r : Registry) (t : Handle) : Prop :=
  ∃ recipe, source.recipe? (r.descriptor t) = some recipe ∧ ¬ source.Loadable (r.descriptor t) ∧
    ∀ item, recipe = .described item → r.loadError t ≠ none

/-- The class is filled in, or it could not be filled in. -/
def Settled (source : Source) (r : Registry) (t : Handle) : Prop :=
  source.Complete r t ∨ source.Failed r t

/-- A property of a class that it keeps as long as the class itself is not changed. -/
def Lasting (P : Registry → Handle → Prop) : Prop :=
  ∀ {r r' t}, P r t → r.Issued t → r'.shape t = r.shape t → r.Extends r' → r'.Sound → P r' t

lemma lasting_complete (source : Source) : Lasting source.Complete := by
  rintro r r' t ⟨recipe, draft, hrecipe, hs, hfulfilled⟩ ht hshape hextends hr'
  refine ⟨recipe, draft, ?_, hshape.trans hs, ?_⟩
  · rwa [hextends.descriptor_eq ht]
  · rw [hextends.descriptor_eq ht]
    exact hfulfilled.keep hextends hr'

lemma lasting_settled (source : Source) : Lasting source.Settled := by
  rintro r r' t (hcomplete | ⟨recipe, hrecipe, hnot, hbroken⟩) ht hshape hextends hr'
  · exact Or.inl (source.lasting_complete hcomplete ht hshape hextends hr')
  · have hd := hextends.descriptor_eq ht
    refine Or.inr ⟨recipe, hd.symm ▸ hrecipe, hd.symm ▸ hnot, fun item hitem => ?_⟩
    rw [Registry.loadError, Registry.declaration?, hshape]
    exact hbroken item hitem

lemma Complete.loadError (h : source.Complete r t) : r.loadError t = none := by
  obtain ⟨recipe, draft, -, hs, hfulfilled⟩ := h
  exact (Registry.loadError_of_declared hs).trans hfulfilled.loadError

/-- The second registry comes from the first by loads, and the classes that are new in it have a
property. -/
structure Adds (source : Source) (P : Registry → Handle → Prop) (r r' : Registry) : Prop where
  loads : source.Loads r r'
  new : ∀ {t origin}, ¬ r.Issued t → r'.shape t = .declared origin → P r' t

namespace Adds

lemma refl (source : Source) (P : Registry → Handle → Prop) (r : Registry) :
    source.Adds P r r :=
  ⟨Loads.refl source r, fun ht hs => absurd (Registry.issued_of_declared hs) ht⟩

lemma mono (h : source.Adds P r r') (hPQ : ∀ {t}, P r' t → Q r' t) : source.Adds Q r r' :=
  ⟨h.loads, fun ht hs => hPQ (h.new ht hs)⟩

lemma settled (h : source.Adds source.Complete r r') : source.Adds source.Settled r r' :=
  h.mono Or.inl

lemma trans (h : source.Adds P r r') (h' : source.Adds P r' r'') (hP : Lasting P)
    (hr : r.Sound) : source.Adds P r r'' := by
  refine ⟨h.loads.trans h'.loads, fun {t origin} ht hs => ?_⟩
  by_cases ht' : r'.Issued t
  · have hshape := h'.loads.grows.shape_eq t ht'
    exact hP (h.new ht (hshape ▸ hs)) ht' hshape h'.loads.grows.toExtends
      (h'.loads.sound (h.loads.sound hr))
  · exact h'.new ht' hs

end Adds

/-- All classes of the registry are settled. -/
structure Tidy (source : Source) (r : Registry) : Prop where
  sound : r.Sound
  settled : ∀ {t origin}, r.shape t = .declared origin → source.Settled r t

lemma tidy_initial (source : Source) : source.Tidy .initial :=
  ⟨Registry.sound_initial, fun hs => absurd hs Registry.shape_initial_ne_declared⟩

lemma Tidy.adds (h : source.Tidy r) (hadds : source.Adds source.Settled r r') :
    source.Tidy r' := by
  have hr' := hadds.loads.sound h.sound
  refine ⟨hr', fun {t origin} hs => ?_⟩
  by_cases ht : r.Issued t
  · have hshape := hadds.loads.grows.shape_eq t ht
    exact source.lasting_settled (h.settled (hshape ▸ hs)) ht hshape
      hadds.loads.grows.toExtends hr'
  · exact hadds.new ht hs

end Source

end TypeGraph
