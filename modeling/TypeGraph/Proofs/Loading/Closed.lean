import TypeGraph.Proofs.Loading.Outcome

/-!
# Closed class paths

A class path is closed when every name in it is that of a type: a primitive type, a class that it
describes, a built-in class, or an array of one of these. All its classes can be loaded then,
whatever was asked for before. Each of them declares what its description says, also when the
classes refer to each other in circles.
-/

namespace TypeGraph

open ClassPath

/-! ## Closed descriptions -/

namespace ClassPath

variable {items : List ClassItem} {d name : String}

/-- The type is primitive, described or built in. -/
def Offers (items : List ClassItem) (d : String) : Prop :=
  Descriptor.isPrimitive d = true ∨
    (∃ item ∈ items, Descriptor.ofClassName item.name = .ok d) ∨
    d ∈ Builtin.all.map Builtin.descriptor

instance (items : List ClassItem) (d : String) : Decidable (Offers items d) :=
  inferInstanceAs (Decidable (_ ∨ (∃ item ∈ items, _) ∨ d ∈ Builtin.all.map Builtin.descriptor))

/-- The name is that of a type that is provided, or of an array of such types. -/
def Knows (items : List ClassItem) (name : String) : Prop :=
  ∃ c, Descriptor.ofClassName name = .ok c ∧ Offers items (Descriptor.elementOf c)

instance (items : List ClassItem) (name : String) : Decidable (Knows items name) :=
  match h : Descriptor.ofClassName name with
  | .ok c => decidable_of_iff (Offers items (Descriptor.elementOf c)) (by simp [Knows, h])
  | .error _ => isFalse (by simp [Knows, h])

/-- All names in the descriptions are known, and no description contradicts itself. -/
structure Closed (items : List ClassItem) : Prop where
  trimmed : ∀ item ∈ items, item.Trimmed
  knows : ∀ item ∈ items, ∀ name ∈ item.mentioned, Knows items name
  consistent : ∀ item ∈ items, item.Consistent

end ClassPath

/-! ## What a class declares -/

namespace Registry

variable {r : Registry} {item : ClassItem} {d : String} {parts : Parts}

/-- The superclass, if any, is the one that is described. An interface has none. A class extends the
root class by default, except for the root class itself. -/
inductive Extending (r : Registry) (item : ClassItem) (d : String) : Option Handle → Prop
  | interface (hkind : item.kind = .interface) : Extending r item d none
  | named {name : String} {t : Handle} (hkind : item.kind = .ordinary)
      (hsuperclass : item.superclass = some name) (ht : r.Names name t) :
      Extending r item d (some t)
  | default {t : Handle} (hkind : item.kind = .ordinary) (hsuperclass : item.superclass = none)
      (hd : d ≠ "Ljava/lang/Object;") (ht : r.Names "java.lang.Object" t) :
      Extending r item d (some t)
  | root (hkind : item.kind = .ordinary) (hsuperclass : item.superclass = none)
      (hd : d = "Ljava/lang/Object;") : Extending r item d none

lemma extending_of_names {link : Option Handle}
    (h : Option.Rel r.Names (item.superclassName d) link) : r.Extending item d link := by
  cases hkind : item.kind with
  | interface =>
    rw [ClassItem.superclassName, ClassItem.isInterface, hkind] at h
    cases h
    exact .interface hkind
  | ordinary =>
    rw [ClassItem.superclassName, ClassItem.isInterface, hkind] at h
    cases hsuperclass : item.superclass with
    | some name =>
      rw [hsuperclass] at h
      cases h with
      | some ht => exact .named hkind hsuperclass ht
    | none =>
      rw [hsuperclass] at h
      by_cases hd : d = Descriptor.object
      · simp only [hd] at h
        cases h
        exact .root hkind hsuperclass hd
      · simp only [hd] at h
        cases h with
        | some ht => exact .default hkind hsuperclass hd ht

/-- The declaration says what the description says, in the same order, with the type for every name.
A class that lists no constructors has the public one without parameters. Of synthetic fields with
one name the first one counts. -/
structure Declares (r : Registry) (item : ClassItem) (d : String) (decl : Declaration) : Prop where
  descriptor : decl.descriptor = d
  isInterface : decl.isInterface = true ↔ item.kind = .interface
  access : decl.access = item.access
  isFinal : decl.isFinal = item.isFinal
  isAbstract : decl.isAbstract = true ↔ item.kind = .interface ∨ item.isAbstract = true
  location : decl.location = item.span
  loadError : decl.loadError = none
  superclass : ∃ link, decl.superclass = .ok link ∧ r.Extending item d link
  interfaces : ∃ ts, decl.interfaces = .ok ts ∧ List.Forall₂ r.Names item.interfaces ts
  outerClass : ∃ link, decl.outerClass = .ok link ∧ Option.Rel r.Names item.outer link
  declaringClass : ∃ link, decl.declaringClass = .ok link ∧ Option.Rel r.Names item.declaring link
  memberTypes : ∃ ts, decl.memberTypes = .ok ts ∧ List.Forall₂ r.Names item.memberTypes ts
  constructors : if item.constructors = [] ∧ item.kind = .ordinary
    then decl.constructors = [{ access := .toAll, parameters := [], thrown := [] }]
    else List.Forall₂ r.DeclaresConstructor item.constructors decl.constructors
  methods : List.Forall₂ r.DeclaresMethod item.methods decl.methods
  fields : List.Forall₂ r.DeclaresField item.fields decl.fields
  syntheticFields : ∃ decls, List.Forall₂ r.DeclaresField item.syntheticFields decls ∧
    ∀ name, decl.syntheticFields.find? (·.name = name) = decls.find? (·.name = name)

/-- What a class declares when it is filled in. -/
lemma declaration_filled (item : ClassItem) (parts : Parts) :
    (item.filled parts).declaration = {
      descriptor := Descriptor.ofRawName item.name
      isInterface := item.isInterface
      access := item.access
      isFinal := item.isFinal
      isAbstract := item.isInterface || item.isAbstract
      location := item.span
      superclass := .ok parts.superclass
      interfaces := .ok parts.interfaces
      outerClass := .ok parts.outerClass
      declaringClass := .ok parts.declaringClass
      memberTypes := .ok parts.memberTypes
      constructors := if parts.constructors.isEmpty && !item.isInterface then [{}]
        else parts.constructors
      methods := parts.methods
      fields := parts.fields
      syntheticFields := parts.syntheticFields } := by
  rw [ClassItem.filled, item.draft_eq]
  rfl

lemma declares_filled (h : r.Fulfils item d parts) (hd : item.draft.descriptor = d) :
    r.Declares item d (item.filled parts).declaration := by
  have hinterface : item.isInterface = true ↔ item.kind = .interface := by
    simp [ClassItem.isInterface]
  have hempty : parts.constructors.isEmpty = true ↔ item.constructors = [] := by
    rw [List.isEmpty_iff, ← List.length_eq_zero_iff, ← h.constructors.length_eq,
      List.length_eq_zero_iff]
  obtain ⟨decls, hdecls, hfind, -⟩ := h.syntheticFields
  rw [declaration_filled]
  exact {
    descriptor := by rw [← hd, item.draft_eq]
    isInterface := hinterface
    access := rfl
    isFinal := rfl
    isAbstract := by rw [Bool.or_eq_true, hinterface]
    location := rfl
    loadError := rfl
    superclass := ⟨_, rfl, extending_of_names h.superclass⟩
    interfaces := ⟨_, rfl, h.interfaces⟩
    outerClass := ⟨_, rfl, h.outerClass⟩
    declaringClass := ⟨_, rfl, h.declaringClass⟩
    memberTypes := ⟨_, rfl, h.memberTypes⟩
    constructors := by
      by_cases hnone : item.constructors = [] ∧ item.kind = .ordinary
      · simp [hempty.2 hnone.1, ClassItem.isInterface, hnone]
      · have hlisted : (parts.constructors.isEmpty && !item.isInterface) = false := by
          cases hkind : item.kind <;> simp_all [ClassItem.isInterface]
        simpa [hnone, hlisted] using h.constructors
    methods := h.methods
    fields := h.fields
    syntheticFields := ⟨decls, hdecls, hfind⟩ }

end Registry

/-! ## Loading -/

lemma ClassPath.offers_builtin (items : List ClassItem) (type : Builtin) :
    Offers items type.descriptor :=
  Or.inr (Or.inr (List.mem_map_of_mem (by cases type <;> decide)))

namespace Source

open Load

variable {path : ClassPath} {items : List ClassItem} {item : ClassItem} {r : Registry}
  {recipe : Recipe} {d name : String} {t : Handle}

section Closed

variable (hpath : ClassPath.ofItems items = .ok path)
include hpath

lemma recipe_of_offers (h : Offers items d) :
    Descriptor.isPrimitive d = true ∨ ∃ recipe, (classPath path).recipe? d = some recipe := by
  rcases h with hprimitive | ⟨item, hitem, hname⟩ | hbuiltin
  · exact Or.inl hprimitive
  · obtain ⟨d', hname', hfind⟩ := ClassPath.find?_of_mem hpath hitem
    obtain rfl := Except.ok.inj (hname.symm.trans hname')
    exact Or.inr ⟨.described item, by simp [recipe?, hfind]⟩
  · obtain ⟨type, -, rfl⟩ := List.mem_map.1 hbuiltin
    cases hfind : path.find? type.descriptor with
    | none => exact Or.inr ⟨.builtin type, (recipe?_builtin type).2 hfind⟩
    | some item => exact Or.inr ⟨.described item, by simp [recipe?, hfind]⟩

variable (hclosed : Closed items)
include hclosed

lemma knows_of_references (hrecipe : (classPath path).recipe? d = some recipe)
    (hname : name ∈ recipe.references d) : Knows items name := by
  cases recipe with
  | builtin type =>
    obtain ⟨c, hc, hprimitive | ⟨other, hother⟩⟩ := Builtin.ofClassName_of_references hname
    · exact ⟨c, hc, Or.inl hprimitive⟩
    · exact ⟨c, hc, hother ▸ offers_builtin items other⟩
  | described item =>
    have hitem := (ClassPath.mem_of_find?_ofItems hpath (find?_of_described hrecipe)).1
    rcases ClassItem.mentioned_of_references hname with hname | rfl
    · exact hclosed.knows item hitem name hname
    · exact ⟨Builtin.object.descriptor, by decide +kernel, offers_builtin items .object⟩

/-- Everything that a closed class path offers is loadable. -/
lemma loadable_of_offers (h : Offers items d) : (classPath path).Loadable d := by
  refine loadable_of_closed (P := Offers items) (fun d hd => ?_) (fun d d' _ hrefers => ?_) h
  · refine (recipe_of_offers hpath hd).imp id ?_
    rintro ⟨recipe, hrecipe⟩
    refine ⟨recipe, hrecipe, fun name hname => ?_, ?_⟩
    · obtain ⟨c, hc, -⟩ := knows_of_references hpath hclosed hrecipe hname
      exact ⟨c, hc⟩
    · rintro item rfl
      exact hclosed.consistent item
        (ClassPath.mem_of_find?_ofItems hpath (find?_of_described hrecipe)).1
  · cases hrefers with
    | root => exact offers_builtin items .object
    | element hrecipe hname hc =>
      obtain ⟨c, hc', hoffers⟩ := knows_of_references hpath hclosed hrecipe hname
      obtain rfl := Except.ok.inj (hc'.symm.trans hc)
      exact hoffers

lemma loadableName_of_mem (hitem : item ∈ items) : (classPath path).LoadableName item.name := by
  obtain ⟨d, hname, hfind⟩ := ClassPath.find?_of_mem hpath hitem
  have hclass := (ClassPath.keyed_ofItems hpath).isClass hfind
  refine ⟨d, hname, (loadableAt_of_class (by simpa [Descriptor.isArray] using hclass.2.2)).2 ?_⟩
  exact loadable_of_offers hpath hclosed (Or.inr (Or.inl ⟨item, hitem, hname⟩))

/-- A class of a closed class path that is registered declares what its description says. -/
lemma declares_of_names (h : (classPath path).Tidy r) (hitem : item ∈ items)
    (ht : r.Names item.name t) :
    ∃ d decl, Descriptor.ofClassName item.name = .ok d ∧ r.lookup d = some t ∧
      r.declaration? t = some decl ∧ r.Declares item d decl := by
  have hname := ht.ofClassName_eq
  obtain ⟨d, hd, hfind⟩ := ClassPath.find?_of_mem hpath hitem
  obtain rfl : d = r.descriptor t := Except.ok.inj (hd.symm.trans hname)
  have hrecipe : (classPath path).recipe? (r.descriptor t) = some (.described item) := by
    simp [recipe?, hfind]
  obtain ⟨origin, hs⟩ := h.sound.exists_declared ((ClassPath.keyed_ofItems hpath).isClass hfind)
  rcases h.settled hs with ⟨recipe, draft, hrecipe', hdraft, hfulfilled⟩ | ⟨-, -, hnot, -⟩
  · obtain rfl := Option.some.inj (hrecipe.symm.trans hrecipe')
    obtain ⟨parts, hparts, rfl⟩ := hfulfilled
    have hdescriptor := (orderly_classPath hpath hclosed.trimmed).honest _ _ hrecipe
    refine ⟨_, _, hname, h.sound.canonical.lookup_descriptor ht.issued, ?_,
      Registry.declares_filled hparts hdescriptor⟩
    rw [Registry.declaration?, hdraft]
    rfl
  · exact absurd (loadable_of_offers hpath hclosed (Or.inr (Or.inl ⟨item, hitem, hname⟩))) hnot

lemma loadAll_delivers :
    Delivers (classPath path) (classPath path).known (fun _ => True) (loadAll path)
      (fun ts r => List.Forall₂ (fun item t => r.Names item.name t) items ts) False := by
  have hsource := orderly_classPath hpath hclosed.trimmed
  have hnames : path.names = items.map ClassItem.name := by
    rw [← ClassPath.classes_ofItems hpath, List.map_map]
    rfl
  rw [loadAll, requireAll, hnames]
  refine (Delivers.mapM (R := Registry.Names) (fun name hname => ?_) kept_names).conseq
    (fun _ h => h) (fun ts r _ h => List.forall₂_map_left_iff.1 h) id
  obtain ⟨item, hitem, rfl⟩ := List.mem_map.1 hname
  refine (require_delivers hsource none item.name).conseq (fun _ h => h) ?_
    (fun hnot => hnot (loadableName_of_mem hpath hclosed hitem))
  rintro t r hr ⟨c, hc, hwhole⟩
  exact Registry.names_of_descriptor hr hc hwhole.issued hwhole.descriptor

end Closed

/-- **Loading a closed class path.** After any earlier requests, all classes of a closed class path
are loaded, and each of them declares what its description says. The nesting of loads ends: it does
not matter what is done below the depth that is given by the number of classes. -/
theorem loadAll_closed (hpath : ClassPath.ofItems items = .ok path) (hclosed : Closed items)
    (earlier : List (Option Span × String)) :
    ∃ ts r, (loadAll path).result ((classPath path).after earlier .initial) = (.ok ts, r) ∧
      List.Forall₂ (fun item t => ∃ d decl, Descriptor.ofClassName item.name = .ok d ∧
        r.lookup d = some t ∧ r.declaration? t = some decl ∧ r.Declares item d decl) items ts ∧
      ∀ bottom depth, (classPath path).known.length < depth →
        (path.names.mapM (Load.require ((classPath path).unrolled bottom depth) none)).result
          ((classPath path).after earlier .initial) = (.ok ts, r) := by
  have hsource := orderly_classPath hpath hclosed.trimmed
  have htidy := (tidy_initial (classPath path)).after hsource earlier
  have hload := loadAll_delivers hpath hclosed _ (.of_tidy htidy) trivial
  rcases hres : (loadAll path).result ((classPath path).after earlier .initial) with ⟨e | ts, r⟩ <;>
    rw [hres] at hload
  · exact hload.2.elim
  · obtain ⟨hadds, hnames⟩ := hload
    refine ⟨ts, r, rfl, ?_, fun bottom depth hdepth => ?_⟩
    · have hmem := (List.forall₂_and_left items ts).2 ⟨fun _ h => h, hnames⟩
      exact hmem.imp fun item t h =>
        declares_of_names hpath hclosed (htidy.adds hadds.settled) h.1 h.2
    · exact (requireAll_unrolled _ bottom hdepth htidy.sound.canonical none _).trans hres

/-- Two classes that extend each other, and an interface that is a member of one of them. -/
def circle : List ClassItem :=
  [{ name := "p.A"
     superclass := some "p.B"
     interfaces := ["p.A.I"]
     memberTypes := ["p.A.I"]
     constructors := [{ parameters := ["p.B[][]"], thrown := ["java.lang.String"] }]
     syntheticFields := [{ name := "this$0", type := "p.B" },
       { name := "this$0", type := " p.B " }] },
   { name := "p.B"
     superclass := some "p.A"
     fields := [{ name := "first", type := "p.A" }, { name := "count", type := "int" }] },
   { name := "p.A.I"
     kind := .interface
     superclass := some "p.Missing"
     interfaces := ["java.io.Serializable"]
     declaring := some "p.A"
     methods := [{ name := "f", parameters := ["p.A.I", "char[]"], result := "p.B" }] }]

/-- The class path of these descriptions. -/
def circlePath : ClassPath := ⟨["Lp/A;", "Lp/B;", "Lp/A/I;"].zip circle⟩

/-- The three classes are loaded after the second one and a missing one were asked for. -/
theorem loadAll_closed_circle :
    Closed circle ∧ ∃ ts r, (loadAll circlePath).result
      ((classPath circlePath).after [(none, "p.B"), (none, "p.Missing")] .initial) = (.ok ts, r) ∧
      List.Forall₂ (fun item t => ∃ d decl, Descriptor.ofClassName item.name = .ok d ∧
        r.lookup d = some t ∧ r.declaration? t = some decl ∧ r.Declares item d decl) circle ts := by
  have hpath : ClassPath.ofItems circle = .ok circlePath := by decide +kernel
  have hclosed : Closed circle := ⟨by decide +kernel, by decide +kernel, by decide +kernel⟩
  obtain ⟨ts, r, hload, hdeclares, -⟩ :=
    loadAll_closed hpath hclosed [(none, "p.B"), (none, "p.Missing")]
  exact ⟨hclosed, ts, r, hload, hdeclares⟩

end Source

end TypeGraph
