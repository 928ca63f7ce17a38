import TypeGraph.Proofs.Loading.Finding

/-!
# Filling in, stage by stage

While a class is filled in, others may refer to it already. It is the only class then that is
neither complete nor failed. This file follows the draft of the class from one stage to the next:
each step finds the types of one part and puts them into the draft, until the draft holds all that
is described. A step fails only if the class is not loadable.
-/

namespace TypeGraph

variable {α : Type} {source : Source} {fresh : List String} {r₀ r r' : Registry} {recipe : Recipe}
  {d : String}

/-! ## A class that is being filled in -/

/-- The class that was registered as the next type of the given registry is being filled in, and
its draft has come so far. All classes that were loaded for it are complete. -/
structure Source.Underway (source : Source) (fresh : List String) (r₀ : Registry) (recipe : Recipe)
    (stage : Draft → Registry → Prop) (r : Registry) : Prop where
  filling : source.Filling r₀ recipe r
  others : ∀ {t origin}, t ≠ r₀.next → ¬ r₀.Issued t → r.shape t = .declared origin →
    source.Complete r t
  ready : source.Ready fresh r
  draft : ∃ draft, r.shape r₀.next = .declared (.draft draft) ∧ stage draft r

/-- The class could not be filled in. All classes that were loaded for it are settled. -/
def Source.Stopped (source : Source) (r₀ r : Registry) : Prop :=
  ∀ {t origin}, t ≠ r₀.next → ¬ r₀.Issued t → r.shape t = .declared origin → source.Settled r t

namespace Source

variable {stage stage' : Draft → Registry → Prop}

/-- The classes that were loaded before a step, and those that were loaded by it. -/
lemma new_of_adds {P : Registry → Handle → Prop} (hP : Lasting P) (hr : r.Sound)
    (hold : ∀ {t origin}, t ≠ r₀.next → ¬ r₀.Issued t → r.shape t = .declared origin → P r t)
    (hadds : source.Adds P r r') {t : Handle} {origin : Origin} (hne : t ≠ r₀.next)
    (ht : ¬ r₀.Issued t) (hs : r'.shape t = .declared origin) : P r' t := by
  by_cases ht' : r.Issued t
  · have hshape := hadds.loads.grows.shape_eq t ht'
    exact hP (hold hne ht (hshape ▸ hs)) ht' hshape hadds.loads.grows.toExtends
      (hadds.loads.sound hr)
  · exact hadds.new ht' hs

namespace Underway

lemma adds (h : source.Underway fresh r₀ recipe stage r)
    (hstage : ∀ draft, Load.Kept (stage draft)) (hadds : source.Adds source.Complete r r') :
    source.Underway fresh r₀ recipe stage r' := by
  have hr := h.ready.sound
  obtain ⟨draft, hs, hdraft⟩ := h.draft
  refine ⟨(Filling.stable source r₀ recipe).keep h.filling hadds.loads, ?_, h.ready.adds hadds,
    draft, ?_, hstage draft hdraft hadds.loads.grows.toExtends (hadds.loads.sound hr)⟩
  · exact fun hne ht hs => new_of_adds source.lasting_complete hr h.others hadds hne ht hs
  · rw [hadds.loads.grows.shape_eq _ (Registry.issued_of_declared hs), hs]

lemma stop (h : source.Underway fresh r₀ recipe stage r)
    (hadds : source.Adds source.Settled r r') : source.Stopped r₀ r' :=
  fun hne ht hs => new_of_adds source.lasting_settled h.ready.sound
    (fun hne ht hs => Or.inl (h.others hne ht hs)) hadds hne ht hs

/-- The draft is edited, and nothing else. -/
lemma edit (h : source.Underway fresh r₀ recipe stage r) {change : Draft → Draft}
    {new : List Handle} (hedits : Draft.Edits change new []) (hnew : ∀ s ∈ new, r.Issued s)
    (hstage : ∀ draft, stage draft r → stage' (change draft) (r.edit r₀.next change)) :
    source.Underway fresh r₀ recipe stage' (r.edit r₀.next change) := by
  have hfilling := h.filling.edit hedits hnew
  have hsound := hfilling.loads.sound hfilling.before
  have hextends : r.Extends (r.edit r₀.next change) := Registry.extends_edits hedits r₀.next
  obtain ⟨draft, hs, hdraft⟩ := h.draft
  refine ⟨hfilling, fun {t origin} hne ht hshape => ?_, ⟨hsound, fun {t e} he => ?_,
    fun hrecipe => by simpa using h.ready.covers hrecipe⟩, change draft, ?_, hstage draft hdraft⟩
  · have hsame : (r.edit r₀.next change).shape t = r.shape t := Registry.shape_edit_of_ne hne
    rw [hsame] at hshape
    exact source.lasting_complete (h.others hne ht hshape) (Registry.issued_of_declared hshape)
      hsame hextends hsound
  · by_cases hne : t = r₀.next
    · obtain ⟨draft', hs', -, hwhole⟩ := hfilling.draft
      rw [hne, Registry.loadError_of_declared hs'] at he
      exact absurd (hwhole.symm.trans he) (by simp)
    · have hsame : (r.edit r₀.next change).loadError t = r.loadError t := by
        rw [Registry.loadError, Registry.declaration?, Registry.shape_edit_of_ne hne]
        rfl
      rw [hsame] at he
      obtain ⟨origin, hshape, -⟩ := Registry.declared_of_loadError he
      rw [hextends.descriptor_eq (Registry.issued_of_declared hshape)]
      exact h.ready.fair he
  · rw [Registry.shape_edit_self, hs]
    rfl

end Underway

end Source

namespace Load

/-! ## Steps of filling in -/

/-- All of the given names are looked up. If one is not found, the class is not loadable. -/
def Provides (source : Source) (fresh : List String) (d : String) (require : String → Load Handle)
    (names : List String) : Prop :=
  ∀ name ∈ names, Delivers source fresh (fun _ => True) (require name) (fun t r => r.Names name t)
    (¬ source.Loadable d)

lemma Provides.mono {require : String → Load Handle} {names names' : List String}
    (h : Provides source fresh d require names') (hnames : ∀ name ∈ names, name ∈ names') :
    Provides source fresh d require names :=
  fun name hname => h name (hnames name hname)

lemma Provides.mapM {require : String → Load Handle} {names : List String}
    (h : Provides source fresh d require names) :
    Delivers source fresh (fun _ => True) (names.mapM require)
      (fun ts r => List.Forall₂ r.Names names ts) (¬ source.Loadable d) :=
  Delivers.mapM h kept_names

lemma Kept.and_names {P : Registry → Prop} {names : List String} {ts : List Handle} (hP : Kept P) :
    Kept fun r => P r ∧ List.Forall₂ r.Names names ts :=
  hP.and fun _ _ h hextends hr' => h.imp fun _ _ h => h.keep hextends hr'

/-- The step brings the draft from one stage to the next, or it fails because the class is not
loadable. -/
def Advances (source : Source) (fresh : List String) (r₀ : Registry) (recipe : Recipe) (d : String)
    (stage stage' : Draft → Registry → Prop) (q : Load Unit) : Prop :=
  Triple (source.Underway fresh r₀ recipe stage) q (fun _ => source.Underway fresh r₀ recipe stage')
    fun _ r => source.Stopped r₀ r ∧ ¬ source.Loadable d

namespace Advances

variable {stage stage' stage'' : Draft → Registry → Prop}

lemma bind {q : Load Unit} {f : Unit → Load Unit}
    (hq : Advances source fresh r₀ recipe d stage stage' q)
    (hf : Advances source fresh r₀ recipe d stage' stage'' (f ())) :
    Advances source fresh r₀ recipe d stage stage'' (q >>= f) :=
  Triple.bind hq fun _ => hf

lemma forM_from (stages : List α → Draft → Registry → Prop) {f : α → Load Unit} {all : List α}
    (hf : ∀ done a, (∀ b ∈ done, b ∈ all) → a ∈ all →
      Advances source fresh r₀ recipe d (stages done) (stages (done ++ [a])) (f a))
    (done rest : List α) (hall : ∀ a ∈ done ++ rest, a ∈ all) :
    Advances source fresh r₀ recipe d (stages done) (stages (done ++ rest)) (rest.forM f) := by
  induction rest generalizing done with
  | nil =>
    rw [List.append_nil]
    exact Triple.pure () fun r hr => hr
  | cons a rest ih =>
    have hrest := ih (done ++ [a]) (by simpa using hall)
    rw [List.append_assoc] at hrest
    exact (hf done a (fun b hb => hall b (by simp [hb])) (hall a (by simp))).bind hrest

/-- The parts of a list are put into the draft one by one. -/
lemma forM (stages : List α → Draft → Registry → Prop) {f : α → Load Unit} {all : List α}
    (hf : ∀ done a, (∀ b ∈ done, b ∈ all) → a ∈ all →
      Advances source fresh r₀ recipe d (stages done) (stages (done ++ [a])) (f a)) :
    Advances source fresh r₀ recipe d (stages []) (stages all) (all.forM f) :=
  forM_from stages hf [] all (by simp)

/-- Types are found for the draft. -/
lemma find {q : Load α} {Q : α → Registry → Prop} {f : α → Load Unit}
    (hq : Delivers source fresh (fun _ => True) q Q (¬ source.Loadable d))
    (hstage : ∀ draft, Kept (stage draft))
    (hf : ∀ a, Advances source fresh r₀ recipe d (fun draft r => stage draft r ∧ Q a r) stage'
      (f a)) :
    Advances source fresh r₀ recipe d stage stage' (q >>= f) := by
  intro r hr
  have hfirst := hq r hr.ready trivial
  rcases hres : q.result r with ⟨e | a, r₁⟩ <;> rw [hres] at hfirst
  · rw [result_bind_error hres]
    exact ⟨hr.stop hfirst.1, hfirst.2⟩
  · rw [result_bind_ok hres]
    obtain ⟨hfilling, hothers, hready, draft, hs, hdraft⟩ := hr.adds hstage hfirst.1
    exact hf a r₁ ⟨hfilling, hothers, hready, draft, hs, hdraft, hfirst.2⟩

/-- The types that were found are put into the draft. -/
lemma edit {change : Draft → Draft} {new : List Handle} (hedits : Draft.Edits change new [])
    (hstage : ∀ draft, Kept (stage draft))
    (hnew : ∀ draft r, stage draft r → ∀ s ∈ new, r.Issued s)
    (hpost : ∀ draft r, stage draft r → stage' (change draft) r) :
    Advances source fresh r₀ recipe d stage stage' (Load.edit r₀.next change) := by
  refine Triple.edit fun r hr => ?_
  obtain ⟨draft, -, hdraft⟩ := hr.draft
  have hissued := hnew draft r hdraft
  have hfilling := hr.filling.edit hedits hissued
  refine hr.edit hedits hissued fun draft hdraft => hpost draft _ ?_
  exact hstage draft hdraft (Registry.extends_edits hedits r₀.next)
    (hfilling.loads.sound hfilling.before)

section Names

variable {require : String → Load Handle}

lemma list {names : List String} {add : Draft → Handle → Draft}
    (hrequire : Provides source fresh d require names)
    (hadd : ∀ s, Draft.Edits (add · s) [s] []) (hstage : ∀ draft, Kept (stage draft))
    (hpost : ∀ ts draft r, stage draft r → List.Forall₂ r.Names names ts →
      stage' (ts.foldl add draft) r) :
    Advances source fresh r₀ recipe d stage stage' (do
      let ts ← names.mapM require
      Load.edit r₀.next fun draft => ts.foldl add draft) := by
  refine find hrequire.mapM hstage fun ts => ?_
  refine edit (.foldl_links hadd ts) (fun draft => (hstage draft).and_names)
    (fun draft r hr s hs => ?_) fun draft r hr => hpost ts draft r hr.1 hr.2
  obtain ⟨name, -, hname⟩ := exists_of_forall₂ hr.2.flip hs
  exact Registry.Names.issued hname

lemma option {name : Option String} {set : Option Handle → Draft → Draft}
    (hrequire : Provides source fresh d require name.toList)
    (hset : ∀ link, Draft.Edits (set link) link.toList []) (hstage : ∀ draft, Kept (stage draft))
    (hpost : ∀ link draft r, stage draft r → Option.Rel r.Names name link →
      stage' (set link draft) r) :
    Advances source fresh r₀ recipe d stage stage' (do
      Load.edit r₀.next (set (← name.mapM require))) := by
  have hfind := Delivers.mapM_option (R := Registry.Names) fun n hn =>
    hrequire n (Option.mem_toList.2 hn)
  refine find hfind hstage fun link => ?_
  refine edit (hset link) (fun draft => (hstage draft).and ?_) (fun draft r hr s hs => ?_)
    fun draft r hr => hpost link draft r hr.1 hr.2
  · intro r r' h hextends hr'
    cases h with
    | none => exact .none
    | some h => exact .some (h.keep hextends hr')
  · cases hr.2 with
    | none => simp at hs
    | some h =>
      obtain rfl : s = _ := by simpa using hs
      exact h.issued

end Names

end Advances

/-! ## Built-in classes -/

section Builtins

variable {require : String → Load Handle} {found : List (String × Handle)} {type : Builtin}

/-- The draft is whole, and the names that were looked up are those of the types that were found. -/
def LookedUp (found : List (String × Handle)) (draft : Draft) (r : Registry) : Prop :=
  draft.loadError = none ∧ ∀ entry ∈ found, r.Names entry.1 entry.2

lemma kept_lookedUp (draft : Draft) : Kept (LookedUp found draft) :=
  fun _ _ h hextends hr' => ⟨h.1, fun entry hentry => (h.2 entry hentry).keep hextends hr'⟩

lemma Advances.lookUp {name : String} {stage : Draft → Registry → Prop} {f : Handle → Load Unit}
    (hrequire : Delivers source fresh (fun _ => True) (require name) (fun t r => r.Names name t)
      (¬ source.Loadable d))
    (hf : ∀ t, Advances source fresh r₀ recipe d (LookedUp ((name, t) :: found)) stage (f t)) :
    Advances source fresh r₀ recipe d (LookedUp found) stage (require name >>= f) := by
  refine Advances.find hrequire kept_lookedUp fun t => (hf t).conseq (fun r hr => ?_)
    (fun _ _ h => h) fun _ _ h => h
  obtain ⟨hfilling, hothers, hready, draft, hs, hdraft, hname⟩ := hr
  refine ⟨hfilling, hothers, hready, draft, hs, hdraft.1, fun entry hentry => ?_⟩
  rcases List.mem_cons.1 hentry with rfl | hentry
  · exact hname
  · exact hdraft.2 entry hentry

/-- A built-in class is complete when all that it refers to was looked up. -/
lemma Advances.fulfil {change : Draft → Draft} {new : List Handle}
    (hedits : Draft.Edits change new []) (hnew : ∀ s ∈ new, s ∈ found.map Prod.snd)
    (hnames : ∀ name ∈ type.references, name ∈ found.map Prod.fst) :
    Advances source fresh r₀ recipe d (LookedUp found)
      (fun draft r => (Recipe.builtin type).Fulfilled r d draft) (Load.edit r₀.next change) := by
  refine Advances.edit hedits kept_lookedUp (fun draft r hr s hs => ?_)
    fun draft r hr => ⟨hedits.loadError_eq_none hr.1, fun name hname => ?_⟩
  · obtain ⟨entry, hentry, rfl⟩ := List.mem_map.1 (hnew s hs)
    exact (hr.2 entry hentry).issued
  · obtain ⟨entry, hentry, rfl⟩ := List.mem_map.1 (hnames name hname)
    exact ⟨_, hr.2 entry hentry⟩

lemma advances_builtin (hrequire : Provides source fresh d require type.references) :
    Advances source fresh r₀ recipe d (LookedUp [])
      (fun draft r => (Recipe.builtin type).Fulfilled r d draft) (type.fill require r₀.next) := by
  have hnothing : type.references = [] → ∀ r, source.Underway fresh r₀ recipe (LookedUp []) r →
      source.Underway fresh r₀ recipe
        (fun draft r => (Recipe.builtin type).Fulfilled r d draft) r := by
    rintro hnone r ⟨hfilling, hothers, hready, draft, hs, hdraft⟩
    exact ⟨hfilling, hothers, hready, draft, hs, hdraft.1, by simp [hnone]⟩
  cases type with
  | cloneable => exact Triple.pure () (hnothing rfl)
  | serializable => exact Triple.pure () (hnothing rfl)
  | object =>
    refine Advances.lookUp (hrequire _ (by simp [Builtin.references])) fun object => ?_
    refine Advances.lookUp (hrequire _ (by simp [Builtin.references])) fun string => ?_
    exact Advances.fulfil (Draft.edits_addMethods _) (by simp) (by simp [Builtin.references])
  | string =>
    refine Advances.lookUp (hrequire _ (by simp [Builtin.references])) fun object => ?_
    refine Advances.lookUp (hrequire _ (by simp [Builtin.references])) fun serializable => ?_
    refine Advances.lookUp (hrequire _ (by simp [Builtin.references])) fun string => ?_
    refine Advances.lookUp (hrequire _ (by simp [Builtin.references])) fun chars => ?_
    exact Advances.fulfil (Draft.edits_linksAndMembers _ _ _ _ _) (by simp)
      (by simp [Builtin.references])

end Builtins

/-! ## Described classes -/

open ClassPath

/-- The draft holds the parts of the given description. -/
def Holds (d : String) (item : ClassItem) (draft : Draft) (r : Registry) : Prop :=
  (Recipe.described item).Fulfilled r d draft

lemma kept_holds {item : ClassItem} (draft : Draft) : Kept (Holds d item draft) :=
  fun _ _ => Recipe.Fulfilled.keep

section Links

variable {require : String → Load Handle} {item : ClassItem}

/-- The description without the members. -/
def linked (item : ClassItem) : ClassItem :=
  { item with
    constructors := []
    methods := []
    fields := []
    syntheticFields := [] }

/-- The description without any parts but the superclass. -/
def bare (item : ClassItem) : ClassItem :=
  { linked item with
    interfaces := []
    outer := none
    declaring := none
    memberTypes := [] }

lemma holds_bare {r : Registry} {superclass : Option Handle}
    (h : Option.Rel r.Names (item.superclassName d) superclass) :
    Holds d (bare item) (item.draft.setSuperclass superclass) r := by
  refine ⟨{ superclass }, ?_, ?_⟩
  · exact ⟨h, .nil, .none, .none, .nil, .nil, .nil, .nil, [], .nil, by simp, by simp⟩
  · rw [← item.filled_empty]
    rfl

/-- Types are put behind those of a list, one by one. -/
lemma foldl_append (add : Draft → Handle → Draft) (get : Draft → List Handle)
    (set : Draft → List Handle → Draft)
    (hadd : ∀ draft t, add draft t = set draft (get draft ++ [t]))
    (hget : ∀ draft ts, get (set draft ts) = ts) (hsame : ∀ draft, set draft (get draft) = draft)
    (hset : ∀ draft ts ts', set (set draft ts) ts' = set draft ts') (ts : List Handle)
    (draft : Draft) : ts.foldl add draft = set draft (get draft ++ ts) := by
  induction ts generalizing draft with
  | nil => rw [List.foldl_nil, List.append_nil, hsame]
  | cons t ts ih =>
    rw [List.foldl_cons, ih, hadd, hget, hset, List.append_assoc]
    rfl

lemma advances_superclass
    (hrequire : Provides source fresh d require (item.superclassName d).toList) :
    Advances source fresh r₀ recipe d (fun draft _ => draft = item.draft) (Holds d (bare item)) (do
      Load.edit r₀.next (Draft.setSuperclass (← (item.superclassName d).mapM require))) :=
  Advances.option hrequire Draft.edits_setSuperclass (fun _ => kept_const _)
    fun _ _ _ hdraft h => hdraft ▸ holds_bare h

lemma advances_interfaces {names : List String}
    (hrequire : Provides source fresh d require names) :
    Advances source fresh r₀ recipe d (Holds d item)
      (Holds d { item with interfaces := item.interfaces ++ names }) (do
        let ts ← names.mapM require
        Load.edit r₀.next fun draft => ts.foldl (fun d i => d.addInterface i) draft) := by
  refine Advances.list hrequire Draft.edits_addInterface kept_holds ?_
  rintro ts _ r ⟨parts, hparts, rfl⟩ hts
  rw [foldl_append (fun d i => d.addInterface i) Draft.interfaces
    (fun draft ts => { draft with interfaces := ts }) (fun _ _ => rfl) (fun _ _ => rfl)
    (fun _ => rfl) fun _ _ _ => rfl]
  exact ⟨{ parts with interfaces := parts.interfaces ++ ts },
    { hparts with interfaces := List.rel_append hparts.interfaces hts }, rfl⟩

lemma advances_outer {name : Option String}
    (hrequire : Provides source fresh d require name.toList) :
    Advances source fresh r₀ recipe d (Holds d item) (Holds d { item with outer := name }) (do
      Load.edit r₀.next (Draft.setOuterClass (← name.mapM require))) := by
  refine Advances.option hrequire Draft.edits_setOuterClass kept_holds ?_
  rintro link _ r ⟨parts, hparts, rfl⟩ hlink
  exact ⟨{ parts with outerClass := link }, { hparts with outerClass := hlink }, rfl⟩

lemma advances_declaring {name : Option String}
    (hrequire : Provides source fresh d require name.toList) :
    Advances source fresh r₀ recipe d (Holds d item) (Holds d { item with declaring := name }) (do
      Load.edit r₀.next (Draft.setDeclaringClass (← name.mapM require))) := by
  refine Advances.option hrequire Draft.edits_setDeclaringClass kept_holds ?_
  rintro link _ r ⟨parts, hparts, rfl⟩ hlink
  exact ⟨{ parts with declaringClass := link }, { hparts with declaringClass := hlink }, rfl⟩

lemma advances_memberTypes {names : List String}
    (hrequire : Provides source fresh d require names) :
    Advances source fresh r₀ recipe d (Holds d item)
      (Holds d { item with memberTypes := item.memberTypes ++ names }) (do
        let ts ← names.mapM require
        Load.edit r₀.next fun draft => ts.foldl (fun d i => d.addMemberType i) draft) := by
  refine Advances.list hrequire Draft.edits_addMemberType kept_holds ?_
  rintro ts _ r ⟨parts, hparts, rfl⟩ hts
  rw [foldl_append (fun d m => d.addMemberType m) Draft.memberTypes
    (fun draft ts => { draft with memberTypes := ts }) (fun _ _ => rfl) (fun _ _ => rfl)
    (fun _ => rfl) fun _ _ _ => rfl]
  exact ⟨{ parts with memberTypes := parts.memberTypes ++ ts },
    { hparts with memberTypes := List.rel_append hparts.memberTypes hts }, rfl⟩

lemma advances_links (hrequire : Provides source fresh d require (item.references d)) :
    Advances source fresh r₀ recipe d (fun draft _ => draft = item.draft)
      (Holds d (linked item)) (item.fillLinks require r₀.next d) := by
  have hsuperclass := hrequire.mono fun name hname => List.mem_append_left _ hname
  have hparts : Provides source fresh d require item.partNames :=
    hrequire.mono fun name hname => List.mem_append_right _ hname
  have hinterfaces : Provides source fresh d require item.interfaces :=
    hparts.mono (by simp +contextual [ClassItem.partNames])
  have houter : Provides source fresh d require item.outer.toList :=
    hparts.mono (by simp +contextual [ClassItem.partNames])
  have hdeclaring : Provides source fresh d require item.declaring.toList :=
    hparts.mono (by simp +contextual [ClassItem.partNames])
  have hmembers : Provides source fresh d require item.memberTypes :=
    hparts.mono (by simp +contextual [ClassItem.partNames])
  have h : Advances source fresh r₀ recipe d (fun draft _ => draft = item.draft) _ _ :=
    (advances_superclass hsuperclass).bind (f := fun _ => _) <|
    (advances_interfaces hinterfaces).bind (f := fun _ => _) <|
    (advances_outer houter).bind (f := fun _ => _) <|
    (advances_declaring hdeclaring).bind (f := fun _ => _) <| advances_memberTypes hmembers
  simpa [ClassPath.ClassItem.fillLinks, bare, linked] using h

end Links

section Members

variable {require : String → Load Handle} {item : ClassItem}

lemma advances_constructor {c : ConstructorItem}
    (hrequire : Provides source fresh d require (c.parameters ++ c.thrown)) :
    Advances source fresh r₀ recipe d (Holds d item)
      (Holds d { item with constructors := item.constructors ++ [c] })
      (ClassItem.fillConstructor require r₀.next c) := by
  have hparameters : Provides source fresh d require c.parameters :=
    hrequire.mono fun name hname => by simp [hname]
  have hthrown : Provides source fresh d require c.thrown :=
    hrequire.mono fun name hname => by simp [hname]
  refine Advances.find hparameters.mapM kept_holds fun parameters => ?_
  refine Advances.find hthrown.mapM (fun draft => (kept_holds draft).and_names) fun thrown => ?_
  refine Advances.edit (Draft.edits_addConstructor _)
    (fun draft => (kept_holds draft).and_names.and_names) (by simp) ?_
  rintro _ r ⟨⟨⟨parts, hparts, rfl⟩, hp⟩, ht⟩
  refine ⟨{ parts with constructors := parts.constructors ++ [_] },
    { hparts with constructors := ?_ }, rfl⟩
  exact List.rel_append hparts.constructors (.cons ⟨rfl, hp, ht⟩ .nil)

lemma advances_method {m : MethodItem}
    (hrequire : Provides source fresh d require (m.parameters ++ m.result :: m.thrown)) :
    Advances source fresh r₀ recipe d (Holds d item)
      (Holds d { item with methods := item.methods ++ [m] })
      (ClassItem.fillMethod require r₀.next m) := by
  have hparameters : Provides source fresh d require m.parameters :=
    hrequire.mono fun name hname => by simp [hname]
  have hthrown : Provides source fresh d require m.thrown :=
    hrequire.mono fun name hname => by simp [hname]
  have hkept : ∀ parameters result draft, Kept fun r => (Holds d item draft r ∧
      List.Forall₂ r.Names m.parameters parameters) ∧ r.Names m.result result :=
    fun _ _ draft => (kept_holds draft).and_names.and (kept_names _ _)
  refine Advances.find hparameters.mapM kept_holds fun parameters => ?_
  refine Advances.find (hrequire m.result (by simp)) (fun draft => (kept_holds draft).and_names)
    fun result => ?_
  refine Advances.find hthrown.mapM (hkept parameters result) fun thrown => ?_
  refine Advances.edit (Draft.edits_addMethod _)
    (fun draft => (hkept parameters result draft).and_names) (by simp) ?_
  rintro _ r ⟨⟨⟨⟨parts, hparts, rfl⟩, hp⟩, hresult⟩, ht⟩
  refine ⟨{ parts with methods := parts.methods ++ [_] }, { hparts with methods := ?_ }, rfl⟩
  exact List.rel_append hparts.methods (.cons ⟨⟨rfl, rfl, rfl, rfl⟩, hp, hresult, ht⟩ .nil)

lemma advances_field {f : FieldItem} (hrequire : Provides source fresh d require [f.type]) :
    Advances source fresh r₀ recipe d (Holds d item)
      (Holds d { item with fields := item.fields ++ [f] })
      (ClassItem.fillField require r₀.next f) := by
  refine Advances.find (hrequire f.type (by simp)) kept_holds fun type => ?_
  refine Advances.edit (Draft.edits_addField _)
    (fun draft => (kept_holds draft).and (kept_names _ _)) (by simp) ?_
  rintro _ r ⟨⟨parts, hparts, rfl⟩, htype⟩
  refine ⟨{ parts with fields := parts.fields ++ [_] }, { hparts with fields := ?_ }, rfl⟩
  exact List.rel_append hparts.fields (.cons ⟨htype, rfl⟩ .nil)

/-! A synthetic field is compared with the first one of its name. -/

/-- A field is added behind the others, or it is there already. -/
lemma fulfils_addSynthetic {r : Registry} {parts : Parts} {f : FieldItem} {type : Handle}
    {fields : List FieldDecl} (hparts : r.Fulfils item d parts) (htype : r.Names f.type type)
    (hfields : ∀ name, fields.find? (·.name = name) =
      (parts.syntheticFields.find? (·.name = name)).or
        (if f.name = name then some (f.decl type) else none))
    (hsame : ∀ other, parts.syntheticFields.find? (·.name = f.name) = some other →
      other.type = type) :
    r.Fulfils { item with syntheticFields := item.syntheticFields ++ [f] } d
      { parts with syntheticFields := fields } := by
  obtain ⟨decls, hdecls, hfind, hagree⟩ := hparts.syntheticFields
  refine { hparts with syntheticFields := ⟨decls ++ [f.decl type], ?_, fun name => ?_, ?_⟩ }
  · exact List.rel_append hdecls (.cons ⟨htype, rfl⟩ .nil)
  · rw [hfields, hfind, List.find?_append]
    by_cases hname : f.name = name <;> simp [FieldItem.decl, hname]
  · -- the first field of that name speaks for all of them
    have hold : ∀ g ∈ decls, g.name = f.name → g.type = type := by
      intro g hg hname
      cases hother : decls.find? (·.name = f.name) with
      | none => exact absurd hname (by simpa using List.find?_eq_none.1 hother g hg)
      | some other =>
        have hname' : other.name = f.name := by simpa using List.find?_some hother
        rw [hagree g hg other (List.mem_of_find?_eq_some hother) (hname.trans hname'.symm)]
        exact hsame other ((hfind f.name).trans hother)
    intro g hg g' hg' hname
    rcases List.mem_append.1 hg with hg | hg <;> rcases List.mem_append.1 hg' with hg' | hg'
    · exact hagree g hg g' hg' hname
    · obtain rfl := List.mem_singleton.1 hg'
      exact hold g hg hname
    · obtain rfl := List.mem_singleton.1 hg
      exact (hold g' hg' hname.symm).symm
    · obtain rfl := List.mem_singleton.1 hg
      obtain rfl := List.mem_singleton.1 hg'
      rfl

lemma advances_synthetic {f : FieldItem} (hrequire : Provides source fresh d require [f.type])
    (hconflict : ∀ g ∈ item.syntheticFields, g.name = f.name →
      Descriptor.ofClassName g.type ≠ Descriptor.ofClassName f.type → ¬ source.Loadable d) :
    Advances source fresh r₀ recipe d (Holds d item)
      (Holds d { item with syntheticFields := item.syntheticFields ++ [f] })
      (ClassItem.fillSynthetic require r₀.next f) := by
  refine Advances.find (hrequire f.type (by simp)) kept_holds fun type => ?_
  intro r hr
  obtain ⟨draft, hs, ⟨parts, hparts, rfl⟩, htype⟩ := hr.draft
  have hr' : source.Underway fresh r₀ recipe (fun draft _ => draft = item.filled parts) r :=
    ⟨hr.filling, hr.others, hr.ready, _, hs, rfl⟩
  -- a list of fields that finds what was there before, and then the new field
  have hedit : ∀ fields : List FieldDecl, (∀ name, fields.find? (·.name = name) =
      (parts.syntheticFields.find? (·.name = name)).or
        (if f.name = name then some (f.decl type) else none)) →
      (∀ other, parts.syntheticFields.find? (·.name = f.name) = some other → other.type = type) →
      source.Underway fresh r₀ recipe
        (Holds d { item with syntheticFields := item.syntheticFields ++ [f] })
        (r.edit r₀.next fun draft => { draft with syntheticFields := fields }) := by
    intro fields hfields hsame
    have hedits := Draft.edits_syntheticFields fields
    have hextends := Registry.extends_edits (r := r) hedits r₀.next
    have hfilling := hr.filling.edit hedits (by simp)
    have hsound := hfilling.loads.sound hfilling.before
    refine hr'.edit hedits (by simp) ?_
    rintro _ rfl
    exact ⟨_, fulfils_addSynthetic (hparts.keep hextends hsound) (htype.keep hextends hsound)
      hfields hsame, rfl⟩
  rw [result_defineSynthetic, Registry.defineSynthetic_of_draft hs]
  cases hfound : parts.syntheticFields.find? (·.name = f.name) with
  | none =>
    rw [Draft.defineSynthetic_of_new hfound]
    exact hedit _ (Draft.find?_insertByName hfound) (by simp [hfound])
  | some other =>
    by_cases hsame : other.type = type
    · rw [Draft.defineSynthetic_of_same hfound hsame]
      refine hedit _ (fun name => ?_) (by simpa [hfound] using hsame)
      split
      next hname =>
        subst hname
        rw [hfound]
        exact hfound
      next => exact (Option.or_none).symm
    · rw [Draft.defineSynthetic_of_conflict hfound hsame]
      refine ⟨hr.stop (Source.Adds.refl source _ r), ?_⟩
      obtain ⟨decls, hdecls, hfind, -⟩ := hparts.syntheticFields
      have hother := (hfind f.name).symm.trans hfound
      have hname : other.name = f.name := by simpa using List.find?_some hother
      obtain ⟨g, hg, hgtype, hgdecl⟩ :=
        exists_of_forall₂ hdecls.flip (List.mem_of_find?_eq_some hother)
      refine hconflict g hg (by rw [← hname, hgdecl]; rfl) fun hequal => hsame ?_
      exact hgtype.eq_of_ofClassName_eq htype hequal

lemma advances_described (hrequire : Provides source fresh d require (item.references d))
    (hconflict : ¬ item.Consistent → ¬ source.Loadable d) :
    Advances source fresh r₀ recipe d (fun draft _ => draft = item.draft) (Holds d item)
      (item.fill require r₀.next d) := by
  have hparts : Provides source fresh d require item.partNames :=
    hrequire.mono fun name hname => List.mem_append_right _ hname
  refine (advances_links hrequire).bind ?_
  refine (Advances.forM (fun done => Holds d { linked item with constructors := done })
    fun done c _ hc => advances_constructor ?_).bind ?_
  · exact hparts.mono fun name hname => by
      simp only [ClassItem.partNames, List.mem_append, List.mem_flatMap]
      grind
  refine (Advances.forM (fun done => Holds d
    { item with methods := done, fields := [], syntheticFields := [] })
    fun done m _ hm => advances_method ?_).bind ?_
  · exact hparts.mono fun name hname => by
      simp only [ClassItem.partNames, List.mem_append, List.mem_flatMap]
      grind
  refine (Advances.forM (fun done => Holds d { item with fields := done, syntheticFields := [] })
    fun done f _ hf => advances_field ?_).bind ?_
  · exact hparts.mono fun name hname => by
      simp only [ClassItem.partNames, List.mem_append, List.mem_map]
      grind
  refine Advances.forM (fun done => Holds d { item with syntheticFields := done })
    fun done f hdone hf => advances_synthetic ?_ fun g hg hname htype => hconflict fun h => ?_
  · exact hparts.mono fun name hname => by
      simp only [ClassItem.partNames, List.mem_append, List.mem_map]
      grind
  · exact htype (h g (hdone g hg) f hf hname)

end Members

end Load

end TypeGraph
