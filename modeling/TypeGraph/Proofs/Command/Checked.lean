import TypeGraph.Command
import TypeGraph.Proofs.Loading.Population
import TypeGraph.Proofs.Query.Answered
import TypeGraph.Proofs.Supertype.Explored

/-!
# Class paths that pass the check

The check asks for the methods of every class of a class path, by name. When all of these questions
are answered, everything above the classes was explored, so the ways up from them are clear; and
what else was loaded on the way are arrays, primitive types and built-in types, whose ways up lead
to the classes that were checked or to nothing. So all questions about all types are answered.

There is one exception. A class may have the name `null`, but the check takes this name for the null
literal, and does not look at the class. If the class was loaded, for some other class that refers
to it, it may extend itself.
-/

namespace TypeGraph

open Relation

/-! ## Links without a memory -/

namespace Registry

variable {r r' : Registry} {m m' : Memory} {t : Handle}

lemma SameLinks.safe (h : r.SameLinks m m') (hsafe : r.Safe m) : r.Safe m' :=
  ⟨fun ht => h.clear (hsafe.clear ht), hsafe.intact⟩

/-- What is remembered is what is declared, and it stays so when types are added. -/
lemma SameLinks.grows (h : r.SameLinks .empty m) (hm : m.Sound r) (hgrows : r.Grows r') :
    r'.SameLinks .empty m := by
  constructor
  · funext t
    by_cases ht : r.Issued t
    · have hold := congrFun h.superclass t
      simpa only [effectiveSuperclass, declaredSuperclass, hgrows.shape_eq t ht] using hold
    · rw [effectiveSuperclass_of_none (hm.superclass_free ht),
        effectiveSuperclass_of_none (by simp)]
  · funext t
    by_cases ht : r.Issued t
    · have hold := congrFun h.interfaces t
      simpa only [effectiveInterfaces, declaredInterfaces, declaration?, hgrows.shape_eq t ht]
        using hold
    · rw [effectiveInterfaces_of_none (hm.interfaces_free ht),
        effectiveInterfaces_of_none (by simp)]

lemma clear_of_draft {draft : Draft} (hs : r.shape t = .declared (.draft draft))
    (hwhole : draft.loadError = none) (habove : ∀ s ∈ draft.links, r.Clear .empty s) :
    r.Clear .empty t := by
  have hsuper : r.effectiveSuperclass .empty t = .ok draft.superclass := by
    rw [effectiveSuperclass_of_none (by simp)]
    simp [declaredSuperclass, hs, Origin.declaration, Draft.declaration, Draft.unlessBroken, hwhole]
  have hinterfaces : r.effectiveInterfaces .empty t = .ok draft.interfaces := by
    rw [effectiveInterfaces_of_none (by simp)]
    simp [declaredInterfaces, declaration?, hs, Origin.declaration, Draft.declaration,
      Draft.unlessBroken, hwhole]
  refine .of_links hsuper hinterfaces fun s hs => habove s ?_
  simp only [Draft.links, List.append_assoc, List.mem_append] at hs ⊢
  tauto

/-- A draft that reports its superclass reports everything. -/
lemma intact_of_draft {draft : Draft} (hs : r.shape t = .declared (.draft draft))
    (hclear : r.Clear .empty t) : r.Intact t := by
  have hdeclaration : r.declaration? t = some draft.declaration := by
    rw [declaration?, hs]
    rfl
  have hwhole : draft.loadError = none := by
    cases hbroken : draft.loadError with
    | none => rfl
    | some e =>
      refine absurd (Or.inl ?_) (hclear.clean .refl e)
      rw [effectiveSuperclass_of_none (by simp)]
      simp [declaredSuperclass, hs, Origin.declaration, Draft.declaration, Draft.unlessBroken,
        hbroken]
  constructor
  · exact ⟨draft.outerClass, by rw [declaredOuterClass, hdeclaration]; rfl⟩
  · exact ⟨draft.declaringClass, by rw [declaredDeclaringClass, hdeclaration]; rfl⟩
  · refine ⟨draft.memberTypes, ?_⟩
    rw [declaredMemberTypes, hdeclaration]
    simp [Draft.declaration, Draft.unlessBroken, hwhole]

end Registry

/-! ## Types that are not described -/

namespace ClassPath

variable {path : ClassPath} {r : Registry} {t : Handle} {type : Builtin}

/-- The classes that are described have a clear way up. -/
structure Cleared (path : ClassPath) (r : Registry) : Prop where
  keyed : path.Keyed
  populates : path.Populates r
  loads : (Source.classPath path).Loads .initial r
  described : ∀ {d item t}, path.find? d = some item → path.Registers r d t → r.Clear .empty t

namespace Cleared

variable (h : path.Cleared r)
include h

/-- A built-in class that the class path leaves out is a draft that is not broken. -/
lemma draft_of_builtin (htype : path.find? type.descriptor = none)
    (ht : path.Registers r type.descriptor t) :
    ∃ draft, r.shape t = .declared (.draft draft) ∧ draft.descriptor = type.descriptor ∧
      draft.loadError = none := by
  have hd : r.descriptor t = type.descriptor := ht.2.trans (registeredAs_of_none htype)
  have hclass : Descriptor.IsClass type.descriptor := by cases type <;> decide
  obtain ⟨origin, hs⟩ := h.populates.canonical.exists_declared (hd ▸ hclass)
  obtain ⟨draft, -, -, rfl, -⟩ := (h.populates.fits t).known hs
  have hdescriptor : draft.descriptor = type.descriptor :=
    (Registry.descriptor_of_declared hs).symm.trans hd
  have hnew : ¬ Registry.initial.Issued t := by
    intro hissued
    rw [h.loads.grows.shape_eq t hissued] at hs
    exact Registry.shape_initial_ne_declared hs
  obtain ⟨d, recipe, hrecipe, heq, hwhole⟩ := h.loads.described hnew hs
  refine ⟨draft, hs, hdescriptor, ?_⟩
  cases recipe with
  | builtin other => exact hwhole other rfl
  | described item =>
    have hfind := Source.find?_of_described hrecipe
    have hregistered : path.registeredAs d = type.descriptor :=
      (registeredAs_of_recipe hrecipe).symm.trans (heq.symm.trans hdescriptor)
    exact absurd hregistered (h.keyed.registeredAs_ne_builtin hfind htype)

lemma clear_of_above (habove : ∀ b ∈ type.above, ∀ s, path.Registers r b.descriptor s →
    r.Clear .empty s) (ht : path.Registers r type.descriptor t) : r.Clear .empty t := by
  cases hfind : path.find? type.descriptor with
  | some item => exact h.described hfind ht
  | none =>
    obtain ⟨draft, hs, hd, hwhole⟩ := h.draft_of_builtin hfind ht
    refine Registry.clear_of_draft hs hwhole fun s hlink => ?_
    obtain ⟨b, hb, hregisters⟩ := (h.populates.fits t).above hs hd hfind s hlink
    exact habove b hb s hregisters

/-- Above the class of strings are types with nothing above them. -/
lemma clear_of_builtin (ht : path.Registers r type.descriptor t) : r.Clear .empty t := by
  refine h.clear_of_above (fun b hb s hs => h.clear_of_above (fun b' hb' => ?_) hs) ht
  cases type <;> cases b <;> simp [Builtin.above] at hb hb'

lemma clear_of_issued (ht : r.Issued t) : r.Clear .empty t := by
  have hempty := Memory.sound_empty r
  cases hs : r.shape t with
  | primitive p => exact (Registry.alone_of_primitive hempty hs).clear
  | array c root =>
    obtain ⟨hsuper, hinterfaces⟩ := Registry.superclass_of_array hempty hs
    refine .of_links hsuper hinterfaces fun s hs' => ?_
    obtain rfl : s = root := by simpa using hs'
    have hroot : path.Registers r Builtin.object.descriptor s := (h.populates.fits t).root hs
    exact h.clear_of_builtin hroot
  | declared origin =>
    obtain ⟨draft, d, recipe, rfl, hrecipe, hd⟩ := (h.populates.fits t).known hs
    have hregisters : path.Registers r d t := ⟨ht, (Registry.descriptor_of_declared hs).trans hd⟩
    cases recipe with
    | described item => exact h.described (Source.find?_of_described hrecipe) hregisters
    | builtin type =>
      rw [← Source.descriptor_of_builtin hrecipe] at hregisters
      exact h.clear_of_builtin hregisters

lemma safe : r.Safe .empty where
  clear := h.clear_of_issued
  intact {t} ht := by
    cases hs : r.shape t with
    | primitive p => exact Registry.intact_of_not_declared (by rw [Registry.declaration?, hs])
    | array c root => exact Registry.intact_of_not_declared (by rw [Registry.declaration?, hs])
    | declared origin =>
      obtain ⟨draft, -, -, rfl, -⟩ := (h.populates.fits t).known hs
      exact Registry.intact_of_draft hs (h.clear_of_issued ht)

end Cleared

end ClassPath

/-! ## The check -/

namespace Command.Session

open ClassPath

variable {session : Session} {name : String} {names done : List String} {g g' : Graph} {t : Handle}

/-- The graph after classes were checked one after the other. -/
def afterChecks (session : Session) (names : List String) (g : Graph) : Graph :=
  names.foldl (fun g name => ((session.checkClass name).result g).2) g

lemma checkAll_le (session : Session) (names : List String) (g : Graph) :
    (session.checkAll names g).1 ≤ names.length := by
  induction names generalizing g with
  | nil => exact Nat.le_refl 0
  | cons name names ih =>
    have hrest := ih ((session.checkClass name).result g).2
    rw [checkAll]
    rcases hres : (session.checkClass name).result g with ⟨e | u, g'⟩ <;> rw [hres] at hrest
    · exact Nat.le_succ_of_le hrest
    · exact Nat.succ_le_succ hrest

/-- When as many classes are sound as there are, each one is. -/
lemma checkAll_cons_eq (h : (session.checkAll (name :: names) g).1 = (name :: names).length) :
    ∃ g', (session.checkClass name).result g = (.ok (), g') ∧
      (session.checkAll names g').1 = names.length := by
  rw [checkAll] at h
  rcases hres : (session.checkClass name).result g with ⟨e | u, g'⟩ <;> rw [hres] at h
  · have hle := session.checkAll_le names g'
    simp only [List.length_cons] at h
    omega
  · exact ⟨g', rfl, Nat.succ_inj.1 h⟩

/-- Classes were checked, and no check has failed. -/
structure Checking (path : ClassPath) (done : List String) (g : Graph) : Prop where
  populates : path.Populates g.registry
  loads : (Source.classPath path).Loads .initial g.registry
  during : Query.During g.registry .empty g.memory
  collected : g.memory.Collected
  explored : ∀ name ∈ done, name ≠ "null" →
    ∃ t, path.Denotes g.registry name t ∧ g.memory.Explored t

namespace Checking

variable {path : ClassPath}

lemma registry (h : Checking path done g) : g.registry.Sound := h.loads.sound Registry.sound_initial

lemma load {r : Registry} (h : Checking path done g)
    (hloads : (Source.classPath path).Loads g.registry r) (hr : path.Populates r) :
    Checking path done { g with registry := r } where
  populates := hr
  loads := h.loads.trans hloads
  during := ⟨h.during.sound.of_extends hloads.grows.toExtends,
    h.during.same.grows h.during.sound hloads.grows⟩
  collected := h.collected
  explored name hname hnull := by
    obtain ⟨t, ht, hexplored⟩ := h.explored name hname hnull
    exact ⟨t, ht.keep hloads.grows.toExtends, hexplored⟩

lemma fills {m : Memory} (h : Checking path done g)
    (hfills : ReflTransGen (Fill g.registry) g.memory m) (hm : m.Collected) :
    Checking path done { g with memory := m } where
  populates := h.populates
  loads := h.loads
  during := (Query.During.stable h.registry .empty).fills h.during hfills
  collected := hm
  explored name hname hnull := by
    obtain ⟨t, ht, hexplored⟩ := h.explored name hname hnull
    exact ⟨t, ht, hexplored.fills hfills⟩

/-- A question that collects no methods. -/
lemma ask {α : Type} {q : Query α} {a : α} (h : Checking path done g)
    (hfills : Query.Fills g.registry q) (hspares : Query.Spares Slots.allMethods g.registry q)
    (hask : (Work.ask q).result g = (.ok a, g')) :
    Checking path done g' ∧ g'.registry = g.registry := by
  rw [Work.result_ask] at hask
  obtain ⟨-, rfl⟩ := Prod.mk.inj hask
  exact ⟨h.fills (hfills g.memory) (hspares.collected hfills h.collected), rfl⟩

lemma allMethods {list : List Method} (h : Checking path done g) (ht : g.registry.Issued t)
    (hask : (Work.ask (Query.allMethods t)).result g = (.ok list, g')) :
    Checking path done g' ∧ g'.registry = g.registry ∧ g'.memory.Explored t := by
  rw [Work.result_ask] at hask
  obtain ⟨hanswer, rfl⟩ := Prod.mk.inj hask
  obtain ⟨hexplored, hcollected⟩ := Query.explored_of_allMethods h.registry h.collected
    (Prod.ext hanswer rfl)
  exact ⟨h.fills (Query.fills_allMethods ht g.memory) hcollected, rfl, hexplored⟩

end Checking

section Check

variable (hpath : session.path.Keyed) (h : Checking session.path done g)
include hpath h

lemma Checking.typeNamed (htype : (session.typeNamed name).result g = (.ok t, g')) :
    Checking session.path done g' ∧
      session.path.Denotes g'.registry (if name = "null" then "void" else name) t := by
  rw [Session.typeNamed, Work.result_load] at htype
  obtain ⟨hok, rfl⟩ := Prod.mk.inj htype
  have hpersists : Load.Persists session.path session.path.Populates :=
    ⟨fun hr => hr, fun _ _ hr' => hr'⟩
  obtain ⟨hr, hdenotes⟩ := (Source.populating_require hpath none _ _ hpersists).post_of_ok
    h.populates (Prod.ext hok rfl)
  exact ⟨h.load (Source.loads_require _ h.registry none _) hr, hdenotes⟩

/-- A check that succeeds explores the class. -/
lemma Checking.checkClass (hcheck : (session.checkClass name).result g = (.ok (), g')) :
    Checking session.path (name :: done) g' := by
  obtain ⟨t, g₁, htype, hcheck⟩ := Work.result_bind_eq_ok hcheck
  obtain ⟨link, g₂, hsuper, hcheck⟩ := Work.result_bind_eq_ok hcheck
  obtain ⟨links, g₃, hinterfaces, hcheck⟩ := Work.result_bind_eq_ok hcheck
  obtain ⟨list, g₄, hmethods, hcheck⟩ := Work.result_bind_eq_ok hcheck
  cases hcheck
  obtain ⟨h₁, hdenotes⟩ := h.typeNamed hpath htype
  obtain ⟨h₂, hr₂⟩ := h₁.ask (Query.fills_superclass hdenotes.1)
    ((Query.direct_superclass t).spares Query.apart_allMethods.superclass) hsuper
  rw [← hr₂] at hdenotes
  obtain ⟨h₃, hr₃⟩ := h₂.ask (Query.fills_interfaces hdenotes.1)
    ((Query.direct_interfaces t).spares Query.apart_allMethods.interfaces) hinterfaces
  rw [← hr₃] at hdenotes
  obtain ⟨h₄, hr₄, hexplored⟩ := h₃.allMethods hdenotes.1 hmethods
  rw [← hr₄] at hdenotes
  refine { h₄ with explored := fun other hother hnull => ?_ }
  rcases List.mem_cons.1 hother with rfl | hother
  · rw [if_neg hnull] at hdenotes
    exact ⟨t, hdenotes, hexplored⟩
  · exact h₄.explored other hother hnull

/-- Checks that all succeed explore all classes. -/
lemma Checking.checkAll (hall : (session.checkAll names g).1 = names.length) :
    Checking session.path (names.reverse ++ done) (session.afterChecks names g) := by
  induction names generalizing done g with
  | nil => exact h
  | cons name names ih =>
    obtain ⟨g', hcheck, hrest⟩ := checkAll_cons_eq hall
    have hnext := ih (h.checkClass hpath hcheck) hrest
    rw [List.reverse_cons, List.append_assoc, afterChecks, List.foldl_cons, hcheck]
    exact hnext

end Check

namespace Checking

variable {path : ClassPath}

/-- Where methods are given, the type has a clear way up. -/
lemma clear_of_answers (h : Checking path done g) (ht : g.registry.Issued t)
    (hanswers : g.Answers (Query.allMethods t)) : g.registry.Clear .empty t := by
  obtain ⟨list, hlist⟩ := hanswers
  have hafter := (Query.During.stable h.registry .empty).fills h.during
    (Query.fills_allMethods ht g.memory)
  obtain ⟨hexplored, -⟩ := Query.explored_of_allMethods h.registry h.collected (Prod.ext hlist rfl)
  exact hafter.same.symm.clear hexplored.clear

/-- When all classes were checked, only the one that the check cannot name is left. -/
lemma cleared (hpath : path.Keyed) (h : Checking path done g)
    (hdone : ∀ {d item}, path.find? d = some item → item.name ∈ done)
    (hnull : ∀ t, g.registry.lookup "Lnull;" = some t → g.Answers (Query.allMethods t)) :
    path.Cleared g.registry := by
  refine ⟨hpath, h.populates, h.loads, fun {d item t} hfind ht => ?_⟩
  have hname := (hpath _ (ClassPath.mem_of_find? hfind)).1
  by_cases hitem : item.name = "null"
  · have hd : g.registry.descriptor t = "Lnull;" := by
      rw [ht.2, ClassPath.registeredAs_of_some hfind, hitem]
      decide
    exact h.clear_of_answers ht.1 (hnull t (h.registry.lookup_iff.2 ⟨ht.1, hd⟩))
  · obtain ⟨s, hs, hexplored⟩ := h.explored item.name (hdone hfind) hitem
    have hclass := (hpath.isClass hfind).2.2
    have hregisters := hs.2 d hname (by simpa [Descriptor.isArray] using hclass)
    obtain rfl : s = t :=
      h.populates.canonical.eq_of_descriptor_eq hs.1 ht.1 (hregisters.2.trans ht.2.symm)
    exact h.during.same.symm.clear hexplored.clear

end Checking

/-! ## Sessions -/

/-- The graph in which a session starts: the built-in types are installed. -/
def opened (session : Session) : Graph :=
  ((Work.load (Builtins.install (.classPath session.path))).result {}).2

/-- The graph after all classes of a session were checked. -/
def checked (session : Session) : Graph :=
  session.afterChecks session.path.names session.opened

lemma checking_opened (hpath : session.path.Keyed) : Checking session.path [] session.opened := by
  have hpersists : Load.Persists session.path session.path.Populates :=
    ⟨fun hr => hr, fun _ _ hr' => hr'⟩
  have hpopulates := Builtins.install_triple fun name =>
    (Source.populating_require hpath none name _ hpersists).conseq (fun _ h => h)
      (fun _ _ h => h.1) (fun _ _ h => h)
  have hloads := Builtins.install_triple fun name =>
    (Load.gets_require (Source.finds_load (.classPath session.path)) none name _
      (Load.stable_loads Registry.sound_initial)).conseq (fun _ h => h) (fun _ _ h => h.1)
      (fun _ _ h => h.1)
  rw [opened, Work.result_load]
  exact {
    populates := hpopulates.after (ClassPath.populates_initial _)
    loads := hloads.after (Source.Loads.refl _ _)
    during := Query.during_refl (Memory.sound_empty _)
    collected := Memory.collected_empty
    explored := by simp }

/-- A class that is registered as `null` is described with this name. -/
lemma exists_null_of_lookup {items : List ClassItem} {path : ClassPath} {r : Registry}
    (hpath : ClassPath.ofItems items = .ok path) (hr : path.Populates r)
    (ht : r.lookup "Lnull;" = some t) : ∃ item ∈ items, item.name = "null" := by
  obtain ⟨-, hd⟩ := hr.canonical.lookup_iff.1 ht
  have hclass : Descriptor.IsClass (r.descriptor t) := by rw [hd]; decide
  obtain ⟨origin, hs⟩ := hr.canonical.exists_declared hclass
  obtain ⟨draft, d, recipe, rfl, hrecipe, hdraft⟩ := (hr.fits t).known hs
  have hregistered : path.registeredAs d = "Lnull;" :=
    hdraft.symm.trans ((Registry.descriptor_of_declared hs).symm.trans hd)
  cases recipe with
  | builtin type =>
    rw [← ClassPath.registeredAs_of_recipe hrecipe] at hregistered
    exfalso
    revert hregistered
    cases type <;> decide
  | described item =>
    have hfind := Source.find?_of_described hrecipe
    refine ⟨item, (ClassPath.mem_of_find?_ofItems hpath hfind).1, ?_⟩
    rw [ClassPath.registeredAs_of_some hfind] at hregistered
    have hname : Descriptor.ofRawName item.name = Descriptor.ofRawName "null" :=
      hregistered.trans (by decide)
    have hswap : Descriptor.swap '.' '/' item.name.toList = "null".toList :=
      Descriptor.swap_eq_of_ofRawName_eq hname
    exact String.toList_injective (Descriptor.eq_of_swap_eq hswap (by decide))

/-- **What passes the check is safe, but for a class named `null`.** When the check of all classes
succeeds, all questions about all types of the graph are answered, if those about the class that is
registered as `null` are, and in particular if no class has this name. -/
theorem answered_checked_iff {items : List ClassItem}
    (hpath : ClassPath.ofItems items = .ok session.path)
    (hcheck : (session.checkReport session.opened).success = true) :
    (session.checked.Answered ↔ ∀ t, session.checked.registry.lookup "Lnull;" = some t →
      session.checked.Answers (Query.allMethods t)) ∧
    ((∀ item ∈ items, item.name ≠ "null") → session.checked.Answered) := by
  have hkeyed := ClassPath.keyed_ofItems hpath
  have hall : (session.checkAll session.path.names session.opened).1 = session.path.names.length :=
    of_decide_eq_true hcheck
  have hchecking : Checking session.path (session.path.names.reverse ++ []) session.checked :=
    (checking_opened hkeyed).checkAll hkeyed hall
  have hdone : ∀ {d item}, session.path.find? d = some item →
      item.name ∈ session.path.names.reverse ++ [] := by
    intro d item hfind
    have hmem : item.name ∈ session.path.names :=
      List.mem_map.2 ⟨(d, item), ClassPath.mem_of_find? hfind, rfl⟩
    simpa using hmem
  have hanswered : (∀ t, session.checked.registry.lookup "Lnull;" = some t →
      session.checked.Answers (Query.allMethods t)) → session.checked.Answered := by
    intro hnull
    have hsafe := (hchecking.cleared hkeyed hdone hnull).safe
    exact Graph.Sound.answered ⟨hchecking.registry, hchecking.during.sound⟩
      (hchecking.during.same.safe hsafe)
  refine ⟨⟨fun h t ht => h.allMethods t (hchecking.registry.lookup_iff.1 ht).1, hanswered⟩,
    fun hnone => hanswered fun t ht => ?_⟩
  obtain ⟨item, hitem, hname⟩ := exists_null_of_lookup hpath hchecking.populates ht
  exact absurd hname (hnone item hitem)

/-- A class with the name `null` and an interface above it, and a class that extends it. -/
def plainNull : List ClassItem :=
  [{ name := "p.A", superclass := some "null", fields := [{ name := "f", type := "p.A[]" }] },
   { name := "null", interfaces := ["p.I"], memberTypes := ["p.A"] },
   { name := "p.I", kind := .interface }]

/-- A session with this class path. -/
def plainNullSession : Session where
  file := "model.json"
  path := ⟨["Lp/A;", "Lnull;", "Lp/I;"].zip plainNull⟩
  json := false

/-- A class that is not looked at may still be sound. -/
theorem answered_checked_iff_plainNull :
    (plainNullSession.checkReport plainNullSession.opened).success = true ∧
    (∃ t, plainNullSession.checked.registry.lookup "Lnull;" = some t) ∧
    plainNullSession.checked.Answered := by
  have hpath : ClassPath.ofItems plainNull = .ok plainNullSession.path := by decide +kernel
  have hcheck : (plainNullSession.checkReport plainNullSession.opened).success = true := by
    decide +kernel
  have hlookup : plainNullSession.checked.registry.lookup "Lnull;" = some ⟨15⟩ := by
    decide +kernel
  have hmethods : (plainNullSession.checked.answer (Query.allMethods ⟨15⟩)).isOk = true := by
    decide +kernel
  refine ⟨hcheck, ⟨_, hlookup⟩, (answered_checked_iff hpath hcheck).1.2 fun t ht => ?_⟩
  obtain rfl := Option.some.inj (hlookup.symm.trans ht)
  cases hanswer : plainNullSession.checked.answer (Query.allMethods ⟨15⟩) with
  | ok list => exact ⟨list, hanswer⟩
  | error e =>
    rw [hanswer] at hmethods
    cases hmethods

/-- A class with the name `null` that extends itself, and a class that is declared in it. -/
def circularNull : List ClassItem :=
  [{ name := "null", superclass := some "null" }, { name := "p.A", declaring := some "null" }]

/-- A session with this class path. -/
def circularNullSession : Session where
  file := "model.json"
  path := ⟨["Lnull;", "Lp/A;"].zip circularNull⟩
  json := false

/-- The check succeeds, and yet the member types that are visible in the other class cannot be
found. -/
theorem not_answered_circularNull :
    ClassPath.ofItems circularNull = .ok circularNullSession.path ∧
    (circularNullSession.checkReport circularNullSession.opened).success = true ∧
    ∃ t, circularNullSession.checked.registry.lookup "Lp/A;" = some t ∧
      circularNullSession.checked.answer (Query.findMemberTypes t none) =
        .error (.classCircularity "null" none) :=
  ⟨by decide +kernel, by decide +kernel, ⟨14⟩, by decide +kernel, by decide +kernel⟩

end Command.Session

end TypeGraph
