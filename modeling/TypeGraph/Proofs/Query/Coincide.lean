import Mathlib.Data.List.Basic
import TypeGraph.Proofs.Member.Index
import TypeGraph.Proofs.Query.Fill
import TypeGraph.Proofs.Supertype.WellFormed

/-!
# Answers that do not depend on what is remembered

A memory is faithful to a registry when each answer in it is the one that would be given with
nothing remembered. Members of a type are compared without their marks, which tell apart two
readings of one declaration. Two queries coincide when they end alike from any two faithful
memories, and leave faithful memories behind. There is one rule for each way to build a query, and
with them every question coincides with itself.
-/

namespace TypeGraph

open Relation

/-! ## Members without their marks -/

namespace Bound

variable {α : Type}

/-- The member with the mark taken away: what is left are its type and its declaration. -/
def unmarked (member : Bound α) : Bound α := { member with mark := ⟨0, 0⟩ }

@[simp] lemma unmarked_decl (member : Bound α) : member.unmarked.decl = member.decl := rfl

/-- The members of a list without their marks. -/
def unmarkedAll (members : List (Bound α)) : List (Bound α) := members.map unmarked

/-- The reading of a list of declarations shows in the marks only. -/
lemma unmarkedAll_ofList (owner : Handle) (reading reading' : Nat) (decls : List α) :
    unmarkedAll (ofList owner reading decls) = unmarkedAll (ofList owner reading' decls) := by
  simp [unmarkedAll, ofList, unmarked, Function.comp_def]

end Bound

open TypeGraph.Bound

namespace Registry

section Looks

/-! Methods may be added before or after they are looked at in a way that shows the declaration. -/

variable {look : Method → Method} (hlook : ∀ method, (look method).decl = method.decl)
include hlook

lemma agree_map (r : Registry) (a b : Method) : r.agree (look a) (look b) = r.agree a b := by
  have hdescriptor : ∀ a, r.methodDescriptor (look a) = r.methodDescriptor a := fun a => by
    rw [methodDescriptor, methodDescriptor, hlook]
  simp [agree, hdescriptor, hlook]

lemma addMethod_map (r : Registry) (methods : List Method) (method : Method) :
    r.addMethod (methods.map look) (look method) = (r.addMethod methods method).map look := by
  have hany : (methods.map look).any (r.agree (look method)) = methods.any (r.agree method) := by
    rw [List.any_map]
    exact congrArg methods.any (funext (agree_map hlook r method))
  rw [addMethod, hany, addMethod]
  split
  · rfl
  · simp

lemma foldl_addMethod_map (r : Registry) (methods collected : List Method) :
    (methods.map look).foldl r.addMethod (collected.map look) =
      (methods.foldl r.addMethod collected).map look := by
  rw [List.foldl_map]
  exact List.foldl_hom (List.map look) (addMethod_map hlook r)

end Looks

lemma unmarkedAll_foldl_addMethod (r : Registry) (methods collected : List Method) :
    unmarkedAll (methods.foldl r.addMethod collected) =
      (unmarkedAll methods).foldl r.addMethod (unmarkedAll collected) :=
  (foldl_addMethod_map unmarked_decl r methods collected).symm

end Registry

/-- What is found in the index under each name, with the marks of all methods taken away. -/
def MethodIndex.unmarked (index : MethodIndex) (name : String) : List Method :=
  unmarkedAll (index.named name)

lemma MethodIndex.unmarked_ofList (methods : List Method) (name : String) :
    (ofList methods).unmarked name =
      (unmarkedAll methods).filter fun method => method.decl.name = name := by
  rw [unmarked, named_ofList, unmarkedAll, unmarkedAll, List.filter_map]
  rfl

namespace Field

lemma unmarkedAll_put (fields : List Field) (field : Field) :
    put (unmarkedAll fields) field.unmarked = unmarkedAll (put fields field) := by
  have hany : (unmarkedAll fields).any (fun other => other.decl.name = field.unmarked.decl.name) =
      fields.any fun other => other.decl.name = field.decl.name := by
    rw [unmarkedAll, List.any_map]
    rfl
  rw [put, hany, put]
  split
  · simp only [unmarkedAll, List.map_map]
    refine List.map_congr_left fun other _ => ?_
    exact (apply_ite unmarked _ _ _).symm
  · simp [unmarkedAll]

lemma unmarkedAll_distinct (fields : List Field) :
    unmarkedAll (distinct fields) = distinct (unmarkedAll fields) := by
  rw [distinct, distinct, unmarkedAll.eq_def fields, List.foldl_map]
  exact (List.foldl_hom unmarkedAll unmarkedAll_put).symm

end Field

/-- The fields of an index with their marks taken away. -/
def FieldIndex.unmarked (index : FieldIndex) : List Field := unmarkedAll index.fields.toList

lemma FieldIndex.unmarked_ofList (fields : List Field) :
    (ofList fields).unmarked = Field.distinct (unmarkedAll fields) := by
  rw [unmarked, toList_ofList, Field.unmarkedAll_distinct]

/-! ## Faithful memories -/

namespace Query

variable {α β γ : Type} {r : Registry} {t : Handle}

/-- The answer with nothing remembered. -/
def fresh (r : Registry) (q : Query α) : Except Error α := (q.answer r .empty).1

/-- The declared methods of a type by name. -/
def methodIndex (t : Handle) : Query MethodIndex :=
  once t Slots.methodIndex (fun index slots => { slots with methodIndex := some index }) do
    return MethodIndex.ofList (← methods t)

lemma methodsNamed_eq (t : Handle) (name : String) :
    methodsNamed t name = do return (← methodIndex t).named name := rfl

end Query

/-- What is remembered about a type is what would be answered with nothing remembered. -/
structure Slots.Faithful (r : Registry) (t : Handle) (slots : Slots) : Prop where
  superclass : ∀ {link}, slots.superclass = some link → Query.fresh r (.superclass t) = .ok link
  interfaces : ∀ {links}, slots.interfaces = some links →
    Query.fresh r (.interfaces t) = .ok links
  outerClass : ∀ {link}, slots.outerClass = some link → Query.fresh r (.outerClass t) = .ok link
  declaringClass : ∀ {link}, slots.declaringClass = some link →
    Query.fresh r (.declaringClass t) = .ok link
  memberTypes : ∀ {list}, slots.memberTypes = some list →
    Query.fresh r (.memberTypes t) = .ok list
  constructors : ∀ {list}, slots.constructors = some list →
    (Query.fresh r (.constructors t)).map unmarkedAll = .ok (unmarkedAll list)
  methods : ∀ {list}, slots.methods = some list →
    (Query.fresh r (.methods t)).map unmarkedAll = .ok (unmarkedAll list)
  methodIndex : ∀ {index : MethodIndex}, slots.methodIndex = some index →
    (Query.fresh r (Query.methodIndex t)).map MethodIndex.unmarked = .ok index.unmarked
  allMethods : ∀ {list}, slots.allMethods = some list →
    (Query.fresh r (.allMethods t)).map unmarkedAll = .ok (unmarkedAll list)
  fields : ∀ {index : FieldIndex}, slots.fields = some index →
    (Query.fresh r (.fieldIndex t)).map FieldIndex.unmarked = .ok index.unmarked
  scopes : ∀ {name found}, slots.scopes.lookup name = some found →
    Query.fresh r (.findMemberTypes t name) = .ok found

lemma Slots.faithful_default (r : Registry) (t : Handle) : Slots.Faithful r t {} := by
  constructor <;> intro _ <;> simp

/-- All that is remembered is what would be answered with nothing remembered. -/
def Memory.Faithful (r : Registry) (m : Memory) : Prop := ∀ t, (m.about t).Faithful r t

namespace Memory

variable {r : Registry} {m : Memory} {t : Handle}

lemma faithful_empty (r : Registry) : empty.Faithful r := by
  intro t
  rw [about_empty]
  exact Slots.faithful_default r t

lemma Faithful.update (h : m.Faithful r) {change : Slots → Slots}
    (hchange : (change (m.about t)).Faithful r t) : (m.update t change).Faithful r := by
  intro s
  by_cases hs : s = t
  · rw [hs, about_update_self]
    exact hchange
  · rw [about_update_of_ne hs]
    exact h s

lemma Faithful.forgetMethods (h : m.Faithful r) (t : Handle) : (m.forgetMethods t).Faithful r :=
  h.update { h t with methods := nofun, methodIndex := nofun }

lemma Faithful.forgetFields (h : m.Faithful r) (t : Handle) : (m.forgetFields t).Faithful r :=
  h.update { h t with fields := nofun }

end Memory

/-! ## The checks of links

The checks read the memory through effective links only. -/

namespace Registry.SameLinks

variable {r : Registry} {m m' : Memory} (h : r.SameLinks m m')
include h

lemma checkChain_eq (trail : List Handle) (t : Handle) :
    r.checkChain m' trail t = r.checkChain m trail t := by
  induction trail, t using checkChain.induct r m with
  | case1 trail t hopen e he =>
    rw [checkChain_of_open hopen, checkChain_of_open hopen, h.superclass]
    simp only [he]
  | case2 trail t hopen hnone =>
    rw [checkChain_of_open hopen, checkChain_of_open hopen, h.superclass]
    simp only [hnone]
  | case3 trail t hopen s hs ih =>
    rw [checkChain_of_open hopen, checkChain_of_open hopen, h.superclass]
    simp only [hs]
    exact ih
  | case4 trail t hopen => rw [checkChain_of_not_open hopen, checkChain_of_not_open hopen]

lemma searchInterface_eq (target : Handle) (frontier : Frontier) :
    r.searchInterface m' target frontier = r.searchInterface m target frontier := by
  induction frontier using searchInterface.induct r m target with
  | case1 fresh => rw [searchInterface, searchInterface]
  | case2 t pending fresh e he =>
    rw [searchInterface, searchInterface, h.superclass]
    simp only [he]
  | case3 t pending fresh superclass hsuper e he =>
    rw [searchInterface, searchInterface, h.superclass, h.interfaces]
    simp only [hsuper, he]
  | case4 t pending fresh superclass hsuper interfaces hinterfaces htarget =>
    rw [searchInterface, searchInterface, h.superclass, h.interfaces]
    simp only [hsuper, hinterfaces, if_pos htarget]
  | case5 t pending fresh superclass hsuper interfaces hinterfaces htarget ih =>
    rw [searchInterface, searchInterface, h.superclass, h.interfaces]
    simp only [hsuper, hinterfaces, if_neg htarget]
    exact ih

lemma checkInterfaces_eq (t : Handle) (interfaces : List Handle) :
    r.checkInterfaces m' t interfaces = r.checkInterfaces m t interfaces := by
  induction interfaces with
  | nil => rfl
  | cons interface rest ih =>
    rw [checkInterfaces, checkInterfaces, reachesInterface, h.searchInterface_eq, ih]
    rfl

end Registry.SameLinks

namespace Query

variable {α β γ : Type} {r : Registry} {t : Handle}

lemma declaredSuperclass_of_fresh {link : Option Handle}
    (h : fresh r (superclass t) = .ok link) : r.declaredSuperclass t = .ok link := by
  rw [fresh, answer_superclass_none (by simp)] at h
  rcases hdecl : r.declaredSuperclass t with e | link' <;> rw [hdecl] at h
  · cases h
  · rcases hcheck : link'.elim (.ok ()) (r.checkChain .empty [t]) with e | u <;>
      simp only [hcheck] at h <;> cases h
    rfl

lemma declaredInterfaces_of_fresh {links : List Handle}
    (h : fresh r (interfaces t) = .ok links) : r.declaredInterfaces t = .ok links := by
  rw [fresh, answer_interfaces_none (by simp)] at h
  rcases hdecl : r.declaredInterfaces t with e | links' <;> rw [hdecl] at h
  · cases h
  · rcases hcheck : r.checkInterfaces .empty t links' with e | u <;>
      simp only [hcheck] at h <;> cases h
    rfl

end Query

/-- The effective links in a faithful memory are the declared ones. -/
lemma Memory.Faithful.sameLinks {r : Registry} {m : Memory} (h : m.Faithful r) :
    r.SameLinks .empty m := by
  constructor <;> funext t
  · rw [Registry.effectiveSuperclass_of_none (m := .empty) (by simp)]
    cases hslot : (m.about t).superclass with
    | none => exact Registry.effectiveSuperclass_of_none hslot
    | some link =>
      rw [Registry.effectiveSuperclass_of_some hslot]
      exact (Query.declaredSuperclass_of_fresh ((h t).superclass hslot)).symm
  · rw [Registry.effectiveInterfaces_of_none (m := .empty) (by simp)]
    cases hslot : (m.about t).interfaces with
    | none => exact Registry.effectiveInterfaces_of_none hslot
    | some links =>
      rw [Registry.effectiveInterfaces_of_some hslot]
      exact (Query.declaredInterfaces_of_fresh ((h t).interfaces hslot)).symm

/-! ## Queries side by side -/

namespace Query

variable {α α' β β' γ : Type} {r : Registry} {t : Handle}

/-- Two results are alike: answers that stand in a relation, or the same error. -/
inductive Ends (R : α → β → Prop) : Except Error α → Except Error β → Prop
  | ok {a : α} {b : β} (h : R a b) : Ends R (.ok a) (.ok b)
  | error (e : Error) : Ends R (.error e) (.error e)

lemma Ends.eq {x y : Except Error α} (h : Ends Eq x y) : x = y := by
  cases h with
  | ok h => rw [h]
  | error e => rfl

/-- Two answers look the same. -/
abbrev Seen (view : α → γ) (a b : α) : Prop := view a = view b

lemma ends_seen_iff {view : α → γ} {x y : Except Error α} :
    Ends (Seen view) x y ↔ x.map view = y.map view := by
  constructor
  · rintro (hab | e)
    · exact congrArg Except.ok hab
    · rfl
  · intro h
    cases x with
    | error e =>
      cases y with
      | error e' =>
        cases h
        exact .error e
      | ok b => cases h
    | ok a =>
      cases y with
      | error e' => cases h
      | ok b => exact .ok (Except.ok.inj h)

/-- From any two faithful memories the queries end alike, and the memories stay faithful. -/
def Coincide (r : Registry) (R : α → β → Prop) (q : Query α) (q' : Query β) : Prop :=
  ∀ m m', m.Faithful r → m'.Faithful r →
    Ends R (q.answer r m).1 (q'.answer r m').1 ∧
      (q.answer r m).2.Faithful r ∧ (q'.answer r m').2.Faithful r

/-- The query gives one answer from all faithful memories, and they stay faithful. -/
abbrev Steady (r : Registry) (q : Query α) : Prop := Coincide r Eq q q

namespace Coincide

variable {R : α → α' → Prop} {S : β → β' → Prop} {q : Query α} {q' : Query α'}

lemma pure {a : α} {b : α'} (h : R a b) : Coincide r R (Pure.pure a) (Pure.pure b) :=
  fun _ _ hm hm' => ⟨.ok h, hm, hm'⟩

lemma throw (e : Error) : Coincide r R (MonadExcept.throw e) (MonadExcept.throw e) :=
  fun _ _ hm hm' => ⟨.error e, hm, hm'⟩

lemma bind {f : α → Query β} {f' : α' → Query β'} (hq : Coincide r R q q')
    (hf : ∀ a b, R a b → Coincide r S (f a) (f' b)) : Coincide r S (q >>= f) (q' >>= f') := by
  intro m m' hm hm'
  obtain ⟨hends, h₁, h₁'⟩ := hq m m' hm hm'
  rcases hans : q.answer r m with ⟨x, m₁⟩
  rcases hans' : q'.answer r m' with ⟨y, m₁'⟩
  rw [hans] at hends h₁
  rw [hans'] at hends h₁'
  rcases hends with hab | e
  · rw [answer_bind_ok hans, answer_bind_ok hans']
    exact hf _ _ hab m₁ m₁' h₁ h₁'
  · rw [answer_bind_error hans, answer_bind_error hans']
    exact ⟨.error e, h₁, h₁'⟩

lemma read_bind {f : Registry → Query β} {f' : Registry → Query β'}
    (hf : Coincide r S (f r) (f' r)) : Coincide r S (read >>= f) (read >>= f') :=
  fun m m' hm hm' => hf m m' hm hm'

lemma get_bind {f : Memory → Query β} {f' : Memory → Query β'}
    (hf : ∀ m m', m.Faithful r → m'.Faithful r → Coincide r S (f m) (f' m')) :
    Coincide r S (get >>= f) (get >>= f') :=
  fun m m' hm hm' => hf m m' hm hm' m m' hm hm'

lemma map {f : α → β} {f' : α' → β'} (hq : Coincide r R q q') (hf : ∀ a b, R a b → S (f a) (f' b)) :
    Coincide r S (f <$> q) (f' <$> q') := by
  rw [map_eq_pure_bind, map_eq_pure_bind]
  exact hq.bind fun a b h => .pure (hf a b h)

/-- Loops over one list, with related accumulators. -/
lemma foldlM {f : β → γ → Query β} {f' : β' → γ → Query β'}
    (hf : ∀ b b' c, S b b' → Coincide r S (f b c) (f' b' c)) {l : List γ} {b : β} {b' : β'}
    (h : S b b') : Coincide r S (l.foldlM f b) (l.foldlM f' b') := by
  induction l generalizing b b' with
  | nil => exact .pure h
  | cons c l ih =>
    rw [List.foldlM_cons, List.foldlM_cons]
    exact (hf b b' c h).bind fun _ _ h => ih h

/-- Tests on lists whose members look the same. -/
lemma filterM {view : α → γ} {f f' : α → Query Bool}
    (hf : ∀ a b, view a = view b → Coincide r Eq (f a) (f' b)) {l l' : List α}
    (h : l.map view = l'.map view) :
    Coincide r (Seen (List.map view)) (l.filterM f) (l'.filterM f') := by
  have key : ∀ (l l' acc acc' : List α), l.map view = l'.map view → acc.map view = acc'.map view →
      Coincide r (Seen (List.map view)) (l.filterAuxM f acc) (l'.filterAuxM f' acc') := by
    intro l
    induction l with
    | nil =>
      intro l' acc acc' hl hacc
      obtain rfl : l' = [] := by simpa using hl.symm
      exact .pure hacc
    | cons a l ih =>
      intro l' acc acc' hl hacc
      cases l' with
      | nil => cases hl
      | cons b l' =>
        obtain ⟨hab, hl⟩ := List.cons.inj hl
        rw [List.filterAuxM, List.filterAuxM]
        refine (hf a b hab).bind ?_
        rintro keep _ rfl
        refine ih l' _ _ hl ?_
        cases keep with
        | true => simp [hab, hacc]
        | false => exact hacc
  unfold List.filterM
  refine (key l l' [] [] h rfl).bind fun kept kept' hkept => .pure ?_
  simpa [Seen, List.map_reverse] using hkept

end Coincide

namespace Steady

variable {q : Query α} {S : β → β' → Prop}

lemma ofExcept (result : Except Error α) : Steady r (Query.ofExcept result) := by
  cases result with
  | ok a => exact .pure rfl
  | error e => exact .throw e

lemma bind {f : α → Query β} {f' : α → Query β'} (hq : Steady r q)
    (hf : ∀ a, Coincide r S (f a) (f' a)) : Coincide r S (q >>= f) (q >>= f') := by
  refine Coincide.bind hq ?_
  rintro a _ rfl
  exact hf a

lemma mapM {f : α → Query β} (hf : ∀ a, Steady r (f a)) (l : List α) : Steady r (l.mapM f) := by
  induction l with
  | nil => exact .pure rfl
  | cons a l ih =>
    rw [List.mapM_cons]
    exact (hf a).bind fun b => ih.bind fun bs => .pure rfl

lemma anyM {f : α → Query Bool} (hf : ∀ a, Steady r (f a)) (l : List α) :
    Steady r (l.anyM f) := by
  induction l with
  | nil => exact .pure rfl
  | cons a l ih =>
    rw [List.anyM_cons]
    refine (hf a).bind fun b => ?_
    cases b with
    | true => exact .pure rfl
    | false => exact ih

end Steady

/-! ## Questions that are answered once -/

section Once

variable {slot : Slots → Option α} {keep : α → Slots → Slots} {ask : Query α}

lemma fresh_once (t : Handle) (keep : α → Slots → Slots) (hempty : slot {} = none) :
    fresh r (once t slot keep ask) = fresh r ask := by
  rw [fresh, fresh, answer_once_none (by rw [Memory.about_empty, hempty])]
  rcases ask.answer r .empty with ⟨e | a, m⟩ <;> rfl

/-- The rule for a question that is answered once: the slot of the type is one that a faithful
memory fills with the right answer only, and filling it with that answer keeps a memory
faithful. -/
lemma coincide_once (view : α → γ) (hempty : slot {} = none)
    (hask : Coincide r (Seen view) ask ask)
    (hslot : ∀ {slots a}, Slots.Faithful r t slots → slot slots = some a →
      (fresh r (once t slot keep ask)).map view = .ok (view a))
    (hkeep : ∀ {slots a}, Slots.Faithful r t slots →
      (fresh r (once t slot keep ask)).map view = .ok (view a) →
      Slots.Faithful r t (keep a slots)) :
    Coincide r (Seen view) (once t slot keep ask) (once t slot keep ask) := by
  have key : ∀ m, m.Faithful r →
      ((once t slot keep ask).answer r m).1.map view = (fresh r (once t slot keep ask)).map view ∧
        ((once t slot keep ask).answer r m).2.Faithful r := by
    intro m hm
    cases hknown : slot (m.about t) with
    | some a =>
      rw [answer_once_some hknown]
      exact ⟨(hslot (hm t) hknown).symm, hm⟩
    | none =>
      obtain ⟨hends, hafter, -⟩ := hask m .empty hm (Memory.faithful_empty r)
      rw [ends_seen_iff, ← fresh, ← fresh_once t keep hempty] at hends
      rw [answer_once_none hknown]
      rcases hans : ask.answer r m with ⟨e | a, m'⟩ <;> rw [hans] at hends hafter
      · exact ⟨hends, hafter⟩
      · exact ⟨hends, hafter.update (hkeep (hafter t) hends.symm)⟩
  intro m m' hm hm'
  obtain ⟨hanswer, hafter⟩ := key m hm
  obtain ⟨hanswer', hafter'⟩ := key m' hm'
  exact ⟨ends_seen_iff.2 (hanswer.trans hanswer'.symm), hafter, hafter'⟩

/-- The same rule for answers that are compared as they are. -/
lemma steady_once (hempty : slot {} = none) (hask : Steady r ask)
    (hslot : ∀ {slots a}, Slots.Faithful r t slots → slot slots = some a →
      fresh r (once t slot keep ask) = .ok a)
    (hkeep : ∀ {slots a}, Slots.Faithful r t slots → fresh r (once t slot keep ask) = .ok a →
      Slots.Faithful r t (keep a slots)) :
    Steady r (once t slot keep ask) := by
  have hid : ∀ x : Except Error α, x.map id = x := fun x => by rw [Except.map_id, id]
  refine coincide_once id hempty hask (fun hs ha => ?_) fun hs ha => ?_
  · rw [hid]
    exact hslot hs ha
  · rw [hid] at ha
    exact hkeep hs ha

end Once

end Query

end TypeGraph
