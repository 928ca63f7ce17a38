import Mathlib.Data.List.Find
import Mathlib.Logic.Relation
import TypeGraph.Proofs.Member.Gathered
import TypeGraph.Proofs.Query.Answered
import TypeGraph.Proofs.Query.Coincide

/-!
# Answers that last

The answers about supertypes, enclosing types and member types are never forgotten. A step of a
question keeps those that are there and adds declared ones, so it changes none of the answers that
the graph would give. A search for member types asks nothing but such questions. Once it has come to
an end, all that it asked is remembered, and asking again gives the same list and leaves the memory
as it is, also after types were registered or edited. What a graph remembers of a search is
therefore what it would find now.
-/

namespace TypeGraph

open Relation

/-! ## Links to enclosing types and member types -/

lemma Draft.eq_of_unlessBroken {α : Type} {d : Draft} {value a : α}
    (h : d.unlessBroken value = .ok a) : value = a := by
  unfold unlessBroken at h
  split at h
  · cases h
  · exact Except.ok.inj h

namespace Origin

variable {origin : Origin} {s : Handle}

lemma mem_links_of_outerClass (h : origin.declaration.outerClass = .ok (some s)) :
    s ∈ origin.links := by
  cases origin with
  | fixed d =>
    simp [links, Declaration.links, show d.outerClass = .ok (some s) from h, Except.toOption]
  | draft d =>
    have hd : d.outerClass = some s := Except.ok.inj h
    simp [links, Draft.links, hd]

lemma mem_links_of_declaringClass (h : origin.declaration.declaringClass = .ok (some s)) :
    s ∈ origin.links := by
  cases origin with
  | fixed d =>
    simp [links, Declaration.links, show d.declaringClass = .ok (some s) from h, Except.toOption]
  | draft d =>
    have hd : d.declaringClass = some s := Except.ok.inj h
    simp [links, Draft.links, hd]

lemma mem_links_of_memberTypes {list : List Handle}
    (h : origin.declaration.memberTypes = .ok list) (hs : s ∈ list) : s ∈ origin.links := by
  cases origin with
  | fixed d =>
    simp [links, Declaration.links, show d.memberTypes = .ok list from h, hs, Except.toOption]
  | draft d => simp [links, Draft.links, Draft.eq_of_unlessBroken h, hs]

end Origin

namespace Registry.Closed

variable {r : Registry} {s t : Handle}

lemma issued_of_declaredOuterClass (h : r.Closed) (hs : r.declaredOuterClass t = .ok (some s)) :
    r.Issued s := by
  rw [declaredOuterClass, declaration?] at hs
  cases ho : r.shape t <;> rw [ho] at hs
  case declared origin => exact h.links_issued ho s (Origin.mem_links_of_outerClass hs)
  all_goals cases hs

lemma issued_of_declaredDeclaringClass (h : r.Closed)
    (hs : r.declaredDeclaringClass t = .ok (some s)) : r.Issued s := by
  rw [declaredDeclaringClass, declaration?] at hs
  cases ho : r.shape t <;> rw [ho] at hs
  case declared origin => exact h.links_issued ho s (Origin.mem_links_of_declaringClass hs)
  all_goals cases hs

lemma issued_of_declaredMemberTypes (h : r.Closed) {list : List Handle}
    (hl : r.declaredMemberTypes t = .ok list) (hs : s ∈ list) : r.Issued s := by
  rw [declaredMemberTypes, declaration?] at hl
  cases ho : r.shape t <;> rw [ho] at hl
  case declared origin => exact h.links_issued ho s (Origin.mem_links_of_memberTypes hl hs)
  all_goals
    cases hl
    cases hs

end Registry.Closed

/-! ## What a step does to the answers about a type -/

/-- A slot before and after a step: it stays as it is, or it was free and now has what is
declared. -/
inductive Filled {α : Type} (declared : Except Error α) : Option α → Option α → Prop
  | same (slot : Option α) : Filled declared slot slot
  | declared {a : α} (h : declared = .ok a) : Filled declared none (some a)

namespace Filled

variable {α : Type} {declared : Except Error α} {old new : Option α}

lemma eq_some (h : Filled declared old new) {a : α} (ha : old = some a) : new = some a := by
  cases h with
  | same => exact ha
  | declared => cases ha

lemma of_some (h : Filled declared old new) {a : α} (ha : new = some a) :
    old = some a ∨ declared = .ok a := by
  cases h with
  | same => exact Or.inl ha
  | declared hdeclared => exact Or.inr (Option.some.inj ha ▸ hdeclared)

lemma elim_eq (h : Filled declared old new) : new.elim declared .ok = old.elim declared .ok := by
  cases h with
  | same => rfl
  | declared hdeclared => exact hdeclared.symm

end Filled

namespace Slots

/-- One of the lasting answers about a type names the given one. -/
def Names (slots : Slots) (s : Handle) : Prop :=
  slots.superclass = some (some s) ∨ (∃ links, slots.interfaces = some links ∧ s ∈ links) ∨
    slots.outerClass = some (some s) ∨ slots.declaringClass = some (some s) ∨
    ∃ list, slots.memberTypes = some list ∧ s ∈ list

/-- The lasting answers about a type before and after a step. -/
structure Filled (r : Registry) (t : Handle) (slots slots' : Slots) : Prop where
  superclass : TypeGraph.Filled (r.declaredSuperclass t) slots.superclass slots'.superclass
  interfaces : TypeGraph.Filled (r.declaredInterfaces t) slots.interfaces slots'.interfaces
  outerClass : TypeGraph.Filled (r.declaredOuterClass t) slots.outerClass slots'.outerClass
  declaringClass :
    TypeGraph.Filled (r.declaredDeclaringClass t) slots.declaringClass slots'.declaringClass
  memberTypes : TypeGraph.Filled (r.declaredMemberTypes t) slots.memberTypes slots'.memberTypes

/-- Every lasting answer of the first is in the second. -/
structure Retained (slots slots' : Slots) : Prop where
  superclass : ∀ {link}, slots.superclass = some link → slots'.superclass = some link
  interfaces : ∀ {links}, slots.interfaces = some links → slots'.interfaces = some links
  outerClass : ∀ {link}, slots.outerClass = some link → slots'.outerClass = some link
  declaringClass : ∀ {link}, slots.declaringClass = some link → slots'.declaringClass = some link
  memberTypes : ∀ {list}, slots.memberTypes = some list → slots'.memberTypes = some list

variable {r : Registry} {s t : Handle} {slots slots' slots'' : Slots}

lemma filled_refl (r : Registry) (t : Handle) (slots : Slots) : Filled r t slots slots :=
  ⟨.same _, .same _, .same _, .same _, .same _⟩

lemma Filled.retained (h : Filled r t slots slots') : Retained slots slots' :=
  ⟨h.superclass.eq_some, h.interfaces.eq_some, h.outerClass.eq_some, h.declaringClass.eq_some,
    h.memberTypes.eq_some⟩

lemma Retained.trans (h : Retained slots slots') (h' : Retained slots' slots'') :
    Retained slots slots'' where
  superclass hs := h'.superclass (h.superclass hs)
  interfaces hs := h'.interfaces (h.interfaces hs)
  outerClass hs := h'.outerClass (h.outerClass hs)
  declaringClass hs := h'.declaringClass (h.declaringClass hs)
  memberTypes hs := h'.memberTypes (h.memberTypes hs)

lemma Retained.names (h : Retained slots slots') (hs : slots.Names s) : slots'.Names s := by
  rcases hs with hs | ⟨links, hlinks, hs⟩ | hs | hs | ⟨list, hlist, hs⟩
  · exact Or.inl (h.superclass hs)
  · exact Or.inr (Or.inl ⟨links, h.interfaces hlinks, hs⟩)
  · exact Or.inr (Or.inr (Or.inl (h.outerClass hs)))
  · exact Or.inr (Or.inr (Or.inr (Or.inl (h.declaringClass hs))))
  · exact Or.inr (Or.inr (Or.inr (Or.inr ⟨list, h.memberTypes hlist, hs⟩)))

/-- What an answer names was named before, or it is declared and therefore issued. -/
lemma Filled.issued_of_names (h : Filled r t slots slots') (hr : r.Closed)
    (hold : ∀ s, slots.Names s → r.Issued s) (hs : slots'.Names s) : r.Issued s := by
  rcases hs with hs | ⟨links, hlinks, hs⟩ | hs | hs | ⟨list, hlist, hs⟩
  · rcases h.superclass.of_some hs with hs | hs
    · exact hold s (Or.inl hs)
    · exact hr.issued_of_declaredSuperclass hs
  · rcases h.interfaces.of_some hlinks with hlinks | hlinks
    · exact hold s (Or.inr (Or.inl ⟨links, hlinks, hs⟩))
    · exact hr.issued_of_declaredInterfaces hlinks hs
  · rcases h.outerClass.of_some hs with hs | hs
    · exact hold s (Or.inr (Or.inr (Or.inl hs)))
    · exact hr.issued_of_declaredOuterClass hs
  · rcases h.declaringClass.of_some hs with hs | hs
    · exact hold s (Or.inr (Or.inr (Or.inr (Or.inl hs))))
    · exact hr.issued_of_declaredDeclaringClass hs
  · rcases h.memberTypes.of_some hlist with hlist | hlist
    · exact hold s (Or.inr (Or.inr (Or.inr (Or.inr ⟨list, hlist, hs⟩))))
    · exact hr.issued_of_declaredMemberTypes hlist hs

end Slots

namespace Memory

variable {r : Registry} {m m' m'' : Memory} {s t : Handle}

lemma filled_update {change : Slots → Slots}
    (h : Slots.Filled r t (m.about t) (change (m.about t))) (s : Handle) :
    Slots.Filled r s (m.about s) ((m.update t change).about s) := by
  by_cases hs : s = t
  · rw [hs, about_update_self]
    exact h
  · rw [about_update_of_ne hs]
    exact Slots.filled_refl r s _

/-- Every lasting answer in the first memory is in the second one. -/
def Retains (m m' : Memory) : Prop := ∀ t, (m.about t).Retained (m'.about t)

/-- The lasting answers name issued types only. -/
def Placed (r : Registry) (m : Memory) : Prop := ∀ t s, (m.about t).Names s → r.Issued s

lemma placed_empty (r : Registry) : empty.Placed r := by
  intro t s hs
  simp [Slots.Names] at hs

lemma Placed.update (h : m.Placed r) {t : Handle} {change : Slots → Slots}
    (hnew : ∀ s, (change (m.about t)).Names s → r.Issued s) : (m.update t change).Placed r := by
  intro u s hs
  by_cases hu : u = t
  · rw [hu, about_update_self] at hs
    exact hnew s hs
  · rw [about_update_of_ne hu] at hs
    exact h u s hs

lemma Placed.of_retains (h : m'.Placed r) (hretains : m.Retains m') : m.Placed r :=
  fun t s hs => h t s ((hretains t).names hs)

end Memory

open Memory in
/-- A step keeps the lasting answers about every type and adds declared ones. -/
lemma Fill.filled {r : Registry} {m m' : Memory} (h : Fill r m m') (s : Handle) :
    Slots.Filled r s (m.about s) (m'.about s) := by
  cases h with
  | superclass link ht hfree hdecl hcheck =>
    exact filled_update { Slots.filled_refl r _ _ with superclass := hfree ▸ .declared hdecl } s
  | interfaces links ht hfree hdecl hcheck =>
    exact filled_update { Slots.filled_refl r _ _ with interfaces := hfree ▸ .declared hdecl } s
  | outerClass link ht hfree hdecl =>
    exact filled_update { Slots.filled_refl r _ _ with outerClass := hfree ▸ .declared hdecl } s
  | declaringClass link ht hfree hdecl =>
    exact filled_update { Slots.filled_refl r _ _ with declaringClass := hfree ▸ .declared hdecl } s
  | memberTypes list ht hfree hdecl =>
    exact filled_update { Slots.filled_refl r _ _ with memberTypes := hfree ▸ .declared hdecl } s
  | reading => exact Slots.filled_refl r s _
  | _ => exact filled_update ⟨.same _, .same _, .same _, .same _, .same _⟩ s

namespace Memory

variable {r : Registry} {m m' m'' : Memory} {s t : Handle}

lemma Retains.refl (m : Memory) : m.Retains m := fun _ => ⟨id, id, id, id, id⟩

lemma Retains.trans (h : m.Retains m') (h' : m'.Retains m'') : m.Retains m'' :=
  fun t => (h t).trans (h' t)

lemma Retains.of_fills (h : ReflTransGen (Fill r) m m') : m.Retains m' := by
  induction h with
  | refl => exact .refl m
  | tail _ hstep ih => exact ih.trans fun t => (hstep.filled t).retained

lemma Placed.filled (h : m.Placed r) (hr : r.Closed)
    (hfilled : ∀ t, Slots.Filled r t (m.about t) (m'.about t)) : m'.Placed r :=
  fun t _ hs => (hfilled t).issued_of_names hr (h t) hs

lemma Placed.fills (h : m.Placed r) (hr : r.Closed) (hfills : ReflTransGen (Fill r) m m') :
    m'.Placed r := by
  induction hfills with
  | refl => exact h
  | tail _ hstep ih => exact ih.filled hr hstep.filled

/-- Forgetting methods or fields takes none of the lasting answers away, and no search. -/
lemma filled_of_forgets (h : ∃ t, m' = m.forgetMethods t ∨ m' = m.forgetFields t) (s : Handle) :
    Slots.Filled r s (m.about s) (m'.about s) ∧ (m'.about s).scopes = (m.about s).scopes := by
  obtain ⟨t, rfl | rfl⟩ := h
  · refine ⟨filled_update ⟨.same _, .same _, .same _, .same _, .same _⟩ s,
      about_update_eq Slots.scopes ?_ s⟩
    exact fun _ => rfl
  · refine ⟨filled_update ⟨.same _, .same _, .same _, .same _, .same _⟩ s,
      about_update_eq Slots.scopes ?_ s⟩
    exact fun _ => rfl

end Memory

/-! ## Answers that other questions do not change -/

namespace Query

variable {α β : Type} {r r' : Registry} {m m₀ : Memory} {t : Handle}

/-- No step of a question changes the answer. -/
def Unaffected (r : Registry) (q : Query α) : Prop :=
  ∀ m m', Fill r m m' → (q.answer r m').1 = (q.answer r m).1

lemma Unaffected.answer_eq {q : Query α} (h : Unaffected r q)
    (hfills : ReflTransGen (Fill r) m₀ m) : (q.answer r m).1 = (q.answer r m₀).1 := by
  induction hfills with
  | refl => rfl
  | tail _ hstep ih => exact (h _ _ hstep).trans ih

/-- An unaffected question is answered as it would have been at first. -/
lemma Unaffected.triple {q : Query α} (h : Unaffected r q) (hfills : Fills r q) (m₀ : Memory) :
    Triple r (ReflTransGen (Fill r) m₀) q
      (fun a m => ReflTransGen (Fill r) m₀ m ∧ (q.answer r m₀).1 = .ok a)
      fun e _ => (q.answer r m₀).1 = .error e := by
  intro m hm
  have hafter := hm.trans (hfills m)
  have hsame := h.answer_eq hm
  rcases hans : q.answer r m with ⟨e | a, m'⟩ <;> rw [hans] at hsame hafter
  · exact hsame.symm
  · exact ⟨hafter, hsame.symm⟩

lemma unaffected_superclass (t : Handle) : Unaffected r (superclass t) := by
  intro m m' hstep
  have hsame : r.SameLinks m m' := Registry.SameLinks.fill ⟨rfl, rfl⟩ hstep
  cases hslot : (m.about t).superclass with
  | some link =>
    rw [answer_superclass_some hslot,
      answer_superclass_some ((hstep.filled t).superclass.eq_some hslot)]
  | none =>
    rw [answer_superclass_none hslot]
    cases hslot' : (m'.about t).superclass with
    | none =>
      rw [answer_superclass_none hslot', show r.checkChain m' [t] = r.checkChain m [t] from
        funext (hsame.checkChain_eq [t])]
      rcases r.declaredSuperclass t with e | link
      · rfl
      · rcases hcheck : link.elim (.ok ()) (r.checkChain m [t]) with e | u <;> simp only [hcheck]
    | some link =>
      -- the step has just accepted this superclass, so it is declared and passes the check
      rw [answer_superclass_some hslot']
      rcases hstep.links with
        ⟨s, link', -, hdecl, hcheck, hadds⟩ | ⟨s, links, -, -, -, hadds⟩ | hlinks
      · have hs : t = s := by
          by_contra hne
          rw [hadds.other t hne, hslot] at hslot'
          cases hslot'
        subst hs
        obtain rfl : link' = link := Option.some.inj (hadds.self.symm.trans hslot')
        have hok : link'.elim (.ok ()) (r.checkChain m [t]) = .ok () := by
          cases link' with
          | none => rfl
          | some s => exact hcheck s rfl
        simp only [hdecl, hok]
      · rw [hadds.superclass, hslot] at hslot'
        cases hslot'
      · rw [(hlinks t).1, hslot] at hslot'
        cases hslot'

lemma unaffected_interfaces (t : Handle) : Unaffected r (interfaces t) := by
  intro m m' hstep
  have hsame : r.SameLinks m m' := Registry.SameLinks.fill ⟨rfl, rfl⟩ hstep
  cases hslot : (m.about t).interfaces with
  | some links =>
    rw [answer_interfaces_some hslot,
      answer_interfaces_some ((hstep.filled t).interfaces.eq_some hslot)]
  | none =>
    rw [answer_interfaces_none hslot]
    cases hslot' : (m'.about t).interfaces with
    | none =>
      rw [answer_interfaces_none hslot', show r.checkInterfaces m' t = r.checkInterfaces m t from
        funext (hsame.checkInterfaces_eq t)]
      rcases r.declaredInterfaces t with e | links
      · rfl
      · rcases hcheck : r.checkInterfaces m t links with e | u <;> simp only [hcheck]
    | some links =>
      rw [answer_interfaces_some hslot']
      rcases hstep.links with
        ⟨s, link, -, -, -, hadds⟩ | ⟨s, links', -, hdecl, hcheck, hadds⟩ | hlinks
      · rw [hadds.interfaces, hslot] at hslot'
        cases hslot'
      · have hs : t = s := by
          by_contra hne
          rw [hadds.other t hne, hslot] at hslot'
          cases hslot'
        subst hs
        obtain rfl : links' = links := Option.some.inj (hadds.self.symm.trans hslot')
        simp only [hdecl, hcheck]
      · rw [(hlinks t).2, hslot] at hslot'
        cases hslot'

/-- A question that only reads a declaration is answered from its slot, or else as declared. -/
lemma answer_once_declared {slot : Slots → Option α} {keep : α → Slots → Slots} {ask : Query α}
    {declared : Except Error α} (hask : ∀ m, ask.answer r m = (declared, m)) (m : Memory) :
    ((once t slot keep ask).answer r m).1 = (slot (m.about t)).elim declared .ok := by
  cases hslot : slot (m.about t) with
  | some a => rw [answer_once_some hslot, Option.elim_some]
  | none =>
    rw [answer_once_none hslot, hask, Option.elim_none]
    cases declared <;> rfl

lemma answer_outerClass (r : Registry) (m : Memory) (t : Handle) :
    ((outerClass t).answer r m).1 = (m.about t).outerClass.elim (r.declaredOuterClass t) .ok :=
  answer_once_declared (answer_declaration t Declaration.outerClass none) m

lemma answer_declaringClass (r : Registry) (m : Memory) (t : Handle) :
    ((declaringClass t).answer r m).1 =
      (m.about t).declaringClass.elim (r.declaredDeclaringClass t) .ok :=
  answer_once_declared (answer_declaration t Declaration.declaringClass none) m

lemma answer_memberTypes (r : Registry) (m : Memory) (t : Handle) :
    ((memberTypes t).answer r m).1 = (m.about t).memberTypes.elim (r.declaredMemberTypes t) .ok :=
  answer_once_declared (answer_declaration t Declaration.memberTypes []) m

lemma unaffected_outerClass (t : Handle) : Unaffected r (outerClass t) := by
  intro m m' hstep
  rw [answer_outerClass, answer_outerClass, (hstep.filled t).outerClass.elim_eq]

lemma unaffected_declaringClass (t : Handle) : Unaffected r (declaringClass t) := by
  intro m m' hstep
  rw [answer_declaringClass, answer_declaringClass, (hstep.filled t).declaringClass.elim_eq]

lemma unaffected_memberTypes (t : Handle) : Unaffected r (memberTypes t) := by
  intro m m' hstep
  rw [answer_memberTypes, answer_memberTypes, (hstep.filled t).memberTypes.elim_eq]

/-! ## Questions that can be repeated -/

/-- Once the first query has been answered in one registry, the second one is answered alike in the
other registry, from all that was remembered then, and it leaves the memory as it is. -/
def Repeats (r r' : Registry) (q q' : Query α) (post : α → Prop) : Prop :=
  ∀ m a m₁, m.Placed r → q.answer r m = (.ok a, m₁) →
    m₁.Placed r ∧ m.Retains m₁ ∧ post a ∧ ∀ m₂, m₁.Retains m₂ → q'.answer r' m₂ = (.ok a, m₂)

namespace Repeats

variable {q q' : Query α} {post : α → Prop}

lemma pure (a : α) : Repeats r r' (Pure.pure a) (Pure.pure a) fun _ => True := by
  intro m b m₁ hplaced hans
  cases hans
  exact ⟨hplaced, .refl m, trivial, fun m₂ _ => rfl⟩

lemma bind {f f' : α → Query β} {post' : β → Prop} (hq : Repeats r r' q q' post)
    (hf : ∀ a, post a → Repeats r r' (f a) (f' a) post') :
    Repeats r r' (q >>= f) (q' >>= f') post' := by
  intro m b m₂ hplaced hans
  rcases hans₁ : q.answer r m with ⟨e | a, m₁⟩
  · rw [answer_bind_error hans₁] at hans
    cases hans
  · rw [answer_bind_ok hans₁] at hans
    obtain ⟨hplaced₁, hretains₁, hpost, hagain⟩ := hq m a m₁ hplaced hans₁
    obtain ⟨hplaced₂, hretains₂, hpost', hagain'⟩ := hf a hpost m₁ b m₂ hplaced₁ hans
    refine ⟨hplaced₂, hretains₁.trans hretains₂, hpost', fun m₃ h₃ => ?_⟩
    rw [answer_bind_ok (hagain m₃ (hretains₂.trans h₃)), hagain' m₃ h₃]

lemma mapM {f f' : α → Query β} {l : List α}
    (hf : ∀ a ∈ l, Repeats r r' (f a) (f' a) fun _ => True) :
    Repeats r r' (l.mapM f) (l.mapM f') fun _ => True := by
  induction l with
  | nil => exact pure []
  | cons a l ih =>
    rw [List.mapM_cons, List.mapM_cons]
    refine (hf a (by simp)).bind fun b _ => ?_
    exact (ih fun x hx => hf x (by simp [hx])).bind fun bs _ => pure _

/-- The rule for a question whose answer is remembered for good. -/
lemma once {slot : Slots → Option α} {keep : α → Slots → Slots} {ask : Query α} (hr : r.Closed)
    (hfills : Fills r (Query.once t slot keep ask))
    (hkeep : ∀ a slots, slot (keep a slots) = some a)
    (hslot : ∀ {slots slots' : Slots} {a}, slots.Retained slots' → slot slots = some a →
      slot slots' = some a)
    (hpost : ∀ {slots : Slots} {a}, (∀ s, slots.Names s → r.Issued s) → slot slots = some a →
      post a) :
    Repeats r r' (Query.once t slot keep ask) (Query.once t slot keep ask) post := by
  intro m a m₁ hplaced hans
  have hfills₁ := hfills m
  rw [hans] at hfills₁
  have hplaced₁ := hplaced.fills hr hfills₁
  have hfilled := slot_of_once_ok hkeep hans
  exact ⟨hplaced₁, .of_fills hfills₁, hpost (hplaced₁ t) hfilled, fun m₂ hretains =>
    answer_once_some (hslot (hretains t) hfilled)⟩

end Repeats

section Parts

variable (hr : r.Closed) (ht : r.Issued t)
include hr ht

lemma repeats_memberTypes : Repeats r r' (memberTypes t) (memberTypes t)
    fun list => ∀ s ∈ list, r.Issued s :=
  .once hr (fills_memberTypes ht) (fun _ _ => rfl) (fun hretained => hretained.memberTypes)
    fun hissued hslot s hs => hissued s (Or.inr (Or.inr (Or.inr (Or.inr ⟨_, hslot, hs⟩))))

lemma repeats_superclass : Repeats r r' (superclass t) (superclass t)
    fun link => ∀ s ∈ link.toList, r.Issued s :=
  .once hr (fills_superclass ht) (fun _ _ => rfl) (fun hretained => hretained.superclass)
    fun hissued hslot s hs => hissued s (Or.inl (by simpa [hslot] using hs))

lemma repeats_interfaces : Repeats r r' (interfaces t) (interfaces t)
    fun links => ∀ s ∈ links, r.Issued s :=
  .once hr (fills_interfaces ht) (fun _ _ => rfl) (fun hretained => hretained.interfaces)
    fun hissued hslot s hs => hissued s (Or.inr (Or.inl ⟨_, hslot, hs⟩))

lemma repeats_outerClass : Repeats r r' (outerClass t) (outerClass t)
    fun link => ∀ s ∈ link.toList, r.Issued s :=
  .once hr (fills_outerClass ht) (fun _ _ => rfl) (fun hretained => hretained.outerClass)
    fun hissued hslot s hs => hissued s (Or.inr (Or.inr (Or.inl (by simpa [hslot] using hs))))

lemma repeats_declaringClass : Repeats r r' (declaringClass t) (declaringClass t)
    fun link => ∀ s ∈ link.toList, r.Issued s :=
  .once hr (fills_declaringClass ht) (fun _ _ => rfl) (fun hretained => hretained.declaringClass)
    fun hissued hslot s hs =>
      hissued s (Or.inr (Or.inr (Or.inr (Or.inl (by simpa [hslot] using hs)))))

omit hr in
/-- Names and descriptors of types last, so the same member is found. -/
lemma repeats_memberNamed (hext : r.Extends r') {members : List Handle}
    (hmembers : ∀ s ∈ members, r.Issued s) (name : Option String) :
    Repeats r r' (memberNamed t members name) (memberNamed t members name) fun _ => True := by
  cases name with
  | none => exact .pure none
  | some name =>
    intro m found m₁ hplaced hans
    have hwanted : r'.memberDescriptor t name = r.memberDescriptor t name := by
      rw [Registry.memberDescriptor, Registry.memberDescriptor, Registry.className,
        Registry.className, hext.descriptor_eq ht]
    rw [memberNamed, answer_bind_ok (answer_read _ _)] at hans
    rcases hdescriptor : r.memberDescriptor t name with e | wanted <;> rw [hdescriptor] at hans
    · rw [answer_bind_error (answer_ofExcept _ _ _)] at hans
      cases hans
    · rw [answer_bind_ok (answer_ofExcept _ _ _)] at hans
      cases hans
      refine ⟨hplaced, .refl m, trivial, fun m₂ _ => ?_⟩
      rw [memberNamed, answer_bind_ok (answer_read _ _), hwanted, hdescriptor,
        answer_bind_ok (answer_ofExcept _ _ _)]
      have hfind : members.find? (fun s => r'.descriptor s = wanted) =
          members.find? fun s => r.descriptor s = wanted := by
        refine List.find?_congr fun s hs => ?_
        rw [hext.descriptor_eq (hmembers s hs)]
      rw [hfind]
      rfl

/-- A search through a scope that has come to an end can be repeated, also in a registry with more
types in it. -/
lemma repeats_searchScope (hext : r.Extends r') (name : Option String) (trail : List Handle) :
    Repeats r r' (searchScope r.size name trail t) (searchScope r'.size name trail t)
      fun _ => True := by
  induction trail, t using searchScope.induct r.size with
  | case1 trail t hopen ih =>
    have hopen' : Trail.Open r'.size trail t := ⟨hext.issued ht, hopen.2⟩
    have hsearch : ∀ {scopes : List Handle}, (∀ s ∈ scopes, r.Issued s) →
        Repeats r r' (scopes.mapM (searchScope r.size name (t :: trail)))
          (scopes.mapM (searchScope r'.size name (t :: trail))) fun _ => True :=
      fun hscopes => .mapM fun s hs => ih s (hscopes s hs)
    rw [searchScope, dif_pos hopen, searchScope, dif_pos hopen']
    refine (repeats_memberTypes hr ht).bind fun members hmembers => ?_
    refine (repeats_memberNamed ht hext hmembers name).bind fun found _ => ?_
    cases found with
    | some member => exact .pure _
    | none =>
      refine (repeats_superclass hr ht).bind fun link hlink => (hsearch hlink).bind fun _ _ => ?_
      refine (repeats_interfaces hr ht).bind fun links hlinks => (hsearch hlinks).bind fun _ _ => ?_
      refine (repeats_declaringClass hr ht).bind fun declaring hdeclaring =>
        (hsearch hdeclaring).bind fun _ _ => ?_
      refine (repeats_outerClass hr ht).bind fun outer houter =>
        (hsearch fun s hs => houter s ?_).bind fun _ _ => .pure _
      rw [Option.mem_toList, Option.filter_eq_some_iff] at hs
      exact Option.mem_toList.2 hs.1
  | case2 trail t hclosed =>
    have hclosed' : ¬ Trail.Open r'.size trail t := fun hopen' => hclosed ⟨ht, hopen'.2⟩
    rw [searchScope, dif_neg hclosed, searchScope, dif_neg hclosed']
    exact .pure []

end Parts

end Query

/-! ## Remembered searches -/

lemma Fill.scopes_about {r : Registry} {m m' : Memory} (h : Fill r m m') (t : Handle) :
    (m'.about t).scopes = (m.about t).scopes ∨
      ∃ name found, (m'.about t).scopes = (name, found) :: (m.about t).scopes ∧
        (m.about t).scopes.lookup name = none ∧ r.Issued t ∧
        ∃ m₀, (Query.searchScope r.size name [] t).answer r m₀ = (.ok found, m) := by
  cases h with
  | @scope s name found hs hsearched hfree =>
    by_cases ht : t = s
    · subst ht
      exact Or.inr ⟨name, found, by rw [Memory.about_update_self], hfree, hs, hsearched⟩
    · rw [Memory.about_update_of_ne ht]
      exact Or.inl rfl
  | reading => exact Or.inl rfl
  | _ =>
    refine Or.inl (Memory.about_update_eq Slots.scopes ?_ t)
    exact fun _ => rfl

lemma Fill.lookup_scopes_eq_some {r : Registry} {m m' : Memory} (h : Fill r m m') {t : Handle}
    {name : Option String} {found : List Handle}
    (ht : (m.about t).scopes.lookup name = some found) :
    (m'.about t).scopes.lookup name = some found := by
  rcases h.scopes_about t with heq | ⟨name', found', hnew, hfree, -⟩
  · rw [heq, ht]
  · have hne : name ≠ name' := by
      rintro rfl
      rw [ht] at hfree
      cases hfree
    rw [hnew, List.lookup_cons, show (name == name') = false by simpa using hne]
    exact ht

namespace Memory

/-- The lasting answers name issued types, and each search that is remembered would be answered in
the same way again. -/
structure Recalls (r : Registry) (m : Memory) : Prop where
  placed : m.Placed r
  searched : ∀ {t name found}, (m.about t).scopes.lookup name = some found →
    r.Issued t ∧ (Query.searchScope r.size name [] t).answer r m = (.ok found, m)

namespace Recalls

variable {g g' : Graph} {r r' : Registry} {m m' : Memory}

/-- What is remembered can be repeated from a memory that has more answers, or in a registry with
more types. -/
lemma again (h : m.Recalls r) (hr : r.Sound) (hext : r.Extends r') (hretains : m.Retains m')
    {t : Handle} {name : Option String} {found : List Handle}
    (hfound : (m.about t).scopes.lookup name = some found) :
    r'.Issued t ∧ (Query.searchScope r'.size name [] t).answer r' m' = (.ok found, m') := by
  obtain ⟨ht, hsearch⟩ := h.searched hfound
  obtain ⟨-, -, -, hagain⟩ :=
    Query.repeats_searchScope hr.closed ht hext name [] m found m h.placed hsearch
  exact ⟨hext.issued ht, hagain m' hretains⟩

lemma fill (h : m.Recalls r) (hr : r.Sound) (hstep : Fill r m m') : m'.Recalls r := by
  have hretains : m.Retains m' := .of_fills (.single hstep)
  refine ⟨h.placed.filled hr.closed hstep.filled, fun {t name found} hfound => ?_⟩
  rcases hstep.scopes_about t with hsame | ⟨name', found', hnew, -, ht, m₀, hsearched⟩
  · exact h.again hr (.refl r) hretains (hsame ▸ hfound)
  · rw [hnew, List.lookup_cons] at hfound
    by_cases hname : name = name'
    · subst hname
      obtain rfl : found' = found := by simpa using hfound
      have hfills := Query.fills_searchScope (r := r) name [] t m₀
      rw [hsearched] at hfills
      have hplaced₀ : m₀.Placed r := h.placed.of_retains (.of_fills hfills)
      obtain ⟨-, -, -, hagain⟩ :=
        Query.repeats_searchScope hr.closed ht (.refl r) name [] m₀ found' m hplaced₀ hsearched
      exact ⟨ht, hagain m' hretains⟩
    · rw [show (name == name') = false by simpa using hname] at hfound
      exact h.again hr (.refl r) hretains hfound

lemma step (h : g.memory.Recalls g.registry) (hg : g.Sound) (hstep : g.Step g') :
    g'.memory.Recalls g'.registry := by
  cases hstep with
  | extend hextends hsound =>
    exact ⟨fun t s hs => hextends.issued (h.placed t s hs),
      fun hfound => h.again hg.registry hextends (.refl _) hfound⟩
  | ask hfills =>
    induction hfills with
    | refl => exact h
    | tail _ hfill ih => exact ih.fill hg.registry hfill
  | forget _ hforgets =>
    have hfilled := fun t => (Memory.filled_of_forgets hforgets (r := g.registry) t).1
    refine ⟨h.placed.filled hg.registry.closed hfilled, fun {t name found} hfound => ?_⟩
    rw [(Memory.filled_of_forgets hforgets (r := g.registry) t).2] at hfound
    exact h.again hg.registry (.refl _) (fun t => (hfilled t).retained) hfound

end Recalls

end Memory

namespace Graph

variable {g : Graph}

lemma Reachable.recalls (hg : g.Reachable) : g.memory.Recalls g.registry := by
  obtain ⟨past, hrun⟩ := hg
  refine hrun.induction (motive := fun g => g.memory.Recalls g.registry) ?_
    fun g₁ _ g₂ hsound hrecalls hstep => hrecalls.step hsound hstep
  refine ⟨Memory.placed_empty _, fun {t name found} hfound => ?_⟩
  simp at hfound

/-- Whatever was asked before, member types in scope are given as a search would find them now. -/
theorem Reachable.answer_findMemberTypes (hg : g.Reachable) (t : Handle) (name : Option String) :
    g.answer (Query.findMemberTypes t name) =
      g.answer (Query.searchScope g.registry.size name [] t) := by
  rw [answer, answer]
  cases hslot : (g.memory.about t).scopes.lookup name with
  | some found =>
    rw [Query.findMemberTypes, Query.answer_once_some hslot, (hg.recalls.searched hslot).2]
  | none =>
    rw [Query.findMemberTypes, Query.answer_once_none hslot,
      Query.answer_bind_ok (Query.answer_read _ _)]
    rcases (Query.searchScope g.registry.size name [] t).answer g.registry g.memory with
      ⟨e | found, m⟩ <;> rfl

end Graph

end TypeGraph
