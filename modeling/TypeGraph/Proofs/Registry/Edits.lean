import TypeGraph.Loading.Builtin
import TypeGraph.Proofs.Registry.Sound

/-!
# Edits of drafts

Every way to fill in a draft keeps its descriptor and its kind. What it adds are links to other
types, or an error when the draft is marked broken; `Draft.Edits` names both. A registry stays
sound under an edit whose new links lead to issued types.
-/

namespace TypeGraph

/-- Where keys are distinct, a member of a list is found by its key. -/
lemma find?_eq_some_iff_of_nodup {α κ : Type} [DecidableEq κ] {key : α → κ} {l : List α}
    (h : (l.map key).Nodup) {k : κ} {a : α} :
    l.find? (fun b => key b = k) = some a ↔ a ∈ l ∧ key a = k := by
  constructor
  · intro hfind
    exact ⟨List.mem_of_find?_eq_some hfind, by simpa using List.find?_some hfind⟩
  · rintro ⟨ha, rfl⟩
    induction l with
    | nil => cases ha
    | cons b l ih =>
      obtain ⟨hb, hl⟩ := List.nodup_cons.1 h
      rcases List.mem_cons.1 ha with rfl | ha
      · simp
      · have hne : key b ≠ key a := fun heq => hb (heq ▸ List.mem_map_of_mem ha)
        rw [List.find?_cons_of_neg (by simpa using hne)]
        exact ih hl ha

namespace Draft

/-- The change keeps what identifies a draft. It links the draft to no types but the new ones, and
gives it no error but the new ones. -/
structure Edits (change : Draft → Draft) (new : List Handle) (errors : List Error) : Prop where
  descriptor : ∀ d, (change d).descriptor = d.descriptor
  isInterface : ∀ d, (change d).isInterface = d.isInterface
  links : ∀ d, ∀ s ∈ (change d).links, s ∈ d.links ∨ s ∈ new
  loadError : ∀ d, ∀ e, (change d).loadError = some e → d.loadError = some e ∨ e ∈ errors

variable {change change' : Draft → Draft} {new new' : List Handle} {errors errors' : List Error}

lemma Edits.comp (h : Edits change new errors) (h' : Edits change' new' errors') :
    Edits (fun d => change' (change d)) (new ++ new') (errors ++ errors') where
  descriptor d := (h'.descriptor _).trans (h.descriptor d)
  isInterface d := (h'.isInterface _).trans (h.isInterface d)
  links d s hs := by
    rcases h'.links _ s hs with hs | hs
    · exact (h.links d s hs).imp id fun hs => by simp [hs]
    · exact Or.inr (by simp [hs])
  loadError d e he := by
    rcases h'.loadError _ e he with he | he
    · exact (h.loadError d e he).imp id fun he => by simp [he]
    · exact Or.inr (by simp [he])

/-- Edits one after the other, one for each member of a list. -/
lemma Edits.foldl {α : Type} {l : List α} {f : Draft → α → Draft}
    (h : ∀ a ∈ l, Edits (f · a) new []) : Edits (fun d => l.foldl f d) new [] := by
  induction l with
  | nil => exact ⟨fun _ => rfl, fun _ => rfl, fun _ _ => Or.inl, fun _ _ => Or.inl⟩
  | cons a l ih =>
    have hcomp := (h a (by simp)).comp (ih fun b hb => h b (by simp [hb]))
    refine ⟨hcomp.descriptor, hcomp.isInterface, ?_, hcomp.loadError⟩
    intro d s hs
    exact (hcomp.links d s hs).imp id fun hs => by simpa using hs

lemma Edits.mono (h : Edits change new errors) (hnew : ∀ s ∈ new, s ∈ new') :
    Edits change new' errors :=
  ⟨h.descriptor, h.isInterface, fun d s hs => (h.links d s hs).imp id (hnew s), h.loadError⟩

/-- Links to the types of a list, added one after the other. -/
lemma Edits.foldl_links {add : Draft → Handle → Draft} (h : ∀ s, Edits (add · s) [s] [])
    (ts : List Handle) : Edits (fun d => ts.foldl add d) ts [] :=
  .foldl fun s hs => (h s).mono (by simpa using hs)

/-- A broken draft stays broken, and a draft stays whole under an edit without errors. -/
lemma Edits.loadError_eq_none (h : Edits change new []) {d : Draft} (hd : d.loadError = none) :
    (change d).loadError = none := by
  cases he : (change d).loadError with
  | none => rfl
  | some e =>
    rcases h.loadError d e he with he | he
    · rw [hd] at he
      cases he
    · cases he

lemma edits_setSuperclass (link : Option Handle) : Edits (setSuperclass link) link.toList [] where
  descriptor _ := rfl
  isInterface _ := rfl
  links d s hs := by simp only [links, setSuperclass, List.mem_append] at hs ⊢; tauto
  loadError _ _ := Or.inl

lemma edits_addInterface (interface : Handle) : Edits (addInterface interface) [interface] [] where
  descriptor _ := rfl
  isInterface _ := rfl
  links d s hs := by simp only [links, addInterface, List.mem_append] at hs ⊢; tauto
  loadError _ _ := Or.inl

lemma edits_setOuterClass (link : Option Handle) : Edits (setOuterClass link) link.toList [] where
  descriptor _ := rfl
  isInterface _ := rfl
  links d s hs := by simp only [links, setOuterClass, List.mem_append] at hs ⊢; tauto
  loadError _ _ := Or.inl

lemma edits_setDeclaringClass (link : Option Handle) :
    Edits (setDeclaringClass link) link.toList [] where
  descriptor _ := rfl
  isInterface _ := rfl
  links d s hs := by simp only [links, setDeclaringClass, List.mem_append] at hs ⊢; tauto
  loadError _ _ := Or.inl

lemma edits_addMemberType (member : Handle) : Edits (addMemberType member) [member] [] where
  descriptor _ := rfl
  isInterface _ := rfl
  links d s hs := by simp only [links, addMemberType, List.mem_append] at hs ⊢; tauto
  loadError _ _ := Or.inl

/-- Members are not links: an edit that touches nothing but members needs no new types. -/
lemma edits_of_members (hd : ∀ d, (change d).descriptor = d.descriptor)
    (hk : ∀ d, (change d).isInterface = d.isInterface) (hl : ∀ d, (change d).links = d.links)
    (he : ∀ d, (change d).loadError = d.loadError) : Edits change [] [] :=
  ⟨hd, hk, fun d _ hs => Or.inl (hl d ▸ hs), fun d _ h => Or.inl (he d ▸ h)⟩

lemma edits_addConstructor (constructor : ConstructorDecl) :
    Edits (addConstructor constructor) [] [] :=
  edits_of_members (fun _ => rfl) (fun _ => rfl) (fun _ => rfl) fun _ => rfl

lemma edits_addMethod (method : MethodDecl) : Edits (addMethod method) [] [] :=
  edits_of_members (fun _ => rfl) (fun _ => rfl) (fun _ => rfl) fun _ => rfl

lemma edits_addMethods (methods : List MethodDecl) :
    Edits (fun d => methods.foldl (fun d m => d.addMethod m) d) [] [] :=
  .foldl fun m _ => edits_addMethod m

/-- A class is given its superclass, an interface and all its members at once. -/
lemma edits_linksAndMembers (superclass interface : Handle) (methods : List MethodDecl)
    (fields : Draft → List FieldDecl) (constructors : Draft → List ConstructorDecl) :
    Edits (fun d =>
      { methods.foldl (fun d m => d.addMethod m)
          ((d.setSuperclass (some superclass)).addInterface interface) with
        fields := fields d
        constructors := constructors d }) [superclass, interface] [] := by
  have h := ((edits_setSuperclass (some superclass)).comp (edits_addInterface interface)).comp
    (edits_addMethods methods)
  exact ⟨h.descriptor, h.isInterface, fun d s hs => by simpa using h.links d s hs, h.loadError⟩

lemma edits_addField (field : FieldDecl) : Edits (addField field) [] [] :=
  edits_of_members (fun _ => rfl) (fun _ => rfl) (fun _ => rfl) fun _ => rfl

lemma edits_syntheticFields (fields : List FieldDecl) :
    Edits (fun d => { d with syntheticFields := fields }) [] [] :=
  edits_of_members (fun _ => rfl) (fun _ => rfl) (fun _ => rfl) fun _ => rfl

lemma edits_fail (error : Error) : Edits (fail error) [] [error] where
  descriptor _ := rfl
  isInterface _ := rfl
  links _ _ := Or.inl
  loadError d e he := by
    have hor : d.loadError.or (some error) = some e := he
    cases hd : d.loadError with
    | none =>
      rw [hd] at hor
      exact Or.inr (by simpa using hor.symm)
    | some e' =>
      rw [hd] at hor
      exact Or.inl hor

section Synthetic

variable {d : Draft} {field other : FieldDecl}

lemma defineSynthetic_of_new (h : d.syntheticFields.find? (·.name = field.name) = none) :
    d.defineSynthetic field =
      .ok { d with syntheticFields := insertByName field d.syntheticFields } := by
  simp only [defineSynthetic, h]

lemma defineSynthetic_of_same (h : d.syntheticFields.find? (·.name = field.name) = some other)
    (htype : other.type = field.type) : d.defineSynthetic field = .ok d := by
  simp only [defineSynthetic, h, htype, if_true]

lemma defineSynthetic_of_conflict
    (h : d.syntheticFields.find? (·.name = field.name) = some other)
    (htype : other.type ≠ field.type) :
    d.defineSynthetic field = .error (.syntheticConflict d.name field.name) := by
  simp only [defineSynthetic, h, htype, if_false]

/-- A field with a new name is found under this name, and the others as before. -/
lemma find?_insertByName {f : FieldDecl} {fields : List FieldDecl}
    (hnew : fields.find? (·.name = f.name) = none) (name : String) :
    (insertByName f fields).find? (·.name = name) =
      (fields.find? (·.name = name)).or (if f.name = name then some f else none) := by
  induction fields with
  | nil => by_cases hf : f.name = name <;> simp [insertByName, hf]
  | cons g rest ih =>
    rw [List.find?_cons] at hnew
    split at hnew
    · cases hnew
    next hne =>
      have hgf : g.name ≠ f.name := by simpa using hne
      rw [insertByName]
      split
      · by_cases hf : f.name = name
        · have hrest : rest.find? (·.name = name) = none := hf ▸ hnew
          have hg : g.name ≠ name := hf ▸ hgf
          simp [hf, hg, hrest]
        · simp [List.find?_cons, hf]
      · by_cases hg : g.name = name
        · simp [hg]
        · simpa [List.find?_cons, hg] using ih hnew

end Synthetic

/-- What a draft becomes when a synthetic field is defined. -/
lemma defineSynthetic_eq_ok {field : FieldDecl} {d d' : Draft}
    (h : d.defineSynthetic field = .ok d') :
    ∃ fields, d' = { d with syntheticFields := fields } := by
  unfold defineSynthetic at h
  split at h
  next =>
    split at h
    next => cases h; exact ⟨d.syntheticFields, rfl⟩
    next => cases h
  next => cases h; exact ⟨_, rfl⟩

lemma defineSynthetic_eq_error {field : FieldDecl} {d : Draft} {e : Error}
    (h : d.defineSynthetic field = .error e) : e.isEndless = false := by
  unfold defineSynthetic at h
  split at h
  next =>
    split at h
    next => cases h
    next => cases h; rfl
  next => cases h

end Draft

namespace Registry

variable {r : Registry} {t : Handle}

/-- An edit that links a type to issued types keeps a registry sound. -/
theorem Sound.edits (h : r.Sound) {change : Draft → Draft} {new : List Handle}
    {errors : List Error} (hedits : Draft.Edits change new errors) (t : Handle)
    (hnew : ∀ s ∈ new, r.Issued s) (herrors : ∀ e ∈ errors, e.isEndless = false) :
    (r.edit t change).Sound := by
  refine h.edit t hedits.descriptor hedits.isInterface ?_ ?_
  · intro d hd s hs
    rcases hedits.links d s hs with hs | hs
    · exact h.links_issued hd s hs
    · exact hnew s hs
  · intro d hd e he
    rcases hedits.loadError d e he with he | he
    · exact h.failures_proper hd e (by simp [Origin.failures, he])
    · exact herrors e he

lemma extends_edits {change : Draft → Draft} {new : List Handle} {errors : List Error}
    (hedits : Draft.Edits change new errors) (t : Handle) : r.Extends (r.edit t change) :=
  extends_edit t hedits.descriptor hedits.isInterface

lemma draft?_eq_some_iff {d : Draft} : r.draft? t = some d ↔ r.shape t = .declared (.draft d) := by
  unfold draft?
  split
  next d' hs =>
    rw [hs]
    simp
  next hs =>
    constructor
    · intro h
      cases h
    · intro h
      exact absurd h (hs d)

/-- Only what a change makes of the present draft matters. -/
lemma edit_congr {change change' : Draft → Draft}
    (h : ∀ d, r.shape t = .declared (.draft d) → change d = change' d) :
    r.edit t change = r.edit t change' := by
  have hentries : (r.edit t change).entries = (r.edit t change').entries := by
    refine Array.ext_getElem? fun i => ?_
    have heq := getElem?_edit r t ⟨i⟩
    simp only at heq
    rw [heq, heq]
    split
    next ht =>
      subst ht
      cases hs : r.entries[i]? with
      | none => rfl
      | some entry =>
        rw [shape_of_getElem? hs] at h
        obtain ⟨shape, array⟩ := entry
        cases shape with
        | primitive p => rfl
        | array component root => rfl
        | declared origin =>
          cases origin with
          | fixed d => rfl
          | draft d => simp [Shape.edit, h d rfl]
    next => rfl
  exact congrArg (fun entries => ({ r with entries } : Registry)) hentries

/-- Nothing happens when the draft is replaced by itself. -/
lemma edit_eq_self {d : Draft} (h : r.draft? t = some d) : (r.edit t fun _ => d) = r := by
  have hid : (r.edit t id).entries = r.entries := by
    refine Array.ext_getElem? fun i => ?_
    rw [show (r.edit t id).entries[i]? = _ from getElem?_edit r t ⟨i⟩ id]
    split
    · cases r.entries[i]? with
      | none => rfl
      | some entry =>
        rcases entry with ⟨p | (d | d) | ⟨component, root⟩, array⟩ <;> rfl
    · rfl
  have hcongr : (r.edit t fun _ => d) = r.edit t id := edit_congr fun d' hd' => by
    rw [draft?_eq_some_iff, hd'] at h
    cases h
    rfl
  rw [hcongr]
  exact congrArg (fun entries => ({ r with entries } : Registry)) hid

/-- A synthetic field is defined by an edit of the draft. -/
lemma defineSynthetic_eq_ok {field : FieldDecl} {r' : Registry}
    (h : r.defineSynthetic t field = .ok r') :
    r' = r ∨ ∃ fields, r' = r.edit t fun d => { d with syntheticFields := fields } := by
  unfold defineSynthetic at h
  cases hd : r.draft? t with
  | none =>
    rw [hd] at h
    cases h
    exact Or.inl rfl
  | some d =>
    simp only [hd] at h
    rcases hsyn : d.defineSynthetic field with e | d'
    · rw [hsyn] at h
      cases h
    · rw [hsyn] at h
      obtain ⟨fields, rfl⟩ := Draft.defineSynthetic_eq_ok hsyn
      cases h
      refine Or.inr ⟨fields, edit_congr fun d₁ hd₁ => ?_⟩
      rw [draft?_eq_some_iff, hd₁] at hd
      cases hd
      rfl

/-- A synthetic field of a draft is defined in its list of them. -/
lemma defineSynthetic_of_draft {d : Draft} (hd : r.shape t = .declared (.draft d))
    (field : FieldDecl) :
    r.defineSynthetic t field = match d.defineSynthetic field with
      | .ok d' => .ok (r.edit t fun d => { d with syntheticFields := d'.syntheticFields })
      | .error e => .error e := by
  unfold defineSynthetic
  simp only [draft?_eq_some_iff.2 hd]
  rcases hsyn : d.defineSynthetic field with e | d'
  · rfl
  · obtain ⟨fields, rfl⟩ := Draft.defineSynthetic_eq_ok hsyn
    refine congrArg Except.ok (edit_congr fun d₁ hd₁ => ?_)
    rw [hd] at hd₁
    cases hd₁
    rfl

lemma defineSynthetic_eq_error {field : FieldDecl} {e : Error}
    (h : r.defineSynthetic t field = .error e) : e.isEndless = false := by
  unfold defineSynthetic at h
  cases hd : r.draft? t with
  | none =>
    rw [hd] at h
    cases h
  | some d =>
    simp only [hd] at h
    rcases hsyn : d.defineSynthetic field with e' | d'
    · rw [hsyn] at h
      cases h
      exact Draft.defineSynthetic_eq_error hsyn
    · rw [hsyn] at h
      cases h

end Registry

end TypeGraph
