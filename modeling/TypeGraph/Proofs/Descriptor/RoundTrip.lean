import Mathlib.Data.Set.Function
import Mathlib.Tactic.MkIffOfInductiveProp
import TypeGraph.Proofs.Descriptor.Grammar

/-!
# Descriptors that are read back as they were printed

A well-formed descriptor may hold a text that is no class name: one with blanks in it, with a slash
at an end, or a keyword. Such a descriptor is printed all the same, but what is printed does not
lead back to it. Some are refused when they are read; others are taken for another type, as `Lint;`
is for the primitive type `int`. The descriptors that come back are those that some class name
stands for.
-/

namespace TypeGraph.Descriptor

variable {d : String} {text name inner : List Char} {n : Nat}

/-- The text of a class element is that of a class name, once its slashes are dots. -/
@[mk_iff]
structure Legible (inner : List Char) : Prop where
  chars : ∀ c ∈ inner, Text.isBlank c = false ∧ c ≠ ']'
  first : inner.head? ≠ some '/'
  last : inner.getLast? ≠ some '/'
  keyword : ∀ p : Primitive, p.keyword.toList ≠ inner

/-- The element of the descriptor is a letter or a class with a legible text. -/
def Survives (d : String) : Prop :=
  (∃ p : Primitive, element d.toList = [p.letter]) ∨
    ∃ inner, element d.toList = 'L' :: (inner ++ [';']) ∧ Legible inner

/-! ## The parts of a well-formed descriptor -/

lemma replicate_append_element (text : List Char) :
    List.replicate (dimensions text) '[' ++ element text = text := by
  have hbrackets : text.takeWhile (· = '[') = List.replicate (dimensions text) '[' :=
    List.eq_replicate_of_mem fun c hc => by simpa using List.mem_takeWhile_imp hc
  rw [← hbrackets, element, List.takeWhile_append_dropWhile]

lemma isInner_iff : isInner inner = true ↔
    inner ≠ [] ∧ ∀ c ∈ inner, c ≠ '.' ∧ c ≠ ';' ∧ c ≠ '[' := by
  simp [isInner, and_assoc]

lemma isValid_of_validate (h : validate d = .ok ()) : isValid d = true := by
  unfold validate at h
  split at h
  next hvalid => exact hvalid
  next => cases h

/-- There are no arrays of `void`. -/
lemma dimensions_of_void (h : isValid d = true)
    (hvoid : element d.toList = [Primitive.void.letter]) : dimensions d.toList = 0 := by
  simpa [isValid, hvoid] using h

lemma isInner_of_isValid (h : isValid d = true)
    (helement : element d.toList = 'L' :: (inner ++ [';'])) : isInner inner = true := by
  simpa [isValid, helement, ofDescriptor?_class, inner?_class] using h

/-! ## Legible texts -/

/-- What is asked of the text with slashes is what is asked of the name with dots. -/
lemma legible_swap_iff (hslash : '/' ∉ name) : Legible (swap '.' '/' name) ↔
    (∀ c ∈ name, Text.isBlank c = false ∧ c ≠ ']') ∧ name.head? ≠ some '.' ∧
      name.getLast? ≠ some '.' ∧ ∀ p : Primitive, p.keyword.toList ≠ name := by
  have hchars : (∀ c ∈ swap '.' '/' name, Text.isBlank c = false ∧ c ≠ ']') ↔
      ∀ c ∈ name, Text.isBlank c = false ∧ c ≠ ']' := by
    rw [swap, List.forall_mem_map]
    refine forall₂_congr fun c _ => ?_
    split
    next hdot =>
      subst hdot
      decide
    next => rfl
  -- a slash stands where a dot was, and nowhere else
  have hend : ∀ {c : Option Char}, (∀ x ∈ c, x ∈ name) →
      (c.map (fun x => if x = '.' then '/' else x) = some '/' ↔ c = some '.') := by
    intro c hc
    cases c with
    | none => simp
    | some x =>
      have hx : x ≠ '/' := fun heq => hslash (heq ▸ hc x rfl)
      simp [hx]
  have hfirst : (swap '.' '/' name).head? = some '/' ↔ name.head? = some '.' := by
    rw [swap, List.head?_map]
    exact hend fun x hx => List.mem_of_mem_head? hx
  have hlast : (swap '.' '/' name).getLast? = some '/' ↔ name.getLast? = some '.' := by
    rw [swap, List.getLast?_map]
    exact hend fun x hx => List.mem_of_getLast? hx
  have hkeyword : ∀ p : Primitive,
      p.keyword.toList = swap '.' '/' name ↔ p.keyword.toList = name := by
    intro p
    constructor
    · intro heq
      exact (eq_of_swap_eq heq.symm (by cases p <;> decide)).symm
    · rintro rfl
      cases p <;> decide
  simp only [legible_iff, hchars, ne_eq, hfirst, hlast, hkeyword]

lemma Names.survives {element' : List Char} (h : Names n name element') :
    Survives (String.ofList (List.replicate n '[' ++ element')) := by
  rw [Survives, String.toList_ofList]
  cases h with
  | keyword p =>
    have hhead : [p.letter].head? ≠ some '[' := by cases p <;> decide
    exact Or.inl ⟨p, (element_dimensions_replicate hhead n).1⟩
  | class_ hne hkeyword hchars hfirst hlast =>
    have hslash : '/' ∉ name := fun hmem => (hchars '/' hmem).2.2.2.2 rfl
    have hhead : ('L' :: (swap '.' '/' name ++ [';'])).head? ≠ some '[' := by simp
    refine Or.inr ⟨_, (element_dimensions_replicate hhead n).1, (legible_swap_iff hslash).2 ?_⟩
    exact ⟨fun c hc => ⟨(hchars c hc).1, (hchars c hc).2.2.2.1⟩, hfirst, hlast, hkeyword⟩

/-- A well-formed descriptor that survives is that of a class name. -/
lemma Survives.exists_names (h : Survives d) (hvalid : isValid d = true) :
    ∃ name, Names (dimensions d.toList) name (element d.toList) := by
  rcases h with ⟨p, hp⟩ | ⟨inner, helement, hlegible⟩
  · rw [hp]
    refine ⟨_, .keyword p ?_⟩
    rintro rfl
    exact dimensions_of_void hvalid hp
  · obtain ⟨hne, hchars⟩ := isInner_iff.1 (isInner_of_isValid hvalid helement)
    have hdot : '.' ∉ inner := fun hmem => (hchars '.' hmem).1 rfl
    have hslash : '/' ∉ swap '/' '.' inner := by
      intro hmem
      obtain ⟨c, -, hc⟩ := List.mem_map.1 hmem
      split at hc
      · cases hc
      · contradiction
    -- the name is the inner text with its slashes turned into dots
    rw [helement, ← swap_swap hdot]
    rw [← swap_swap hdot, legible_swap_iff hslash] at hlegible
    obtain ⟨hblank, hfirst, hlast, hkeyword⟩ := hlegible
    refine ⟨_, .class_ ?_ hkeyword (fun c hc => ?_) hfirst hlast⟩
    · simpa [swap] using hne
    · have hc' : c ≠ ';' ∧ c ≠ '[' := by
        obtain ⟨b, hb, rfl⟩ := List.mem_map.1 hc
        split
        · decide
        · exact (hchars b hb).2
      exact ⟨(hblank c hc).1, hc'.1, hc'.2, (hblank c hc).2, fun heq => hslash (heq ▸ hc)⟩

/-- **Descriptors that can be printed and read back.** A well-formed descriptor is read back from
its class name exactly if its element is a letter or a class whose text has no blanks and no closing
brackets in it, has no slash at either end and is no keyword. In all other cases reading fails or
gives another descriptor. Descriptors that are read back have different names. -/
theorem ofClassName_className_iff_survives :
    (∀ d, validate d = .ok () →
      (ofClassName (className d) = .ok d ↔ Survives d) ∧
      (¬ Survives d → (∃ e, ofClassName (className d) = .error e) ∨
        ∃ d', d' ≠ d ∧ ofClassName (className d) = .ok d')) ∧
    Set.InjOn className {d | validate d = .ok () ∧ Survives d} := by
  have hback : ∀ {d}, validate d = .ok () → Survives d → ofClassName (className d) = .ok d := by
    intro d hvalid hsurvives
    obtain ⟨name, hnames⟩ := hsurvives.exists_names (isValid_of_validate hvalid)
    have hread := hnames.ofClassName_className
    rwa [replicate_append_element, String.ofList_toList] at hread
  have hiff : ∀ {d}, validate d = .ok () →
      (ofClassName (className d) = .ok d ↔ Survives d) := by
    refine fun hvalid => ⟨fun hread => ?_, hback hvalid⟩
    obtain ⟨n, name, element, hspells, rfl⟩ := exists_spells hread
    exact hspells.1.survives
  refine ⟨fun d hvalid => ⟨hiff hvalid, fun hnot => ?_⟩, ?_⟩
  · rcases hread : ofClassName (className d) with e | d'
    · exact Or.inl ⟨e, rfl⟩
    · refine Or.inr ⟨d', ?_, rfl⟩
      rintro rfl
      exact hnot ((hiff hvalid).1 hread)
  · rintro d ⟨hvalid, hsurvives⟩ d' ⟨hvalid', hsurvives'⟩ hname
    have hread := hback hvalid hsurvives
    rw [hname, hback hvalid' hsurvives'] at hread
    exact (Except.ok.inj hread).symm

/-- The arrays of a class come back. Those of a class with the name of a primitive type come back as
arrays of that type. -/
theorem ofClassName_className_iff_survives_arrays :
    (validate "[[Lp/A;" = .ok () ∧ Survives "[[Lp/A;") ∧
    validate "[Lint;" = .ok () ∧ ¬ Survives "[Lint;" ∧
    ∃ d, d ≠ "[Lint;" ∧ ofClassName (className "[Lint;") = .ok d := by
  have hvalid : validate "[[Lp/A;" = .ok () := by decide +kernel
  have hvalid' : validate "[Lint;" = .ok () := by decide +kernel
  have hread : ofClassName (className "[Lint;") = .ok "[I" := by decide +kernel
  obtain ⟨hiff, -⟩ := ofClassName_className_iff_survives.1 _ hvalid
  obtain ⟨hiff', hother⟩ := ofClassName_className_iff_survives.1 _ hvalid'
  have hnot : ¬ Survives "[Lint;" := by
    rw [← hiff', hread]
    decide
  refine ⟨⟨hvalid, hiff.1 (by decide +kernel)⟩, hvalid', hnot, (hother hnot).resolve_left ?_⟩
  rintro ⟨e, he⟩
  cases hread.symm.trans he

end TypeGraph.Descriptor
