import Mathlib.Tactic.Common
import TypeGraph.Descriptor

/-!
# Class names and their descriptors

Small facts about the two spellings of types: what trimming leaves of a text, what becomes of the
dots of a name and where the brackets are, and that the descriptor of a class name is well-formed.
-/

namespace TypeGraph

/-! ## Trimming -/

namespace Text

variable {text : List Char}

lemma trim_sublist (text : List Char) : (trim text).Sublist text := by
  have hend : ∀ l : List Char, (trimEnd l).Sublist l := by
    intro l
    have h := (List.dropWhile_sublist isBlank (l := l.reverse)).reverse
    rwa [List.reverse_reverse] at h
  exact (hend _).trans (List.dropWhile_sublist isBlank)

lemma dropWhile_isBlank_of_none (h : ∀ c ∈ text, isBlank c = false) :
    text.dropWhile isBlank = text := by
  cases text with
  | nil => rfl
  | cons c rest => rw [List.dropWhile_cons_of_neg (by simp [h c])]

lemma trimEnd_of_none (h : ∀ c ∈ text, isBlank c = false) : trimEnd text = text := by
  have hreverse : text.reverse.dropWhile isBlank = text.reverse :=
    dropWhile_isBlank_of_none (by simpa using h)
  rw [trimEnd, hreverse, List.reverse_reverse]

lemma trimEnd_of_getLast? {c : Char} (h : text.getLast? = some c) (hc : isBlank c = false) :
    trimEnd text = text := by
  rw [List.getLast?_eq_head?_reverse] at h
  cases hreverse : text.reverse with
  | nil =>
    rw [hreverse] at h
    cases h
  | cons last front =>
    rw [hreverse] at h
    cases h
    rw [trimEnd, hreverse, List.dropWhile_cons_of_neg (by simp [hc]), ← hreverse,
      List.reverse_reverse]

lemma trim_of_none (h : ∀ c ∈ text, isBlank c = false) : trim text = text := by
  rw [trim, dropWhile_isBlank_of_none h, trimEnd_of_none h]

lemma dropEnding?_append (text ending : List Char) :
    dropEnding? ending (text ++ ending) = some text := by
  rw [dropEnding?, if_pos (List.isSuffixOf_iff_suffix.2 (List.suffix_append _ _)),
    List.length_append, Nat.add_sub_cancel, List.take_left]

lemma eq_append_of_dropEnding? {ending rest : List Char} (h : dropEnding? ending text = some rest) :
    text = rest ++ ending := by
  unfold dropEnding? at h
  split at h
  next hsuffix =>
    obtain rfl := Option.some.inj h
    exact (List.suffix_iff_eq_append.1 (List.isSuffixOf_iff_suffix.1 hsuffix)).symm
  next => cases h

end Text

/-! ## Descriptors of names -/

namespace Descriptor

variable {name d : String}

@[simp] lemma length_swap (old new : Char) (text : List Char) :
    (swap old new text).length = text.length := by
  simp [swap]

@[simp] lemma toList_ofRawName (name : String) :
    (ofRawName name).toList = 'L' :: (swap '.' '/' name.toList ++ [';']) := by
  simp [ofRawName]

lemma swap_eq_of_ofRawName_eq {name' : String} (h : ofRawName name = ofRawName name') :
    swap '.' '/' name.toList = swap '.' '/' name'.toList := by
  have hlist := congrArg String.toList h
  simpa using hlist

/-- Where there are no slashes, no dots were replaced. -/
lemma eq_of_swap_eq {text other : List Char} (h : swap '.' '/' text = other)
    (hslash : '/' ∉ other) : text = other := by
  have hkept : ∀ c ∈ text, (if c = '.' then '/' else c) = c := by
    intro c hc
    rw [if_neg]
    rintro rfl
    exact hslash (h ▸ List.mem_map.2 ⟨'.', hc, by simp⟩)
  rw [← h, swap, List.map_congr_left hkept, List.map_id']

/-- A name without brackets at its end is left as it is. -/
lemma splitBrackets_eq_zero {text base : List Char} (h : splitBrackets text = (base, 0)) :
    base = text := by
  rw [splitBrackets] at h
  split at h
  · simp at h
  · exact (Prod.ext_iff.1 h).1.symm

lemma splitBrackets_of_getLast? {text : List Char} (h : text.getLast? ≠ some ']') :
    splitBrackets text = (text, 0) := by
  have hnone : Text.dropEnding? ['[', ']'] text = none := by
    rw [Text.dropEnding?, if_neg]
    intro hsuffix
    obtain ⟨front, rfl⟩ := List.isSuffixOf_iff_suffix.1 hsuffix
    simp at h
  rw [splitBrackets]
  split
  next rest hrest =>
    rw [hnone] at hrest
    cases hrest
  next => rfl

/-- What the name of a class looks like, and the descriptor that it stands for. -/
lemma ofClassName_of_class (h : ofClassName name = .ok d) (harray : isArray d = false)
    (hprimitive : isPrimitive d = false) :
    isName (Text.trim name.toList) = true ∧
      d = ofRawName (String.ofList (Text.trim name.toList)) := by
  unfold ofClassName at h
  rcases hsplit : splitBrackets (Text.trim name.toList) with ⟨base, count⟩
  rw [hsplit] at h
  dsimp only at h
  cases helement : elementOfName? count base with
  | none =>
    rw [helement] at h
    cases h
  | some element =>
    rw [helement] at h
    obtain rfl := Except.ok.inj h
    cases count with
    | succ n => simp [isArray, component?, List.replicate_succ] at harray
    | zero =>
      obtain rfl := splitBrackets_eq_zero hsplit
      unfold elementOfName? at helement
      split at helement
      next p hp =>
        -- keywords stand for primitive types
        simp only [Nat.lt_irrefl, and_false, if_false, Option.some.injEq] at helement
        subst helement
        simp [isPrimitive, primitive?, Primitive.ofDescriptor?_letter] at hprimitive
      next =>
        split at helement
        next hname =>
          cases helement
          exact ⟨hname, by simp [ofRawName]⟩
        next => cases helement

lemma not_isBlank_of_isName {text : List Char} (h : isName text = true) :
    ∀ c ∈ text, Text.isBlank c = false := by
  intro c hc
  simp only [isName, Bool.and_eq_true, Bool.not_eq_true', List.any_eq_false] at h
  have hforbidden := h.2 c hc
  simp only [isForbidden, Bool.or_eq_true, not_or] at hforbidden
  simpa using hforbidden.1.1.1.1

lemma isName_keyword (p : Primitive) : isName p.keyword.toList = true := by
  cases p <;> decide

/-- Blanks are left alone when a name is turned into a descriptor. -/
lemma not_isBlank_of_swap {text : List Char}
    (h : ∀ c ∈ swap '.' '/' text, Text.isBlank c = false) :
    ∀ c ∈ text, Text.isBlank c = false := by
  intro c hc
  by_cases hdot : c = '.'
  · subst hdot
    decide
  · exact h c (List.mem_map.2 ⟨c, hc, by simp [hdot]⟩)

/-! ### Well-formed descriptors -/

/-- The brackets of the dimensions, and what stands behind them. -/
lemma element_dimensions_replicate {text : List Char} (h : text.head? ≠ some '[') (n : Nat) :
    element (List.replicate n '[' ++ text) = text ∧
      dimensions (List.replicate n '[' ++ text) = n := by
  have hnone : text.dropWhile (· = '[') = text ∧ text.takeWhile (· = '[') = [] := by
    cases text with
    | nil => simp
    | cons c rest =>
      have hc : c ≠ '[' := fun hc => h (by rw [hc]; rfl)
      simp [hc]
  simp [element, dimensions, List.dropWhile_append_of_pos, List.takeWhile_append_of_pos, hnone]

lemma isValid_replicate_letter {p : Primitive} {n : Nat} (h : ¬ (p = .void ∧ 0 < n)) :
    isValid (String.ofList (List.replicate n '[' ++ [p.letter])) = true := by
  have hhead : [p.letter].head? ≠ some '[' := by cases p <;> decide
  obtain ⟨helement, hdimensions⟩ := element_dimensions_replicate hhead n
  unfold isValid
  simp only [String.toList_ofList, helement, hdimensions, Primitive.ofDescriptor?_letter]
  cases p with
  | void => simpa using h
  | _ => rfl

lemma isInner_swap {text : List Char} (h : isName text = true) :
    isInner (swap '.' '/' text) = true := by
  simp only [isName, isForbidden, Bool.and_eq_true, Bool.not_eq_true', List.any_eq_false,
    Bool.or_eq_true, decide_eq_true_eq, not_or] at h
  obtain ⟨⟨⟨hempty, -⟩, -⟩, hforbidden⟩ := h
  simp only [isInner, swap, Bool.and_eq_true, Bool.not_eq_true', List.isEmpty_eq_false_iff, ne_eq,
    List.map_eq_nil_iff, List.any_eq_false, List.mem_map]
  refine ⟨by simpa using hempty, ?_⟩
  rintro _ ⟨c, hc, rfl⟩
  have := hforbidden c hc
  split <;> simp_all

lemma eq_letter_of_ofDescriptor? {text : List Char} {p : Primitive}
    (h : Primitive.ofDescriptor? text = some p) : text = [p.letter] := by
  unfold Primitive.ofDescriptor? at h
  split at h
  next c =>
    have hletter : p.letter = c := by simpa using List.find?_some h
    rw [hletter]
  next => cases h

lemma eq_of_inner? {text inner : List Char} (h : inner? text = some inner) :
    text = 'L' :: (inner ++ [';']) := by
  unfold inner? at h
  split at h
  next rest => rw [Text.eq_append_of_dropEnding? h]
  next => cases h

lemma ofDescriptor?_class (inner : List Char) :
    Primitive.ofDescriptor? ('L' :: (inner ++ [';'])) = none := by
  cases inner <;> simp [Primitive.ofDescriptor?]

lemma inner?_class (inner : List Char) : inner? ('L' :: (inner ++ [';'])) = some inner := by
  simp [inner?, Text.dropEnding?]

lemma isValid_replicate_class {text : List Char} (h : isName text = true) (n : Nat) :
    isValid (String.ofList (List.replicate n '[' ++ (['L'] ++ swap '.' '/' text ++ [';']))) =
      true := by
  have hhead : ('L' :: (swap '.' '/' text ++ [';'])).head? ≠ some '[' := by simp
  obtain ⟨helement, -⟩ := element_dimensions_replicate hhead n
  rw [isValid, List.append_assoc, List.singleton_append]
  simp only [String.toList_ofList, helement, ofDescriptor?_class, inner?_class]
  simpa using isInner_swap h

/-- The name of a type stands for a well-formed descriptor. -/
lemma isValid_of_ofClassName (h : ofClassName name = .ok d) : isValid d = true := by
  unfold ofClassName at h
  split at h
  next base count hsplit =>
    split at h
    next element helement =>
      obtain rfl := Except.ok.inj h
      unfold elementOfName? at helement
      split at helement
      next p hp =>
        split at helement
        · cases helement
        next hvoid =>
          cases helement
          exact isValid_replicate_letter hvoid
      next =>
        split at helement
        next hname =>
          cases helement
          exact isValid_replicate_class hname count
        · cases helement
    · cases h

lemma isValid_of_component {c : String} (hc : component? d = some c) (h : isValid d = true) :
    isValid c = true := by
  unfold component? at hc
  split at hc
  next rest hd =>
    cases hc
    have helement : element d.toList = element rest := by simp [element, hd]
    unfold isValid at h ⊢
    simp only [helement] at h
    simp only [String.toList_ofList]
    cases hp : Primitive.ofDescriptor? (element rest) with
    | none => simpa [hp] using h
    | some p =>
      cases p with
      | void => simp [hp, dimensions, hd] at h
      | _ => rfl
  next => cases hc

end Descriptor

end TypeGraph
