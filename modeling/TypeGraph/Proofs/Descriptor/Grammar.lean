import Mathlib.Data.List.DropRight
import Mathlib.Data.List.TakeWhile
import TypeGraph.Proofs.Descriptor.Names

/-!
# The grammar of class names

A class name is the name of an element and then a pair of brackets for each dimension. Blanks may
stand around all of it and before each pair of brackets, and nowhere else. The element is a
primitive type with its keyword, or a class.

The grammar is put down here as it stands, from the left to the right. Reading goes the other way:
it takes brackets off the end, one pair after the other, and looks at what is left. Both come to the
same, and printing gives the name back in its shortest spelling.
-/

namespace TypeGraph

/-! ## Blanks -/

namespace Text

variable {text blanks before after : List Char}

/-- There are only blanks in the text. -/
def Blank (text : List Char) : Prop := ∀ c ∈ text, isBlank c = true

instance (text : List Char) : Decidable (Blank text) :=
  decidable_of_iff (text.all isBlank = true) List.all_eq_true

lemma blank_nil : Blank [] := fun _ hc => nomatch hc

lemma exists_trimEnd (text : List Char) : ∃ blanks, Blank blanks ∧ text = trimEnd text ++ blanks :=
  ⟨text.rtakeWhile isBlank, fun _ hc => List.mem_rtakeWhile_imp hc,
    List.rdropWhile_append_rtakeWhile.symm⟩

lemma exists_trim (text : List Char) :
    ∃ before after, Blank before ∧ Blank after ∧ text = before ++ trim text ++ after := by
  obtain ⟨after, hafter, htext⟩ := exists_trimEnd (text.dropWhile isBlank)
  refine ⟨text.takeWhile isBlank, after, fun _ hc => List.mem_takeWhile_imp hc, hafter, ?_⟩
  rw [List.append_assoc, trim, ← htext, List.takeWhile_append_dropWhile]

lemma trimEnd_append (h : Blank blanks) : trimEnd (text ++ blanks) = trimEnd text := by
  have hblanks : ∀ c ∈ blanks.reverse, isBlank c = true := fun c hc =>
    h c (List.mem_reverse.1 hc)
  rw [trimEnd, List.reverse_append, List.dropWhile_append_of_pos hblanks, trimEnd]

/-- Where there is no blank at either end, nothing but the blanks around is dropped. -/
lemma trim_append (hbefore : Blank before) (hafter : Blank after)
    (hhead : ∀ c ∈ text.head?, isBlank c = false) (hend : trimEnd text = text) :
    trim (before ++ text ++ after) = text := by
  rw [trim, List.append_assoc, List.dropWhile_append_of_pos hbefore]
  cases text with
  | nil => rw [List.nil_append, List.dropWhile_eq_nil_iff.2 hafter, hend]
  | cons c rest =>
    rw [List.cons_append, List.dropWhile_cons_of_neg (by simp [hhead c rfl]), ← List.cons_append,
      trimEnd_append hafter, hend]

end Text

namespace Descriptor

variable {n : Nat} {text name element brackets : List Char}

/-! ## The grammar -/

/-- Pairs of brackets, with any number of blanks before each pair. -/
inductive Brackets : Nat → List Char → Prop
  | nil : Brackets 0 []
  | snoc {n : Nat} {text blanks : List Char} (h : Brackets n text) (hblanks : Text.Blank blanks) :
      Brackets (n + 1) (text ++ blanks ++ ['[', ']'])

/-- The name of an element with a number of dimensions, and how the element is written in a
descriptor. There are no arrays of `void`. -/
inductive Names (n : Nat) : List Char → List Char → Prop
  | keyword (p : Primitive) (hvoid : p = .void → n = 0) : Names n p.keyword.toList [p.letter]
  | class_ {name : List Char} (hne : name ≠ [])
      (hkeyword : ∀ p : Primitive, p.keyword.toList ≠ name)
      (hchars : ∀ c ∈ name, Text.isBlank c = false ∧ c ≠ ';' ∧ c ≠ '[' ∧ c ≠ ']' ∧ c ≠ '/')
      (hfirst : name.head? ≠ some '.') (hlast : name.getLast? ≠ some '.') :
      Names n name ('L' :: (swap '.' '/' name ++ [';']))

/-- The text is the name of an element, followed by a number of brackets, with blanks around. -/
def Spells (text : List Char) (n : Nat) (name element : List Char) : Prop :=
  Names n name element ∧ ∃ before brackets after, Text.Blank before ∧ Text.Blank after ∧
    Brackets n brackets ∧ text = before ++ (name ++ brackets) ++ after

/-! ## Brackets -/

/-- One pair of brackets is taken off the end. -/
lemma splitBrackets_append (text : List Char) :
    splitBrackets (text ++ ['[', ']']) =
      ((splitBrackets (Text.trimEnd text)).1, (splitBrackets (Text.trimEnd text)).2 + 1) := by
  have hdrop := Text.dropEnding?_append text ['[', ']']
  rw [splitBrackets]
  split
  next rest hrest =>
    obtain rfl := Option.some.inj (hdrop.symm.trans hrest)
    rfl
  next hnone => cases hdrop.symm.trans hnone

/-- What is taken off the end of a text are brackets. -/
lemma exists_brackets (text : List Char) : ∃ brackets,
    Brackets (splitBrackets text).2 brackets ∧ text = (splitBrackets text).1 ++ brackets := by
  induction text using splitBrackets.induct with
  | case1 text rest hdrop base count hsplit ih =>
    obtain ⟨brackets, hbrackets, htrimmed⟩ := ih
    obtain ⟨blanks, hblanks, hrest⟩ := Text.exists_trimEnd rest
    rw [htrimmed] at hrest
    rw [Text.eq_append_of_dropEnding? hdrop, splitBrackets_append]
    refine ⟨brackets ++ blanks ++ ['[', ']'], hbrackets.snoc hblanks, ?_⟩
    nth_rewrite 1 [hrest]
    simp only [List.append_assoc]
  | case2 text hdrop =>
    have hlast : splitBrackets text = (text, 0) := by
      rw [splitBrackets]
      split
      next rest hrest => cases hdrop.symm.trans hrest
      next => rfl
    rw [hlast]
    exact ⟨[], .nil, (List.append_nil text).symm⟩

lemma Brackets.trimEnd_append (h : Brackets n brackets) (hname : Text.trimEnd name = name) :
    Text.trimEnd (name ++ brackets) = name ++ brackets := by
  cases h with
  | nil => rwa [List.append_nil]
  | snoc => exact Text.trimEnd_of_getLast? (c := ']') (by simp) (by decide)

/-- All brackets are taken off the end of a name. -/
lemma Brackets.splitBrackets_append (h : Brackets n brackets) (hname : Text.trimEnd name = name)
    (hlast : name.getLast? ≠ some ']') : splitBrackets (name ++ brackets) = (name, n) := by
  induction h with
  | nil =>
    rw [List.append_nil]
    exact splitBrackets_of_getLast? hlast
  | snoc hbefore hblanks ih =>
    rw [← List.append_assoc, ← List.append_assoc, Descriptor.splitBrackets_append,
      Text.trimEnd_append hblanks, hbefore.trimEnd_append hname, ih]

/-! ## Elements -/

lemma isName_iff : isName name = true ↔ name ≠ [] ∧
    (∀ c ∈ name, Text.isBlank c = false ∧ c ≠ ';' ∧ c ≠ '[' ∧ c ≠ ']' ∧ c ≠ '/') ∧
    name.head? ≠ some '.' ∧ name.getLast? ≠ some '.' := by
  simp only [isName, isForbidden, Bool.and_eq_true, Bool.not_eq_true', List.isEmpty_eq_false_iff,
    bne_iff_ne, List.any_eq_false, Bool.or_eq_true, decide_eq_true_eq, not_or, Bool.not_eq_true,
    and_assoc]
  tauto

lemma ofKeyword?_eq_none_iff : Primitive.ofKeyword? (String.ofList name) = none ↔
    ∀ p : Primitive, p.keyword.toList ≠ name := by
  rw [Primitive.ofKeyword?, List.find?_eq_none]
  constructor
  · rintro h p rfl
    exact h p (by cases p <;> decide) (by simp)
  · intro h p _ hp
    exact h p (by rw [of_decide_eq_true hp, String.toList_ofList])

lemma keyword_of_ofKeyword? {p : Primitive}
    (h : Primitive.ofKeyword? (String.ofList name) = some p) : p.keyword.toList = name := by
  have hkeyword : p.keyword = String.ofList name := by simpa using List.find?_some h
  rw [hkeyword, String.toList_ofList]

/-- The names that are read as elements are those of the grammar. -/
lemma elementOfName?_eq_some_iff : elementOfName? n name = some element ↔ Names n name element := by
  constructor
  · intro h
    unfold elementOfName? at h
    split at h
    next p hp =>
      split at h
      · cases h
      next hvoid =>
        cases h
        rw [← keyword_of_ofKeyword? hp]
        exact .keyword p fun hp => by simpa [hp] using hvoid
    next hnone =>
      split at h
      next hname =>
        cases h
        obtain ⟨hne, hchars, hfirst, hlast⟩ := isName_iff.1 hname
        exact .class_ hne (ofKeyword?_eq_none_iff.1 hnone) hchars hfirst hlast
      · cases h
  · intro h
    cases h with
    | keyword p hvoid =>
      have hn : ¬ (p = .void ∧ 0 < n) := fun h => by simp [hvoid h.1] at h
      simp [elementOfName?, hn]
    | class_ hne hkeyword hchars hfirst hlast =>
      have hname := isName_iff.2 ⟨hne, hchars, hfirst, hlast⟩
      simp [elementOfName?, ofKeyword?_eq_none_iff.2 hkeyword, hname]

lemma Names.isName (h : Names n name element) : isName name = true := by
  cases h with
  | keyword p => exact isName_keyword p
  | class_ hne _ hchars hfirst hlast => exact isName_iff.2 ⟨hne, hchars, hfirst, hlast⟩

/-! ## Reading and printing -/

/-- How the parts of a class name are found. -/
lemma splitBrackets_trim {before after : List Char} (hname : isName name = true)
    (hbrackets : Brackets n brackets) (hbefore : Text.Blank before) (hafter : Text.Blank after) :
    splitBrackets (Text.trim (before ++ (name ++ brackets) ++ after)) = (name, n) := by
  have hblank := not_isBlank_of_isName hname
  have hend := Text.trimEnd_of_none hblank
  obtain ⟨hne, hchars, -⟩ := isName_iff.1 hname
  have hhead : ∀ c ∈ (name ++ brackets).head?, Text.isBlank c = false := by
    intro c hc
    rw [List.head?_append_of_ne_nil _ hne] at hc
    exact hblank c (List.mem_of_mem_head? hc)
  rw [Text.trim_append hbefore hafter hhead (hbrackets.trimEnd_append hend)]
  refine hbrackets.splitBrackets_append hend fun hlast => ?_
  exact (hchars _ (List.mem_of_getLast? hlast)).2.2.2.1 rfl

lemma Spells.ofClassName_eq {text : String} (h : Spells text.toList n name element) :
    ofClassName text = .ok (String.ofList (List.replicate n '[' ++ element)) := by
  obtain ⟨hnames, before, brackets, after, hbefore, hafter, hbrackets, htext⟩ := h
  have hsplit := splitBrackets_trim hnames.isName hbrackets hbefore hafter
  simp only [ofClassName, htext, hsplit, elementOfName?_eq_some_iff.2 hnames]

/-- What is read has been spelled in the grammar. -/
lemma exists_spells {text d : String} (h : ofClassName text = .ok d) :
    ∃ n name element, Spells text.toList n name element ∧
      d = String.ofList (List.replicate n '[' ++ element) := by
  obtain ⟨before, after, hbefore, hafter, htrim⟩ := Text.exists_trim text.toList
  obtain ⟨brackets, hbrackets, hsplit⟩ := exists_brackets (Text.trim text.toList)
  rw [hsplit] at htrim
  unfold ofClassName at h
  generalize splitBrackets (Text.trim text.toList) = parts at *
  cases helement : elementOfName? parts.2 parts.1 with
  | none =>
    simp only [helement] at h
    cases h
  | some element =>
    simp only [helement] at h
    exact ⟨parts.2, parts.1, element, ⟨elementOfName?_eq_some_iff.1 helement, before, brackets,
      after, hbefore, hafter, hbrackets, htrim⟩, (Except.ok.inj h).symm⟩

lemma eq_of_ofClassName_error {text : String} {e : Error} (h : ofClassName text = .error e) :
    e = .invalidDescriptor text := by
  unfold ofClassName at h
  split at h
  split at h
  · cases h
  · exact (Except.error.inj h).symm

/-- Characters that were not there before can be turned back. -/
lemma swap_swap {old new : Char} (h : new ∉ text) : swap new old (swap old new text) = text := by
  simp only [swap, List.map_map]
  refine (List.map_congr_left fun c hc => ?_).trans (List.map_id' text)
  have hnew : c ≠ new := fun heq => h (heq ▸ hc)
  by_cases hold : c = old <;> simp [hold, hnew]

lemma elementName?_class (h : '/' ∉ name) :
    elementName? ('L' :: (swap '.' '/' name ++ [';'])) = some name := by
  rw [elementName?, ofDescriptor?_class, inner?_class, Option.map_some, swap_swap h]

lemma className_replicate (hhead : element.head? ≠ some '[')
    (hname : elementName? element = some name) (n : Nat) :
    className (String.ofList (List.replicate n '[' ++ element)) =
      String.ofList (name ++ repeated n ['[', ']']) := by
  obtain ⟨helement, hdimensions⟩ := element_dimensions_replicate hhead n
  simp only [className, String.toList_ofList, helement, hdimensions, hname]

lemma Names.className_eq (h : Names n name element) :
    className (String.ofList (List.replicate n '[' ++ element)) =
      String.ofList (name ++ repeated n ['[', ']']) := by
  cases h with
  | keyword p =>
    refine className_replicate ?_ (by rw [elementName?, Primitive.ofDescriptor?_letter]) n
    cases p <;> decide
  | class_ _ _ hchars =>
    refine className_replicate (by simp) (elementName?_class fun hslash => ?_) n
    exact (hchars '/' hslash).2.2.2.2 rfl

lemma repeated_succ (n : Nat) (text : List Char) :
    repeated (n + 1) text = repeated n text ++ text := by
  simp [repeated, List.replicate_succ']

/-- Brackets without any blanks. -/
lemma brackets_repeated (n : Nat) : Brackets n (repeated n ['[', ']']) := by
  induction n with
  | zero => exact .nil
  | succ n ih =>
    have hsnoc := ih.snoc Text.blank_nil
    rwa [List.append_nil, ← repeated_succ] at hsnoc

/-- The spelling without blanks. -/
lemma Names.spells (h : Names n name element) :
    Spells (name ++ repeated n ['[', ']']) n name element :=
  ⟨h, [], _, [], Text.blank_nil, Text.blank_nil, brackets_repeated n, by simp⟩

/-- What is printed for a descriptor that was read can be read again. -/
lemma Names.ofClassName_className (h : Names n name element) :
    ofClassName (className (String.ofList (List.replicate n '[' ++ element))) =
      .ok (String.ofList (List.replicate n '[' ++ element)) := by
  have hspells := h.spells
  rw [← String.toList_ofList (l := name ++ _), ← h.className_eq] at hspells
  exact hspells.ofClassName_eq

/-- **Class names are read by their grammar.** A text is the name of a type exactly if it is the
name of an element with any number of brackets behind it and with blanks around it and before the
brackets. It then stands for the descriptor with that many brackets in front of the element. This
descriptor is well-formed. It is printed as the name of the element with the brackets and no blanks,
and this is read as the same descriptor again. Any other text is refused, and the error holds the
text as it is. -/
theorem ofClassName_accepts_grammar (text : String) :
    ((∃ d, ofClassName text = .ok d) ↔ ∃ n name element, Spells text.toList n name element) ∧
    (∀ n name element, Spells text.toList n name element →
      ∃ d, d.toList = List.replicate n '[' ++ element ∧ ofClassName text = .ok d ∧
        validate d = .ok () ∧ className d = String.ofList (name ++ repeated n ['[', ']']) ∧
        ofClassName (className d) = .ok d) ∧
    ((∀ n name element, ¬ Spells text.toList n name element) →
      ofClassName text = .error (.invalidDescriptor text)) := by
  refine ⟨⟨?_, ?_⟩, ?_, ?_⟩
  · rintro ⟨d, hd⟩
    obtain ⟨n, name, element, hspells, -⟩ := exists_spells hd
    exact ⟨n, name, element, hspells⟩
  · rintro ⟨n, name, element, hspells⟩
    exact ⟨_, hspells.ofClassName_eq⟩
  · intro n name element hspells
    have hread := hspells.ofClassName_eq
    refine ⟨_, String.toList_ofList, hread, ?_, hspells.1.className_eq,
      hspells.1.ofClassName_className⟩
    rw [validate, if_pos (isValid_of_ofClassName hread)]
  · intro hnone
    rcases hread : ofClassName text with e | d
    · rw [eq_of_ofClassName_error hread]
    · obtain ⟨n, name, element, hspells, -⟩ := exists_spells hread
      exact absurd hspells (hnone n name element)

/-- A class name with blanks of three kinds in all the places where they may be. -/
theorem ofClassName_accepts_grammar_blanks :
    Spells "\t p.Outer []\u3000[] ".toList 2 "p.Outer".toList "Lp/Outer;".toList ∧
    ∃ d, d.toList = "[[Lp/Outer;".toList ∧ ofClassName "\t p.Outer []\u3000[] " = .ok d ∧
      className d = "p.Outer[][]" ∧ ofClassName "p.Outer[][]" = .ok d := by
  have hbrackets : Brackets 2 " []\u3000[]".toList :=
    (Brackets.nil.snoc (show Text.Blank [' '] by decide)).snoc
      (show Text.Blank ['\u3000'] by decide)
  have hspells : Spells "\t p.Outer []\u3000[] ".toList 2 "p.Outer".toList "Lp/Outer;".toList :=
    ⟨elementOfName?_eq_some_iff.1 (by decide), ['\t', ' '], _, [' '], by decide, by decide,
      hbrackets, by decide⟩
  obtain ⟨d, hd, hread, -, hprinted, hagain⟩ :=
    (ofClassName_accepts_grammar "\t p.Outer []\u3000[] ").2.1 _ _ _ hspells
  have hname : className d = "p.Outer[][]" := hprinted.trans (by decide)
  exact ⟨hspells, d, hd.trans (by decide), hread, hname, hname ▸ hagain⟩

end Descriptor

end TypeGraph
