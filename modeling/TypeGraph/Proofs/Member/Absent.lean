import Mathlib.Data.List.Basic
import Mathlib.Data.List.TakeWhile
import TypeGraph.Proofs.ClassPath.Keys
import TypeGraph.Proofs.Descriptor.Grammar
import TypeGraph.Proofs.Member.Scope
import TypeGraph.Proofs.Supertype.Reachability

/-!
# Looking for member types that are not there

A member type is looked for by the name that it would have: the name of the type, a dollar sign and
the simple name. In a primitive type, a class or an interface this is the name of a class, so a
search there comes to nothing at worst. The name of an array ends in brackets, and with brackets
inside there is no such name. A search that comes to an array is therefore refused, and this is the
only way for it to fail.
-/

namespace TypeGraph

open Relation

/-! ## The name of a member -/

namespace Descriptor

variable {base text : List Char} {name : String}

/-- The text is a simple name: it is not empty and has no character that is not allowed in names,
and no dot. -/
def IsWord (name : String) : Prop :=
  name.toList ≠ [] ∧ ∀ c ∈ name.toList, isForbidden c = false ∧ c ≠ '.'

/-- Letters, digits and underscores make a simple name. -/
lemma IsWord.of_alphanum (hne : name.toList ≠ [])
    (h : ∀ c ∈ name.toList, c.isAlphanum = true ∨ c = '_') : IsWord name := by
  refine ⟨hne, fun c hc => ?_⟩
  rcases h c hc with halphanum | rfl
  · have hrange : (65 ≤ c.toNat ∧ c.toNat ≤ 90) ∨ (97 ≤ c.toNat ∧ c.toNat ≤ 122) ∨
        (48 ≤ c.toNat ∧ c.toNat ≤ 57) := by
      rcases Bool.or_eq_true_iff.1 halphanum with halpha | hdigit
      · rcases Bool.or_eq_true_iff.1 halpha with hupper | hlower
        · exact Or.inl (of_decide_eq_true hupper)
        · obtain ⟨hlow, hhigh⟩ := Bool.and_eq_true_iff.1 hlower
          exact Or.inr (Or.inl ⟨of_decide_eq_true hlow, of_decide_eq_true hhigh⟩)
      · obtain ⟨hlow, hhigh⟩ := Bool.and_eq_true_iff.1 hdigit
        exact Or.inr (Or.inr ⟨of_decide_eq_true hlow, of_decide_eq_true hhigh⟩)
    have hother : ∀ d : Char, d.toNat < 48 ∨ 57 < d.toNat ∧ d.toNat < 65 ∨
        90 < d.toNat ∧ d.toNat < 97 → c ≠ d := by
      rintro d hd rfl
      omega
    have hblank : Text.isBlank c = false := by
      simp only [Text.isBlank, Text.blankRanges, List.any_cons, List.any_nil, Bool.or_false,
        Bool.or_eq_false_iff, Bool.and_eq_false_iff, decide_eq_false_iff_not, not_le]
      omega
    simp [isForbidden, hblank, hother ';' (by decide), hother '[' (by decide),
      hother ']' (by decide), hother '/' (by decide), hother '.' (by decide)]
  · decide

/-- No keyword has a dollar sign in it. -/
lemma ofKeyword?_of_dollar (h : '$' ∈ text) : Primitive.ofKeyword? (String.ofList text) = none := by
  rw [ofKeyword?_eq_none_iff]
  rintro p rfl
  revert h
  cases p <;> decide

/-- A text without brackets at its end that has a dollar sign is a class name as it stands, or it is
no name of a type at all. -/
lemma ofClassName_of_dollar {full : String} (htrim : Text.trim full.toList = text)
    (hlast : text.getLast? ≠ some ']') (hdollar : '$' ∈ text) :
    ofClassName full = if isName text then .ok (ofRawName (String.ofList text))
      else .error (.invalidDescriptor full) := by
  rw [ofClassName, htrim, splitBrackets_of_getLast? hlast]
  simp only [elementOfName?, ofKeyword?_of_dollar hdollar]
  by_cases hname : isName text = true
  · simp [if_pos hname, ofRawName]
  · simp [if_neg hname]

lemma IsWord.exists_last (hword : IsWord name) : ∃ last, name.toList.getLast? = some last ∧
    Text.isBlank last = false ∧ last ≠ ']' ∧ last ≠ '.' := by
  cases hlast : name.toList.getLast? with
  | none => exact absurd (List.getLast?_eq_none_iff.1 hlast) hword.1
  | some last =>
    obtain ⟨hforbidden, hdot⟩ := hword.2 last (List.mem_of_getLast? hlast)
    simp only [isForbidden, Bool.or_eq_false_iff, decide_eq_false_iff_not] at hforbidden
    exact ⟨last, rfl, hforbidden.1.1.1.1, hforbidden.1.2, hdot⟩

lemma getLast?_member (front : List Char) {last : Char} (h : name.toList.getLast? = some last) :
    (front ++ '$' :: name.toList).getLast? = some last := by
  simp [List.getLast?_append, List.getLast?_cons, h]

/-- Blanks in front of the name of a member do not count, and there are none behind it. -/
lemma trim_member (base : List Char) (hword : IsWord name) :
    Text.trim (String.ofList base ++ "$" ++ name).toList =
      base.dropWhile Text.isBlank ++ '$' :: name.toList := by
  obtain ⟨last, hlast, hblank, -⟩ := hword.exists_last
  have hdollar : ('$' :: name.toList).dropWhile Text.isBlank = '$' :: name.toList :=
    List.dropWhile_cons_of_neg (by decide)
  have hdrop : (base ++ '$' :: name.toList).dropWhile Text.isBlank =
      base.dropWhile Text.isBlank ++ '$' :: name.toList := by
    rw [List.dropWhile_append, hdollar]
    split
    next hempty => rw [List.isEmpty_iff.1 hempty, List.nil_append]
    next => rfl
  rw [show (String.ofList base ++ "$" ++ name).toList = base ++ '$' :: name.toList by simp,
    Text.trim, hdrop, Text.trimEnd_of_getLast? (getLast?_member _ hlast) hblank]

/-- How the name of a member is read. -/
lemma ofClassName_member (base : List Char) (hword : IsWord name) :
    ofClassName (String.ofList base ++ "$" ++ name) =
      if isName (base.dropWhile Text.isBlank ++ '$' :: name.toList) then
        .ok (ofRawName (String.ofList (base.dropWhile Text.isBlank ++ '$' :: name.toList)))
      else .error (.invalidDescriptor (String.ofList base ++ "$" ++ name)) := by
  obtain ⟨last, hlast, -, hbracket, -⟩ := hword.exists_last
  refine ofClassName_of_dollar (trim_member base hword) ?_ (by simp)
  rw [getLast?_member _ hlast]
  exact fun heq => hbracket (Option.some.inj heq)

/-- In a type with a proper name every simple name gives a name for a member. -/
lemma exists_ofClassName_member (hname : isName base = true) (hword : IsWord name) :
    ∃ wanted, ofClassName (String.ofList base ++ "$" ++ name) = .ok wanted := by
  have hdrop := Text.dropWhile_isBlank_of_none (not_isBlank_of_isName hname)
  obtain ⟨last, hlast, -, -, hdot⟩ := hword.exists_last
  have hmember : isName (base ++ '$' :: name.toList) = true := by
    simp only [isName, Bool.and_eq_true, Bool.not_eq_true', bne_iff_ne, List.any_eq_false]
      at hname ⊢
    obtain ⟨⟨⟨hempty, hhead⟩, -⟩, hforbidden⟩ := hname
    refine ⟨⟨⟨by simp, ?_⟩, ?_⟩, fun c hc => ?_⟩
    · cases base with
      | nil => simp at hempty
      | cons c rest => simpa using hhead
    · rw [getLast?_member _ hlast]
      exact fun heq => hdot (Option.some.inj heq)
    · rcases List.mem_append.1 hc with hc | hc
      · exact hforbidden c hc
      · rcases List.mem_cons.1 hc with rfl | hc
        · decide
        · simp [(hword.2 c hc).1]
  rw [ofClassName_member base hword, hdrop, if_pos hmember]
  exact ⟨_, rfl⟩

/-- Where there is a bracket in the name, no member has a name. -/
lemma ofClassName_member_of_bracket (hbracket : '[' ∈ base) (hword : IsWord name) :
    ofClassName (String.ofList base ++ "$" ++ name) =
      .error (.invalidDescriptor (String.ofList base ++ "$" ++ name)) := by
  have hmem : '[' ∈ base.dropWhile Text.isBlank := by
    rw [← List.takeWhile_append_dropWhile (p := Text.isBlank) (l := base), List.mem_append]
      at hbracket
    refine hbracket.resolve_left fun htake => ?_
    have hblank := List.mem_takeWhile_imp htake
    revert hblank
    decide
  rw [ofClassName_member base hword, if_neg]
  simp only [isName, Bool.and_eq_true, Bool.not_eq_true', List.any_eq_false, not_and, not_forall]
  exact fun _ => ⟨'[', by simp [hmem], by decide⟩

/-! ### The names of types -/

/-- The descriptor of a class goes back to the name that it is made from. -/
lemma className_ofRawName (h : isName text = true) :
    className (ofRawName (String.ofList text)) = String.ofList text := by
  have hslash : '/' ∉ text := fun hmem => ((isName_iff.1 h).2.1 '/' hmem).2.2.2.2 rfl
  have hname := className_replicate (by simp) (elementName?_class hslash) 0
  simpa [ofRawName, repeated] using hname

lemma className_descriptor (p : Primitive) : className p.descriptor = p.keyword := by
  cases p <;> decide

/-- There is a bracket in the name of every array. -/
lemma mem_className_of_isArray {d : String} (h : isArray d = true) :
    '[' ∈ (className d).toList := by
  obtain ⟨rest, hd⟩ : ∃ rest, d.toList = '[' :: rest := by
    rw [isArray, component?] at h
    split at h
    next rest hd => exact ⟨rest, hd⟩
    next => cases h
  have hdimensions : dimensions d.toList = dimensions rest + 1 := by simp [hd, dimensions]
  rw [className]
  cases elementName? (element d.toList) with
  | none => simp [hd]
  | some name => simp [hdimensions, repeated, List.replicate_succ]

end Descriptor

namespace Registry

variable {r : Registry} {t : Handle} {name : String}

/-- The descriptor of every class and interface is that of a class name. -/
def Spelled (r : Registry) : Prop :=
  ∀ t origin, r.shape t = .declared origin →
    ∃ name, Descriptor.ofClassName name = .ok origin.declaration.descriptor

/-- In a class, an interface or a primitive type, any simple name can be looked for. -/
lemma Sound.exists_memberDescriptor (hr : r.Sound) (hspelled : r.Spelled)
    (harray : r.isArray t = false) (hword : Descriptor.IsWord name) :
    ∃ wanted, r.memberDescriptor t name = .ok wanted := by
  rw [memberDescriptor, className]
  cases hshape : r.shape t with
  | primitive p =>
    rw [descriptor_of_primitive hshape, Descriptor.className_descriptor]
    have hmember := Descriptor.exists_ofClassName_member (Descriptor.isName_keyword p) hword
    rwa [String.ofList_toList] at hmember
  | declared origin =>
    obtain ⟨source, hsource⟩ := hspelled t origin hshape
    obtain ⟨-, hprimitive, hclass⟩ := hr.isClass hshape
    obtain ⟨hname, hd⟩ := Descriptor.ofClassName_of_class hsource hclass hprimitive
    rw [descriptor_of_declared hshape, hd, Descriptor.className_ofRawName hname]
    exact Descriptor.exists_ofClassName_member hname hword
  | array component root => simp [isArray, category, hshape] at harray

/-- In an array, no name can be looked for. -/
lemma Sound.memberDescriptor_of_array (hr : r.Sound) (harray : r.isArray t = true)
    (hword : Descriptor.IsWord name) :
    r.memberDescriptor t name = .error (.invalidDescriptor (r.className t ++ "$" ++ name)) := by
  obtain ⟨c, root, hshape⟩ := array_of_category (of_decide_eq_true harray)
  have hbracket : '[' ∈ (r.className t).toList := by
    rw [className, hr.descriptor_of_array hshape]
    exact Descriptor.mem_className_of_isArray (Descriptor.isArray_ofArray _)
  have hmember := Descriptor.ofClassName_member_of_bracket hbracket hword
  rwa [String.ofList_toList] at hmember

/-! ### What can be computed -/

/-- Whether no part of the declaration of a type is an error. -/
def isIntact (r : Registry) (t : Handle) : Bool :=
  (r.declaredOuterClass t).isOk && (r.declaredDeclaringClass t).isOk &&
    (r.declaredMemberTypes t).isOk

/-- Whether the descriptor of a type is that of its name, if it is a class or an interface. -/
def isSpelled (r : Registry) (t : Handle) : Bool :=
  match r.shape t with
  | .declared origin =>
    (Descriptor.ofClassName (Descriptor.className origin.declaration.descriptor)).toOption =
      some origin.declaration.descriptor
  | _ => true

lemma Safe.of_refersBack {m : Memory}
    (h : ∀ i < r.size, r.refersBack m ⟨i⟩ = true ∧ r.isIntact ⟨i⟩ = true) : r.Safe m := by
  have hok : ∀ {α : Type} {x : Except Error α}, x.isOk = true → ∃ a, x = .ok a := by
    rintro α (e | a) hx
    · cases hx
    · exact ⟨a, rfl⟩
  constructor
  · exact fun {t} ht => .of_refersBack fun i hi => (h i (hi.trans_le ht)).1
  · intro t ht
    obtain ⟨-, hintact⟩ := h t.index ht
    simp only [isIntact, Bool.and_eq_true] at hintact
    exact ⟨hok hintact.1.1, hok hintact.1.2, hok hintact.2⟩

lemma Spelled.of_isSpelled (h : ∀ i < r.size, r.isSpelled ⟨i⟩ = true) : r.Spelled := by
  intro t origin hshape
  have hspelled : r.isSpelled t = true := h t.index (issued_of_declared hshape)
  simp only [isSpelled, hshape, decide_eq_true_eq] at hspelled
  refine ⟨Descriptor.className origin.declaration.descriptor, ?_⟩
  rcases hname : Descriptor.ofClassName (Descriptor.className origin.declaration.descriptor) with
    e | d
  · rw [hname] at hspelled
    cases hspelled
  · rw [hname] at hspelled
    rw [Option.some.inj hspelled]

end Registry

namespace Graph

variable {g : Graph} {t u : Handle} {name : String}

/-- Where no type has an error for a link and nothing leads back to itself, all direct questions are
answered. -/
lemma ScopeAnswered.of_safe (hg : g.Reachable) (ht : g.registry.Issued t)
    (hsafe : g.registry.Safe g.memory) : g.ScopeAnswered t := by
  have hr := hg.sound.registry
  have h₀ := Query.during_refl hg.sound.memory
  have hissued : ∀ {u}, ReflTransGen g.ScopeLink t u → g.registry.Issued u :=
    fun hu => hg.issued_of_scopeLinks ht hu
  constructor
  · exact fun hu => answers_of_triple
      (Query.superclass_during hr (hissued hu) (hsafe.clear (hissued hu))) h₀
  · exact fun hu => answers_of_triple
      (Query.interfaces_during hr (hissued hu) (hsafe.clear (hissued hu))) h₀
  · exact fun hu => answers_of_triple (Query.memberTypes_during hr hsafe (hissued hu)) h₀
  · exact fun hu => answers_of_triple (Query.declaringClass_during hr hsafe (hissued hu)) h₀
  · exact fun hu => answers_of_triple (Query.outerClass_during hr hsafe (hissued hu)) h₀

/-- The types that a search by name comes to are all types in scope where none of them declares the
name. -/
lemma passes_of_scopeLinks {c : Handle}
    (hnone : ∀ c, ReflTransGen (g.Passes (some name)) t c → ∀ x, ¬ g.DeclaresAs name c x)
    (hc : ReflTransGen g.ScopeLink t c) : ReflTransGen (g.Passes (some name)) t c := by
  induction hc with
  | refl => exact .refl
  | tail _ hlink ih =>
    refine ih.tail ⟨fun n hn => ?_, hlink⟩
    obtain rfl := Option.mem_some_iff.1 hn
    exact hnone _ ih

lemma not_array_of_spells (hr : g.registry.Sound) (hword : Descriptor.IsWord name)
    (h : g.Spells (some name) t) : g.registry.isArray t = false := by
  obtain ⟨wanted, hwanted⟩ := h name rfl
  by_contra harray
  rw [hr.memberDescriptor_of_array (by simpa using harray) hword] at hwanted
  cases hwanted

/-- A search by name meets no array and finds what types declare under the name, or it is refused at
an array. -/
lemma findMemberTypes_by_name (hg : g.Reachable) (hspelled : g.registry.Spelled)
    (ht : g.registry.Issued t) (hscope : g.ScopeAnswered t) (hword : Descriptor.IsWord name) :
    (∃ found, g.answer (Query.findMemberTypes t (some name)) = .ok found ∧
      (∀ c, ReflTransGen (g.Passes (some name)) t c → g.registry.isArray c = false) ∧
      ∀ x, x ∈ found ↔ ∃ c, ReflTransGen (g.Passes (some name)) t c ∧ g.DeclaresAs name c x) ∨
    ∃ c, ReflTransGen (g.Passes (some name)) t c ∧ g.registry.isArray c = true ∧
      g.answer (Query.findMemberTypes t (some name)) =
        .error (.invalidDescriptor (g.registry.className c ++ "$" ++ name)) := by
  have hr := hg.sound.registry
  have hreaches : ∀ {c}, g.Reaches (some name) [] [t] c ↔
      ReflTransGen (g.Passes (some name)) t c := by
    intro c
    rw [reaches_singleton, Trail.avoiding_nil]
  rcases hg.findMemberTypes_outcome ht (some name) with ⟨found, hfound, hsurveys⟩ | ⟨e, he, hfail⟩
  · refine Or.inl ⟨found, hfound, fun c hc => ?_, fun x => ?_⟩
    · exact not_array_of_spells hr hword (hsurveys.spells (hreaches.2 hc))
    · simp only [hsurveys.mem_iff, hreaches, Offers]
  · obtain ⟨c, hc, n, hn, hdescriptor⟩ := hscope.not_spells hfail
    obtain rfl := Option.mem_some_iff.1 hn
    cases harray : g.registry.isArray c with
    | false =>
      obtain ⟨wanted, hwanted⟩ := hr.exists_memberDescriptor hspelled harray hword
      cases hwanted.symm.trans hdescriptor
    | true =>
      rw [hr.memberDescriptor_of_array harray hword] at hdescriptor
      cases hdescriptor
      exact Or.inr ⟨c, hreaches.1 hc, harray, he⟩

/-- **A search by name fails at arrays only.** Let the direct questions about all types in the scope
of a type be answered, as they are where no type has an error for a link and nothing leads back to
itself, in any graph that some run leads to, and let the classes have descriptors of class names.
For every simple name, a search is answered if it does not come to an array: if no path of scope
links leads to one before it meets a type that declares the name. A search that is not answered
fails with the name that a member of such an array would have. Nothing is found if there are no
arrays in scope and none of the types there declares the name. -/
theorem findMemberTypes_answered_iff (hg : g.Reachable) (hspelled : g.registry.Spelled)
    (ht : g.registry.Issued t) (hscope : g.ScopeAnswered t) (hword : Descriptor.IsWord name) :
    (g.Answers (Query.findMemberTypes t (some name)) ↔
      ∀ c, ReflTransGen (fun a b => (∀ y, ¬ g.DeclaresAs name a y) ∧ g.ScopeLink a b) t c →
        g.registry.isArray c = false) ∧
    (∀ e, g.answer (Query.findMemberTypes t (some name)) = .error e →
      ∃ c, ReflTransGen (fun a b => (∀ y, ¬ g.DeclaresAs name a y) ∧ g.ScopeLink a b) t c ∧
        g.registry.isArray c = true ∧
        e = .invalidDescriptor (g.registry.className c ++ "$" ++ name)) ∧
    (g.answer (Query.findMemberTypes t (some name)) = .ok [] ↔
      ∀ c, ReflTransGen g.ScopeLink t c →
        g.registry.isArray c = false ∧ ∀ x, ¬ g.DeclaresAs name c x) := by
  have hlinks : ∀ {c}, ReflTransGen (g.Passes (some name)) t c → ReflTransGen g.ScopeLink t c :=
    fun hc => ReflTransGen.mono (fun _ _ => And.right) _ _ hc
  simp only [← passes_some]
  rcases findMemberTypes_by_name hg hspelled ht hscope hword with
    ⟨found, hfound, harrays, hmem⟩ | ⟨c, hc, harray, hrefused⟩
  · refine ⟨⟨fun _ => harrays, fun _ => ⟨found, hfound⟩⟩, fun e he => ?_, fun hnil => ?_,
      fun hnone => ?_⟩
    · cases hfound.symm.trans he
    · cases hfound.symm.trans hnil
      have hempty : ∀ c, ReflTransGen (g.Passes (some name)) t c → ∀ x, ¬ g.DeclaresAs name c x :=
        fun c hc x hx => List.not_mem_nil ((hmem x).2 ⟨c, hc, hx⟩)
      intro c hc
      have hpasses := passes_of_scopeLinks hempty hc
      exact ⟨harrays c hpasses, hempty c hpasses⟩
    · have hnil : found = [] := List.eq_nil_iff_forall_not_mem.2 fun x hx => by
        obtain ⟨c, hc, hx⟩ := (hmem x).1 hx
        exact (hnone c (hlinks hc)).2 x hx
      rw [hfound, hnil]
  · refine ⟨⟨?_, fun hnone => ?_⟩, fun e he => ?_, fun hnil => ?_, fun hnone => ?_⟩
    · rintro ⟨found, hfound⟩
      cases hfound.symm.trans hrefused
    · cases (hnone c hc).symm.trans harray
    · cases hrefused.symm.trans he
      exact ⟨c, hc, harray, rfl⟩
    · cases hnil.symm.trans hrefused
    · cases (hnone c (hlinks hc)).1.symm.trans harray

/-! ### A graph with an array -/

/-- The class `p.A`, and an array of numbers that extends it. -/
def numbersRun : List Action :=
  [.array ⟨5⟩ ⟨9⟩ 1, .define (.draft (Draft.ofClass "p.A"))]

lemma numbersRun_reachable : (Run.after numbersRun).Reachable :=
  ⟨_, Run.of_allowed (by decide +kernel)⟩

lemma numbersRun_safe : (Run.after numbersRun).registry.Safe (Run.after numbersRun).memory :=
  .of_refersBack (by decide +kernel)

lemma numbersRun_spelled : (Run.after numbersRun).registry.Spelled :=
  .of_isSpelled (by decide +kernel)

lemma numbersRun_word : Descriptor.IsWord "X" := .of_alphanum (by decide) (by simp)

/-- In `p.A` nothing is found under the name `X`, and the search in the array comes to an array. -/
theorem findMemberTypes_answered_iff_numbers :
    Descriptor.IsWord "X" ∧
    (∀ c, ReflTransGen (Run.after numbersRun).ScopeLink ⟨9⟩ c →
      (Run.after numbersRun).registry.isArray c = false ∧
        ∀ x, ¬ (Run.after numbersRun).DeclaresAs "X" c x) ∧
    ∃ c, ReflTransGen (fun a b => (∀ y, ¬ (Run.after numbersRun).DeclaresAs "X" a y) ∧
        (Run.after numbersRun).ScopeLink a b) ⟨10⟩ c ∧
      (Run.after numbersRun).registry.isArray c = true := by
  have hscope : ∀ i < (Run.after numbersRun).registry.size,
      (Run.after numbersRun).ScopeAnswered ⟨i⟩ :=
    fun i hi => .of_safe numbersRun_reachable hi numbersRun_safe
  obtain ⟨-, -, hnone⟩ := findMemberTypes_answered_iff numbersRun_reachable numbersRun_spelled
    (t := ⟨9⟩) (by decide +kernel) (hscope 9 (by decide +kernel)) numbersRun_word
  obtain ⟨-, hfails, -⟩ := findMemberTypes_answered_iff numbersRun_reachable numbersRun_spelled
    (t := ⟨10⟩) (by decide +kernel) (hscope 10 (by decide +kernel)) numbersRun_word
  obtain ⟨c, hc, harray, -⟩ := hfails (.invalidDescriptor "int[]$X") (by decide +kernel)
  exact ⟨numbersRun_word, hnone.1 (by decide +kernel), c, hc, harray⟩

/-- No type in scope declares a member `X`, and still the search for it in the array fails. -/
theorem findMemberTypes_refused_in_array :
    (Run.after numbersRun).Reachable ∧
    (Run.after numbersRun).registry.Safe (Run.after numbersRun).memory ∧
    (Run.after numbersRun).registry.Spelled ∧ (Run.after numbersRun).registry.Issued ⟨10⟩ ∧
    Descriptor.IsWord "X" ∧
    (∀ c x, ReflTransGen (Run.after numbersRun).ScopeLink ⟨10⟩ c →
      ¬ (Run.after numbersRun).Declares c x) ∧
    (Run.after numbersRun).answer (Query.findMemberTypes ⟨10⟩ (some "X")) =
      .error (.invalidDescriptor "int[]$X") := by
  have hissued : (Run.after numbersRun).registry.Issued ⟨10⟩ := by decide +kernel
  have hmembers : ∀ i < (Run.after numbersRun).registry.size,
      (Run.after numbersRun).answer (Query.memberTypes ⟨i⟩) = .ok [] := by
    decide +kernel
  refine ⟨numbersRun_reachable, numbersRun_safe, numbersRun_spelled, hissued,
    numbersRun_word, ?_, by decide +kernel⟩
  rintro c x hc ⟨members, hanswer, hx⟩
  have hempty := hmembers c.index (numbersRun_reachable.issued_of_scopeLinks hissued hc)
  cases hempty.symm.trans hanswer
  cases hx

end Graph

end TypeGraph
