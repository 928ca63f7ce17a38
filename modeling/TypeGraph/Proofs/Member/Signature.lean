import Mathlib.Data.List.Basic
import TypeGraph.Proofs.Conversion.Assignable

/-!
# Signatures are read off method descriptors

The descriptor of a method is made of those of its parameters and its result, one behind the other.
Nothing stands between two parameters, and the name of a class may hold brackets, slashes and the
letters of primitive types. Still the parts can be told apart: the descriptor of a type is never the
beginning of another one, and none starts with the bracket that ends the parameters. Since types
with one descriptor are the same, a descriptor of a method stands for one list of parameters and one
result.
-/

namespace TypeGraph

namespace Descriptor

/-- The text has the form that the descriptors of types have. Arrays of `void` are included: nothing
keeps them from being made. -/
inductive IsCode : List Char → Prop
  | primitive (p : Primitive) : IsCode [p.letter]
  | declared {inner : List Char} (hinner : ';' ∉ inner) : IsCode ('L' :: (inner ++ [';']))
  | array {text : List Char} (hcomponent : IsCode text) : IsCode ('[' :: text)

/-- Two texts that go on to the same mark are read in one way, if the mark is not in them. -/
lemma eq_of_append_mark_eq {mark : Char} {a b x y : List Char} (ha : mark ∉ a) (hb : mark ∉ b)
    (h : a ++ mark :: x = b ++ mark :: y) : a = b ∧ x = y := by
  have hread : ∀ {c z : List Char}, mark ∉ c → (c ++ mark :: z).takeWhile (· ≠ mark) = c := by
    intro c z hc
    have hpass : ∀ d ∈ c, decide (d ≠ mark) = true := fun d hd =>
      decide_eq_true fun heq => hc (heq ▸ hd)
    rw [List.takeWhile_append_of_pos hpass]
    simp
  have hab : a = b := by rw [← hread ha, h, hread hb]
  subst hab
  exact ⟨rfl, by simpa using h⟩

/-- No descriptor of a type is the beginning of another one. -/
lemma IsCode.eq_of_append_eq {a b x y : List Char} (ha : IsCode a) (hb : IsCode b)
    (h : a ++ x = b ++ y) : a = b ∧ x = y := by
  induction ha generalizing b with
  | primitive p =>
    cases hb with
    | primitive q => simpa using h
    | declared => cases p <;> simp [Primitive.letter] at h
    | array => cases p <;> simp [Primitive.letter] at h
  | declared hinner =>
    cases hb with
    | primitive q => cases q <;> simp [Primitive.letter] at h
    | declared hinner' =>
      obtain ⟨rfl, rfl⟩ := eq_of_append_mark_eq hinner hinner' (by simpa using h)
      exact ⟨rfl, rfl⟩
    | array => simp at h
  | array _ ih =>
    cases hb with
    | primitive q => cases q <;> simp [Primitive.letter] at h
    | declared => simp at h
    | array hcomponent =>
      obtain ⟨rfl, rfl⟩ := ih hcomponent (by simpa using h)
      exact ⟨rfl, rfl⟩

lemma IsCode.head?_ne {a : List Char} (ha : IsCode a) (x : List Char) :
    (a ++ x).head? ≠ some ')' := by
  cases ha with
  | primitive p => cases p <;> simp [Primitive.letter]
  | declared => simp
  | array => simp

lemma isCode_of_isClass {d : String} (h : IsClass d) : IsCode d.toList := by
  obtain ⟨hvalid, hprimitive, harray⟩ := h
  have helement : element d.toList = d.toList := by
    unfold isArray component? at harray
    unfold element
    split at harray
    next => cases harray
    next hhead =>
      cases htext : d.toList with
      | nil => rfl
      | cons c text =>
        have hc : c ≠ '[' := fun heq => hhead text (heq ▸ htext)
        rw [List.dropWhile_cons_of_neg (by simpa using hc)]
  have hletter : Primitive.ofDescriptor? d.toList = none := by
    simpa [isPrimitive, primitive?] using hprimitive
  simp only [isValid, helement, hletter] at hvalid
  obtain ⟨inner, hinner?, hinner⟩ := (Option.any_eq_true _ _).1 hvalid
  rw [eq_of_inner? hinner?]
  refine .declared fun hmem => ?_
  simp only [isInner, Bool.and_eq_true, Bool.not_eq_true', List.any_eq_false] at hinner
  exact hinner.2 ';' hmem (by simp)

/-! ## Descriptors of methods -/

/-- Parameters are read one after the other, up to the bracket behind them. -/
lemma eq_of_flatMap_eq {ps qs : List String} (hp : ∀ d ∈ ps, IsCode d.toList)
    (hq : ∀ d ∈ qs, IsCode d.toList) {x y : List Char}
    (h : ps.flatMap String.toList ++ ')' :: x = qs.flatMap String.toList ++ ')' :: y) :
    ps = qs ∧ x = y := by
  induction ps generalizing qs with
  | nil =>
    cases qs with
    | nil => simpa using h
    | cons d qs =>
      have hd := (hq d (by simp)).head?_ne (qs.flatMap String.toList ++ ')' :: y)
      rw [← List.append_assoc, ← List.flatMap_cons, ← h] at hd
      simp at hd
  | cons c ps ih =>
    have hc := hp c (by simp)
    cases qs with
    | nil =>
      have hne := hc.head?_ne (ps.flatMap String.toList ++ ')' :: x)
      rw [← List.append_assoc, ← List.flatMap_cons, h] at hne
      simp at hne
    | cons d qs =>
      simp only [List.flatMap_cons, List.append_assoc] at h
      obtain ⟨hcd, hrest⟩ := hc.eq_of_append_eq (hq d (by simp)) h
      obtain ⟨rfl, rfl⟩ :=
        ih (fun e he => hp e (by simp [he])) (fun e he => hq e (by simp [he])) hrest
      exact ⟨by rw [String.toList_inj.1 hcd], rfl⟩

lemma toList_ofMethod (ps : List String) (d : String) :
    (ofMethod ps d).toList = '(' :: (ps.flatMap String.toList ++ ')' :: d.toList) := by
  simp [ofMethod, String.toList_join]

/-- What two methods have in common at the beginning of their parameters can be anything. -/
lemma ofMethod_append_inj (first : List String) {ps qs : List String} {c d : String}
    (hp : ∀ e ∈ ps, IsCode e.toList) (hq : ∀ e ∈ qs, IsCode e.toList) :
    ofMethod (first ++ ps) c = ofMethod (first ++ qs) d ↔ ps = qs ∧ c = d := by
  constructor
  · intro h
    have htext := congrArg String.toList h
    simp only [toList_ofMethod, List.flatMap_append, List.append_assoc, List.cons.injEq, true_and,
      List.append_cancel_left_eq] at htext
    obtain ⟨hps, hcd⟩ := eq_of_flatMap_eq hp hq htext
    exact ⟨hps, String.toList_inj.1 hcd⟩
  · rintro ⟨rfl, rfl⟩
    rfl

end Descriptor

namespace Registry

variable {r : Registry} {t : Handle} {p q : List Handle}

/-- The descriptors of all types have the form of one. -/
lemma Canonical.isCode_descriptor (h : r.Canonical) (ht : r.Issued t) :
    Descriptor.IsCode (r.descriptor t).toList := by
  induction t using Registry.descriptor.induct r with
  | case1 t c hc ih =>
    obtain ⟨root, hs⟩ := h.component?_eq_some_iff.1 hc
    rw [descriptor_of_component hc, Descriptor.toList_ofArray]
    exact .array (ih (h.issued_component hs))
  | case2 t hc p hs =>
    rw [descriptor_of_primitive hs, Primitive.descriptor, String.toList_ofList]
    exact .primitive p
  | case3 t hc origin hs =>
    rw [descriptor_of_declared hs]
    exact Descriptor.isCode_of_isClass (h.isClass hs)
  | case4 t hc c root hs =>
    rw [h.component?_of_array hs] at hc
    cases hc

lemma Canonical.isCode_descriptors (h : r.Canonical) (hp : ∀ t ∈ p, r.Issued t) :
    ∀ d ∈ r.descriptors p, Descriptor.IsCode d.toList := by
  intro d hd
  obtain ⟨t, ht, rfl⟩ := List.mem_map.1 hd
  exact h.isCode_descriptor (hp t ht)

/-- Lists of types with the same descriptors are the same. -/
lemma Canonical.descriptors_inj (h : r.Canonical) (hp : ∀ t ∈ p, r.Issued t)
    (hq : ∀ t ∈ q, r.Issued t) : r.descriptors p = r.descriptors q ↔ p = q := by
  refine ⟨fun heq => ?_, fun heq => heq ▸ rfl⟩
  induction p generalizing q with
  | nil => exact (List.map_eq_nil_iff.1 heq.symm).symm
  | cons s p ih =>
    cases q with
    | nil => cases heq
    | cons t q =>
      obtain ⟨hhead, htail⟩ := List.cons.inj heq
      rw [h.eq_of_descriptor_eq (hp s (by simp)) (hq t (by simp)) hhead,
        ih (fun u hu => hp u (by simp [hu])) (fun u hu => hq u (by simp [hu])) htail]

/-- All types that the method declaration names were issued. -/
def Covers (r : Registry) (decl : MethodDecl) : Prop :=
  ∀ t ∈ decl.result :: decl.parameters, r.Issued t

instance (r : Registry) (decl : MethodDecl) : Decidable (r.Covers decl) :=
  inferInstanceAs (Decidable (∀ t ∈ _, _))

/-- A descriptor stands for one list of parameters, whatever types are put in front of them. -/
lemma Canonical.ofMethod_inj (h : r.Canonical) (first : List Handle) {c d : String}
    (hp : ∀ u ∈ p, r.Issued u) (hq : ∀ u ∈ q, r.Issued u) :
    Descriptor.ofMethod (r.descriptors (first ++ p)) c =
      Descriptor.ofMethod (r.descriptors (first ++ q)) d ↔ p = q ∧ c = d := by
  have hsplit : ∀ ts : List Handle,
      r.descriptors (first ++ ts) = r.descriptors first ++ r.descriptors ts :=
    fun ts => List.map_append
  rw [hsplit, hsplit, Descriptor.ofMethod_append_inj _ (h.isCode_descriptors hp)
    (h.isCode_descriptors hq), h.descriptors_inj hp hq]

/-- A descriptor stands for one signature. -/
lemma Canonical.signature_inj (h : r.Canonical) {s t : Handle} (hp : ∀ u ∈ s :: p, r.Issued u)
    (hq : ∀ u ∈ t :: q, r.Issued u) :
    Descriptor.ofMethod (r.descriptors p) (r.descriptor s) =
      Descriptor.ofMethod (r.descriptors q) (r.descriptor t) ↔ p = q ∧ s = t := by
  rw [List.forall_mem_cons] at hp hq
  refine (h.ofMethod_inj [] hp.2 hq.2).trans (and_congr_right fun _ => ?_)
  exact ⟨h.eq_of_descriptor_eq hp.1 hq.1, fun heq => heq ▸ rfl⟩

/-- Methods agree if they have the same name and the same signature. -/
lemma Canonical.agree_iff (h : r.Canonical) {a b : Method} (ha : r.Covers a.decl)
    (hb : r.Covers b.decl) :
    r.agree a b = true ↔ a.decl.name = b.decl.name ∧ a.decl.parameters = b.decl.parameters ∧
      a.decl.result = b.decl.result := by
  rw [agree, Bool.and_eq_true, decide_eq_true_eq, decide_eq_true_eq]
  exact and_congr_right fun _ => h.signature_inj ha hb

end Registry

namespace Graph

variable {g : Graph}

/-- The outer class comes first among the parameters. -/
lemma answer_constructorDescriptor {constructor : Constructor} {outer : Option Handle}
    (h : g.answer (Query.outerClass constructor.owner) = .ok outer) :
    g.answer (Query.constructorDescriptor constructor) =
      .ok (Descriptor.ofMethod
        (g.registry.descriptors (outer.toList ++ constructor.decl.parameters))
        (Primitive.descriptor .void)) := by
  rcases hask : (Query.outerClass constructor.owner).answer g.registry g.memory with ⟨result, m⟩
  rw [answer, hask] at h
  obtain rfl : result = .ok outer := h
  rw [answer, Query.constructorDescriptor, Query.answer_bind_ok (Query.answer_read _ _),
    Query.answer_bind_ok hask]
  rfl

/-- **Descriptors of methods stand for signatures.** In any graph that some run leads to, two lists
of parameters and two results have the same method descriptor only if they are the same. So two
methods agree, in name and descriptor, exactly if they have the same name, parameters and result,
and two constructors of one class have the same descriptor exactly if they have the same parameters.
The class may have an outer class, which stands in front of these. -/
theorem signature_of_descriptor (hg : g.Reachable) :
    (∀ (p q : List Handle) (s t : Handle), (∀ u ∈ s :: p, g.registry.Issued u) →
      (∀ u ∈ t :: q, g.registry.Issued u) →
      (Descriptor.ofMethod (g.registry.descriptors p) (g.registry.descriptor s) =
        Descriptor.ofMethod (g.registry.descriptors q) (g.registry.descriptor t) ↔
          p = q ∧ s = t)) ∧
    (∀ a b : Method, g.registry.Covers a.decl → g.registry.Covers b.decl →
      (g.registry.agree a b = true ↔ a.decl.name = b.decl.name ∧
        a.decl.parameters = b.decl.parameters ∧ a.decl.result = b.decl.result)) ∧
    (∀ a b : Constructor, a.owner = b.owner →
      (∀ u ∈ a.decl.parameters, g.registry.Issued u) →
      (∀ u ∈ b.decl.parameters, g.registry.Issued u) →
      ∀ outer, g.answer (Query.outerClass a.owner) = .ok outer →
      ∃ d d', g.answer (Query.constructorDescriptor a) = .ok d ∧
        g.answer (Query.constructorDescriptor b) = .ok d' ∧
        (d = d' ↔ a.decl.parameters = b.decl.parameters)) := by
  have hcanonical := hg.sound.registry.canonical
  refine ⟨fun p q s t hp hq => hcanonical.signature_inj hp hq,
    fun a b => hcanonical.agree_iff, ?_⟩
  intro a b howner ha hb outer houter
  refine ⟨_, _, answer_constructorDescriptor houter,
    answer_constructorDescriptor (howner ▸ houter), ?_⟩
  rw [hcanonical.ofMethod_inj outer.toList ha hb]
  exact and_iff_left rfl

/-- The names of the classes `I)V` and `II` look like parts of a descriptor. The second is an inner
class of the first and has three constructors. There is also an array of the first class. -/
def confusingRun : List Action :=
  [.array ⟨9⟩ ⟨9⟩ 1,
   .define (.draft { Draft.ofClass "II" with
      outerClass := some ⟨9⟩
      constructors := [{}, { parameters := [⟨9⟩] }, { parameters := [⟨5⟩, ⟨5⟩] }] }),
   .define (.draft (Draft.ofClass "I)V"))]

/-- Two methods with parameters that are written next to each other, and two constructors of the
inner class. -/
theorem signature_of_descriptor_confusing :
    (Run.after confusingRun).Reachable ∧
    (Run.after confusingRun).registry.agree
      ⟨⟨9⟩, ⟨0, 0⟩, { name := "f", parameters := [⟨11⟩, ⟨5⟩], result := ⟨0⟩ }⟩
      ⟨⟨10⟩, ⟨1, 0⟩, { name := "f", parameters := [⟨11⟩, ⟨10⟩], result := ⟨0⟩ }⟩ = false ∧
    ∃ d d', (Run.after confusingRun).answer
        (Query.constructorDescriptor ⟨⟨10⟩, ⟨0, 0⟩, {}⟩) = .ok d ∧
      (Run.after confusingRun).answer
        (Query.constructorDescriptor ⟨⟨10⟩, ⟨1, 0⟩, { parameters := [⟨9⟩] }⟩) = .ok d' ∧
      d ≠ d' := by
  have hreach : (Run.after confusingRun).Reachable := ⟨_, Run.of_allowed (by decide +kernel)⟩
  obtain ⟨-, hmethods, hconstructors⟩ := signature_of_descriptor hreach
  refine ⟨hreach, ?_, ?_⟩
  · rw [← Bool.not_eq_true, hmethods _ _ (by decide +kernel) (by decide +kernel)]
    decide
  · obtain ⟨d, d', hd, hd', hiff⟩ := hconstructors ⟨⟨10⟩, ⟨0, 0⟩, {}⟩
      ⟨⟨10⟩, ⟨1, 0⟩, { parameters := [⟨9⟩] }⟩ rfl (by decide +kernel) (by decide +kernel)
      (some ⟨9⟩) (by decide +kernel)
    exact ⟨d, d', hd, hd', fun heq => by simpa using hiff.1 heq⟩

end Graph

end TypeGraph
