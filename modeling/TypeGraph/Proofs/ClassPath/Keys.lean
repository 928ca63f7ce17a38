import Mathlib.Tactic.Common
import TypeGraph.ClassPath.Basic
import TypeGraph.Proofs.Descriptor.Names
import TypeGraph.Proofs.Registry.Sound

/-!
# Names and keys of class paths

A class path finds a class under the descriptor of its name, where blanks around the name do not
count. The class itself is registered under a descriptor made from the name as it is written. This
file compares the two: they are the same exactly when there are no blanks around the name, and a
descriptor made from a name with such blanks is the key of no class at all.
-/

namespace TypeGraph

/-! ## Keys -/

deriving instance DecidableEq for ClassPath

namespace ClassPath

variable {path path' : ClassPath} {item item' : ClassItem} {d d' : String}

/-- The name of the class is written without blanks around it. -/
def ClassItem.Trimmed (item : ClassItem) : Prop :=
  Text.trim item.name.toList = item.name.toList

instance (item : ClassItem) : Decidable item.Trimmed :=
  inferInstanceAs (Decidable (Text.trim item.name.toList = item.name.toList))

/-- Every class is found under the descriptor of its name, which is that of a class. -/
def Keyed (path : ClassPath) : Prop :=
  ∀ c ∈ path.classes, Descriptor.ofClassName c.2.name = .ok c.1 ∧
    Descriptor.isArray c.1 = false ∧ Descriptor.isPrimitive c.1 = false

/-- What it takes to add a description. -/
lemma exists_of_add (h : path.add item = .ok path') :
    ∃ d, Descriptor.ofClassName item.name = .ok d ∧
      (Descriptor.isArray d = false ∧ Descriptor.isPrimitive d = false) ∧
      path.find? d = none ∧ path' = ⟨path.classes ++ [(d, item)]⟩ := by
  unfold ClassPath.add at h
  cases hname : Descriptor.ofClassName item.name with
  | error e =>
    rw [hname] at h
    cases h
  | ok d =>
    rw [hname] at h
    simp only [bind, Except.bind] at h
    split at h
    · cases h
    next hclass =>
      split at h
      · cases h
      next hnew =>
        cases h
        simp only [Bool.or_eq_true, not_or, Bool.not_eq_true] at hclass
        exact ⟨d, rfl, hclass, by simpa using hnew, rfl⟩

/-- What holds of the empty class path and is kept when a description is added holds of the class
path of a list of descriptions. -/
lemma ofItems_induction {motive : ClassPath → List ClassItem → Prop} (hempty : motive {} [])
    (hadd : ∀ {path path' items item}, motive path items → path.add item = .ok path' →
      motive path' (items ++ [item])) {items : List ClassItem} (h : ofItems items = .ok path) :
    motive path items := by
  have hfold : ∀ (items done : List ClassItem) (start : ClassPath), motive start done →
      items.foldlM ClassPath.add start = .ok path → motive path (done ++ items) := by
    intro items
    induction items with
    | nil =>
      rintro done start hstart hpath
      cases hpath
      simpa using hstart
    | cons item items ih =>
      intro done start hstart hpath
      rw [List.foldlM_cons] at hpath
      cases hnext : start.add item with
      | error e =>
        rw [hnext] at hpath
        cases hpath
      | ok next =>
        rw [hnext] at hpath
        simpa using ih _ next (hadd hstart hnext) hpath
  exact hfold items [] {} hempty h

lemma keyed_ofItems {items : List ClassItem} (h : ofItems items = .ok path) : path.Keyed := by
  refine ofItems_induction (motive := fun path _ => path.Keyed) ?_ ?_ h
  · simp [Keyed]
  · intro path path' _ item hpath hadd c hc
    obtain ⟨d, hname, hclass, -, rfl⟩ := exists_of_add hadd
    rcases List.mem_append.1 hc with hc | hc
    · exact hpath c hc
    · obtain rfl := List.mem_singleton.1 hc
      exact ⟨hname, hclass⟩

/-- The classes of a class path are those described, in the same order. -/
lemma classes_ofItems {items : List ClassItem} (h : ofItems items = .ok path) :
    path.classes.map Prod.snd = items := by
  refine ofItems_induction (motive := fun path items => path.classes.map Prod.snd = items) ?_ ?_ h
  · rfl
  · intro path path' items item hpath hadd
    obtain ⟨d, -, -, -, rfl⟩ := exists_of_add hadd
    simp [hpath]

/-- Every class that is described is found. -/
lemma find?_of_mem {items : List ClassItem} (h : ofItems items = .ok path) (hitem : item ∈ items) :
    ∃ d, Descriptor.ofClassName item.name = .ok d ∧ path.find? d = some item := by
  refine ofItems_induction (motive := fun path items => ∀ item ∈ items, ∃ d,
    Descriptor.ofClassName item.name = .ok d ∧ path.find? d = some item) ?_ ?_ h item hitem
  · simp
  · intro path path' items item hpath hadd item' hitem'
    obtain ⟨d, hname, -, hnew, rfl⟩ := exists_of_add hadd
    rcases List.mem_append.1 hitem' with hold | hold
    · obtain ⟨d', hname', hfind⟩ := hpath item' hold
      refine ⟨d', hname', ?_⟩
      rw [find?, List.lookup_append, show path.classes.lookup d' = some item' from hfind]
      rfl
    · obtain rfl := List.mem_singleton.1 hold
      refine ⟨d, hname, ?_⟩
      rw [find?, List.lookup_append, show path.classes.lookup d = none from hnew, Option.none_or]
      exact List.lookup_cons_self

lemma mem_of_find? (h : path.find? d = some item) : (d, item) ∈ path.classes := by
  obtain ⟨before, after, hclasses, -⟩ := List.lookup_eq_some_iff.1 h
  simp [hclasses]

/-- What is found is one of the descriptions, under the descriptor of its name. -/
lemma mem_of_find?_ofItems {items : List ClassItem} (h : ofItems items = .ok path)
    (hfind : path.find? d = some item) :
    item ∈ items ∧ Descriptor.ofClassName item.name = .ok d := by
  have hmem := mem_of_find? hfind
  refine ⟨?_, (keyed_ofItems h _ hmem).1⟩
  rw [← classes_ofItems h]
  exact List.mem_map_of_mem hmem

namespace Keyed

variable (h : path.Keyed)
include h

lemma isClass (hfind : path.find? d = some item) : Descriptor.IsClass d := by
  obtain ⟨hname, harray, hprimitive⟩ := h _ (mem_of_find? hfind)
  exact ⟨Descriptor.isValid_of_ofClassName hname, hprimitive, harray⟩

/-- A key is made from a name without blanks. -/
lemma key_eq (hfind : path.find? d = some item) :
    Descriptor.isName (Text.trim item.name.toList) = true ∧
      d = Descriptor.ofRawName (String.ofList (Text.trim item.name.toList)) := by
  obtain ⟨hname, harray, hprimitive⟩ := h _ (mem_of_find? hfind)
  exact Descriptor.ofClassName_of_class hname harray hprimitive

/-- A class is registered under its key exactly when its name has no blanks around it. -/
lemma ofRawName_eq_iff (hfind : path.find? d = some item) :
    Descriptor.ofRawName item.name = d ↔ item.Trimmed := by
  obtain ⟨-, hkey⟩ := h.key_eq hfind
  constructor
  · intro heq
    -- trimming drops characters, and none are missing
    have hswap := Descriptor.swap_eq_of_ofRawName_eq (heq.trans hkey)
    have hlength := congrArg List.length hswap
    simp only [Descriptor.length_swap, String.toList_ofList] at hlength
    exact (Text.trim_sublist _).eq_of_length hlength.symm
  · intro htrimmed
    rw [hkey, show Text.trim item.name.toList = item.name.toList from htrimmed,
      String.ofList_toList]

/-- A class that is registered under some key has a name without blanks around it. -/
lemma trimmed_of_ofRawName_eq (hfind : path.find? d = some item)
    (heq : Descriptor.ofRawName item'.name = d) : item'.Trimmed := by
  obtain ⟨hname, hkey⟩ := h.key_eq hfind
  have hswap := Descriptor.swap_eq_of_ofRawName_eq (heq.trans hkey)
  refine Text.trim_of_none (Descriptor.not_isBlank_of_swap ?_)
  rw [hswap, String.toList_ofList]
  intro c hc
  obtain ⟨b, hb, rfl⟩ := List.mem_map.1 hc
  split
  · decide
  · exact Descriptor.not_isBlank_of_isName hname b hb

end Keyed

end ClassPath

end TypeGraph
