import Mathlib.Data.List.Basic
import TypeGraph.Proofs.Text.EditDistance
import TypeGraph.Report.Basic

/-!
# Suggestions for an unknown name

For an unknown type the known names are suggested that are one or two edits away, the nearest first,
and at last the type itself is to be added. The names are sorted by their distances, and all
suggestions once more by how promising they are. Both sorts are stable, so that names at the same
distance stay as they are known.
-/

namespace TypeGraph

/-! ## Sorting by a key -/

section Key

variable {α : Type} {key : α → Nat}

lemma key_le_trans (a b c : α) (hab : decide (key a ≤ key b) = true)
    (hbc : decide (key b ≤ key c) = true) : decide (key a ≤ key c) = true :=
  decide_eq_true (le_trans (of_decide_eq_true hab) (of_decide_eq_true hbc))

lemma key_le_total (a b : α) : (decide (key a ≤ key b) || decide (key b ≤ key a)) = true := by
  simpa using Nat.le_total (key a) (key b)

/-- A stable sort by a key keeps the order of the entries that have the same key. -/
lemma filter_mergeSort (l : List α) (k : Nat) :
    (l.mergeSort fun a b => key a ≤ key b).filter (fun a => key a = k) =
      l.filter fun a => key a = k := by
  have hsame : (l.filter fun a => key a = k).Pairwise fun a b => decide (key a ≤ key b) := by
    refine List.pairwise_of_forall_mem_list fun a ha b hb => decide_eq_true ?_
    rw [of_decide_eq_true (List.mem_filter.1 ha).2, of_decide_eq_true (List.mem_filter.1 hb).2]
  have hsub := (List.sublist_mergeSort key_le_trans key_le_total hsame List.filter_sublist).filter
    fun a => decide (key a = k)
  rw [List.filter_filter] at hsub
  simp only [Bool.and_self] at hsub
  exact (hsub.eq_of_length ((List.mergeSort_perm l _).filter _).length_eq.symm).symm

/-- A list that is sorted by the keys one and two is its entries with key one, then the others. -/
lemma eq_append_of_sorted {l : List α} (hsorted : l.Pairwise fun a b => key a ≤ key b)
    (hkeys : ∀ a ∈ l, key a = 1 ∨ key a = 2) :
    l = l.filter (fun a => key a = 1) ++ l.filter fun a => key a = 2 := by
  induction l with
  | nil => rfl
  | cons a l ih =>
    obtain ⟨hle, hsorted⟩ := List.pairwise_cons.1 hsorted
    have hrest := ih hsorted fun b hb => hkeys b (List.mem_cons_of_mem _ hb)
    rcases hkeys a List.mem_cons_self with ha | ha
    · rw [List.filter_cons_of_pos (by simpa using ha), List.filter_cons_of_neg (by simp [ha]),
        List.cons_append, ← hrest]
    · have hall : ∀ b ∈ l, key b = 2 := by
        intro b hb
        have hab := hle b hb
        rcases hkeys b (List.mem_cons_of_mem _ hb) with h | h <;> omega
      rw [List.filter_cons_of_neg (by simp [ha]), List.filter_cons_of_pos (by simpa using ha),
        List.filter_eq_nil_iff.2 fun b hb => by simp [hall b hb],
        List.filter_eq_self.2 fun b hb => by simp [hall b hb], List.nil_append]

lemma mergeSort_eq_append {l : List α} (hkeys : ∀ a ∈ l, key a = 1 ∨ key a = 2) :
    (l.mergeSort fun a b => key a ≤ key b) =
      l.filter (fun a => key a = 1) ++ l.filter fun a => key a = 2 := by
  have hsorted : (l.mergeSort fun a b => key a ≤ key b).Pairwise fun a b => key a ≤ key b :=
    (List.pairwise_mergeSort key_le_trans key_le_total l).imp of_decide_eq_true
  have happend := eq_append_of_sorted hsorted fun a ha => hkeys a (List.mem_mergeSort.1 ha)
  rwa [filter_mergeSort, filter_mergeSort] at happend

end Key

namespace Suggestion

/-- Instead of the unknown name another one may be meant. -/
def didYouMean (confidence : Float) (other : String) : Suggestion where
  message := "Did you mean '" ++ other ++ "'?"
  replacement := some other
  confidence := confidence

/-- The type of the unknown name may be missing. -/
def addType (name : String) : Suggestion where
  message := "Add " ++ name ++ " to the class-path model"
  confidence := 0.5

variable {name : String} {known : List String}

/-- The candidates at a given distance. -/
lemma filter_candidates (n : Nat) :
    ((known.map fun other => (other, Text.editDistance name other)).filter fun candidate =>
        candidate.2 = n) =
      (known.filter fun other => Text.IsDistance n name.toList other.toList).map (·, n) := by
  have hkeep : known.filter ((fun candidate : String × Nat => decide (candidate.2 = n)) ∘
      fun other => (other, Text.editDistance name other)) =
      known.filter fun other => Text.IsDistance n name.toList other.toList :=
    List.filter_congr fun other _ => decide_eq_decide.2 Text.editDistance_eq_iff
  rw [List.filter_map, hkeep]
  refine List.map_congr_left fun other hother => ?_
  rw [Text.editDistance_eq_iff.2 (of_decide_eq_true (List.mem_filter.1 hother).2)]

lemma similar_eq (name : String) (known : List String) :
    similar name known =
      (known.filter fun other => Text.IsDistance 1 name.toList other.toList).map (·, 1) ++
        (known.filter fun other => Text.IsDistance 2 name.toList other.toList).map (·, 2) := by
  -- the entries that pass have distance one or two, and all of these pass
  have hfilter : ∀ (l : List (String × Nat)) (n : Nat), n = 1 ∨ n = 2 →
      ((l.filter fun candidate => 0 < candidate.2 && candidate.2 ≤ 2).filter fun candidate =>
        candidate.2 = n) = l.filter fun candidate => candidate.2 = n := by
    intro l n hn
    rw [List.filter_filter]
    refine List.filter_congr fun candidate _ => ?_
    rcases hn with rfl | rfl
    · by_cases h : candidate.2 = 1 <;> simp [h]
    · by_cases h : candidate.2 = 2 <;> simp [h]
  rw [similar, mergeSort_eq_append, hfilter _ 1 (Or.inl rfl), hfilter _ 2 (Or.inr rfl),
    filter_candidates, filter_candidates]
  intro candidate hcandidate
  have hdistance := (List.mem_filter.1 hcandidate).2
  simp only [Bool.and_eq_true, decide_eq_true_eq] at hdistance
  omega

/-- Suggestions that are in order already stay in it. -/
lemma sort_eq_self {suggestions : List Suggestion}
    (h : suggestions.Pairwise fun s s' => ¬ s.confidence < s'.confidence) :
    sort suggestions = suggestions :=
  List.mergeSort_of_pairwise (h.imp fun hle => by simp [hle])

/-- How promising a name is depends on its distance only. -/
lemma rename_eq {n : Nat} {confidence : Float} (h : 0.9 - 0.1 * Float.ofNat n = confidence) :
    (fun other => rename (other, n)) = didYouMean confidence := by
  funext other
  rw [rename, h, didYouMean]

/-- The suggestions are put together in the order in which they are promising. -/
lemma sort_append (near far : List String) (name : String) :
    sort (near.map (didYouMean 0.8) ++ far.map (didYouMean 0.7) ++ [addType name]) =
      near.map (didYouMean 0.8) ++ far.map (didYouMean 0.7) ++ [addType name] := by
  have hnear : ¬ (0.8 : Float) < 0.8 ∧ ¬ (0.8 : Float) < 0.7 ∧ ¬ (0.8 : Float) < 0.5 := by decide
  have hfar : ¬ (0.7 : Float) < 0.7 ∧ ¬ (0.7 : Float) < 0.5 := by decide
  refine sort_eq_self (List.pairwise_append.2
    ⟨List.pairwise_append.2 ⟨?_, ?_, ?_⟩, List.pairwise_singleton _ _, ?_⟩)
  · exact List.pairwise_map.2 (List.pairwise_of_forall fun _ _ => hnear.1)
  · exact List.pairwise_map.2 (List.pairwise_of_forall fun _ _ => hfar.1)
  · simp only [List.forall_mem_map]
    exact fun _ _ _ _ => hnear.2.1
  · simp only [List.forall_mem_append, List.forall_mem_map, List.forall_mem_singleton]
    exact ⟨fun _ _ => hnear.2.2, fun _ _ => hfar.2⟩

lemma suggestions_unknownType (name file : String) (span : Option Span) (known : List String) :
    (Diagnostic.ofError (.unknownType name span) file known).suggestions =
      (known.filter fun other => Text.IsDistance 1 name.toList other.toList).map
        (didYouMean 0.8) ++
      (known.filter fun other => Text.IsDistance 2 name.toList other.toList).map
        (didYouMean 0.7) ++
      [addType name] := by
  have hone : (fun other => rename (other, 1)) = didYouMean 0.8 := rename_eq (by decide)
  have htwo : (fun other => rename (other, 2)) = didYouMean 0.7 := rename_eq (by decide)
  rw [← sort_append]
  show sort ((similar name known).map rename ++ [addType name]) = _
  rw [similar_eq, List.map_append, List.map_map, List.map_map, ← hone, ← htwo]
  rfl

/-- **The suggestions for an unknown name are the near names in order.** They are one for each known
name at distance one, one for each known name at distance two, both as they are known, and at last
one to add the type. No other name is ever suggested. -/
theorem unknownType_suggests_near_names (name file : String) (span : Option Span)
    (known : List String) :
    let suggestions := (Diagnostic.ofError (.unknownType name span) file known).suggestions
    suggestions =
      (known.filter fun other => Text.IsDistance 1 name.toList other.toList).map
        (didYouMean 0.8) ++
      (known.filter fun other => Text.IsDistance 2 name.toList other.toList).map
        (didYouMean 0.7) ++
      [addType name] ∧
    ∀ other, (∃ suggestion ∈ suggestions, suggestion.replacement = some other) ↔
      other ∈ known ∧ ∃ n, Text.IsDistance n name.toList other.toList ∧ (n = 1 ∨ n = 2) := by
  intro suggestions
  have hsuggestions : suggestions = _ := suggestions_unknownType name file span known
  refine ⟨hsuggestions, fun other => ⟨?_, ?_⟩⟩
  · rintro ⟨suggestion, hmem, hreplacement⟩
    rw [hsuggestions] at hmem
    simp only [List.mem_append, List.mem_map, List.mem_filter, decide_eq_true_eq,
      List.mem_singleton] at hmem
    rcases hmem with (⟨other', ⟨hknown, hone⟩, rfl⟩ | ⟨other', ⟨hknown, htwo⟩, rfl⟩) | rfl
    · cases hreplacement
      exact ⟨hknown, 1, hone, Or.inl rfl⟩
    · cases hreplacement
      exact ⟨hknown, 2, htwo, Or.inr rfl⟩
    · cases hreplacement
  · rintro ⟨hknown, n, hdistance, hn⟩
    rw [hsuggestions]
    simp only [List.mem_append, List.mem_map, List.mem_filter, decide_eq_true_eq]
    rcases hn with rfl | rfl
    · exact ⟨_, Or.inl (Or.inl ⟨other, ⟨hknown, hdistance⟩, rfl⟩), rfl⟩
    · exact ⟨_, Or.inl (Or.inr ⟨other, ⟨hknown, hdistance⟩, rfl⟩), rfl⟩

end Suggestion

end TypeGraph
