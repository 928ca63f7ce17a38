import TypeGraph.Handle

/-!
# Trails

A walk through the types of a registry keeps the types that it is passing through on a trail. A
type is open to the walk when it is registered and not on the trail. Since every step puts an open
type on the trail, the number of open types bounds the length of the walk: all walks of this
library end for that reason.
-/

namespace TypeGraph.Trail

/-- Whether a walk through `n` registered types may enter a type. -/
def Open (n : Nat) (trail : List Handle) (t : Handle) : Prop :=
  t.index < n ∧ t ∉ trail

instance (n : Nat) (trail : List Handle) (t : Handle) : Decidable (Open n trail t) :=
  inferInstanceAs (Decidable (_ ∧ _))

/-- The types that a walk may enter. -/
def unvisited (n : Nat) (trail : List Handle) : List Handle :=
  ((List.range n).map Handle.mk).filter (· ∉ trail)

theorem mem_unvisited {n : Nat} {trail : List Handle} {t : Handle} :
    t ∈ unvisited n trail ↔ Open n trail t := by
  simp only [unvisited, Open, List.mem_filter, List.mem_map, List.mem_range, decide_eq_true_eq]
  constructor
  · rintro ⟨⟨i, hi, rfl⟩, ht⟩
    exact ⟨hi, ht⟩
  · rintro ⟨hi, ht⟩
    exact ⟨⟨t.index, hi, rfl⟩, ht⟩

/-- Entering an open type leaves fewer open types. -/
theorem unvisited_cons_lt {n : Nat} {trail : List Handle} {t : Handle} (h : Open n trail t) :
    (unvisited n (t :: trail)).length < (unvisited n trail).length := by
  have hfilter : unvisited n (t :: trail) = (unvisited n trail).filter (· ≠ t) := by
    simp [unvisited, List.filter_filter]
  rw [hfilter]
  refine List.length_filter_lt_length_iff_exists.2 ⟨t, mem_unvisited.2 h, ?_⟩
  simp

end TypeGraph.Trail
