import Mathlib.Data.List.Infix
import Mathlib.Order.Bounds.Basic
import TypeGraph.Text.EditDistance

/-!
# The edit distance is the least number of edits

An edit inserts, deletes or replaces one character at any place of a text. The distance of two texts
is the least number of edits that lead from one to the other. `levenshtein` computes it by recursion
on the first characters: no sequence of edits is shorter, because one edit changes the distance to
any third text by at most one, and a sequence of this length can be read off the recursion.

A text can be edited from its end as well as from its beginning, so the recursion holds for the last
characters too. This is how the rows of the computation come out of each other: a row holds the
distances of a beginning of the first text to all beginnings of the second, and every entry that the
next row needs is in it or was just written.
-/

namespace TypeGraph.Text

variable {a b x : List Char} {c d : Char} {k m n : Nat}

/-! ## Edits -/

/-- One character is inserted, deleted or replaced. -/
inductive Edited : List Char → List Char → Prop
  | insert (before after : List Char) (c : Char) : Edited (before ++ after) (before ++ c :: after)
  | delete (before after : List Char) (c : Char) : Edited (before ++ c :: after) (before ++ after)
  | replace (before after : List Char) (c d : Char) :
      Edited (before ++ c :: after) (before ++ d :: after)

/-- A text is turned into another one by a number of edits, one after the other. -/
inductive Edits : Nat → List Char → List Char → Prop
  | refl (a : List Char) : Edits 0 a a
  | step {n : Nat} {a b x : List Char} (h : Edited a b) (hrest : Edits n b x) : Edits (n + 1) a x

/-- The least number of edits that turn a text into another one. -/
def IsDistance (n : Nat) (a b : List Char) : Prop := IsLeast {k | Edits k a b} n

lemma Edited.cons (h : Edited a b) (c : Char) : Edited (c :: a) (c :: b) := by
  cases h with
  | insert before after d => exact .insert (c :: before) after d
  | delete before after d => exact .delete (c :: before) after d
  | replace before after d e => exact .replace (c :: before) after d e

lemma Edits.cons (h : Edits n a b) (c : Char) : Edits n (c :: a) (c :: b) := by
  induction h with
  | refl a => exact .refl _
  | step hedited _ ih => exact .step (hedited.cons c) ih

lemma Edited.reverse (h : Edited a b) : Edited a.reverse b.reverse := by
  cases h with
  | insert before after c => simpa using Edited.insert after.reverse before.reverse c
  | delete before after c => simpa using Edited.delete after.reverse before.reverse c
  | replace before after c d => simpa using Edited.replace after.reverse before.reverse c d

lemma Edits.reverse (h : Edits n a b) : Edits n a.reverse b.reverse := by
  induction h with
  | refl a => exact .refl _
  | step hedited _ ih => exact .step hedited.reverse ih

lemma Edited.symm (h : Edited a b) : Edited b a := by
  cases h with
  | insert before after c => exact .delete before after c
  | delete before after c => exact .insert before after c
  | replace before after c d => exact .replace before after d c

lemma Edits.trans (h : Edits m a b) (h' : Edits n b x) : Edits (m + n) a x := by
  induction h with
  | refl a => rwa [Nat.zero_add]
  | step hedited _ ih =>
    rw [Nat.succ_add]
    exact .step hedited (ih h')

lemma Edits.symm (h : Edits n a b) : Edits n b a := by
  induction h with
  | refl a => exact .refl a
  | step hedited _ ih => exact ih.trans (.step hedited.symm (.refl _))

lemma edits_zero_iff : Edits 0 a b ↔ a = b := by
  constructor
  · rintro ⟨⟩
    rfl
  · rintro rfl
    exact .refl a

lemma IsDistance.symm (h : IsDistance n a b) : IsDistance n b a :=
  ⟨h.1.symm, fun _ hk => h.2 (Edits.symm hk)⟩

lemma isDistance_zero_iff : IsDistance 0 a b ↔ a = b :=
  ⟨fun h => edits_zero_iff.1 h.1, fun h => ⟨edits_zero_iff.2 h, fun k _ => Nat.zero_le k⟩⟩

/-- Going through a text between the two takes no fewer edits. -/
lemma IsDistance.le_add (h : IsDistance k a x) (hm : IsDistance m a b) (hn : IsDistance n b x) :
    k ≤ m + n :=
  h.2 (hm.1.trans hn.1)

/-! ## The distance by recursion -/

/-- The edit distance by the first characters: both are dealt with together, or the first one is
deleted, or the second one is inserted. -/
def levenshtein : List Char → List Char → Nat
  | [], b => b.length
  | _ :: a, [] => a.length + 1
  | c :: a, d :: b =>
    min (min (levenshtein a b + if c = d then 0 else 1) (levenshtein a (d :: b) + 1))
      (levenshtein (c :: a) b + 1)
termination_by a b => a.length + b.length

@[simp] lemma levenshtein_nil_left (b : List Char) : levenshtein [] b = b.length := by
  rw [levenshtein]

@[simp] lemma levenshtein_nil_right (a : List Char) : levenshtein a [] = a.length := by
  cases a <;> simp [levenshtein]

lemma levenshtein_cons_cons (c d : Char) (a b : List Char) :
    levenshtein (c :: a) (d :: b) =
      min (min (levenshtein a b + if c = d then 0 else 1) (levenshtein a (d :: b) + 1))
        (levenshtein (c :: a) b + 1) := by
  rw [levenshtein]

lemma levenshtein_self (a : List Char) : levenshtein a a = 0 := by
  induction a with
  | nil => exact levenshtein_nil_left []
  | cons c a ih =>
    rw [levenshtein_cons_cons, if_pos rfl, ih]
    omega

/-- A longer text is at most one edit farther away. -/
lemma levenshtein_cons_le (c : Char) (a b : List Char) :
    levenshtein (c :: a) b ≤ levenshtein a b + 1 := by
  cases b with
  | nil => simp
  | cons d b =>
    rw [levenshtein_cons_cons]
    omega

lemma levenshtein_le_cons (a : List Char) (d : Char) (b : List Char) :
    levenshtein a (d :: b) ≤ levenshtein a b + 1 := by
  cases a with
  | nil => simp
  | cons c a =>
    rw [levenshtein_cons_cons]
    omega

/-- A shorter text is at most one edit farther away. -/
lemma levenshtein_le_of_cons (c : Char) (a b : List Char) :
    levenshtein a b ≤ levenshtein (c :: a) b + 1 := by
  induction b with
  | nil =>
    simp only [levenshtein_nil_right, List.length_cons]
    omega
  | cons d b ih =>
    have hinsert := levenshtein_le_cons a d b
    rw [levenshtein_cons_cons]
    omega

lemma levenshtein_replace_le (c d : Char) (a b : List Char) :
    levenshtein (c :: a) b ≤ levenshtein (d :: a) b + 1 := by
  induction b with
  | nil => simp
  | cons e b ih =>
    rw [levenshtein_cons_cons, levenshtein_cons_cons]
    split <;> omega

/-- What one edit changes, it changes by one also behind a common beginning. -/
lemma levenshtein_cons_le_of_forall_le (c : Char)
    (h : ∀ x, levenshtein a x ≤ levenshtein b x + 1) (x : List Char) :
    levenshtein (c :: a) x ≤ levenshtein (c :: b) x + 1 := by
  induction x with
  | nil => simpa using h []
  | cons d x ih =>
    have hboth := h x
    have hdelete := h (d :: x)
    rw [levenshtein_cons_cons, levenshtein_cons_cons]
    omega

/-- One edit changes the distance to any text by at most one. -/
lemma Edited.levenshtein_le (h : Edited a b) (x : List Char) :
    levenshtein a x ≤ levenshtein b x + 1 := by
  -- the place of the edit is reached through the characters before it
  have key : ∀ (before : List Char) {a b : List Char},
      (∀ x, levenshtein a x ≤ levenshtein b x + 1) → ∀ x,
        levenshtein (before ++ a) x ≤ levenshtein (before ++ b) x + 1 := by
    intro before a b hab
    induction before with
    | nil => exact hab
    | cons c before ih => exact levenshtein_cons_le_of_forall_le c ih
  cases h with
  | insert before after c => exact key before (fun x => levenshtein_le_of_cons c after x) x
  | delete before after c => exact key before (fun x => levenshtein_cons_le c after x) x
  | replace before after c d => exact key before (fun x => levenshtein_replace_le c d after x) x

lemma Edits.levenshtein_le (h : Edits n a b) : levenshtein a b ≤ n := by
  induction h with
  | refl a => exact (levenshtein_self a).le
  | step hedited _ ih => exact le_trans (hedited.levenshtein_le _) (Nat.succ_le_succ ih)

lemma edits_levenshtein (a b : List Char) : Edits (levenshtein a b) a b := by
  induction a, b using levenshtein.induct with
  | case1 b =>
    rw [levenshtein_nil_left]
    induction b with
    | nil => exact .refl _
    | cons d b ih => exact .step (.insert [] [] d) (ih.cons d)
  | case2 c a =>
    rw [levenshtein_nil_right]
    induction a generalizing c with
    | nil => exact .step (.delete [] [] c) (.refl _)
    | cons c' a ih => exact .step (.delete [] (c' :: a) c) (ih c')
  | case3 c a d b hboth hdelete hinsert =>
    have hchoice :
        levenshtein (c :: a) (d :: b) = levenshtein a b + (if c = d then 0 else 1) ∨
        levenshtein (c :: a) (d :: b) = levenshtein a (d :: b) + 1 ∨
        levenshtein (c :: a) (d :: b) = levenshtein (c :: a) b + 1 := by
      rw [levenshtein_cons_cons]
      omega
    rcases hchoice with h | h | h <;> rw [h]
    · split
      next heq => exact heq ▸ hboth.cons c
      next => exact .step (.replace [] a c d) (hboth.cons d)
    · exact .step (.delete [] a c) hdelete
    · exact .step (.insert [] (c :: a) d) (hinsert.cons d)

lemma isDistance_levenshtein (a b : List Char) : IsDistance (levenshtein a b) a b :=
  ⟨edits_levenshtein a b, fun _ h => Edits.levenshtein_le h⟩

lemma isDistance_iff : IsDistance n a b ↔ levenshtein a b = n :=
  ⟨fun h => (isDistance_levenshtein a b).unique h, fun h => h ▸ isDistance_levenshtein a b⟩

instance (n : Nat) (a b : List Char) : Decidable (IsDistance n a b) :=
  decidable_of_iff _ isDistance_iff.symm

lemma levenshtein_reverse (a b : List Char) :
    levenshtein a.reverse b.reverse = levenshtein a b := by
  refine le_antisymm (edits_levenshtein a b).reverse.levenshtein_le ?_
  have h := (edits_levenshtein a.reverse b.reverse).reverse
  rw [List.reverse_reverse, List.reverse_reverse] at h
  exact h.levenshtein_le

/-- The recursion works from the end of the texts as well. -/
lemma levenshtein_concat_concat (c d : Char) (a b : List Char) :
    levenshtein (a ++ [c]) (b ++ [d]) =
      min (min (levenshtein a b + if c = d then 0 else 1) (levenshtein a (b ++ [d]) + 1))
        (levenshtein (a ++ [c]) b + 1) := by
  simp only [← levenshtein_reverse a, ← levenshtein_reverse (a ++ [c]), List.reverse_concat]
  exact levenshtein_cons_cons c d a.reverse b.reverse

/-! ## The distance row by row -/

/-- The distances of a text to the beginnings of another one, shortest first. -/
def distances (a b : List Char) : Array Nat := (b.inits.map (levenshtein a)).toArray

lemma distances_nil_left (b : List Char) : distances [] b = Array.range (b.length + 1) := by
  refine Array.ext (by simp [distances]) fun j hj _ => ?_
  have hle : j ≤ b.length := by simpa [distances, Nat.lt_succ_iff] using hj
  simp [distances, hle]

lemma distances_nil_right (a : List Char) : distances a [] = #[a.length] := by
  simp [distances]

lemma distances_concat (a b : List Char) (d : Char) :
    distances a (b ++ [d]) = (distances a b).push (levenshtein a (b ++ [d])) := by
  simp [distances, List.inits_append]

lemma getElem?_distances (a : List Char) {b : List Char} {j : Nat} (h : j ≤ b.length) :
    (distances a b)[j]? = some (levenshtein a (b.take j)) := by
  have hj : j < (b.inits.map (levenshtein a)).length := by simpa [Nat.lt_succ_iff] using h
  rw [distances, List.getElem?_toArray, List.getElem?_eq_getElem hj, List.getElem_map,
    List.getElem_inits]

/-- The three entries that are read exist, and the next one comes out of them as the recursion
says. -/
lemma entryAfter?_distances (c d : Char) (a b ds : List Char) :
    entryAfter? c d (distances a (b ++ d :: ds)) (distances (a ++ [c]) b) b.length =
      some (levenshtein (a ++ [c]) (b ++ [d])) := by
  have hboth : (distances a (b ++ d :: ds))[b.length]? = some (levenshtein a b) := by
    rw [getElem?_distances a (by simp), List.take_left]
  have hdeleted : (distances a (b ++ d :: ds))[b.length + 1]? =
      some (levenshtein a (b ++ [d])) := by
    rw [getElem?_distances a (by simp), List.take_length_add_append]
    rfl
  have hinserted : (distances (a ++ [c]) b)[b.length]? = some (levenshtein (a ++ [c]) b) := by
    rw [getElem?_distances _ le_rfl, List.take_length]
  rw [entryAfter?, hboth, hdeleted, hinserted, levenshtein_concat_concat]
  rfl

/-- A row that holds the distances up to some position holds all of them when it is filled. -/
lemma fillRow?_distances (c : Char) (a b ds : List Char) :
    fillRow? c (distances a (b ++ ds)) (distances (a ++ [c]) b) b.length ds =
      some (distances (a ++ [c]) (b ++ ds)) := by
  -- `b` is what the row has been filled for, and it takes over the characters of `ds` one by one
  induction ds generalizing b with
  | nil => rw [fillRow?, List.append_nil]
  | cons d ds ih =>
    have hfill := ih (b ++ [d])
    rw [List.append_assoc, List.singleton_append, List.length_append, distances_concat] at hfill
    rw [fillRow?, entryAfter?_distances]
    exact hfill

/-- Each row holds the distances of one more beginning of the first text. -/
lemma lastRow?_distances (a cs target : List Char) :
    lastRow? target (distances a target) a.length cs = some (distances (a ++ cs) target) := by
  induction cs generalizing a with
  | nil => rw [lastRow?, List.append_nil]
  | cons c cs ih =>
    have hfill : fillRow? c (distances a target) #[a.length + 1] 0 target =
        some (distances (a ++ [c]) target) := by
      simpa [distances_nil_right] using fillRow?_distances c a [] target
    have hrest := ih (a ++ [c])
    rw [List.append_assoc, List.singleton_append, List.length_append] at hrest
    rw [lastRow?, hfill]
    exact hrest

/-- No entry that is read is missing, and the last one is the distance of the whole texts. -/
lemma editDistance?_eq (source target : String) :
    editDistance? source target = some (levenshtein source.toList target.toList) := by
  have hlast := lastRow?_distances [] source.toList target.toList
  rw [distances_nil_left, List.length_nil, List.nil_append] at hlast
  have hread := getElem?_distances source.toList (le_refl target.toList.length)
  rw [List.take_length] at hread
  rw [editDistance?, hlast]
  exact hread

lemma editDistance_eq_levenshtein (source target : String) :
    editDistance source target = levenshtein source.toList target.toList := by
  rw [editDistance, editDistance?_eq, Option.getD_some]

/-- The computed number is the edit distance. -/
lemma editDistance_eq_iff {source target : String} :
    editDistance source target = n ↔ IsDistance n source.toList target.toList := by
  rw [editDistance_eq_levenshtein, isDistance_iff]

lemma isDistance_editDistance (source target : String) :
    IsDistance (editDistance source target) source.toList target.toList :=
  editDistance_eq_iff.1 rfl

/-- **The edit distance is computed for all texts, and it is the least number of edits.** No entry
outside of a row is ever read. So the distance is zero between equal texts only, is the same in both
directions, and is no longer than the way through a third text. -/
theorem editDistance_least_edits :
    (∀ a b : String, editDistance? a b = some (editDistance a b) ∧
      IsDistance (editDistance a b) a.toList b.toList) ∧
    (∀ a b : String, editDistance a b = 0 ↔ a = b) ∧
    (∀ a b : String, editDistance a b = editDistance b a) ∧
    ∀ a b c : String, editDistance a c ≤ editDistance a b + editDistance b c := by
  refine ⟨fun a b => ⟨?_, isDistance_editDistance a b⟩, fun a b => ?_, fun a b => ?_,
    fun a b c => ?_⟩
  · rw [editDistance_eq_levenshtein, editDistance?_eq]
  · rw [editDistance_eq_iff, isDistance_zero_iff, String.toList_inj]
  · exact editDistance_eq_iff.2 (isDistance_editDistance b a).symm
  · exact (isDistance_editDistance a c).le_add (isDistance_editDistance a b)
      (isDistance_editDistance b c)

example : editDistance? "kitten" "sitting" = some 3 := by decide

end TypeGraph.Text
