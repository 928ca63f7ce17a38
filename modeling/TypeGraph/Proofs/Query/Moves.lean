import Mathlib.Logic.Relation
import TypeGraph.MemberType
import TypeGraph.Overload
import TypeGraph.Proofs.Query.Triple
import TypeGraph.Proofs.Registry.Extension

/-!
# Where questions move the memory

A walk through supertypes or scopes writes nothing down itself: all that it does to the memory is
done by the questions about single types that it asks. So where each of these questions moves the
memory along a relation that is reflexive and transitive, the walk does so too, however it ends.
This file proves it once for every such relation. It is used for the steps in which questions fill
the memory, and for the parts of the memory that they do not touch.
-/

namespace TypeGraph.Query

variable {α β : Type} {r : Registry} {R : Memory → Memory → Prop}

/-- The question moves the memory along a relation, whether it succeeds or fails. -/
def Moves (R : Memory → Memory → Prop) (r : Registry) (q : Query α) : Prop :=
  ∀ m, R m (q.answer r m).2

/-! ## Composition -/

variable [Std.Refl R] [IsTrans Memory R]

omit [IsTrans Memory R] in
lemma moves_pure (a : α) : Moves R r (pure a : Query α) := fun m => refl_of R m

omit [IsTrans Memory R] in
lemma moves_throw (e : Error) : Moves R r (throw e : Query α) := fun m => refl_of R m

omit [IsTrans Memory R] in
lemma moves_ofExcept (result : Except Error α) : Moves R r (ofExcept result) := by
  intro m
  rw [answer_ofExcept]
  exact refl_of R m

omit [Std.Refl R] in
lemma Moves.bind {q : Query α} {f : α → Query β} (hq : Moves R r q) (hf : ∀ a, Moves R r (f a)) :
    Moves R r (q >>= f) := by
  intro m
  have h := hq m
  rcases hans : q.answer r m with ⟨e | a, m'⟩ <;> rw [hans] at h
  · rw [answer_bind_error hans]
    exact h
  · rw [answer_bind_ok hans]
    exact trans_of R h (hf a m')

omit [Std.Refl R] [IsTrans Memory R] in
lemma moves_read_bind {f : Registry → Query β} (hf : Moves R r (f r)) : Moves R r (read >>= f) :=
  fun m => hf m

lemma Moves.foldlM {f : β → α → Query β} (hf : ∀ b a, Moves R r (f b a)) (l : List α) (b : β) :
    Moves R r (l.foldlM f b) := by
  induction l generalizing b with
  | nil => exact moves_pure b
  | cons a l ih =>
    rw [List.foldlM_cons]
    exact (hf b a).bind ih

lemma Moves.mapM {f : α → Query β} (hf : ∀ a, Moves R r (f a)) (l : List α) :
    Moves R r (l.mapM f) := by
  induction l with
  | nil => exact moves_pure []
  | cons a l ih =>
    rw [List.mapM_cons]
    exact (hf a).bind fun b => ih.bind fun bs => moves_pure _

lemma Moves.anyM {f : α → Query Bool} (hf : ∀ a, Moves R r (f a)) (l : List α) :
    Moves R r (l.anyM f) := by
  induction l with
  | nil => exact moves_pure false
  | cons a l ih =>
    rw [List.anyM_cons]
    refine (hf a).bind fun b => ?_
    cases b with
    | true => exact moves_pure true
    | false => exact ih

lemma Moves.filterM {f : α → Query Bool} (hf : ∀ a, Moves R r (f a)) (l : List α) :
    Moves R r (l.filterM f) := by
  have key : ∀ l acc, Moves R r (List.filterAuxM f l acc) := by
    intro l
    induction l with
    | nil => exact fun acc => moves_pure acc
    | cons a l ih => exact fun acc => (hf a).bind fun b => ih (cond b (a :: acc) acc)
  exact (key l []).bind fun kept => moves_pure _

/-! ## Walks -/

/-- The questions that are asked on walks move the memory along a relation. The guard of a walk lets
it ask about issued types only, whatever the type it was started at. -/
structure WalksAlong (R : Memory → Memory → Prop) (r : Registry) : Prop where
  superclass : ∀ {t}, r.Issued t → Moves R r (superclass t)
  interfaces : ∀ {t}, r.Issued t → Moves R r (interfaces t)
  outerClass : ∀ {t}, r.Issued t → Moves R r (outerClass t)
  declaringClass : ∀ {t}, r.Issued t → Moves R r (declaringClass t)
  memberTypes : ∀ {t}, r.Issued t → Moves R r (memberTypes t)
  methods : ∀ {t}, r.Issued t → Moves R r (methods t)

lemma moves_memberNamed (t : Handle) (members : List Handle)
    (name : Option String) : Moves R r (memberNamed t members name) := by
  cases name with
  | none => exact moves_pure none
  | some name => exact moves_read_bind ((moves_ofExcept _).bind fun _ => moves_pure _)

namespace WalksAlong

variable (h : WalksAlong R r)
include h

lemma climbs (target : Handle) (trail : List Handle) (t : Handle) :
    Moves R r (climbs r.size target trail t) := by
  induction trail, t using Query.climbs.induct r.size with
  | case1 trail t hopen ih =>
    rw [Query.climbs, dif_pos hopen]
    refine (h.superclass hopen.1).bind fun link => ?_
    cases link with
    | none => exact moves_pure false
    | some s =>
      dsimp only
      split
      · exact moves_pure true
      · exact ih s
  | case2 trail t hclosed =>
    rw [Query.climbs, dif_neg hclosed]
    exact moves_read_bind (moves_throw _)

lemma isSubclass (t target : Handle) : Moves R r (isSubclass t target) :=
  moves_read_bind (h.climbs target [] t)

lemma reaches (target : Handle) (trail : List Handle) (t : Handle) :
    Moves R r (reaches r.size target trail t) := by
  induction trail, t using Query.reaches.induct r.size target with
  | case1 trail t hopen ih =>
    rw [Query.reaches, dif_pos hopen]
    refine (h.interfaces hopen.1).bind fun links => Moves.bind ?_ fun direct => ?_
    · refine Moves.anyM (fun interface => ?_) links
      split
      · exact moves_pure true
      · exact ih interface
    · cases direct with
      | true => exact moves_pure true
      | false =>
        refine (h.superclass hopen.1).bind fun link => ?_
        cases link with
        | none => exact moves_pure false
        | some s => exact ih s
  | case2 trail t hclosed =>
    rw [Query.reaches, dif_neg hclosed]
    exact moves_read_bind (moves_throw _)

lemma implements (t target : Handle) : Moves R r (implements t target) :=
  moves_read_bind (h.reaches target [] t)

lemma collectMethods (trail : List Handle) (collected : List Method) (t : Handle) :
    Moves R r (collectMethods r.size trail collected t) := by
  induction trail, collected, t using Query.collectMethods.induct r.size with
  | case1 trail collected t hopen ih =>
    rw [Query.collectMethods, dif_pos hopen]
    refine moves_read_bind ((h.methods hopen.1).bind fun list => ?_)
    refine (h.superclass hopen.1).bind fun link => (Moves.foldlM ih _ _).bind fun collected => ?_
    exact (h.interfaces hopen.1).bind fun links => Moves.foldlM ih _ _
  | case2 trail collected t hclosed =>
    rw [Query.collectMethods, dif_neg hclosed]
    exact moves_read_bind (moves_throw _)

lemma searchScope (name : Option String) (trail : List Handle) (t : Handle) :
    Moves R r (searchScope r.size name trail t) := by
  induction trail, t using Query.searchScope.induct r.size with
  | case1 trail t hopen ih =>
    rw [Query.searchScope, dif_pos hopen]
    refine (h.memberTypes hopen.1).bind fun members => ?_
    refine (moves_memberNamed t members name).bind fun found => ?_
    cases found with
    | some member => exact moves_pure _
    | none =>
      refine (h.superclass hopen.1).bind fun link => (Moves.mapM ih _).bind fun _ => ?_
      refine (h.interfaces hopen.1).bind fun links => (Moves.mapM ih _).bind fun _ => ?_
      refine (h.declaringClass hopen.1).bind fun declaring => (Moves.mapM ih _).bind fun _ => ?_
      refine (h.outerClass hopen.1).bind fun outer => (Moves.mapM ih _).bind fun _ => ?_
      exact moves_pure _
  | case2 trail t hclosed =>
    rw [Query.searchScope, dif_neg hclosed]
    exact moves_pure []

/-! ### Conversions and overloads -/

lemma assignable (target source : Handle) : Moves R r (assignable target source) := by
  induction target, source using Query.assignable.induct with
  | case1 target source ih =>
    rw [Query.assignable]
    refine moves_read_bind ?_
    split
    · exact moves_pure true
    split
    · exact moves_pure true
    refine (h.isSubclass source target).bind fun climbs => ?_
    split
    · exact moves_pure true
    refine (h.implements source target).bind fun reaches => ?_
    split
    · exact moves_pure true
    split
    · exact moves_pure true
    split
    · next targetComponent sourceComponent htarget _ =>
      split
      · exact moves_pure false
      · exact ih r targetComponent sourceComponent htarget
    · exact moves_pure false

lemma allAssignable (targets sources : List Handle) :
    Moves R r (allAssignable targets sources) := by
  induction targets generalizing sources with
  | nil => exact moves_pure true
  | cons target targets ih =>
    cases sources with
    | nil => exact moves_pure true
    | cons source sources =>
      refine (h.assignable target source).bind fun fits => ?_
      split
      · exact ih sources
      · exact moves_pure false

lemma applicable (parameters arguments : List Handle) :
    Moves R r (applicable parameters arguments) := by
  unfold Query.applicable
  split
  · exact h.allAssignable parameters arguments
  · exact moves_pure false

lemma moreSpecific (these those : List Handle) : Moves R r (moreSpecific these those) := by
  unfold Query.moreSpecific
  split
  · exact moves_pure false
  · refine (h.allAssignable those these).bind fun fits => ?_
    split
    · exact moves_pure _
    · exact moves_pure false

lemma isBeaten (parameters : α → List Handle) (place : Nat) (candidate : α)
    (others : List (α × Nat)) : Moves R r (isBeaten parameters place candidate others) := by
  induction others with
  | nil => exact moves_pure false
  | cons other others ih =>
    rw [Query.isBeaten]
    split
    · exact ih
    · refine (h.moreSpecific _ _).bind fun beaten => ?_
      split
      · exact moves_pure true
      · exact ih

lemma mostSpecific (parameters : α → List Handle) (candidates : List α) :
    Moves R r (mostSpecific parameters candidates) := by
  refine Moves.bind (Moves.filterM (fun entry => ?_) _) fun kept => moves_pure _
  exact (h.isBeaten parameters entry.2 entry.1 _).bind fun _ => moves_pure _

/-- A call begins with the inherited methods. -/
lemma exists_call_eq (t : Handle) (name : String) (arguments : List Handle) :
    ∃ choose : List Method → Query Call,
      call t name arguments = allMethods t >>= choose ∧ ∀ list, Moves R r (choose list) := by
  refine ⟨_, rfl, fun list => Moves.bind ?_ fun candidates => ?_⟩
  · exact Moves.filterM (fun method => h.applicable _ arguments) _
  · exact (h.mostSpecific _ candidates).bind fun kept => moves_pure _

end WalksAlong

end TypeGraph.Query
