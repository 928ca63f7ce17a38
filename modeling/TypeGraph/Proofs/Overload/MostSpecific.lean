import Mathlib.Data.Fintype.Card
import Mathlib.Data.List.Forall2
import Mathlib.Data.List.Sigma
import Mathlib.Data.Set.Finite.Basic
import Mathlib.Order.WellFounded
import TypeGraph.Proofs.Conversion.Assignable

/-!
# The most specific candidates

A parameter list is more specific than another one when it is different and each of its types
widens to its counterpart. In a well-formed graph this is a strict order, because widening is a
partial order. So in a list of candidates the ones that nothing else beats exist, and they beat all
others between them: no candidate is dropped without one that stays in its place.
-/

namespace TypeGraph

open Relation

namespace Registry

variable {r : Registry} {m : Memory} {these those others : List Handle} {s t : Handle}

/-- Each of the first types widens to its counterpart among the second. -/
def WidensAll (r : Registry) (m : Memory) : List Handle → List Handle → Prop :=
  List.Forall₂ (r.Widens m)

/-- The first parameter list is more specific than the second. -/
def MoreSpecific (r : Registry) (m : Memory) (these those : List Handle) : Prop :=
  r.WidensAll m these those ∧ these ≠ those

namespace WidensAll

lemma trans (h : r.WidensAll m these those) (h' : r.WidensAll m those others) :
    r.WidensAll m these others := by
  induction h generalizing others with
  | nil => exact h'
  | cons hst _ ih =>
    obtain ⟨u, rest, htu, hrest, rfl⟩ := List.forall₂_cons_left_iff.1 h'
    exact .cons (hst.trans htu) (ih hrest)

lemma antisymm (hlawful : r.Lawful m) (h : r.WidensAll m these those)
    (h' : r.WidensAll m those these) : these = those := by
  induction h with
  | nil => rfl
  | cons hst _ ih =>
    obtain ⟨hts, hrest⟩ := List.forall₂_cons.1 h'
    rw [hlawful.widens_antisymm hst hts, ih hrest]

end WidensAll

namespace MoreSpecific

lemma irrefl (h : r.MoreSpecific m these these) : False := h.2 rfl

lemma trans (hlawful : r.Lawful m) (h : r.MoreSpecific m these those)
    (h' : r.MoreSpecific m those others) : r.MoreSpecific m these others := by
  refine ⟨h.1.trans h'.1, ?_⟩
  rintro rfl
  exact h.2 (h.1.antisymm hlawful h'.1)

end MoreSpecific

section Choice

variable {α : Type}

/-- Some other candidate is more specific than the given one. Candidates are told apart by their
places. -/
def Beaten (r : Registry) (m : Memory) (parameters : α → List Handle) (candidates : List α)
    (c : α × Nat) : Prop :=
  ∃ other ∈ candidates.zipIdx, other.2 ≠ c.2 ∧
    r.MoreSpecific m (parameters other.1) (parameters c.1)

/-- The candidates, with their places, that no other one is more specific than. -/
structure Choice (r : Registry) (m : Memory) (parameters : α → List Handle) (candidates : List α)
    (kept : List (α × Nat)) : Prop where
  sublist : kept.Sublist candidates.zipIdx
  mem_iff : ∀ c ∈ candidates.zipIdx, c ∈ kept ↔ ¬ r.Beaten m parameters candidates c

end Choice

/-- What an issued type widens to was issued. -/
lemma Lawful.issued_of_step (h : r.Lawful m) (hstep : r.WidensStep m s t) : r.Issued t := by
  cases hstep with
  | primitive hs ht hpq =>
    by_contra hn
    rw [shape_of_not_issued hn] at ht
    cases ht
    cases hpq
  | superclass hl => exact h.issued_of_link (Or.inl hl)
  | interface hl => exact h.issued_of_link (Or.inr hl)
  | null ht => exact issued_of_category (isPrimitive_eq_false_iff.1 ht)
  | object _ ht => exact issued_of_arraySupertype h.registry (by simp [arraySupertypes, ht])
  | array _ ht => exact issued_of_arraySupertype h.registry ht
  | components _ ht => exact issued_of_category (by simp [category_of_component ht])

lemma Lawful.issued_of_widens (h : r.Lawful m) (hs : r.Issued s) (hst : r.Widens m s t) :
    r.Issued t := by
  cases hst with
  | refl => exact hs
  | tail _ hstep => exact h.issued_of_step hstep

lemma WidensAll.issued (hlawful : r.Lawful m) (h : r.WidensAll m these those)
    (hthese : ∀ s ∈ these, r.Issued s) : ∀ t ∈ those, r.Issued t := by
  induction h with
  | nil => simp
  | cons hst _ ih =>
    have hfirst := hlawful.issued_of_widens (hthese _ (by simp)) hst
    have hrest := ih fun s hs => hthese s (by simp [hs])
    simpa using ⟨hfirst, hrest⟩

end Registry

/-! ## Questions about parameter lists -/

namespace Query

variable {α : Type} {r : Registry} {m₀ : Memory} {these those : List Handle}

section Settled

variable (h₀ : r.Lawful m₀)
include h₀

lemma allAssignable_settled {targets sources : List Handle} (hsources : ∀ s ∈ sources, r.Issued s)
    (hlength : targets.length = sources.length) :
    Triple r (Settled r m₀) (allAssignable targets sources)
      (fun b m => Settled r m₀ m ∧ (b = true ↔ r.WidensAll m₀ sources targets))
      fun _ _ => False := by
  induction targets generalizing sources with
  | nil =>
    obtain rfl := List.eq_nil_of_length_eq_zero hlength.symm
    exact Triple.pure true fun m hm => ⟨hm, by simp [Registry.WidensAll]⟩
  | cons target targets ih =>
    cases sources with
    | nil => simp at hlength
    | cons source sources =>
      rw [allAssignable]
      refine (assignable_settled h₀ (hsources source (by simp)) target).bind fun first =>
        Triple.given fun hfirst => ?_
      split
      next htrue =>
        refine (ih (fun s hs => hsources s (by simp [hs])) (by simpa using hlength)).conseq
          (fun _ h => h) (fun b m hm => ⟨hm.1, ?_⟩) (fun _ _ h => h)
        rw [hm.2]
        simp [Registry.WidensAll, hfirst.1 htrue]
      next hfalse =>
        exact Triple.pure false fun m hm => ⟨hm, by simp [Registry.WidensAll, mt hfirst.2 hfalse]⟩

lemma applicable_settled {arguments : List Handle} (harguments : ∀ s ∈ arguments, r.Issued s)
    (parameters : List Handle) :
    Triple r (Settled r m₀) (applicable parameters arguments)
      (fun b m => Settled r m₀ m ∧ (b = true ↔ r.WidensAll m₀ arguments parameters))
      fun _ _ => False := by
  rw [applicable]
  split
  next hlength => exact allAssignable_settled h₀ harguments hlength
  next hlength =>
    refine Triple.pure false fun m hm => ⟨hm, by simp, fun hall => ?_⟩
    exact absurd (List.Forall₂.length_eq hall).symm hlength

lemma moreSpecific_settled (hthese : ∀ s ∈ these, r.Issued s) (those : List Handle) :
    Triple r (Settled r m₀) (moreSpecific these those)
      (fun b m => Settled r m₀ m ∧ (b = true ↔ r.MoreSpecific m₀ these those))
      fun _ _ => False := by
  rw [moreSpecific]
  by_cases hlength : these.length = those.length
  · rw [if_neg (by simpa using hlength)]
    refine (allAssignable_settled h₀ hthese hlength.symm).bind fun all =>
      Triple.given fun hall => ?_
    split
    next htrue =>
      exact Triple.pure _ fun m hm => ⟨hm, by simp [Registry.MoreSpecific, hall.1 htrue]⟩
    next hfalse =>
      exact Triple.pure false fun m hm =>
        ⟨hm, by simp [Registry.MoreSpecific, mt hall.2 hfalse]⟩
  · rw [if_pos hlength]
    refine Triple.pure false fun m hm => ⟨hm, by simp, fun hspecific => ?_⟩
    exact absurd (List.Forall₂.length_eq hspecific.1) hlength

variable {parameters : α → List Handle}

lemma isBeaten_settled {rest : List (α × Nat)} (place : Nat) (candidate : α)
    (hrest : ∀ other ∈ rest, ∀ t ∈ parameters other.1, r.Issued t) :
    Triple r (Settled r m₀) (isBeaten parameters place candidate rest)
      (fun b m => Settled r m₀ m ∧ (b = true ↔ ∃ other ∈ rest, other.2 ≠ place ∧
        r.MoreSpecific m₀ (parameters other.1) (parameters candidate)))
      fun _ _ => False := by
  induction rest with
  | nil => exact Triple.pure false fun m hm => ⟨hm, by simp⟩
  | cons first rest ih =>
    obtain ⟨other, place'⟩ := first
    have hlater := ih fun x hx => hrest x (by simp [hx])
    rw [isBeaten]
    split
    next heq =>
      refine hlater.conseq (fun _ h => h) (fun b m hm => ⟨hm.1, ?_⟩) (fun _ _ h => h)
      simp [hm.2, heq]
    next hne =>
      refine (moreSpecific_settled h₀ (hrest (other, place') (by simp)) _).bind fun b =>
        Triple.given fun hb => ?_
      split
      next htrue =>
        have hbeats : ∃ x ∈ (other, place') :: rest, x.2 ≠ place ∧
            r.MoreSpecific m₀ (parameters x.1) (parameters candidate) :=
          ⟨(other, place'), by simp, Ne.symm hne, hb.1 htrue⟩
        exact Triple.pure true fun m hm => ⟨hm, fun _ => hbeats, fun _ => rfl⟩
      next hfalse =>
        refine hlater.conseq (fun _ h => h) (fun b m hm => ⟨hm.1, ?_⟩) (fun _ _ h => h)
        simp [hm.2, mt hb.2 hfalse]

lemma mostSpecificPlaces_settled {candidates : List α}
    (hissued : ∀ c ∈ candidates, ∀ t ∈ parameters c, r.Issued t) :
    Triple r (Settled r m₀) (mostSpecificPlaces parameters candidates)
      (fun kept m => Settled r m₀ m ∧ r.Choice m₀ parameters candidates kept)
      fun _ _ => False := by
  have hothers : ∀ other ∈ candidates.zipIdx, ∀ t ∈ parameters other.1, r.Issued t :=
    fun other hother => hissued other.1 (List.fst_mem_of_mem_zipIdx hother)
  refine (Triple.filterM (p := fun c b => b = true ↔ ¬ r.Beaten m₀ parameters candidates c)
    fun c _ => ?_).conseq (fun _ h => h) ?_ (fun _ _ h => h)
  · refine (isBeaten_settled h₀ c.2 c.1 hothers).bind fun beaten => Triple.given fun hbeaten => ?_
    exact Triple.pure _ fun m hm => ⟨hm, by simp [Registry.Beaten, ← hbeaten]⟩
  · rintro kept m ⟨hm, hsublist, hkept, hleft⟩
    refine ⟨hm, hsublist, fun c hc => ⟨fun hmem => (hkept c hmem).1 rfl, fun hfree => ?_⟩⟩
    refine (hleft c hc).resolve_right fun hfalse => ?_
    simpa using hfalse.2 hfree

end Settled

end Query

/-! ## The order of the candidates -/

namespace Registry.Choice

variable {α : Type} {r : Registry} {m : Memory} {parameters : α → List Handle}
  {candidates : List α} {kept : List (α × Nat)} {c k k' : α × Nat}

section Lawful

variable (hlawful : r.Lawful m)
include hlawful

/-- Every candidate is one that nothing beats, or is beaten by one. -/
lemma exists_kept (h : r.Choice m parameters candidates kept) (hc : c ∈ candidates.zipIdx) :
    ∃ k ∈ kept, k = c ∨ r.MoreSpecific m (parameters k.1) (parameters c.1) := by
  -- the order on the candidates is well-founded, as there are finitely many of them
  let Place := { x // x ∈ candidates.zipIdx }
  let beats : Place → Place → Prop :=
    fun x y => r.MoreSpecific m (parameters x.1.1) (parameters y.1.1)
  have hfinite : Finite Place := candidates.zipIdx.finite_toSet
  have htrans : IsTrans Place beats := ⟨fun _ _ _ => MoreSpecific.trans hlawful⟩
  have hirrefl : Std.Irrefl beats := ⟨fun _ => MoreSpecific.irrefl⟩
  have hwf : WellFounded beats := Finite.wellFounded_of_trans_of_irrefl beats
  obtain ⟨k, hk, hmin⟩ := hwf.has_min { x | x.1 = c ∨ beats x ⟨c, hc⟩ } ⟨⟨c, hc⟩, Or.inl rfl⟩
  refine ⟨k.1, (h.mem_iff k.1 k.2).2 ?_, hk⟩
  rintro ⟨other, hother, -, hbeats⟩
  refine hmin ⟨other, hother⟩ (Or.inr ?_) hbeats
  rcases hk with hk | hk
  · exact hk ▸ hbeats
  · exact MoreSpecific.trans hlawful hbeats hk

lemma nonempty (h : r.Choice m parameters candidates kept) (hcandidates : candidates ≠ []) :
    kept ≠ [] := by
  obtain ⟨a, rest, rfl⟩ := List.exists_cons_of_ne_nil hcandidates
  obtain ⟨k, hk, -⟩ := h.exists_kept hlawful (c := (a, 0)) (by simp)
  exact List.ne_nil_of_mem hk

lemma eq_nil_iff (h : r.Choice m parameters candidates kept) : kept = [] ↔ candidates = [] := by
  constructor
  · intro hkept
    by_contra hcandidates
    exact h.nonempty hlawful hcandidates hkept
  · rintro rfl
    exact List.sublist_nil.1 h.sublist

lemma exists_beats (h : r.Choice m parameters candidates kept) (hc : c ∈ candidates.zipIdx)
    (hdropped : c ∉ kept) : ∃ k ∈ kept, r.MoreSpecific m (parameters k.1) (parameters c.1) := by
  obtain ⟨k, hk, rfl | hbeats⟩ := h.exists_kept hlawful hc
  · exact absurd hk hdropped
  · exact ⟨k, hk, hbeats⟩

omit hlawful in
lemma eq_of_place_eq (hc : c ∈ candidates.zipIdx) (hk : k ∈ candidates.zipIdx) (h : c.2 = k.2) :
    c = k := by
  rw [List.mem_zipIdx_iff_getElem?] at hc hk
  rw [h, hk] at hc
  exact Prod.ext (Option.some.inj hc).symm h

omit hlawful in
lemma not_moreSpecific (h : r.Choice m parameters candidates kept) (hk : k ∈ kept)
    (hk' : k' ∈ kept) : ¬ r.MoreSpecific m (parameters k.1) (parameters k'.1) := by
  intro hbeats
  have hmem := h.sublist.subset hk
  have hmem' := h.sublist.subset hk'
  by_cases hplace : k.2 = k'.2
  · exact MoreSpecific.irrefl (eq_of_place_eq hmem hmem' hplace ▸ hbeats)
  · exact (h.mem_iff k' hmem').1 hk' ⟨k, hmem, hplace, hbeats⟩

/-- One candidate is left exactly when it beats all others. -/
lemma eq_singleton_iff (h : r.Choice m parameters candidates kept) (hc : c ∈ candidates.zipIdx) :
    kept = [c] ↔ ∀ other ∈ candidates.zipIdx, other.2 ≠ c.2 →
      r.MoreSpecific m (parameters c.1) (parameters other.1) := by
  constructor
  · rintro rfl other hother hplace
    obtain ⟨k, hk, hbeats⟩ := h.exists_beats hlawful hother (by
      rintro hmem
      exact hplace (by rw [List.mem_singleton.1 hmem]))
    exact List.mem_singleton.1 hk ▸ hbeats
  · intro hall
    have hbeaten : ∀ other ∈ candidates.zipIdx, other.2 ≠ c.2 → other ∉ kept :=
      fun other hother hplace hmem =>
        (h.mem_iff other hother).1 hmem ⟨c, hc, Ne.symm hplace, hall other hother hplace⟩
    have hkept : c ∈ kept := by
      obtain ⟨k, hk, rfl | hbeats⟩ := h.exists_kept hlawful hc
      · exact hk
      · by_cases hplace : k.2 = c.2
        · exact eq_of_place_eq (h.sublist.subset hk) hc hplace ▸ hk
        · exact absurd hk (hbeaten k (h.sublist.subset hk) hplace)
    have honly : ∀ x ∈ kept, x = c := by
      intro x hx
      by_contra hne
      have hmem := h.sublist.subset hx
      exact hbeaten x hmem (fun hplace => hne (eq_of_place_eq hmem hc hplace)) hx
    have hnodup : kept.Nodup :=
      h.sublist.nodup (List.Nodup.of_map Prod.snd (List.nodup_zipIdx_map_snd candidates))
    refine List.perm_singleton.1 ((List.perm_ext_iff_of_nodup hnodup (List.nodup_singleton c)).2 ?_)
    exact fun x => ⟨fun hx => by simp [honly x hx], fun hx => List.mem_singleton.1 hx ▸ hkept⟩

end Lawful

end Registry.Choice

end TypeGraph
