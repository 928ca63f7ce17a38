import Mathlib.Dynamics.PeriodicPts.Defs
import TypeGraph.Proofs.Conversion.Assignable

/-!
# The walk along superclasses

A type whose superclass was not accepted yet is asked for it: then the effective superclasses are
followed from the type. The walk may end, it may come to a type that reports an error, or it may
run in a circle, and each of these settles how the question is answered. The walk need not start on
the circle. The trail of the check holds all types that were passed, so the type that it names is
the one at which the walk enters the circle.
-/

namespace TypeGraph

open Relation

namespace Registry

variable {r r' : Registry} {m m' : Memory} {s t u c : Handle} {trail : List Handle} {e : Error}

/-- One step along effective superclasses. A walk that has ended or failed stays as it is. -/
def climb (r : Registry) (m : Memory) :
    Except Error (Option Handle) → Except Error (Option Handle)
  | .ok (some t) => r.effectiveSuperclass m t
  | stuck => stuck

/-- Where the walk from a type is after some steps. -/
def walk (r : Registry) (m : Memory) (t : Handle) (n : Nat) : Except Error (Option Handle) :=
  (r.climb m)^[n] (.ok (some t))

/-- The walk from a type comes back to it. -/
def OnCycle (r : Registry) (m : Memory) (t : Handle) : Prop :=
  ∃ n > 0, r.walk m t n = .ok (some t)

/-- After some steps the walk from a type comes to a circle, for the first time. -/
structure MeetsCycle (r : Registry) (m : Memory) (t : Handle) (k : Nat) (c : Handle) : Prop where
  walk_eq : r.walk m t k = .ok (some c)
  cycle : r.OnCycle m c
  first : ∀ j < k, ∀ s, r.walk m t j = .ok (some s) → ¬ r.OnCycle m s

lemma walk_zero (t : Handle) : r.walk m t 0 = .ok (some t) := rfl

lemma walk_succ (t : Handle) (n : Nat) : r.walk m t (n + 1) = r.climb m (r.walk m t n) :=
  Function.iterate_succ_apply' ..

lemma walk_add (t : Handle) (n k : Nat) : r.walk m t (n + k) = (r.climb m)^[n] (r.walk m t k) :=
  Function.iterate_add_apply ..

lemma walk_succ_of_eq {n : Nat} (h : r.walk m t n = .ok (some s)) :
    r.walk m t (n + 1) = r.effectiveSuperclass m s := by
  rw [walk_succ, h]
  rfl

lemma walk_one (t : Handle) : r.walk m t 1 = r.effectiveSuperclass m t := rfl

lemma onCycle_iff : r.OnCycle m t ↔ .ok (some t) ∈ Function.periodicPts (r.climb m) := Iff.rfl

/-- A walk that has ended or failed stays as it is. -/
lemma walk_eq_of_le {x : Except Error (Option Handle)} {n k : Nat} (h : r.walk m t n = x)
    (hx : r.climb m x = x) (hle : n ≤ k) : r.walk m t k = x := by
  obtain ⟨j, rfl⟩ := Nat.exists_eq_add_of_le hle
  rw [Nat.add_comm, walk_add, h]
  exact Function.iterate_fixed hx j

lemma walk_eq_of_none {n k : Nat} (h : r.walk m t n = .ok none) (hle : n ≤ k) :
    r.walk m t k = .ok none :=
  walk_eq_of_le h rfl hle

lemma walk_eq_of_error {n k : Nat} (h : r.walk m t n = .error e) (hle : n ≤ k) :
    r.walk m t k = .error e :=
  walk_eq_of_le h rfl hle

/-- A walk that ends does not fail. -/
lemma not_walk_error_of_none {n k : Nat} (h : r.walk m t n = .ok none) :
    r.walk m t k ≠ .error e := by
  intro he
  have hn := walk_eq_of_none h (Nat.le_max_left n k)
  rw [walk_eq_of_error he (Nat.le_max_right n k)] at hn
  cases hn

namespace MeetsCycle

variable {k n : Nat}

/-- From the circle on the walk repeats itself. -/
lemma exists_period (h : r.MeetsCycle m t k c) :
    ∃ p > 0, ∀ n ≥ k, r.walk m t (n + p) = r.walk m t n := by
  obtain ⟨p, hp, hback⟩ := h.cycle
  refine ⟨p, hp, fun n hn => ?_⟩
  obtain ⟨j, rfl⟩ := Nat.exists_eq_add_of_le hn
  have hperiodic : Function.IsPeriodicPt (r.climb m) p (r.walk m t k) := h.walk_eq ▸ hback
  have hlater := (hperiodic.apply_iterate j).eq
  rw [← walk_add, ← walk_add] at hlater
  rw [Nat.add_comm k j, Nat.add_comm (j + k) p, hlater]

/-- A walk that comes to a circle neither ends nor fails. -/
lemma exists_walk_eq (h : r.MeetsCycle m t k c) (n : Nat) : ∃ s, r.walk m t n = .ok (some s) := by
  obtain ⟨p, hp, hback⟩ := h.cycle
  have hperiodic : Function.IsPeriodicPt (r.climb m) p (r.walk m t k) := h.walk_eq ▸ hback
  -- the walk is at the circle again after step `n`
  have hlater : r.walk m t (p * n + k) = .ok (some c) := by
    rw [walk_add, (hperiodic.mul_const n).eq, h.walk_eq]
  have hle : n ≤ p * n + k := (Nat.le_mul_of_pos_left n hp).trans (Nat.le_add_right _ _)
  rcases hwalk : r.walk m t n with e | _ | s
  · rw [walk_eq_of_error hwalk hle] at hlater
    cases hlater
  · rw [walk_eq_of_none hwalk hle] at hlater
    cases hlater
  · exact ⟨s, rfl⟩

/-- A walk enters the circle at one place. -/
lemma unique {k' : Nat} {c' : Handle} (h : r.MeetsCycle m t k c) (h' : r.MeetsCycle m t k' c') :
    c = c' := by
  have hk : k = k' := Nat.le_antisymm
    (Nat.le_of_not_lt fun hlt => h.first k' hlt c' h'.walk_eq h'.cycle)
    (Nat.le_of_not_lt fun hlt => h'.first k hlt c h.walk_eq h.cycle)
  have heq := h.walk_eq
  rw [hk, h'.walk_eq] at heq
  simpa using heq.symm

lemma eq_start_iff (h : r.MeetsCycle m t k c) : c = t ↔ r.OnCycle m t := by
  constructor
  · rintro rfl
    exact h.cycle
  · intro hcycle
    have hstart : r.MeetsCycle m t 0 t := ⟨walk_zero t, hcycle, by simp⟩
    exact h.unique hstart

end MeetsCycle

/-! ## The trail of the check -/

/-- The walk from a type is at the last one, after the different types on the trail. -/
inductive Trodden (r : Registry) (m : Memory) (t : Handle) : List Handle → Handle → Prop
  | start : Trodden r m t [] t
  | step {trail : List Handle} {s u : Handle} (h : Trodden r m t trail s) (hnew : s ∉ trail)
      (hlink : r.SuperLink m s u) : Trodden r m t (s :: trail) u

namespace Trodden

lemma walk_eq (h : r.Trodden m t trail s) : r.walk m t trail.length = .ok (some s) := by
  induction h with
  | start => rfl
  | step _ _ hlink ih => exact (walk_succ_of_eq ih).trans hlink

lemma exists_lt_of_mem (h : r.Trodden m t trail s) (hu : u ∈ trail) :
    ∃ j < trail.length, r.walk m t j = .ok (some u) := by
  induction h with
  | start => cases hu
  | @step trail s _ h _ _ ih =>
    rcases List.mem_cons.1 hu with rfl | hu
    · exact ⟨trail.length, by simp, h.walk_eq⟩
    · obtain ⟨j, hj, hwalk⟩ := ih hu
      exact ⟨j, hj.trans (by simp), hwalk⟩

lemma exists_mem_of_lt (h : r.Trodden m t trail s) {j : Nat} (hj : j < trail.length) :
    ∃ u ∈ trail, r.walk m t j = .ok (some u) := by
  induction h with
  | start => cases hj
  | @step trail s _ h _ _ ih =>
    rcases Nat.lt_succ_iff_lt_or_eq.1 hj with hj | rfl
    · obtain ⟨u, hu, hwalk⟩ := ih hj
      exact ⟨u, by simp [hu], hwalk⟩
    · exact ⟨s, by simp, h.walk_eq⟩

/-- The walk was nowhere twice. -/
lemma walk_ne (h : r.Trodden m t trail s) {i j : Nat} (hij : i < j) (hj : j < trail.length) :
    r.walk m t i ≠ r.walk m t j := by
  induction h with
  | start => cases hj
  | @step trail s _ h hnew _ ih =>
    rcases Nat.lt_succ_iff_lt_or_eq.1 hj with hj | rfl
    · exact ih hj
    · obtain ⟨u, hu, hwalk⟩ := h.exists_mem_of_lt hij
      rw [hwalk, h.walk_eq]
      intro heq
      cases heq
      exact hnew hu

lemma issued (hr : r.Sound) (hm : m.Sound r) (ht : r.Issued t) (h : r.Trodden m t trail s) :
    r.Issued s := by
  cases h with
  | start => exact ht
  | step _ _ hlink => exact hm.issued_of_effectiveLink hr (Or.inl hlink)

/-- The first type that is met again is where the walk enters the circle. -/
lemma meetsCycle (h : r.Trodden m t trail c) (hc : c ∈ trail) : ∃ k, r.MeetsCycle m t k c := by
  obtain ⟨k, hk, hwalk⟩ := h.exists_lt_of_mem hc
  obtain ⟨p, hp⟩ := Nat.exists_eq_add_of_lt hk
  have hback : r.walk m c (p + 1) = .ok (some c) := by
    have hlast := h.walk_eq
    rwa [hp, Nat.add_assoc, Nat.add_comm k, walk_add, hwalk] at hlast
  refine ⟨k, hwalk, ⟨p + 1, by simp, hback⟩, fun j hj s hs hcycle => ?_⟩
  -- a type on the circle has the period of the circle, so it would have been met again earlier
  obtain ⟨i, rfl⟩ := Nat.exists_eq_add_of_le' hj.le
  have hreach : (r.climb m)^[i] (.ok (some s)) = .ok (some c) := by rw [← hs, ← walk_add, hwalk]
  have hperiod : Function.IsPeriodicPt (r.climb m) (p + 1) (.ok (some s)) := by
    refine Function.isPeriodicPt_of_mem_periodicPts_of_isPeriodicPt_iterate
      (onCycle_iff.1 hcycle) (n := i) ?_
    rw [hreach]
    exact hback
  have hagain : r.walk m t (p + 1 + j) = r.walk m t j := by
    rw [walk_add, hs, hperiod.eq]
  exact h.walk_ne (i := j) (j := p + 1 + j) (by omega) (by omega) hagain.symm

end Trodden

lemma exists_walk_of_checkChain_ok (h : r.Trodden m t trail s)
    (hcheck : r.checkChain m trail s = .ok ()) : ∃ n, r.walk m t n = .ok none := by
  induction trail, s using checkChain.induct r m with
  | case1 trail s hopen e he =>
    rw [checkChain_of_open hopen, he] at hcheck
    cases hcheck
  | case2 trail s hopen hnone =>
    exact ⟨trail.length + 1, (walk_succ_of_eq h.walk_eq).trans hnone⟩
  | case3 trail s hopen u hu ih =>
    rw [checkChain_of_open hopen, hu] at hcheck
    exact ih (h.step hopen.2 hu) hcheck
  | case4 trail s hopen =>
    rw [checkChain_of_not_open hopen] at hcheck
    cases hcheck

/-- No step of a question accepts a superclass from which the walk does not end. -/
lemma superclass_free_of_fill (hfree : (m.about t).superclass = none)
    (hendless : ∀ n, r.walk m t n ≠ .ok none) (hfill : Fill r m m') :
    (m'.about t).superclass = none := by
  rcases hfill.links with ⟨u, link, -, hdecl, hcheck, hadds⟩ | ⟨u, links, -, -, -, hadds⟩ | hsame
  · by_cases hu : t = u
    · subst hu
      have heffective := (effectiveSuperclass_of_none (r := r) hfree).trans hdecl
      cases link with
      | none => exact absurd ((walk_one t).trans heffective) (hendless 1)
      | some s =>
        obtain ⟨n, hn⟩ := exists_walk_of_checkChain_ok
          (.step .start (by simp) heffective) (hcheck s rfl)
        exact absurd hn (hendless n)
    · rw [hadds.other t hu, hfree]
  · rw [hadds.superclass t, hfree]
  · rw [(hsame t).1, hfree]

section Outcome

variable (hr : r.Sound) (hm : m.Sound r) (ht : r.Issued t)
include hr hm ht

lemma walk_of_checkChain_error (h : r.Trodden m t trail s)
    (hcheck : r.checkChain m trail s = .error e) :
    (∃ n, r.walk m t n = .error e) ∨ ∃ k c, r.MeetsCycle m t k c ∧
      e = .classCircularity (r.className c) (r.location c) := by
  induction trail, s using checkChain.induct r m with
  | case1 trail s hopen e' he =>
    rw [checkChain_of_open hopen, he] at hcheck
    cases hcheck
    exact Or.inl ⟨trail.length + 1, (walk_succ_of_eq h.walk_eq).trans he⟩
  | case2 trail s hopen hnone =>
    rw [checkChain_of_open hopen, hnone] at hcheck
    cases hcheck
  | case3 trail s hopen u hu ih =>
    rw [checkChain_of_open hopen, hu] at hcheck
    exact ih (h.step hopen.2 hu) hcheck
  | case4 trail s hopen =>
    rw [checkChain_of_not_open hopen] at hcheck
    cases hcheck
    -- the walk passes issued types only, so the trail is what stopped it
    have hmem : s ∈ trail := by
      by_contra hn
      exact hopen ⟨h.issued hr hm ht, hn⟩
    obtain ⟨k, hmeets⟩ := h.meetsCycle hmem
    exact Or.inr ⟨k, s, hmeets, rfl⟩

/-- The three ways in which the question for a superclass that was not accepted yet is answered. -/
lemma superclass_cases (hfree : (m.about t).superclass = none) :
    (∃ n link, r.walk m t n = .ok none ∧ r.effectiveSuperclass m t = .ok link ∧
      (Query.superclass t).answer r m =
        (.ok link, m.update t fun slots => { slots with superclass := some link })) ∨
    (∃ n e, r.walk m t n = .error e ∧ (Query.superclass t).answer r m = (.error e, m)) ∨
    ∃ k c, r.MeetsCycle m t k c ∧ (Query.superclass t).answer r m =
      (.error (.classCircularity (r.className c) (r.location c)), m) := by
  have heffective := effectiveSuperclass_of_none (r := r) hfree
  rw [Query.answer_superclass_none hfree]
  rcases hdecl : r.declaredSuperclass t with e | _ | s
  · exact Or.inr (Or.inl ⟨1, e, (walk_one t).trans (heffective.trans hdecl), rfl⟩)
  · exact Or.inl ⟨1, none, (walk_one t).trans (heffective.trans hdecl), heffective.trans hdecl, rfl⟩
  · have hlink : r.SuperLink m t s := heffective.trans hdecl
    have htrodden : r.Trodden m t [t] s := .step .start (by simp) hlink
    simp only [Option.elim_some]
    rcases hcheck : r.checkChain m [t] s with e | _
    · rcases walk_of_checkChain_error hr hm ht htrodden hcheck with ⟨n, he⟩ | ⟨k, c, hc, rfl⟩
      · exact Or.inr (Or.inl ⟨n, e, he, rfl⟩)
      · exact Or.inr (Or.inr ⟨k, c, hc, rfl⟩)
    · obtain ⟨n, hn⟩ := exists_walk_of_checkChain_ok htrodden hcheck
      exact Or.inl ⟨n, some s, hn, hlink, rfl⟩

variable (hfree : (m.about t).superclass = none)
include hfree

lemma answer_superclass_of_walk_none {n : Nat} (h : r.walk m t n = .ok none) :
    ∃ link, r.effectiveSuperclass m t = .ok link ∧ (Query.superclass t).answer r m =
      (.ok link, m.update t fun slots => { slots with superclass := some link }) := by
  rcases superclass_cases hr hm ht hfree with ⟨-, link, -, hlink, hanswer⟩ | ⟨k, e, he, -⟩ |
    ⟨k, c, hc, -⟩
  · exact ⟨link, hlink, hanswer⟩
  · exact absurd he (not_walk_error_of_none h)
  · obtain ⟨s, hs⟩ := hc.exists_walk_eq n
    rw [h] at hs
    cases hs

lemma answer_superclass_of_walk_error {n : Nat} (h : r.walk m t n = .error e) :
    (Query.superclass t).answer r m = (.error e, m) := by
  rcases superclass_cases hr hm ht hfree with ⟨k, link, hk, -⟩ | ⟨k, e', he, hanswer⟩ |
    ⟨k, c, hc, -⟩
  · exact absurd h (not_walk_error_of_none hk)
  · have heq := walk_eq_of_error h (Nat.le_max_left n k)
    rw [walk_eq_of_error he (Nat.le_max_right n k)] at heq
    cases heq
    exact hanswer
  · obtain ⟨s, hs⟩ := hc.exists_walk_eq n
    rw [h] at hs
    cases hs

/-- A walk without an end comes to a circle. -/
lemma exists_meetsCycle (h : ∀ n, ∃ s, r.walk m t n = .ok (some s)) :
    ∃ k c, r.MeetsCycle m t k c := by
  rcases superclass_cases hr hm ht hfree with ⟨n, link, hn, -⟩ | ⟨n, e, he, -⟩ | ⟨k, c, hc, -⟩
  · obtain ⟨s, hs⟩ := h n
    rw [hn] at hs
    cases hs
  · obtain ⟨s, hs⟩ := h n
    rw [he] at hs
    cases hs
  · exact ⟨k, c, hc⟩

lemma answer_superclass_of_meetsCycle {k : Nat} (h : r.MeetsCycle m t k c) :
    (Query.superclass t).answer r m =
      (.error (.classCircularity (r.className c) (r.location c)), m) := by
  rcases superclass_cases hr hm ht hfree with ⟨n, link, hn, -⟩ | ⟨n, e, he, -⟩ |
    ⟨k', c', hc, hanswer⟩
  · obtain ⟨s, hs⟩ := h.exists_walk_eq n
    rw [hn] at hs
    cases hs
  · obtain ⟨s, hs⟩ := h.exists_walk_eq n
    rw [he] at hs
    cases hs
  · rw [h.unique hc]
    exact hanswer

end Outcome

end Registry

/-! ## Graphs -/

namespace Registry

variable {r : Registry} {m m' : Memory} {s t : Handle}

lemma walk_congr (h : r.effectiveSuperclass m' = r.effectiveSuperclass m) (t : Handle) (n : Nat) :
    r.walk m' t n = r.walk m t n := by
  have hclimb : r.climb m' = r.climb m := by
    funext x
    rcases x with e | _ | s
    · rfl
    · rfl
    · exact congrFun h s
  rw [walk, hclimb, walk]

lemma issued_of_walk (hr : r.Sound) (hm : m.Sound r) (ht : r.Issued t) {n : Nat}
    (h : r.walk m t n = .ok (some s)) : r.Issued s := by
  cases n with
  | zero =>
    cases h
    exact ht
  | succ n =>
    rcases hn : r.walk m t n with e | _ | u
    · rw [walk_succ, hn] at h
      cases h
    · rw [walk_succ, hn] at h
      cases h
    · rw [walk_succ_of_eq hn] at h
      exact hm.issued_of_effectiveLink hr (Or.inl h)

/-- While questions are asked, the walk stays the same and no superclass is accepted for a type
from which it does not end. -/
lemma sameLinks_of_fills (hfills : ReflTransGen (Fill r) m m')
    (hfree : (m.about t).superclass = none) (hendless : ∀ n, r.walk m t n ≠ .ok none) :
    r.SameLinks m m' ∧ (m'.about t).superclass = none := by
  induction hfills with
  | refl => exact ⟨⟨rfl, rfl⟩, hfree⟩
  | tail _ hfill ih =>
    obtain ⟨hsame, hfree⟩ := ih
    refine ⟨hsame.fill hfill, superclass_free_of_fill hfree (fun n => ?_) hfill⟩
    rw [walk_congr hsame.superclass]
    exact hendless n

end Registry

namespace Graph

variable {g g' g'' : Graph} {s t c : Handle} {e : Error}

/-- Actions lead from one graph to the other. -/
def Leads : Graph → Graph → Prop :=
  ReflTransGen fun g g' => ∃ action : Action, action.Admissible g ∧ g' = action.run g

/-- Actions lead from one graph to the other that change no registered type. -/
def LeadsUnchanged : Graph → Graph → Prop :=
  ReflTransGen fun g g' => ∃ action : Action, action.Admissible g ∧ g' = action.run g ∧
    g.registry.Grows g'.registry

/-- The question for the superclass of a type fails with an error and leaves the memory as it is,
now and until a registered type is changed. Whatever is changed, it succeeds as soon as the walk
from the type ends. -/
structure Refuses (g : Graph) (t : Handle) (e : Error) : Prop where
  unchanged : ∀ {g' : Graph}, g.LeadsUnchanged g' →
    (Query.superclass t).answer g'.registry g'.memory = (.error e, g'.memory)
  mended : ∀ {g' : Graph} {n : Nat}, g.Leads g' → g'.registry.walk g'.memory t n = .ok none →
    ∃ link, g'.registry.effectiveSuperclass g'.memory t = .ok link ∧
      g'.answer (Query.superclass t) = .ok link

lemma Leads.sound (h : g.Leads g') (hg : g.Sound) :
    g'.Sound ∧ g.registry.Extends g'.registry := by
  induction h with
  | refl => exact ⟨hg, .refl _⟩
  | tail _ hstep ih =>
    obtain ⟨action, hadmissible, rfl⟩ := hstep
    have hstep := action.step ih.1.registry hadmissible
    exact ⟨ih.1.step hstep, ih.2.trans hstep.lasts.1⟩

/-- The types of the first graph are in the second one with the same effective superclasses, and
the superclass of one of them is not accepted. -/
structure Stalls (t : Handle) (g g' : Graph) : Prop where
  sound : g'.Sound
  grows : g.registry.Grows g'.registry
  superclass : ∀ s, g.registry.Issued s →
    g'.registry.effectiveSuperclass g'.memory s = g.registry.effectiveSuperclass g.memory s
  free : (g'.memory.about t).superclass = none

namespace Stalls

lemma walk_eq (h : Stalls t g g') (hg : g.Sound) (hs : g.registry.Issued s) (n : Nat) :
    g'.registry.walk g'.memory s n = g.registry.walk g.memory s n := by
  induction n with
  | zero => rfl
  | succ n ih =>
    rw [Registry.walk_succ, Registry.walk_succ, ih]
    rcases hn : g.registry.walk g.memory s n with e | _ | u
    · rfl
    · rfl
    · exact h.superclass u (Registry.issued_of_walk hg.registry hg.memory hs hn)

lemma onCycle_iff (h : Stalls t g g') (hg : g.Sound) (hs : g.registry.Issued s) :
    g'.registry.OnCycle g'.memory s ↔ g.registry.OnCycle g.memory s :=
  exists_congr fun n => and_congr_right fun _ => by rw [h.walk_eq hg hs]

lemma meetsCycle (h : Stalls t g g') (hg : g.Sound) (ht : g.registry.Issued t) {k : Nat}
    (hmeets : g.registry.MeetsCycle g.memory t k c) :
    g'.registry.MeetsCycle g'.memory t k c := by
  have hissued : ∀ {j s}, g.registry.walk g.memory t j = .ok (some s) → g.registry.Issued s :=
    Registry.issued_of_walk hg.registry hg.memory ht
  refine ⟨(h.walk_eq hg ht k).trans hmeets.walk_eq, ?_, fun j hj s hs => ?_⟩
  · rw [h.onCycle_iff hg (hissued hmeets.walk_eq)]
    exact hmeets.cycle
  · rw [h.walk_eq hg ht] at hs
    rw [h.onCycle_iff hg (hissued hs)]
    exact hmeets.first j hj s hs

lemma step (h : Stalls t g g') (hgrows : g'.registry.Grows g''.registry) (hstep : g'.Step g'')
    (hendless : ∀ n, g'.registry.walk g'.memory t n ≠ .ok none) : Stalls t g g'' := by
  refine ⟨h.sound.step hstep, h.grows.trans hgrows, ?_, ?_⟩
  · intro s hs
    rw [← h.superclass s hs]
    cases hstep with
    | extend hextends hsound =>
      simp only [Registry.effectiveSuperclass, Registry.declaredSuperclass,
        hgrows.shape_eq s (h.grows.issued hs)]
    | ask hfills =>
      exact congrFun (Registry.sameLinks_of_fills hfills h.free hendless).1.superclass s
    | forget hsame => simp only [Registry.effectiveSuperclass, (hsame s).1]
  · cases hstep with
    | extend hextends hsound => exact h.free
    | ask hfills => exact (Registry.sameLinks_of_fills hfills h.free hendless).2
    | forget hsame => exact (hsame t).1.trans h.free

end Stalls

/-- As long as no registered type is changed, a walk that does not end goes on for ever. -/
lemma LeadsUnchanged.stalls (h : g.LeadsUnchanged g') (hg : g.Sound) (ht : g.registry.Issued t)
    (hfree : (g.memory.about t).superclass = none)
    (hendless : ∀ n, g.registry.walk g.memory t n ≠ .ok none) : Stalls t g g' := by
  induction h with
  | refl => exact ⟨hg, .refl _, fun _ _ => rfl, hfree⟩
  | tail _ hstep ih =>
    obtain ⟨action, hadmissible, rfl, hgrows⟩ := hstep
    refine ih.step hgrows (action.step ih.sound.registry hadmissible) fun n => ?_
    rw [ih.walk_eq hg ht]
    exact hendless n

/-- Where the walk ends, the superclass is answered, accepted before or not. -/
lemma answer_superclass_of_walk_none (hg : g.Sound) (ht : g.registry.Issued t) {n : Nat}
    (h : g.registry.walk g.memory t n = .ok none) :
    ∃ link, g.registry.effectiveSuperclass g.memory t = .ok link ∧
      g.answer (Query.superclass t) = .ok link := by
  cases hslot : (g.memory.about t).superclass with
  | some link =>
    refine ⟨link, Registry.effectiveSuperclass_of_some hslot, ?_⟩
    rw [answer, Query.answer_superclass_some hslot]
  | none =>
    obtain ⟨link, hlink, hanswer⟩ :=
      Registry.answer_superclass_of_walk_none hg.registry hg.memory ht hslot h
    exact ⟨link, hlink, by rw [answer, hanswer]⟩

lemma refuses_of_unchanged (hg : g.Sound) (ht : g.registry.Issued t)
    (hunchanged : ∀ {g' : Graph}, g.LeadsUnchanged g' →
      (Query.superclass t).answer g'.registry g'.memory = (.error e, g'.memory)) :
    g.Refuses t e := by
  refine ⟨hunchanged, fun hleads hwalk => ?_⟩
  obtain ⟨hsound, hextends⟩ := hleads.sound hg
  exact answer_superclass_of_walk_none hsound (hextends.issued ht) hwalk

/-- **The outcome of the question for a superclass.** Let the superclass of a type not be accepted
yet, in any graph that some run leads to. If the walk from the type ends, the effective superclass
is answered and accepted. If it comes to a type that reports an error, the question fails with this
error. Otherwise the walk repeats itself from some step on, and the question fails and names the
type at which the walk enters the circle, which is the type itself exactly when it lies on the
circle. A failed question leaves the memory as it is, fails in the same way until a registered type
is changed, and succeeds as soon as the walk ends. -/
theorem superclass_outcome (hg : g.Reachable) (ht : g.registry.Issued t)
    (hfree : (g.memory.about t).superclass = none) :
    (∀ n, g.registry.walk g.memory t n = .ok none →
      ∃ link, g.registry.effectiveSuperclass g.memory t = .ok link ∧
        (Query.superclass t).answer g.registry g.memory =
          (.ok link, g.memory.update t fun slots => { slots with superclass := some link })) ∧
    (∀ n e, g.registry.walk g.memory t n = .error e → g.Refuses t e) ∧
    ((∀ n, ∃ s, g.registry.walk g.memory t n = .ok (some s)) →
      ∃ k c, g.registry.MeetsCycle g.memory t k c ∧
        (∃ p > 0, ∀ n ≥ k, g.registry.walk g.memory t (n + p) = g.registry.walk g.memory t n) ∧
        (c = t ↔ g.registry.OnCycle g.memory t) ∧
        g.Refuses t (.classCircularity (g.registry.className c) (g.registry.location c))) := by
  have hsound := hg.sound
  refine ⟨fun n hn => ?_, fun n e he => ?_, fun hendless => ?_⟩
  · exact Registry.answer_superclass_of_walk_none hsound.registry hsound.memory ht hfree hn
  · refine refuses_of_unchanged hsound ht fun {g'} hleads => ?_
    have hstalls := hleads.stalls hsound ht hfree fun k hk => Registry.not_walk_error_of_none hk he
    exact Registry.answer_superclass_of_walk_error hstalls.sound.registry hstalls.sound.memory
      (hstalls.grows.issued ht) hstalls.free ((hstalls.walk_eq hsound ht n).trans he)
  · obtain ⟨k, c, hmeets⟩ :=
      Registry.exists_meetsCycle hsound.registry hsound.memory ht hfree hendless
    refine ⟨k, c, hmeets, hmeets.exists_period, hmeets.eq_start_iff, ?_⟩
    refine refuses_of_unchanged hsound ht fun {g'} hleads => ?_
    have hstalls := hleads.stalls hsound ht hfree fun n hn => by
      obtain ⟨s, hs⟩ := hendless n
      rw [hn] at hs
      cases hs
    have hc : g.registry.Issued c :=
      Registry.issued_of_walk hsound.registry hsound.memory ht hmeets.walk_eq
    have hname : g'.registry.className c = g.registry.className c := by
      rw [Registry.className, hstalls.grows.toExtends.descriptor_eq hc, Registry.className]
    have hplace : g'.registry.location c = g.registry.location c := by
      rw [Registry.location, Registry.declaration?, hstalls.grows.shape_eq c hc]
      rfl
    rw [← hname, ← hplace]
    exact Registry.answer_superclass_of_meetsCycle hstalls.sound.registry hstalls.sound.memory
      (hstalls.grows.issued ht) hstalls.free (hstalls.meetsCycle hsound ht hmeets)

/-- A class `Leaf` extends `Left`, which extends `Right`; then `Right` is made to extend `Left`. -/
def circleRun : List Action :=
  [.edit ⟨9⟩ (.setSuperclass (some ⟨10⟩)),
   .define (.draft { Draft.ofClass "Leaf" with superclass := some ⟨10⟩ }),
   .define (.draft { Draft.ofClass "Left" with
     superclass := some ⟨9⟩, location := some ⟨0, 4, 1⟩ }),
   .define (.draft (Draft.ofClass "Right"))]

/-- The walk from `Leaf` enters the circle at `Left`, which is named with its place, and not `Leaf`
itself. When `Right` extends nothing again, the question succeeds. -/
theorem superclass_outcome_circle :
    (Run.after circleRun).Reachable ∧
    ¬ (Run.after circleRun).registry.OnCycle (Run.after circleRun).memory ⟨11⟩ ∧
    (Run.after circleRun).Refuses ⟨11⟩ (.classCircularity "Left" (some ⟨0, 4, 1⟩)) ∧
    ∃ link, ((Action.edit ⟨9⟩ (.setSuperclass none)).run (Run.after circleRun)).answer
      (Query.superclass ⟨11⟩) = .ok link := by
  have hreach : (Run.after circleRun).Reachable := ⟨_, Run.of_allowed (by decide +kernel)⟩
  obtain ⟨-, -, hcircle⟩ := superclass_outcome (t := ⟨11⟩) hreach (by decide +kernel)
    (by decide +kernel)
  -- after the first step the walk goes back and forth
  have hback : ∀ s ∈ [⟨10⟩, ⟨9⟩], ∃ u ∈ [⟨10⟩, ⟨9⟩],
      (Run.after circleRun).registry.effectiveSuperclass (Run.after circleRun).memory s =
        .ok (some u) := by decide +kernel
  have hwalk : ∀ n, ∃ s ∈ [⟨10⟩, ⟨9⟩],
      (Run.after circleRun).registry.walk (Run.after circleRun).memory ⟨11⟩ (n + 1) =
        .ok (some s) := by
    intro n
    induction n with
    | zero => exact ⟨⟨10⟩, by simp, by rw [Registry.walk_one]; decide +kernel⟩
    | succ n ih =>
      obtain ⟨s, hs, hn⟩ := ih
      rw [Registry.walk_succ_of_eq hn]
      exact hback s hs
  have hoff : ¬ (Run.after circleRun).registry.OnCycle (Run.after circleRun).memory ⟨11⟩ := by
    rintro ⟨n, hn, hcycle⟩
    obtain ⟨k, rfl⟩ := Nat.exists_eq_succ_of_ne_zero hn.ne'
    obtain ⟨s, hs, hwalk⟩ := hwalk k
    rw [hwalk] at hcycle
    cases hcycle
    exact absurd hs (by decide)
  have hmeets : (Run.after circleRun).registry.MeetsCycle (Run.after circleRun).memory ⟨11⟩ 1
      ⟨10⟩ := by
    refine ⟨by decide +kernel, ⟨2, by decide, by decide +kernel⟩, fun j hj s hs => ?_⟩
    obtain rfl : j = 0 := by omega
    cases hs
    exact hoff
  obtain ⟨k, c, hmeets', -, -, hrefuses⟩ := hcircle fun n => by
    cases n with
    | zero => exact ⟨⟨11⟩, rfl⟩
    | succ n =>
      obtain ⟨s, -, hs⟩ := hwalk n
      exact ⟨s, hs⟩
  rw [← hmeets.unique hmeets'] at hrefuses
  have hname : (Run.after circleRun).registry.className ⟨10⟩ = "Left" := by decide +kernel
  have hplace : (Run.after circleRun).registry.location ⟨10⟩ = some ⟨0, 4, 1⟩ := by
    decide +kernel
  rw [hname, hplace] at hrefuses
  refine ⟨hreach, hoff, hrefuses, ?_⟩
  have hleads : (Run.after circleRun).Leads
      ((Action.edit ⟨9⟩ (.setSuperclass none)).run (Run.after circleRun)) :=
    .single ⟨.edit ⟨9⟩ (.setSuperclass none), by decide +kernel, rfl⟩
  obtain ⟨link, -, hlink⟩ := hrefuses.mended (n := 3) hleads (by decide +kernel)
  exact ⟨link, hlink⟩

end Graph

end TypeGraph
