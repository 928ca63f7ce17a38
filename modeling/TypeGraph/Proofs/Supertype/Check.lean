import Mathlib.Logic.Relation
import TypeGraph.Proofs.Registry.Sound

/-!
# What the checks of supertype links find out

The effective links of a registry and a memory make a graph on the types, with one kind of link for
superclasses and one for interfaces. The superclass check walks along a chain of superclass links:
it succeeds when the chain ends without coming back to a type that it has passed. The interface
check searches everything above a type: it finds the target exactly when there is a path to it
whose last link is an interface link. Both ways of failing are described as well.
-/

namespace TypeGraph.Registry

open Relation

variable {r : Registry} {m : Memory} {s t u v target : Handle}

/-! ## Effective links -/

/-- The second type is the effective superclass of the first. -/
def SuperLink (r : Registry) (m : Memory) (s t : Handle) : Prop :=
  r.effectiveSuperclass m s = .ok (some t)

/-- The second type is an effective interface of the first. -/
def InterfaceLink (r : Registry) (m : Memory) (s t : Handle) : Prop :=
  ∃ links, r.effectiveInterfaces m s = .ok links ∧ t ∈ links

/-- The second type is an effective supertype of the first, directly. -/
def Link (r : Registry) (m : Memory) (s t : Handle) : Prop :=
  r.SuperLink m s t ∨ r.InterfaceLink m s t

/-- There is a path of effective links from the first type to the second whose last link is an
interface link. -/
def Implements (r : Registry) (m : Memory) (s t : Handle) : Prop :=
  ∃ u, ReflTransGen (r.Link m) s u ∧ r.InterfaceLink m u t

/-- A type reports an error in place of its effective links. -/
def Fails (r : Registry) (m : Memory) (t : Handle) (e : Error) : Prop :=
  r.effectiveSuperclass m t = .error e ∨ r.effectiveInterfaces m t = .error e

lemma SuperLink.unique (hs : r.SuperLink m u s) (ht : r.SuperLink m u t) : s = t := by
  unfold SuperLink at hs ht
  rw [hs] at ht
  simpa using ht

lemma Implements.of_link (hl : r.Link m s t) (h : r.Implements m t target) :
    r.Implements m s target := by
  obtain ⟨u, htu, hu⟩ := h
  exact ⟨u, ReflTransGen.head hl htu, hu⟩

/-- The first step of a path that ends in an interface link. -/
lemma implements_iff :
    r.Implements m s target ↔
      r.InterfaceLink m s target ∨ ∃ t, r.Link m s t ∧ r.Implements m t target := by
  constructor
  · rintro ⟨u, hsu, hu⟩
    rcases ReflTransGen.cases_head hsu with rfl | ⟨t, hst, htu⟩
    · exact Or.inl hu
    · exact Or.inr ⟨t, hst, u, htu, hu⟩
  · rintro (h | ⟨t, hst, h⟩)
    · exact ⟨s, ReflTransGen.refl, h⟩
    · exact h.of_link hst

lemma effectiveSuperclass_of_none (h : (m.about t).superclass = none) :
    r.effectiveSuperclass m t = r.declaredSuperclass t := by
  simp [effectiveSuperclass, h]

lemma effectiveSuperclass_of_some {link : Option Handle}
    (h : (m.about t).superclass = some link) : r.effectiveSuperclass m t = .ok link := by
  simp [effectiveSuperclass, h]

lemma effectiveInterfaces_of_none (h : (m.about t).interfaces = none) :
    r.effectiveInterfaces m t = r.declaredInterfaces t := by
  simp [effectiveInterfaces, h]

lemma effectiveInterfaces_of_some {links : List Handle}
    (h : (m.about t).interfaces = some links) : r.effectiveInterfaces m t = .ok links := by
  simp [effectiveInterfaces, h]

/-- No sound registry reports an endless walk. -/
lemma Sound.proper_of_fails (h : r.Sound) {e : Error} (he : r.Fails m t e) :
    e.isEndless = false := by
  rcases he with he | he
  · cases hm : (m.about t).superclass with
    | none => exact h.proper_of_declaredSuperclass (effectiveSuperclass_of_none hm ▸ he)
    | some link =>
      rw [effectiveSuperclass_of_some hm] at he
      cases he
  · cases hm : (m.about t).interfaces with
    | none => exact h.proper_of_declaredInterfaces (effectiveInterfaces_of_none hm ▸ he)
    | some links =>
      rw [effectiveInterfaces_of_some hm] at he
      cases he

/-! ## The superclass check -/

lemma checkChain_of_not_open {trail : List Handle} (h : ¬ Trail.Open r.size trail t) :
    r.checkChain m trail t = .error (.classCircularity (r.className t) (r.location t)) := by
  rw [checkChain, dif_neg h]

lemma checkChain_of_open {trail : List Handle} (h : Trail.Open r.size trail t) :
    r.checkChain m trail t = match r.effectiveSuperclass m t with
      | .error error => .error error
      | .ok none => .ok ()
      | .ok (some superclass) => r.checkChain m (t :: trail) superclass := by
  have hstep := checkChain.eq_def r m trail t
  rw [dif_pos h] at hstep
  exact hstep

/-- A chain that passes the check is made of issued types, none of them on the trail. -/
lemma not_mem_of_checkChain {trail : List Handle} (h : r.checkChain m trail t = .ok ())
    (hu : ReflTransGen (r.SuperLink m) t u) : r.Issued u ∧ u ∉ trail := by
  induction trail, t using checkChain.induct r m with
  | case1 trail t hopen e he =>
    rw [checkChain_of_open hopen, he] at h
    cases h
  | case2 trail t hopen hnone =>
    rcases ReflTransGen.cases_head hu with rfl | ⟨s, hs, -⟩
    · exact hopen
    · rw [SuperLink, hnone] at hs
      cases hs
  | case3 trail t hopen s hs ih =>
    rw [checkChain_of_open hopen, hs] at h
    rcases ReflTransGen.cases_head hu with rfl | ⟨s', hs', hu⟩
    · exact hopen
    · obtain rfl := SuperLink.unique hs hs'
      obtain ⟨hissued, hmem⟩ := ih h hu
      exact ⟨hissued, fun hn => hmem (List.mem_cons_of_mem _ hn)⟩
  | case4 trail t hopen =>
    rw [checkChain_of_not_open hopen] at h
    cases h

/-- A chain of issued types passes the check if it reports no error, has no circle and keeps away
from the trail. -/
lemma checkChain_eq_ok {trail : List Handle}
    (hissued : ∀ u, ReflTransGen (r.SuperLink m) t u → r.Issued u)
    (hclean : ∀ u, ReflTransGen (r.SuperLink m) t u → ∀ e, r.effectiveSuperclass m u ≠ .error e)
    (hacyclic : ∀ u, ReflTransGen (r.SuperLink m) t u → ¬ TransGen (r.SuperLink m) u u)
    (htrail : ∀ u, ReflTransGen (r.SuperLink m) t u → u ∉ trail) :
    r.checkChain m trail t = .ok () := by
  induction trail, t using checkChain.induct r m with
  | case1 trail t hopen e he => exact absurd he (hclean t ReflTransGen.refl e)
  | case2 trail t hopen hnone => rw [checkChain_of_open hopen, hnone]
  | case3 trail t hopen s hs ih =>
    have hstep : ∀ {u}, ReflTransGen (r.SuperLink m) s u → ReflTransGen (r.SuperLink m) t u :=
      fun hu => ReflTransGen.head hs hu
    rw [checkChain_of_open hopen, hs]
    refine ih (fun u hu => hissued u (hstep hu)) (fun u hu => hclean u (hstep hu))
      (fun u hu => hacyclic u (hstep hu)) fun u hu hmem => ?_
    rcases List.mem_cons.1 hmem with rfl | hmem
    · exact hacyclic u ReflTransGen.refl (TransGen.head' hs hu)
    · exact htrail u (hstep hu) hmem
  | case4 trail t hopen =>
    exact absurd ⟨hissued t ReflTransGen.refl, htrail t ReflTransGen.refl⟩ hopen

/-- The errors of the superclass check. -/
lemma checkChain_eq_error {trail : List Handle} {e : Error}
    (h : r.checkChain m trail t = .error e) :
    (∃ u, r.Fails m u e) ∨ ∃ name span, e = .classCircularity name span := by
  induction trail, t using checkChain.induct r m with
  | case1 trail t hopen e' he =>
    rw [checkChain_of_open hopen, he] at h
    cases h
    exact Or.inl ⟨t, Or.inl he⟩
  | case2 trail t hopen hnone =>
    rw [checkChain_of_open hopen, hnone] at h
    cases h
  | case3 trail t hopen s hs ih =>
    rw [checkChain_of_open hopen, hs] at h
    exact ih h
  | case4 trail t hopen =>
    rw [checkChain_of_not_open hopen] at h
    cases h
    exact Or.inr ⟨_, _, rfl⟩

/-! ## The frontier of a search -/

namespace Frontier

lemma mem_pending_visit (f : Frontier) (s t : Handle) :
    t ∈ (f.visit s).pending ↔ t ∈ f.pending ∨ t = s ∧ t ∈ f.fresh := by
  unfold visit
  split
  next h =>
    rw [List.mem_cons]
    constructor
    · rintro (rfl | ht)
      · exact Or.inr ⟨rfl, h⟩
      · exact Or.inl ht
    · rintro (ht | ⟨rfl, -⟩)
      · exact Or.inr ht
      · exact Or.inl rfl
  next h =>
    constructor
    · exact Or.inl
    · rintro (ht | ⟨rfl, ht⟩)
      · exact ht
      · exact absurd ht h

lemma mem_fresh_visit {f : Frontier} (hf : f.fresh.Nodup) (s t : Handle) :
    t ∈ (f.visit s).fresh ↔ t ∈ f.fresh ∧ t ≠ s := by
  unfold visit
  split
  next h => rw [hf.mem_erase_iff, and_comm]
  next h =>
    constructor
    · rintro ht
      exact ⟨ht, fun he => h (he ▸ ht)⟩
    · exact And.left

lemma nodup_fresh_visit {f : Frontier} (hf : f.fresh.Nodup) (s : Handle) :
    (f.visit s).fresh.Nodup := by
  unfold visit
  split
  · exact hf.erase s
  · exact hf

lemma nodup_fresh_foldl_visit {f : Frontier} (hf : f.fresh.Nodup) (ts : List Handle) :
    (ts.foldl visit f).fresh.Nodup := by
  induction ts generalizing f with
  | nil => exact hf
  | cons s ts ih => exact ih (nodup_fresh_visit hf s)

lemma mem_fresh_foldl_visit {f : Frontier} (hf : f.fresh.Nodup) (ts : List Handle) (t : Handle) :
    t ∈ (ts.foldl visit f).fresh ↔ t ∈ f.fresh ∧ t ∉ ts := by
  induction ts generalizing f with
  | nil => simp
  | cons s ts ih =>
    rw [List.foldl_cons, ih (nodup_fresh_visit hf s), mem_fresh_visit hf, List.mem_cons]
    tauto

lemma mem_pending_foldl_visit {f : Frontier} (hf : f.fresh.Nodup) (ts : List Handle)
    (t : Handle) :
    t ∈ (ts.foldl visit f).pending ↔ t ∈ f.pending ∨ t ∈ ts ∧ t ∈ f.fresh := by
  induction ts generalizing f with
  | nil => simp
  | cons s ts ih =>
    rw [List.foldl_cons, ih (nodup_fresh_visit hf s), mem_fresh_visit hf, mem_pending_visit,
      List.mem_cons]
    tauto

end Frontier

/-! ## The interface check -/

lemma link_iff_mem {superclass : Option Handle} {interfaces : List Handle}
    (hsuper : r.effectiveSuperclass m t = .ok superclass)
    (hinterfaces : r.effectiveInterfaces m t = .ok interfaces) :
    r.Link m t u ↔ u ∈ superclass.toList ++ interfaces := by
  simp [Link, SuperLink, InterfaceLink, hsuper, hinterfaces]

lemma interfaceLink_iff_mem {interfaces : List Handle}
    (hinterfaces : r.effectiveInterfaces m t = .ok interfaces) :
    r.InterfaceLink m t u ↔ u ∈ interfaces := by
  simp [InterfaceLink, hinterfaces]

/-- What is not implemented through an interface comes from the superclass. -/
lemma implements_iff_superclass {links : List Handle}
    (hlinks : r.effectiveInterfaces m t = .ok links)
    (hnone : ¬ ∃ i ∈ links, i = target ∨ r.Implements m i target) :
    r.Implements m t target ↔ ∃ s, r.SuperLink m t s ∧ r.Implements m s target := by
  constructor
  · intro himpl
    rcases implements_iff.1 himpl with hl | ⟨u, hl | hl, hu⟩
    · exact absurd ⟨target, (interfaceLink_iff_mem hlinks).1 hl, Or.inl rfl⟩ hnone
    · exact ⟨u, hl, hu⟩
    · exact absurd ⟨u, (interfaceLink_iff_mem hlinks).1 hl, Or.inr hu⟩ hnone
  · rintro ⟨s, hl, hs⟩
    exact hs.of_link (Or.inl hl)

/-- The types that a search has dealt with do not have the target among their interfaces, and all
of their links lead to types that the search has found. -/
def Swept (r : Registry) (m : Memory) (target : Handle) (f : Frontier) : Prop :=
  ∀ u, r.Issued u → u ∉ f.fresh → u ∉ f.pending →
    ¬ r.InterfaceLink m u target ∧ ∀ v, r.Link m u v → v ∉ f.fresh

lemma Swept.step {pending fresh : List Handle} {superclass : Option Handle}
    {interfaces : List Handle} (hsuper : r.effectiveSuperclass m t = .ok superclass)
    (hinterfaces : r.effectiveInterfaces m t = .ok interfaces) (htarget : target ∉ interfaces)
    (hfresh : fresh.Nodup) (h : r.Swept m target ⟨t :: pending, fresh⟩) :
    r.Swept m target
      ((superclass.toList ++ interfaces).foldl Frontier.visit ⟨pending, fresh⟩) := by
  intro u hu hnew hdone
  rw [Frontier.mem_fresh_foldl_visit hfresh] at hnew
  rw [Frontier.mem_pending_foldl_visit hfresh] at hdone
  have hfound : u ∉ fresh := fun hf => hdone (Or.inr ⟨by_contra fun hn => hnew ⟨hf, hn⟩, hf⟩)
  by_cases hut : u = t
  · subst hut
    refine ⟨fun hl => htarget ((interfaceLink_iff_mem hinterfaces).1 hl), fun v hv => ?_⟩
    rw [Frontier.mem_fresh_foldl_visit hfresh]
    exact fun hn => hn.2 ((link_iff_mem hsuper hinterfaces).1 hv)
  · have hpending : u ∉ t :: pending := by
      intro hmem
      rcases List.mem_cons.1 hmem with rfl | hmem
      · exact hut rfl
      · exact hdone (Or.inl hmem)
    obtain ⟨hmiss, hlinks⟩ := h u hu hfound hpending
    refine ⟨hmiss, fun v hv => ?_⟩
    rw [Frontier.mem_fresh_foldl_visit hfresh]
    exact fun hn => hlinks v hv hn.1

/-- A search that ends without success has seen everything above the types that it started
from. -/
lemma not_implements_of_search {f : Frontier} (h : r.searchInterface m target f = .ok false)
    (hfresh : f.fresh.Nodup) (hswept : r.Swept m target f)
    (hlinks : ∀ u v, r.Issued u → r.Link m u v → r.Issued v)
    (hs : r.Issued s) (hfound : s ∉ f.fresh) : ¬ r.Implements m s target := by
  induction f using searchInterface.induct r m target generalizing s with
  | case1 fresh =>
    -- nothing is pending, so the types found are closed under links
    have hclosed : ∀ u, ReflTransGen (r.Link m) s u → r.Issued u ∧ u ∉ fresh := by
      intro u hsu
      induction hsu with
      | refl => exact ⟨hs, hfound⟩
      | tail _ hvw ih =>
        exact ⟨hlinks _ _ ih.1 hvw, (hswept _ ih.1 ih.2 (by simp)).2 _ hvw⟩
    rintro ⟨u, hsu, hu⟩
    exact (hswept u (hclosed u hsu).1 (hclosed u hsu).2 (by simp)).1 hu
  | case2 t pending fresh e he =>
    rw [searchInterface, he] at h
    cases h
  | case3 t pending fresh superclass hsuper e he =>
    rw [searchInterface, hsuper] at h
    simp [he] at h
  | case4 t pending fresh superclass hsuper interfaces hinterfaces htarget =>
    rw [searchInterface, hsuper] at h
    simp [hinterfaces, htarget] at h
  | case5 t pending fresh superclass hsuper interfaces hinterfaces htarget ih =>
    replace hfresh : fresh.Nodup := hfresh
    rw [searchInterface, hsuper] at h
    simp only [hinterfaces, if_neg htarget] at h
    refine ih h (Frontier.nodup_fresh_foldl_visit hfresh _)
      (hswept.step hsuper hinterfaces htarget hfresh) hs ?_
    rw [Frontier.mem_fresh_foldl_visit hfresh]
    exact fun hn => hfound hn.1

/-- A search that ends with success has found a path. -/
lemma implements_of_search {f : Frontier} (h : r.searchInterface m target f = .ok true)
    (hfresh : f.fresh.Nodup) : ∃ s ∈ f.pending, r.Implements m s target := by
  induction f using searchInterface.induct r m target with
  | case1 fresh =>
    rw [searchInterface] at h
    cases h
  | case2 t pending fresh e he =>
    rw [searchInterface, he] at h
    cases h
  | case3 t pending fresh superclass hsuper e he =>
    rw [searchInterface, hsuper] at h
    simp [he] at h
  | case4 t pending fresh superclass hsuper interfaces hinterfaces htarget =>
    exact ⟨t, by simp, t, ReflTransGen.refl, interfaces, hinterfaces, htarget⟩
  | case5 t pending fresh superclass hsuper interfaces hinterfaces htarget ih =>
    replace hfresh : fresh.Nodup := hfresh
    rw [searchInterface, hsuper] at h
    simp only [hinterfaces, if_neg htarget] at h
    obtain ⟨s, hs, himpl⟩ := ih h (Frontier.nodup_fresh_foldl_visit hfresh _)
    rw [Frontier.mem_pending_foldl_visit hfresh] at hs
    rcases hs with hs | ⟨hs, -⟩
    · exact ⟨s, by simp [show s ∈ pending from hs], himpl⟩
    · exact ⟨t, by simp, himpl.of_link ((link_iff_mem hsuper hinterfaces).2 hs)⟩

/-- A search that fails has met a type that reports the error. -/
lemma fails_of_search {f : Frontier} {e : Error} (h : r.searchInterface m target f = .error e)
    (hfresh : f.fresh.Nodup) :
    ∃ s ∈ f.pending, ∃ u, ReflTransGen (r.Link m) s u ∧ r.Fails m u e := by
  induction f using searchInterface.induct r m target with
  | case1 fresh =>
    rw [searchInterface] at h
    cases h
  | case2 t pending fresh e' he =>
    rw [searchInterface, he] at h
    cases h
    exact ⟨t, by simp, t, ReflTransGen.refl, Or.inl he⟩
  | case3 t pending fresh superclass hsuper e' he =>
    rw [searchInterface, hsuper] at h
    simp only [he] at h
    cases h
    exact ⟨t, by simp, t, ReflTransGen.refl, Or.inr he⟩
  | case4 t pending fresh superclass hsuper interfaces hinterfaces htarget =>
    rw [searchInterface, hsuper] at h
    simp [hinterfaces, htarget] at h
  | case5 t pending fresh superclass hsuper interfaces hinterfaces htarget ih =>
    replace hfresh : fresh.Nodup := hfresh
    rw [searchInterface, hsuper] at h
    simp only [hinterfaces, if_neg htarget] at h
    obtain ⟨s, hs, u, hsu, hu⟩ := ih h (Frontier.nodup_fresh_foldl_visit hfresh _)
    rw [Frontier.mem_pending_foldl_visit hfresh] at hs
    rcases hs with hs | ⟨hs, -⟩
    · exact ⟨s, by simp [show s ∈ pending from hs], u, hsu, hu⟩
    · exact ⟨t, by simp, u, hsu.head ((link_iff_mem hsuper hinterfaces).2 hs), hu⟩

lemma nodup_unvisited (n : Nat) (trail : List Handle) : (Trail.unvisited n trail).Nodup := by
  unfold Trail.unvisited
  refine List.Pairwise.filter _ (List.pairwise_map.2 ?_)
  refine List.nodup_range.imp ?_
  intro i j hij heq
  exact hij (congrArg Handle.index heq)

/-- The answer of the search from one type. -/
lemma reachesInterface_eq_ok_iff {b : Bool}
    (hlinks : ∀ u v, r.Issued u → r.Link m u v → r.Issued v) (hs : r.Issued s)
    (h : r.reachesInterface m s target = .ok b) : b = true ↔ r.Implements m s target := by
  have hfresh := nodup_unvisited r.size [s]
  cases b with
  | true =>
    obtain ⟨s', hs', himpl⟩ := implements_of_search h hfresh
    obtain rfl : s' = s := by simpa using hs'
    exact iff_of_true rfl himpl
  | false =>
    refine iff_of_false (by simp) (not_implements_of_search h hfresh ?_ hlinks hs ?_)
    · -- at first every issued type is fresh or pending
      intro u hu hnew hpending
      exact absurd (Trail.mem_unvisited.2 ⟨hu, hpending⟩) hnew
    · intro hmem
      exact (Trail.mem_unvisited.1 hmem).2 (by simp)

lemma reachesInterface_eq_error {e : Error} (h : r.reachesInterface m s target = .error e) :
    ∃ u, ReflTransGen (r.Link m) s u ∧ r.Fails m u e := by
  obtain ⟨s', hs', u, hu⟩ := fails_of_search h (nodup_unvisited r.size [s])
  obtain rfl : s' = s := by simpa using hs'
  exact ⟨u, hu⟩

/-- A list of interfaces is accepted when none of them leads back. -/
lemma not_implements_of_checkInterfaces {interfaces : List Handle}
    (h : r.checkInterfaces m t interfaces = .ok ())
    (hlinks : ∀ u v, r.Issued u → r.Link m u v → r.Issued v)
    (hissued : ∀ i ∈ interfaces, r.Issued i) : ∀ i ∈ interfaces, ¬ r.Implements m i t := by
  induction interfaces with
  | nil => simp
  | cons i rest ih =>
    rw [checkInterfaces] at h
    split at h
    next => cases h
    next => cases h
    next hfalse =>
      intro j hj
      rcases List.mem_cons.1 hj with rfl | hj
      · intro himpl
        exact absurd ((reachesInterface_eq_ok_iff hlinks (hissued j (by simp)) hfalse).2 himpl)
          (by simp)
      · exact ih h (fun k hk => hissued k (by simp [hk])) j hj

lemma checkInterfaces_eq_ok {interfaces : List Handle}
    (hlinks : ∀ u v, r.Issued u → r.Link m u v → r.Issued v)
    (hissued : ∀ i ∈ interfaces, r.Issued i)
    (hclean : ∀ i ∈ interfaces, ∀ u, ReflTransGen (r.Link m) i u → ∀ e, ¬ r.Fails m u e)
    (hback : ∀ i ∈ interfaces, ¬ r.Implements m i t) :
    r.checkInterfaces m t interfaces = .ok () := by
  induction interfaces with
  | nil => rfl
  | cons i rest ih =>
    rw [checkInterfaces]
    split
    next e he =>
      obtain ⟨u, hu, hfail⟩ := reachesInterface_eq_error he
      exact absurd hfail (hclean i (by simp) u hu e)
    next htrue =>
      exact absurd ((reachesInterface_eq_ok_iff hlinks (hissued i (by simp)) htrue).1 rfl)
        (hback i (by simp))
    next =>
      exact ih (fun j hj => hissued j (by simp [hj])) (fun j hj => hclean j (by simp [hj]))
        (fun j hj => hback j (by simp [hj]))

/-- The errors of the interface check. -/
lemma checkInterfaces_eq_error {interfaces : List Handle} {e : Error}
    (h : r.checkInterfaces m t interfaces = .error e) :
    (∃ u, r.Fails m u e) ∨ ∃ name span, e = .interfaceCircularity name span := by
  induction interfaces with
  | nil => cases h
  | cons i rest ih =>
    rw [checkInterfaces] at h
    split at h
    next e' he =>
      cases h
      obtain ⟨u, -, hfail⟩ := reachesInterface_eq_error he
      exact Or.inl ⟨u, hfail⟩
    next =>
      cases h
      exact Or.inr ⟨_, _, rfl⟩
    next => exact ih h

end TypeGraph.Registry
