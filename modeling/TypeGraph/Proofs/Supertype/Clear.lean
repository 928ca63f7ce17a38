import Mathlib.Logic.Relation
import TypeGraph.Proofs.Supertype.WellFormed

/-!
# Types with a clear way up

The way up from a type is clear when neither the type nor anything above it reports an error in
place of its links, and nothing of this leads back to itself. For such a type the questions about
supertypes are answered, whatever the rest of the graph is like, and the answers are read off the
links: the superclass and the interfaces are the effective ones, climbing finds what is above on the
superclass chain, and the search for an interface finds what is reached by a path that ends in an
interface link. Collecting methods does not fail either.
-/

namespace TypeGraph

open Relation

namespace Registry

variable {r : Registry} {m m' : Memory} {s t : Handle}

/-- Nothing above the type reports an error, and nothing above it leads back to itself. The type
counts as above itself. -/
structure Clear (r : Registry) (m : Memory) (t : Handle) : Prop where
  clean : ∀ {u}, ReflTransGen (r.Link m) t u → ∀ e, ¬ r.Fails m u e
  acyclic : ∀ {u}, ReflTransGen (r.Link m) t u → ¬ TransGen (r.Link m) u u

namespace Clear

lemma of_link (h : r.Clear m t) (hl : r.Link m t s) : r.Clear m s :=
  ⟨fun hu => h.clean (.head hl hu), fun hu => h.acyclic (.head hl hu)⟩

/-- It is enough to look at the direct supertypes: a circle through the type would be above one of
them. -/
lemma of_above (hclean : ∀ e, ¬ r.Fails m t e) (habove : ∀ s, r.Link m t s → r.Clear m s) :
    r.Clear m t := by
  have hself : ¬ TransGen (r.Link m) t t := by
    intro hcycle
    obtain ⟨s, hl, hst⟩ := TransGen.head'_iff.1 hcycle
    exact (habove s hl).acyclic hst hcycle
  constructor
  · intro u hu
    rcases ReflTransGen.cases_head hu with rfl | ⟨s, hl, hsu⟩
    · exact hclean
    · exact (habove s hl).clean hsu
  · intro u hu
    rcases ReflTransGen.cases_head hu with rfl | ⟨s, hl, hsu⟩
    · exact hself
    · exact (habove s hl).acyclic hsu

/-- A type whose links are known is clear when all types that they lead to are. -/
lemma of_links {link : Option Handle} {links : List Handle}
    (hsuper : r.effectiveSuperclass m t = .ok link)
    (hinterfaces : r.effectiveInterfaces m t = .ok links)
    (habove : ∀ s ∈ link.toList ++ links, r.Clear m s) : r.Clear m t := by
  refine of_above (fun e he => ?_) fun s hl => habove s ((link_iff_mem hsuper hinterfaces).1 hl)
  rw [Fails, hsuper, hinterfaces] at he
  rcases he with he | he <;> cases he

end Clear

lemma Alone.clear (h : r.Alone m t) : r.Clear m t := .of_links h.1 h.2 (by simp)

namespace SameLinks

lemma link (h : r.SameLinks m m') : r.Link m' = r.Link m := by
  funext s t
  rw [Link, h.superLink, h.interfaceLink, Link]

lemma clear (h : r.SameLinks m m') (hclear : r.Clear m t) : r.Clear m' t := by
  constructor
  · intro u hu e
    rw [Fails, h.superclass, h.interfaces]
    exact hclear.clean (h.link ▸ hu) e
  · intro u hu
    rw [h.link] at hu ⊢
    exact hclear.acyclic hu

lemma symm (h : r.SameLinks m m') : r.SameLinks m' m := ⟨h.superclass.symm, h.interfaces.symm⟩

end SameLinks

end Registry

namespace Query

variable {r : Registry} {m₀ m : Memory} {s t target : Handle} {trail : List Handle}

/-- The memory during questions to a graph that had the memory `m₀` at first. -/
structure During (r : Registry) (m₀ m : Memory) : Prop where
  sound : m.Sound r
  same : r.SameLinks m₀ m

lemma during_refl (h₀ : m₀.Sound r) : During r m₀ m₀ := ⟨h₀, rfl, rfl⟩

lemma During.stable (hr : r.Sound) (m₀ : Memory) : Stable r (During r m₀) :=
  fun _ _ hm hstep => ⟨hm.sound.fill hr hstep, hm.same.fill hstep⟩

/-! ## Direct supertypes -/

section Direct

variable (hr : r.Sound) (ht : r.Issued t)
include hr

/-- The check of a superclass succeeds. -/
lemma checkChain_of_clear (hm : m.Sound r) (hclear : r.Clear m t) (hl : r.SuperLink m t s) :
    r.checkChain m [t] s = .ok () := by
  have hlinks : ∀ {u v}, ReflTransGen (r.SuperLink m) u v → ReflTransGen (r.Link m) u v :=
    fun huv => ReflTransGen.mono (fun _ _ => Or.inl) _ _ huv
  have habove : ∀ {u}, ReflTransGen (r.SuperLink m) s u → ReflTransGen (r.Link m) t u :=
    fun hu => .head (Or.inl hl) (hlinks hu)
  refine Registry.checkChain_eq_ok ?_
    (fun u hu e he => hclear.clean (habove hu) e (Or.inl he)) ?_ ?_
  · intro u hu
    rcases ReflTransGen.cases_tail hu with rfl | ⟨v, -, hv⟩
    · exact hm.issued_of_effectiveLink hr (Or.inl hl)
    · exact hm.issued_of_effectiveLink hr (Or.inl hv)
  · exact fun u hu hcycle =>
      hclear.acyclic (habove hu) (TransGen.mono (fun _ _ => Or.inl) _ _ hcycle)
  · intro u hu hmem
    -- the chain above the superclass would come back to the type
    obtain rfl : u = t := by simpa using hmem
    exact hclear.acyclic .refl (TransGen.head' (Or.inl hl) (hlinks hu))

/-- The check of a list of interfaces succeeds. -/
lemma checkInterfaces_of_clear (hm : m.Sound r) (hclear : r.Clear m t) {links : List Handle}
    (hlinks : r.effectiveInterfaces m t = .ok links) : r.checkInterfaces m t links = .ok () := by
  have hlink : ∀ i ∈ links, r.Link m t i := fun i hi => Or.inr ⟨links, hlinks, hi⟩
  refine Registry.checkInterfaces_eq_ok (fun u v _ => hm.issued_of_effectiveLink hr)
    (fun i hi => hm.issued_of_effectiveLink hr (hlink i hi))
    (fun i hi u hu e => hclear.clean (.head (hlink i hi) hu) e) ?_
  rintro i hi ⟨u, hiu, hut⟩
  exact hclear.acyclic .refl (TransGen.head' (hlink i hi) (hiu.tail (Or.inr hut)))

include ht

lemma superclass_during (hclear : r.Clear m₀ t) :
    Triple r (During r m₀) (superclass t)
      (fun link m => During r m₀ m ∧ r.effectiveSuperclass m₀ t = .ok link)
      fun _ _ => False := by
  refine Triple.of_ok fun m hm => ?_
  have hafter := (During.stable hr m₀).fills hm (fills_superclass ht m)
  replace hclear := hm.same.clear hclear
  rw [← hm.same.superclass]
  cases hslot : (m.about t).superclass with
  | some link =>
    exact ⟨link, m, answer_superclass_some hslot, hm, Registry.effectiveSuperclass_of_some hslot⟩
  | none =>
    have heffective := Registry.effectiveSuperclass_of_none (r := r) hslot
    rw [answer_superclass_none hslot] at hafter ⊢
    rcases hdecl : r.declaredSuperclass t with e | link
    · exact absurd (Or.inl (heffective.trans hdecl)) (hclear.clean .refl e)
    · have hcheck : link.elim (.ok ()) (r.checkChain m [t]) = .ok () := by
        cases link with
        | none => rfl
        | some s => exact checkChain_of_clear hr hm.sound hclear (heffective.trans hdecl)
      simp only [hdecl, hcheck] at hafter ⊢
      exact ⟨link, _, rfl, hafter, heffective.trans hdecl⟩

lemma interfaces_during (hclear : r.Clear m₀ t) :
    Triple r (During r m₀) (interfaces t)
      (fun links m => During r m₀ m ∧ r.effectiveInterfaces m₀ t = .ok links)
      fun _ _ => False := by
  refine Triple.of_ok fun m hm => ?_
  have hafter := (During.stable hr m₀).fills hm (fills_interfaces ht m)
  replace hclear := hm.same.clear hclear
  rw [← hm.same.interfaces]
  cases hslot : (m.about t).interfaces with
  | some links =>
    exact ⟨links, m, answer_interfaces_some hslot, hm,
      Registry.effectiveInterfaces_of_some hslot⟩
  | none =>
    have heffective := Registry.effectiveInterfaces_of_none (r := r) hslot
    rw [answer_interfaces_none hslot] at hafter ⊢
    rcases hdecl : r.declaredInterfaces t with e | links
    · exact absurd (Or.inr (heffective.trans hdecl)) (hclear.clean .refl e)
    · have hcheck := checkInterfaces_of_clear hr hm.sound hclear (heffective.trans hdecl)
      simp only [hdecl, hcheck] at hafter ⊢
      exact ⟨links, _, rfl, hafter, heffective.trans hdecl⟩

end Direct

/-! ## Walks -/

/-- On a clear way up the next type was not passed before. -/
lemma open_of_clear (ht : r.Issued t) (hclear : r.Clear m₀ t)
    (htrail : ∀ x ∈ trail, TransGen (r.Link m₀) x t) : Trail.Open r.size trail t :=
  ⟨ht, fun hmem => hclear.acyclic .refl (htrail t hmem)⟩

section Walks

variable (hr : r.Sound) (h₀ : m₀.Sound r)
include hr h₀

lemma climbs_during (ht : r.Issued t) (hclear : r.Clear m₀ t)
    (htrail : ∀ x ∈ trail, TransGen (r.Link m₀) x t) :
    Triple r (During r m₀) (climbs r.size target trail t)
      (fun b m => During r m₀ m ∧ (b = true ↔ TransGen (r.SuperLink m₀) t target))
      fun _ _ => False := by
  induction trail, t using climbs.induct r.size with
  | case1 trail t hopen ih =>
    rw [climbs, dif_pos hopen]
    refine (superclass_during hr ht hclear).bind fun link => Triple.given fun hlink => ?_
    cases link with
    | none =>
      refine Triple.pure false fun m hm => ⟨hm, by simp, fun htarget => ?_⟩
      obtain ⟨s, hs, -⟩ := TransGen.head'_iff.1 htarget
      rw [Registry.SuperLink, hlink] at hs
      cases hs
    | some s =>
      dsimp only
      by_cases heq : s = target
      · rw [if_pos heq]
        exact Triple.pure true fun m hm => ⟨hm, by simpa using TransGen.single (heq ▸ hlink)⟩
      · rw [if_neg heq]
        have hl : r.Link m₀ t s := Or.inl hlink
        refine (ih s (h₀.issued_of_effectiveLink hr hl) (hclear.of_link hl)
          (Trail.leads_cons hl htrail)).conseq (fun _ h => h)
          (fun b m hm => ⟨hm.1, hm.2.trans ⟨TransGen.head hlink, fun htarget => ?_⟩⟩)
          (fun _ _ h => h)
        -- the chain has one first link, and it does not lead to the target yet
        obtain ⟨s', hs', hrest⟩ := TransGen.head'_iff.1 htarget
        obtain rfl : s' = s := hs'.unique hlink
        exact (reflTransGen_iff_eq_or_transGen.1 hrest).resolve_left fun h => heq h.symm
  | case2 trail t hclosed => exact absurd (open_of_clear ht hclear htrail) hclosed

lemma reaches_during (ht : r.Issued t) (hclear : r.Clear m₀ t)
    (htrail : ∀ x ∈ trail, TransGen (r.Link m₀) x t) :
    Triple r (During r m₀) (reaches r.size target trail t)
      (fun b m => During r m₀ m ∧ (b = true ↔ r.Implements m₀ t target))
      fun _ _ => False := by
  induction trail, t using reaches.induct r.size target with
  | case1 trail t hopen ih =>
    rw [reaches, dif_pos hopen]
    -- what is above the type is reached in the same way
    have hnext : ∀ {s}, r.Link m₀ t s →
        Triple r (During r m₀) (reaches r.size target (t :: trail) s)
          (fun b m => During r m₀ m ∧ (b = true ↔ r.Implements m₀ s target)) fun _ _ => False :=
      fun hl => ih _ (h₀.issued_of_effectiveLink hr hl) (hclear.of_link hl)
        (Trail.leads_cons hl htrail)
    refine (interfaces_during hr ht hclear).bind fun links => Triple.given fun hlinks => ?_
    have hany : Triple r (During r m₀)
        (links.anyM fun i =>
          if i = target then pure true else reaches r.size target (t :: trail) i)
        (fun b m => During r m₀ m ∧
          (b = true ↔ ∃ i ∈ links, i = target ∨ r.Implements m₀ i target)) fun _ _ => False := by
      refine (Triple.anyM (p := fun i b => b = true ↔ i = target ∨ r.Implements m₀ i target)
        fun i hi => ?_).conseq (fun _ h => h) ?_ (fun _ _ h => h)
      · split
        next heq => exact Triple.pure true fun m hm => ⟨hm, by simp [heq]⟩
        next hne =>
          exact (hnext (Or.inr ⟨links, hlinks, hi⟩)).conseq (fun _ h => h)
            (fun b m hm => ⟨hm.1, by simpa [hne] using hm.2⟩) (fun _ _ h => h)
      · rintro b m ⟨hm, hb⟩
        refine ⟨hm, ?_⟩
        cases b with
        | true => simpa using hb
        | false => simpa using hb
    refine hany.bind fun direct => Triple.given fun hdirect => ?_
    cases direct with
    | true =>
      obtain ⟨i, hi, hreaches⟩ := hdirect.1 rfl
      have hl : r.InterfaceLink m₀ t i := ⟨links, hlinks, hi⟩
      have himpl : r.Implements m₀ t target := by
        rcases hreaches with rfl | himpl
        · exact Registry.implements_iff.2 (Or.inl hl)
        · exact himpl.of_link (Or.inr hl)
      exact Triple.pure true fun m hm => ⟨hm, by simpa using himpl⟩
    | false =>
      have hnone : ¬ ∃ i ∈ links, i = target ∨ r.Implements m₀ i target :=
        fun hex => by simpa using hdirect.2 hex
      refine (superclass_during hr ht hclear).bind fun link => Triple.given fun hlink => ?_
      -- what is implemented is not found among the interfaces, so it comes from the superclass
      have habove := Registry.implements_iff_superclass hlinks hnone
      cases link with
      | none =>
        refine Triple.pure false fun m hm => ⟨hm, by simp, fun himpl => ?_⟩
        obtain ⟨s, hl, -⟩ := habove.1 himpl
        rw [Registry.SuperLink, hlink] at hl
        cases hl
      | some s =>
        refine (hnext (Or.inl hlink)).conseq (fun _ h => h)
          (fun b m hm => ⟨hm.1, hm.2.trans (Iff.trans ⟨fun hs => ⟨s, hlink, hs⟩, ?_⟩ habove.symm)⟩)
          (fun _ _ h => h)
        rintro ⟨s', hl', hs'⟩
        exact Registry.SuperLink.unique hl' hlink ▸ hs'
  | case2 trail t hclosed => exact absurd (open_of_clear ht hclear htrail) hclosed

lemma collectMethods_during (collected : List Method) (ht : r.Issued t) (hclear : r.Clear m₀ t)
    (htrail : ∀ x ∈ trail, TransGen (r.Link m₀) x t) :
    Triple r (During r m₀) (collectMethods r.size trail collected t)
      (fun _ => During r m₀) fun _ _ => False := by
  induction trail, collected, t using collectMethods.induct r.size with
  | case1 trail collected t hopen ih =>
    rw [collectMethods, dif_pos hopen]
    refine Triple.read_bind ((methods_triple ht (During.stable hr m₀)).bind fun list => ?_)
    have hvisit : ∀ links : List Handle, (∀ s ∈ links, r.Link m₀ t s) → ∀ collected,
        Triple r (During r m₀) (links.foldlM (collectMethods r.size (t :: trail)) collected)
          (fun _ => During r m₀) fun _ _ => False := by
      intro links hlinks collected
      refine Triple.foldlM (I := fun _ => During r m₀) (fun collected s hs => ?_) collected
      have hl := hlinks s hs
      exact ih collected s (h₀.issued_of_effectiveLink hr hl) (hclear.of_link hl)
        (Trail.leads_cons hl htrail)
    refine (superclass_during hr ht hclear).bind fun link => Triple.given fun hlink => ?_
    refine (hvisit link.toList (fun s hs => Or.inl ?_) _).bind fun collected => ?_
    · rw [Registry.SuperLink, hlink, Option.mem_toList.1 hs]
    · refine (interfaces_during hr ht hclear).bind fun links => Triple.given fun hlinks => ?_
      exact hvisit links (fun s hs => Or.inr ⟨links, hlinks, hs⟩) collected
  | case2 trail collected t hclosed => exact absurd (open_of_clear ht hclear htrail) hclosed

lemma allMethods_during (ht : r.Issued t) (hclear : r.Clear m₀ t) :
    Triple r (During r m₀) (allMethods t) (fun _ => During r m₀) fun _ _ => False := by
  refine Triple.of_ok fun m hm => ?_
  have hafter := (During.stable hr m₀).fills hm (fills_allMethods ht m)
  cases hslot : (m.about t).allMethods with
  | some list => exact ⟨list, m, answer_once_some hslot, hm⟩
  | none =>
    have hcollects : Triple r (During r m₀) (collectMethods r.size [] [] t)
        (fun _ => During r m₀) fun _ _ => False :=
      collectMethods_during hr h₀ [] ht hclear (by simp)
    obtain ⟨list, m', hcollect, -⟩ := hcollects.exists_ok hm
    rw [allMethods, answer_once_none hslot, answer_bind_ok (answer_read r m), hcollect] at hafter ⊢
    exact ⟨list, _, rfl, hafter⟩

end Walks

end Query

end TypeGraph
