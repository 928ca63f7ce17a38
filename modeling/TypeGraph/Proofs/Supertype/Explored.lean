import Mathlib.Logic.Relation
import TypeGraph.Proofs.Supertype.Clear

/-!
# Types whose links were all accepted

To collect the methods of a type is to visit everything above it, and before a type is left its
links have been accepted. So when the methods were collected, the type is explored: its links are
remembered, and those of all types above it. A link that is remembered stays, so an explored type
stays explored, whatever is asked or loaded afterwards. The way up from it is clear.

Collected methods are remembered, too. They are never filled in by another question than the one
that collects them, so where some are remembered the type is explored.
-/

namespace TypeGraph

open Relation

namespace Memory

variable {r : Registry} {m m' : Memory} {t : Handle}

/-- The links of the type were accepted, and those of everything above it. -/
inductive Explored (m : Memory) : Handle → Prop
  | intro {t : Handle} {link : Option Handle} {links : List Handle}
      (hsuper : (m.about t).superclass = some link)
      (hinterfaces : (m.about t).interfaces = some links)
      (above : ∀ s ∈ link.toList ++ links, Explored m s) : Explored m t

lemma Explored.keeps (h : m.Explored t) (hkeeps : Keeps m m') : m'.Explored t := by
  induction h with
  | intro hsuper hinterfaces _ ih =>
    exact .intro (hkeeps.superclass hsuper) (hkeeps.interfaces hinterfaces) ih

lemma Explored.fills (h : m.Explored t) (hfills : ReflTransGen (Fill r) m m') : m'.Explored t :=
  h.keeps (.of_fills hfills)

lemma Explored.clear (h : m.Explored t) : r.Clear m t := by
  induction h with
  | intro hsuper hinterfaces _ ih =>
    exact .of_links (Registry.effectiveSuperclass_of_some hsuper)
      (Registry.effectiveInterfaces_of_some hinterfaces) ih

/-- Where collected methods are remembered, the type is explored. -/
def Collected (m : Memory) : Prop :=
  ∀ t list, (m.about t).allMethods = some list → m.Explored t

lemma collected_empty : empty.Collected := fun t list h => by simp at h

end Memory

namespace Query

variable {α : Type} {r : Registry} {inv : Memory → Prop} {t : Handle} {m m' : Memory}

/-! ## Collecting methods -/

lemma Stable.and_explored (h : Stable r inv) (t : Handle) :
    Stable r fun m => inv m ∧ m.Explored t :=
  h.and_keeps fun _ _ hkeeps hm => hm.keeps hkeeps

lemma collectMethods_explored (hr : r.Sound) (hinv : Stable r inv) (trail : List Handle)
    (collected : List Method) (t : Handle) :
    Triple r inv (collectMethods r.size trail collected t) (fun _ m => inv m ∧ m.Explored t)
      fun _ _ => True := by
  induction trail, collected, t using collectMethods.induct r.size generalizing inv with
  | case1 trail collected t hopen ih =>
    rw [collectMethods, dif_pos hopen]
    -- what was explored stays so while the next ones are
    have hvisit : ∀ (links : List Handle) {inv : Memory → Prop}, Stable r inv → ∀ collected,
        Triple r inv (links.foldlM (collectMethods r.size (t :: trail)) collected)
          (fun _ m => inv m ∧ ∀ s ∈ links, m.Explored s) fun _ _ => True := by
      intro links
      induction links with
      | nil => exact fun _ collected => Triple.pure collected fun m hm => ⟨hm, by simp⟩
      | cons s links ihlinks =>
        intro inv hinv collected
        rw [List.foldlM_cons]
        refine (ih collected s hinv).bind fun collected' => ?_
        refine (ihlinks (hinv.and_explored s) collected').conseq (fun _ h => h) ?_ fun _ _ h => h
        exact fun _ m hm => ⟨hm.1.1, List.forall_mem_cons.2 ⟨hm.1.2, hm.2⟩⟩
    refine Triple.read_bind ((methods_triple hopen.1 hinv).bind fun list => ?_)
    refine Triple.bind ((superclass_triple hr hopen.1 hinv).conseq (fun _ h => h) (fun _ _ h => h)
      fun _ _ _ => trivial) fun link => ?_
    have hlink := hinv.and_superclass t link
    refine (hvisit link.toList hlink _).bind fun collected => ?_
    have habove : Stable r fun m => (inv m ∧ (m.about t).superclass = some link) ∧
        ∀ s ∈ link.toList, m.Explored s :=
      hlink.and_keeps fun _ _ hkeeps hm s hs => (hm s hs).keeps hkeeps
    refine Triple.bind ((interfaces_triple hr hopen.1 habove).conseq (fun _ h => h) (fun _ _ h => h)
      fun _ _ _ => trivial) fun links => ?_
    refine (hvisit links (habove.and_interfaces t links) collected).conseq (fun _ h => h) ?_
      fun _ _ h => h
    rintro _ m ⟨⟨⟨⟨hm, hsuper⟩, hsupers⟩, hinterfaces⟩, hothers⟩
    exact ⟨hm, .intro hsuper hinterfaces (List.forall_mem_append.2 ⟨hsupers, hothers⟩)⟩
  | case2 trail collected t hclosed =>
    rw [collectMethods, dif_neg hclosed]
    exact Triple.read_bind (Triple.throw _ fun _ _ => trivial)

/-! ## Memories after questions -/

lemma Spares.collected {q : Query α} (hq : Spares Slots.allMethods r q) (hfills : Fills r q)
    (hm : m.Collected) : (q.answer r m).2.Collected := by
  intro t list hslot
  rw [hq m t] at hslot
  exact (hm t list hslot).fills (hfills m)

/-- A type whose methods are given is explored afterwards. -/
lemma explored_of_allMethods (hr : r.Sound) (hm : m.Collected) {list : List Method}
    (h : (allMethods t).answer r m = (.ok list, m')) : m'.Explored t ∧ m'.Collected := by
  rcases once_eq_ok h with ⟨hslot, rfl⟩ | ⟨-, m₁, hans, rfl⟩
  · exact ⟨hm t list hslot, hm⟩
  · have hcollects : Triple r (fun _ => True) (collectMethods r.size [] [] t)
        (fun _ m => True ∧ m.Explored t) fun _ _ => True :=
      collectMethods_explored hr (fun _ _ _ _ => trivial) [] [] t
    rw [answer_bind_ok (answer_read r m)] at hans
    have hexplored := (hcollects.post_of_ok trivial hans).2
    have hcollected : m₁.Collected := by
      have hspares : Spares Slots.allMethods r (collectMethods r.size [] [] t) :=
        apart_allMethods.walksAlong.collectMethods [] [] t
      have h := hspares.collected (fills_collectMethods [] [] t) hm
      rwa [hans] at h
    -- nothing but the methods of the type is new
    have hkeeps : m₁.Keeps (m₁.update t fun slots => { slots with allMethods := some list }) :=
      .of_sameLinks (Memory.sameLinks_update (fun _ => rfl) fun _ => rfl)
    refine ⟨hexplored.keeps hkeeps, fun u list' hslot => ?_⟩
    by_cases hu : u = t
    · exact hu ▸ hexplored.keeps hkeeps
    · rw [Memory.about_update_of_ne hu] at hslot
      exact (hcollected u list' hslot).keeps hkeeps

end Query

end TypeGraph
