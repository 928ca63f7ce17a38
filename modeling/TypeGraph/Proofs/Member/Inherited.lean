import Mathlib.Data.List.Basic
import Mathlib.Logic.Relation
import TypeGraph.Proofs.Member.Gathered
import TypeGraph.Proofs.Member.Signature
import TypeGraph.Proofs.Query.Coincide
import TypeGraph.Proofs.Supertype.Reachability

/-!
# Inherited methods are put together from those of the supertypes

The methods of a type can be put together from its own methods, the inherited methods of its
superclass and those of its interfaces, one after the other, where of several that agree only the
first is kept. Gathering gives the same list, in the same order: it does not ask for the inherited
methods of a supertype, but goes through everything above it and leaves out what it has met before.

Both may use lists that were remembered at different times. So this is a result about runs: it needs
that no list of declared methods was changed after it was read. Where declared methods were
forgotten and read again the lists hold new copies of the same methods, and they are compared
without their marks; where each list was read once they are the same.
-/

namespace TypeGraph

open Relation TypeGraph.Bound

/-! ## What is above a type -/

namespace Registry

variable {r r' : Registry} {m m' : Memory} {s t : Handle} {ts ts' : List Handle}

/-- The effective direct supertypes of a type, the superclass first. -/
def Above (r : Registry) (m : Memory) (t : Handle) (above : List Handle) : Prop :=
  ∃ link links, r.effectiveSuperclass m t = .ok link ∧ r.effectiveInterfaces m t = .ok links ∧
    above = link.toList ++ links

lemma Above.unique (h : r.Above m t ts) (h' : r.Above m t ts') : ts = ts' := by
  obtain ⟨link, links, hsuper, hinterfaces, rfl⟩ := h
  obtain ⟨link', links', hsuper', hinterfaces', rfl⟩ := h'
  obtain rfl := Except.ok.inj (hsuper.symm.trans hsuper')
  obtain rfl := Except.ok.inj (hinterfaces.symm.trans hinterfaces')
  rfl

lemma Above.link_iff (h : r.Above m t ts) : r.Link m t s ↔ s ∈ ts := by
  obtain ⟨link, links, hsuper, hinterfaces, rfl⟩ := h
  exact link_iff_mem hsuper hinterfaces

lemma above_of_memory (h : m.Above t ts) : r.Above m t ts := by
  obtain ⟨link, links, hsuper, hinterfaces, rfl⟩ := h
  exact ⟨link, links, effectiveSuperclass_of_some hsuper, effectiveInterfaces_of_some hinterfaces,
    rfl⟩

lemma SameLinks.above (h : r.SameLinks m m') (ht : r.Above m' t ts) : r.Above m t ts := by
  rwa [Above, h.superclass, h.interfaces] at ht

/-- The methods of a type keep their descriptors. -/
lemma Extends.methodDescriptor_eq (h : r.Extends r') {method : Method}
    (hcovers : r.Covers method.decl) : r.methodDescriptor method = r'.methodDescriptor method := by
  rw [Covers, List.forall_mem_cons] at hcovers
  have hparameters : r.descriptors method.decl.parameters =
      r'.descriptors method.decl.parameters :=
    List.map_congr_left fun u hu => (h.descriptor_eq (hcovers.2 u hu)).symm
  rw [methodDescriptor, methodDescriptor, hparameters, h.descriptor_eq hcovers.1]

lemma countP_agree {list : List Method} {a : Method}
    (hlist : list.Pairwise fun a b => r.agree a b = false) (ha : list.any (r.agree a) = true) :
    list.countP (r.agree a) = 1 := by
  induction list with
  | nil => cases ha
  | cons b list ih =>
    rw [List.pairwise_cons] at hlist
    cases hagree : r.agree a b with
    | true =>
      have hnone : list.countP (r.agree a) = 0 := by
        refine List.countP_eq_zero.2 fun c hc => ?_
        rw [agree_congr hagree, hlist.1 c hc]
        exact Bool.false_ne_true
      rw [List.countP_cons_of_pos hagree, hnone]
    | false =>
      rw [List.any_cons, hagree, Bool.false_or] at ha
      rw [List.countP_cons_of_neg (by simp [hagree]), ih hlist.2 ha]

/-- All methods above some types, if `ref` tells the methods of each one. -/
def Laid (r : Registry) (m : Memory) (ref : Handle → List Method) :
    List Handle → List Method → Prop :=
  Spread (fun u list => list = ref u) (r.Above m)

/-- The list is left when the methods that agree with earlier ones are taken out of all methods
above the type. -/
def Inherits (r : Registry) (m : Memory) (ref : Handle → List Method) (t : Handle)
    (list : List Method) : Prop :=
  ∃ full, r.Laid m ref [t] full ∧ list = full.foldl r.addMethod []

variable {ref : Handle → List Method} {full full' : List Method}

lemma Laid.unique (h : r.Laid m ref ts full) (h' : r.Laid m ref ts full') : full = full' :=
  Spread.unique h h' (fun hlist hlist' => hlist.trans hlist'.symm) Above.unique

/-- The lists of some types take the place of all that is above these. -/
lemma Laid.of_inherits {lists : List (List Method)}
    (h : List.Forall₂ (r.Inherits m ref) ts lists) :
    ∃ full, r.Laid m ref ts full ∧ ∀ collected,
      lists.flatten.foldl r.addMethod collected = full.foldl r.addMethod collected := by
  induction h with
  | nil => exact ⟨[], .nil, fun _ => rfl⟩
  | cons hhead _ ih =>
    obtain ⟨first, hfirst, rfl⟩ := hhead
    obtain ⟨others, hothers, hsame⟩ := ih
    refine ⟨first ++ others, hfirst.append hothers, fun collected => ?_⟩
    rw [List.flatten_cons, List.foldl_append, List.foldl_append, foldl_addMethod_foldl,
      List.foldl_nil, hsame]

/-- **Taking out twice is taking out once.** The methods of a type and the lists of its supertypes
come to the list of the type. -/
lemma Inherits.eq_of_parts {list : List Method} {lists : List (List Method)}
    (h : r.Inherits m ref t list) (habove : r.Above m t ts)
    (hlists : List.Forall₂ (r.Inherits m ref) ts lists) :
    list = (ref t ++ lists.flatten).eraseDupsBy r.agree := by
  obtain ⟨full, hfull, rfl⟩ := h
  obtain ⟨inherited, hinherited, hsame⟩ := Laid.of_inherits hlists
  have hparts : r.Laid m ref [t] (ref t ++ inherited ++ []) :=
    .cons rfl habove hinherited .nil
  rw [hfull.unique hparts, ← foldl_addMethod_eq_eraseDupsBy, List.append_nil, List.foldl_append,
    List.foldl_append, hsame]

/-- Every method of a type above agrees with one in the list. -/
lemma Inherits.any_agree {list : List Method} {u : Handle} {a : Method}
    (h : r.Inherits m ref t list) (hu : ReflTransGen (r.Link m) t u) (ha : a ∈ ref u) :
    list.any (r.agree a) = true := by
  obtain ⟨full, hfull, rfl⟩ := h
  obtain ⟨_, rfl, hsub⟩ := Spread.exists_own hfull (List.mem_singleton.2 rfl) hu
    fun habove hl => habove.link_iff.1 hl
  rw [any_foldl_addMethod]
  exact List.any_eq_true.2 ⟨a, hsub ha, by simp [agree]⟩

section Looks

variable {look : Method → Method} (hlook : ∀ method, (look method).decl = method.decl)
  {list : List Method}
include hlook

lemma Inherits.pairwise (h : r.Inherits m ref t (list.map look)) :
    list.Pairwise fun a b => r.agree a b = false := by
  obtain ⟨full, -, hfull⟩ := h
  have hpairwise := pairwise_foldl_addMethod (r := r) full
  rw [← hfull, List.pairwise_map] at hpairwise
  exact hpairwise.imp fun hab => (agree_map hlook r _ _).symm.trans hab

/-- Every method of a type above agrees with exactly one in the list. -/
lemma Inherits.countP_eq_one (h : r.Inherits m ref t (list.map look)) {u : Handle}
    (hu : ReflTransGen (r.Link m) t u) {a : Method} (ha : look a ∈ ref u) :
    list.countP (r.agree a) = 1 := by
  have hany := h.any_agree hu ha
  rw [List.any_map] at hany
  refine countP_agree (h.pairwise hlook) ?_
  rwa [← funext (agree_map hlook r a)]

end Looks

/-- A layout of what was remembered, looked at in a way that makes the methods of each type what
they should be. -/
lemma Laid.of_spread {own : Handle → List Method → Prop} {links : Handle → List Handle → Prop}
    (h : Spread own links ts full) (look : Method → Method)
    (hts : ∀ u ∈ ts, ReflTransGen (r.Link m) t u)
    (hown : ∀ {u list}, ReflTransGen (r.Link m) t u → own u list → list.map look = ref u)
    (hlinks : ∀ {u above}, links u above → r.Above m u above) :
    r.Laid m ref ts (full.map look) :=
  h.map look hts hown fun hu hl =>
    ⟨hlinks hl, fun _ hs => hu.tail ((hlinks hl).link_iff.2 hs)⟩

end Registry

/-! ## Questions -/

namespace Query

/-- The methods of a type, then the inherited methods of its superclass and of its interfaces. -/
def assembled (t : Handle) : Query (List Method) := do
  let own ← methods t
  let link ← superclass t
  let links ← interfaces t
  let inherited ← (link.toList ++ links).mapM allMethods
  return own ++ inherited.flatten

/-- The rule for a list of questions, with what is known about each answer. -/
lemma Triple.mapM_forall₂ {α β : Type} {r : Registry} {inv : Memory → Prop}
    {fails : Error → Memory → Prop} {f : α → Query β} {p : α → β → Prop} {l : List α}
    (hf : ∀ a ∈ l, Triple r inv (f a) (fun b m => inv m ∧ p a b) fails) :
    Triple r inv (l.mapM f) (fun bs m => inv m ∧ List.Forall₂ p l bs) fails := by
  induction l with
  | nil => exact Triple.pure [] fun m hm => ⟨hm, .nil⟩
  | cons a l ih =>
    rw [List.forall_mem_cons] at hf
    rw [List.mapM_cons]
    refine hf.1.bind fun b => Triple.given fun hb => ?_
    refine (ih hf.2).bind fun bs => Triple.given fun hbs => ?_
    exact Triple.pure _ fun m hm => ⟨hm, .cons hb hbs⟩

variable {r : Registry} {m₀ m : Memory} {t u : Handle} {look : Method → Method}
  {ref : Handle → List Method}

/-- What is remembered about methods during questions to a graph that had the memory `m₀` at first:
above the type `t`, the methods of a type look like `ref` says, and the inherited methods are made
of such methods. -/
structure Matches (r : Registry) (m₀ : Memory) (t : Handle) (look : Method → Method)
    (ref : Handle → List Method) (m : Memory) : Prop where
  during : During r m₀ m
  kept : ∀ {u list}, (m₀.about u).methods = some list → (m.about u).methods = some list
  methods : ∀ {u list}, ReflTransGen (r.Link m₀) t u → (m.about u).methods = some list →
    list.map look = ref u
  allMethods : ∀ {u list}, ReflTransGen (r.Link m₀) t u → (m.about u).allMethods = some list →
    r.Inherits m₀ ref u (list.map look)

/-- What holds of the answers during questions may be used along with any stable property. -/
lemma Stable.during_triple {α : Type} {q : Query α} {p : α → Prop} {inv : Memory → Prop}
    (hinv : Stable r inv) (hduring : ∀ m, inv m → During r m₀ m) (hfills : Fills r q)
    (h : Triple r (During r m₀) q (fun a m => During r m₀ m ∧ p a) fun _ _ => False) :
    Triple r inv q (fun a m => inv m ∧ p a) fun _ _ => False := by
  refine Triple.of_ok fun m hm => ?_
  obtain ⟨a, m', hans, -, ha⟩ := h.exists_ok (hduring m hm)
  have hafter := hinv.fills hm (hfills m)
  rw [hans] at hafter
  exact ⟨a, m', hans, hafter, ha⟩

section Matches

variable (hlook : ∀ method, (look method).decl = method.decl)
include hlook

/-- What is gathered from a memory looks as it should. -/
lemma Matches.inherits (hm : Matches r m₀ t look ref m) (hu : ReflTransGen (r.Link m₀) t u)
    {full : List Method} (hfull : m.Spread [u] full) :
    r.Inherits m₀ ref u ((full.foldl r.addMethod []).map look) := by
  refine ⟨full.map look, Registry.Laid.of_spread (t := t) hfull look (by simpa using hu)
    hm.methods fun hl => hm.during.same.above (Registry.above_of_memory hl), ?_⟩
  exact (Registry.foldl_addMethod_map hlook r full []).symm

variable (hr : r.Sound)
  (hread : ∀ {u}, ReflTransGen (r.Link m₀) t u → (m₀.about u).methods = none →
    ∀ reading, (Bound.ofList u reading (r.declaredMethods u)).map look = ref u)
include hr hread

lemma Matches.stable : Stable r (Matches r m₀ t look ref) := by
  intro m m' hm hstep
  refine ⟨During.stable hr m₀ m m' hm.during hstep,
    fun hslot => hstep.methods_eq_some (hm.kept hslot), fun {u list} hu hslot => ?_,
    fun {u list} hu hslot => ?_⟩
  · rcases hstep.methods_about u with heq | ⟨hfree, reading, hnew, -⟩
    · exact hm.methods hu (heq.symm.trans hslot)
    · obtain rfl := Option.some.inj (hnew.symm.trans hslot)
      refine hread hu ?_ reading
      -- what was remembered at first would still be
      cases hfirst : (m₀.about u).methods with
      | none => rfl
      | some list =>
        rw [hm.kept hfirst] at hfree
        cases hfree
  · rcases hstep.allMethods_about u with heq | ⟨-, list', hlist', m₁, hcollected⟩
    · exact hm.allMethods hu (heq.symm.trans hslot)
    · obtain rfl := Option.some.inj (hlist'.symm.trans hslot)
      obtain ⟨full, hfull, rfl⟩ := spread_of_collectMethods hr hcollected
      exact hm.inherits hlook hu hfull

lemma methods_matches (hissued : r.Issued u) (hu : ReflTransGen (r.Link m₀) t u) :
    Triple r (Matches r m₀ t look ref) (methods u)
      (fun own m => Matches r m₀ t look ref m ∧ own.map look = ref u) fun _ _ => False :=
  (methods_about_triple hissued (Matches.stable hlook hr hread)).conseq (fun _ h => h)
    (fun _ _ hm => ⟨hm.1, hm.1.methods hu hm.2⟩) fun _ _ h => h

variable (h₀ : m₀.Sound r)
include h₀

lemma allMethods_matches (hissued : r.Issued u) (hclear : r.Clear m₀ u)
    (hu : ReflTransGen (r.Link m₀) t u) :
    Triple r (Matches r m₀ t look ref) (allMethods u)
      (fun list m => Matches r m₀ t look ref m ∧ r.Inherits m₀ ref u (list.map look))
      fun _ _ => False := by
  refine Triple.of_ok fun m hm => ?_
  obtain ⟨list, m', hans, -⟩ := (allMethods_during hr h₀ hissued hclear).exists_ok hm.during
  have hafter := (Matches.stable hlook hr hread).fills hm (fills_allMethods hissued m)
  rw [hans] at hafter
  have hslot : (m'.about u).allMethods = some list := slot_of_once_ok (fun _ _ => rfl) hans
  exact ⟨list, m', hans, hafter, hafter.allMethods hu hslot⟩

/-- What is put together for a type comes to its inherited methods. -/
lemma assembled_matches (hissued : r.Issued t) (hclear : r.Clear m₀ t) :
    Triple r (Matches r m₀ t look ref) (assembled t)
      (fun all _ => ∀ list, r.Inherits m₀ ref t list →
        list = (all.map look).eraseDupsBy r.agree)
      fun _ _ => False := by
  have hstable := Matches.stable hlook hr hread
  have hduring : ∀ m, Matches r m₀ t look ref m → During r m₀ m := fun _ hm => hm.during
  refine (methods_matches hlook hr hread hissued .refl).bind fun own => Triple.given fun hown => ?_
  refine (hstable.during_triple hduring (fills_superclass hissued)
    (superclass_during hr hissued hclear)).bind fun link => Triple.given fun hsuper => ?_
  refine (hstable.during_triple hduring (fills_interfaces hissued)
    (interfaces_during hr hissued hclear)).bind fun links => Triple.given fun hinterfaces => ?_
  have hinherited : ∀ s ∈ link.toList ++ links, Triple r (Matches r m₀ t look ref) (allMethods s)
      (fun list m => Matches r m₀ t look ref m ∧ r.Inherits m₀ ref s (list.map look))
      fun _ _ => False := by
    intro s hs
    have hl := (Registry.link_iff_mem hsuper hinterfaces).2 hs
    exact allMethods_matches hlook hr hread h₀ (h₀.issued_of_effectiveLink hr hl)
      (hclear.of_link hl) (.single hl)
  refine (Triple.mapM_forall₂ hinherited).bind fun lists => Triple.given fun hlists => ?_
  refine Triple.pure _ fun m _ list hlist => ?_
  have hparts := hlist.eq_of_parts ⟨link, links, hsuper, hinterfaces, rfl⟩
    (List.forall₂_map_right_iff.2 hlists)
  rw [hparts, List.map_append, hown, List.map_flatten]

/-- The inherited methods of a type are those that are put together for it, with all that agree
with an earlier one taken out. -/
lemma Matches.eq_eraseDupsBy (hm : Matches r m₀ t look ref m₀) (hissued : r.Issued t)
    (hclear : r.Clear m₀ t) {list all : List Method} {m₁ m₂ : Memory}
    (hlist : (Query.allMethods t).answer r m₀ = (.ok list, m₁))
    (hall : (assembled t).answer r m₀ = (.ok all, m₂)) :
    r.Inherits m₀ ref t (list.map look) ∧
      list.map look = (all.map look).eraseDupsBy r.agree := by
  have hinherits := ((allMethods_matches hlook hr hread h₀ hissued hclear .refl).post_of_ok hm
    hlist).2
  exact ⟨hinherits, (assembled_matches hlook hr hread h₀ hissued hclear).post_of_ok hm hall _
    hinherits⟩

end Matches

end Query

/-! ## Runs -/

namespace Graph

/-- The declared methods of the type were not changed after they were first read, in the given
graphs of a run, the last one first. All types that they name exist. -/
structure SteadySinceRead (graphs : List Graph) (t : Handle) : Prop where
  unchanged : graphs.Pairwise fun later earlier => (earlier.memory.about t).methods ≠ none →
    later.registry.declaredMethods t = earlier.registry.declaredMethods t
  covered : ∀ g ∈ graphs, ∀ decl ∈ g.registry.declaredMethods t, g.registry.Covers decl

/-- The graph remembers the methods of the type, and no other list of them was read before. -/
def ReadOnce (g : Graph) (past : List Graph) (t : Handle) : Prop :=
  ∃ own, (g.memory.about t).methods = some own ∧
    ∀ g' ∈ past, ∀ list, (g'.memory.about t).methods = some list → list = own

lemma SteadySinceRead.suffix {graphs graphs' : List Graph} {t : Handle}
    (h : SteadySinceRead graphs t) (hsuffix : graphs' <:+ graphs) : SteadySinceRead graphs' t :=
  ⟨h.unchanged.sublist hsuffix.sublist, fun g hg => h.covered g (hsuffix.subset hg)⟩

end Graph

namespace Run

variable {g g' : Graph} {past : List Graph} {t u : Handle} {list : List Method}

/-- The methods that are remembered of a steady type are the declared ones. -/
lemma methods_read (h : Run (g :: past)) (hsteady : Graph.SteadySinceRead (g :: past) t)
    (hslot : (g.memory.about t).methods = some list) :
    ∃ reading, list = Bound.ofList t reading (g.registry.declaredMethods t) := by
  induction h using Run.history_induction with
  | start =>
    rw [show (({} : Graph).memory.about t) = {} from Memory.about_empty t] at hslot
    cases hslot
  | step _ _ hstep ih =>
    rcases hstep.reads hslot with hbefore | hread
    · rw [(List.pairwise_cons.1 hsteady.unchanged).1 _ List.mem_cons_self (by rw [hbefore]; simp)]
      exact ih (hsteady.suffix (List.suffix_cons _ _)) hbefore
    · exact hread

/-- At any time of the run, what was remembered of a steady type is a reading of the methods that it
declares in the end. -/
lemma methods_steady (h : Run (g :: past)) (hsteady : Graph.SteadySinceRead (g :: past) t)
    (hg : g' ∈ g :: past) (hslot : (g'.memory.about t).methods = some list) :
    g.registry.declaredMethods t = g'.registry.declaredMethods t ∧
      ∃ reading, list = Bound.ofList t reading (g'.registry.declaredMethods t) := by
  obtain ⟨past', hrun, hsuffix⟩ := h.exists_suffix hg
  refine ⟨?_, hrun.methods_read (hsteady.suffix hsuffix) hslot⟩
  rcases List.mem_cons.1 hg with rfl | hg
  · rfl
  · exact (List.pairwise_cons.1 hsteady.unchanged).1 g' hg (by rw [hslot]; simp)

/-- What the graph remembers about methods at the end of a run looks as it should, if all that was
remembered of the declared methods did. -/
lemma matches_of_forall (h : Run (g :: past)) {look : Method → Method} {ref : Handle → List Method}
    (hlook : ∀ method, (look method).decl = method.decl)
    (hsteady : ∀ u, ReflTransGen (g.registry.Link g.memory) t u →
      Graph.SteadySinceRead (g :: past) u)
    (hmethods : ∀ g' ∈ g :: past, ∀ {u list}, ReflTransGen (g.registry.Link g.memory) t u →
      (g'.memory.about u).methods = some list → list.map look = ref u) :
    Query.Matches g.registry g.memory t look ref g.memory := by
  refine ⟨Query.during_refl h.sound.memory, fun hslot => hslot, hmethods g (by simp), ?_⟩
  intro u list hu hslot
  obtain ⟨g', hg', full, hfull, rfl⟩ := h.exists_gathers hslot
  obtain ⟨hextends, hkeeps⟩ := h.lasts hg'
  have hlinks : ∀ {s above}, g'.memory.Above s above → g.registry.Above g.memory s above :=
    fun hl => Registry.above_of_memory (hkeeps.above hl)
  refine ⟨full.map look, Registry.Laid.of_spread (t := t) hfull look (by simpa using hu)
    (hmethods g' hg') hlinks, ?_⟩
  -- the methods had their descriptors when they were gathered
  have hdescriptors : ∀ a ∈ full,
      g'.registry.methodDescriptor a = g.registry.methodDescriptor a := by
    intro a ha
    obtain ⟨s, own, hs, hown, ha⟩ := Spread.exists_of_mem hfull
      (p := ReflTransGen (g.registry.Link g.memory) t) (by simpa using hu)
      (fun hs hl x hx => hs.tail ((hlinks hl).link_iff.2 hx)) ha
    obtain ⟨-, reading, rfl⟩ := h.methods_steady (hsteady s hs) hg' hown
    refine hextends.methodDescriptor_eq ((hsteady s hs).covered g' hg' a.decl ?_)
    rw [← Bound.map_decl_ofList s reading (g'.registry.declaredMethods s)]
    exact List.mem_map_of_mem ha
  rw [Registry.foldl_addMethod_congr (by simp) hdescriptors]
  exact (Registry.foldl_addMethod_map hlook _ full []).symm

end Run

namespace Graph

variable {g : Graph} {past : List Graph} {t : Handle}

/-- Where each list was read once, methods are the same with their marks. -/
lemma eq_eraseDupsBy_of_readOnce (hrun : Run (g :: past)) (ht : g.registry.Issued t)
    (hclear : g.registry.Clear g.memory t)
    (hsteady : ∀ u, ReflTransGen (g.registry.Link g.memory) t u → SteadySinceRead (g :: past) u)
    (honce : ∀ u, ReflTransGen (g.registry.Link g.memory) t u → ReadOnce g past u)
    {list all : List Method} {m₁ m₂ : Memory}
    (hlist : (Query.allMethods t).answer g.registry g.memory = (.ok list, m₁))
    (hall : (Query.assembled t).answer g.registry g.memory = (.ok all, m₂)) :
    list = all.eraseDupsBy g.registry.agree := by
  -- the list that is remembered is the only one
  have hown : ∀ g' ∈ g :: past, ∀ {u list}, ReflTransGen (g.registry.Link g.memory) t u →
      (g'.memory.about u).methods = some list →
      list.map id = (g.memory.about u).methods.getD [] := by
    intro g' hg' u list hu hslot
    obtain ⟨own, hremembered, hearlier⟩ := honce u hu
    rw [hremembered, Option.getD_some, List.map_id]
    rcases List.mem_cons.1 hg' with rfl | hg'
    · exact Option.some.inj (hslot.symm.trans hremembered)
    · exact hearlier g' hg' list hslot
  have hread : ∀ {u}, ReflTransGen (g.registry.Link g.memory) t u →
      (g.memory.about u).methods = none → ∀ reading,
      (Bound.ofList u reading (g.registry.declaredMethods u)).map id =
        (g.memory.about u).methods.getD [] := by
    intro u hu hfree
    obtain ⟨own, hremembered, -⟩ := honce u hu
    rw [hremembered] at hfree
    cases hfree
  have hlook : ∀ method : Method, (id method).decl = method.decl := fun _ => rfl
  have hmatches := hrun.matches_of_forall hlook hsteady hown
  have hsame := (hmatches.eq_eraseDupsBy hlook hrun.sound.registry hread hrun.sound.memory ht hclear
    hlist hall).2
  rwa [List.map_id, List.map_id] at hsame

/-- Without marks, every reading of a steady type is what it declares in the end. -/
lemma unmarkedAll_of_steady (hrun : Run (g :: past)) {u : Handle}
    (hsteady : SteadySinceRead (g :: past) u) {g' : Graph} (hg' : g' ∈ g :: past)
    {list : List Method} (hslot : (g'.memory.about u).methods = some list) :
    unmarkedAll list = unmarkedAll (Bound.ofList u 0 (g.registry.declaredMethods u)) := by
  obtain ⟨hsame, reading, rfl⟩ := hrun.methods_steady hsteady hg' hslot
  rw [hsame]
  exact unmarkedAll_ofList u reading 0 _

/-- **Inherited methods are put together from those of the supertypes.** Let the direct supertypes
of a type and of everything above it be answered for, let nothing above it lead back to itself, and
let no list of declared methods above it have been changed after it was read, at any time of the
run. Then the methods of the type are given. They are its own methods, followed by the inherited
methods of its superclass and of each of its interfaces, where of those that agree in name and
descriptor the first is kept. The same methods may have been read more than once, with other marks
each time; if they were not, both lists are the same with their marks. No two methods that are given
agree, and each method that some type above declares agrees with exactly one, the first. -/
theorem allMethods_eq_assembled (hrun : Run (g :: past)) (ht : g.registry.Issued t)
    (hup : g.Ascends t)
    (hsteady : ∀ u, ReflTransGen (g.registry.Link g.memory) t u →
      SteadySinceRead (g :: past) u) :
    ∃ list all, g.answer (Query.allMethods t) = .ok list ∧
      g.answer (Query.assembled t) = .ok all ∧
      unmarkedAll list = (unmarkedAll all).eraseDupsBy g.registry.agree ∧
      ((∀ u, ReflTransGen (g.registry.Link g.memory) t u → ReadOnce g past u) →
        list = all.eraseDupsBy g.registry.agree) ∧
      (list.Pairwise fun a b => g.registry.agree a b = false) ∧
      ∀ u, ReflTransGen (g.registry.Link g.memory) t u →
        ∃ own, g.answer (Query.methods u) = .ok own ∧ ∀ a ∈ own,
          list.countP (g.registry.agree a) = 1 ∧
          (unmarkedAll list).find? (g.registry.agree a) =
            (unmarkedAll all).find? (g.registry.agree a) := by
  have hr := hrun.sound.registry
  have h₀ := hrun.sound.memory
  have hclear := hup.clear
  -- compared without marks, each type has the methods that it declares now
  have hread : ∀ {u}, ReflTransGen (g.registry.Link g.memory) t u →
      (g.memory.about u).methods = none → ∀ reading,
      (Bound.ofList u reading (g.registry.declaredMethods u)).map unmarked =
        unmarkedAll (Bound.ofList u 0 (g.registry.declaredMethods u)) :=
    fun _ _ reading => unmarkedAll_ofList _ reading 0 _
  have hmatches := hrun.matches_of_forall unmarked_decl hsteady fun g' hg' _ _ hu hslot =>
    unmarkedAll_of_steady hrun (hsteady _ hu) hg' hslot
  obtain ⟨list, m₁, hlist, -⟩ :=
    (Query.allMethods_matches unmarked_decl hr hread h₀ ht hclear .refl).exists_ok hmatches
  obtain ⟨all, m₂, hall, -⟩ :=
    (Query.assembled_matches unmarked_decl hr hread h₀ ht hclear).exists_ok hmatches
  obtain ⟨hinherits, hsame⟩ :=
    hmatches.eq_eraseDupsBy unmarked_decl hr hread h₀ ht hclear hlist hall
  refine ⟨list, all, by rw [answer, hlist], by rw [answer, hall], hsame, fun honce => ?_,
    hinherits.pairwise unmarked_decl, fun u hu => ?_⟩
  · exact eq_eraseDupsBy_of_readOnce hrun ht hclear hsteady honce hlist hall
  · obtain ⟨own, m₃, hown, -, href⟩ := (Query.methods_matches unmarked_decl hr hread
      (hrun.sound.issued_of_above ht hu) hu).exists_ok hmatches
    refine ⟨own, by rw [answer, hown], fun a ha => ⟨?_, ?_⟩⟩
    · exact hinherits.countP_eq_one unmarked_decl hu (href ▸ List.mem_map_of_mem ha)
    · rw [unmarkedAll, hsame, ← Registry.foldl_addMethod_eq_eraseDupsBy,
        Registry.find?_foldl_addMethod]
      rfl

instance (graphs : List Graph) (t : Handle) : Decidable (SteadySinceRead graphs t) :=
  decidable_of_iff ((graphs.Pairwise fun later earlier =>
      (earlier.memory.about t).methods ≠ none →
        later.registry.declaredMethods t = earlier.registry.declaredMethods t) ∧
      ∀ g ∈ graphs, ∀ decl ∈ g.registry.declaredMethods t, g.registry.Covers decl)
    ⟨fun h => ⟨h.1, h.2⟩, fun h => ⟨h.1, h.2⟩⟩

/-- The interfaces `Left` and `Right` extend `Top`, and the class `Child` has both of them besides
its superclass `Base`. Several of them declare `f`. The methods of `Left` were asked for before
`Child` was defined, `Base` was given a method after that, and the methods that `Left` declares
were forgotten in the end. -/
def diamondMethods : List Action :=
  [.forgetMethods ⟨10⟩,
   .ask (.allMethods ⟨13⟩),
   .define (.draft { Draft.ofClass "Child" with
      superclass := some ⟨12⟩
      interfaces := [⟨10⟩, ⟨11⟩]
      methods := [{ name := "f", parameters := [⟨5⟩], result := ⟨0⟩ }] }),
   .edit ⟨12⟩ (.addMethod { name := "g", result := ⟨0⟩ }),
   .ask (.allMethods ⟨10⟩),
   .define (.draft (Draft.ofClass "Base")),
   .define (.draft { Draft.ofInterface "Right" with
      interfaces := [⟨9⟩]
      methods := [{ name := "g", result := ⟨0⟩ }, { name := "f", result := ⟨9⟩ }] }),
   .define (.draft { Draft.ofInterface "Left" with
      interfaces := [⟨9⟩]
      methods := [{ name := "f", parameters := [⟨5⟩], result := ⟨0⟩ }] }),
   .define (.draft { Draft.ofInterface "Top" with
      methods := [{ name := "f", result := ⟨9⟩ }] })]

/-- `Child` has `f(int)` from itself, `g()` from its superclass and `f()` from `Top`. -/
theorem allMethods_eq_assembled_diamond :
    Run (Run.after diamondMethods :: Run.past diamondMethods) ∧
    (Run.after diamondMethods).Ascends ⟨13⟩ ∧
    ∃ list all, (Run.after diamondMethods).answer (Query.allMethods ⟨13⟩) = .ok list ∧
      (Run.after diamondMethods).answer (Query.assembled ⟨13⟩) = .ok all ∧
      unmarkedAll list = (unmarkedAll all).eraseDupsBy (Run.after diamondMethods).registry.agree ∧
      list.map Bound.owner = [⟨13⟩, ⟨12⟩, ⟨9⟩] ∧
      all.map Bound.owner = [⟨13⟩, ⟨12⟩, ⟨10⟩, ⟨9⟩, ⟨11⟩, ⟨11⟩] := by
  have hrun : Run (Run.after diamondMethods :: Run.past diamondMethods) :=
    Run.of_allowed (by decide +kernel)
  have hissued : (Run.after diamondMethods).registry.Issued ⟨13⟩ := by decide +kernel
  have hclear : (Run.after diamondMethods).registry.Clear (Run.after diamondMethods).memory ⟨13⟩ :=
    .of_refersBack (by decide +kernel)
  have hup := hrun.sound.ascends hissued hclear
  have hsize : (Run.after diamondMethods).registry.size = 14 := by decide +kernel
  have hall : ∀ i < 14,
      SteadySinceRead (Run.after diamondMethods :: Run.past diamondMethods) ⟨i⟩ := by
    decide +kernel
  have hsteady : ∀ u, ReflTransGen ((Run.after diamondMethods).registry.Link
      (Run.after diamondMethods).memory) ⟨13⟩ u →
      SteadySinceRead (Run.after diamondMethods :: Run.past diamondMethods) u := by
    intro u hu
    have hlt := hrun.sound.issued_of_above hissued hu
    rw [Registry.Issued, hsize] at hlt
    exact hall u.index hlt
  obtain ⟨list, all, hlist, hassembled, hsame, -⟩ :=
    allMethods_eq_assembled hrun hissued hup hsteady
  have howners : ((Run.after diamondMethods).answer (Query.allMethods ⟨13⟩)).map
      (List.map Bound.owner) = .ok [⟨13⟩, ⟨12⟩, ⟨9⟩] := by decide +kernel
  have howners' : ((Run.after diamondMethods).answer (Query.assembled ⟨13⟩)).map
      (List.map Bound.owner) = .ok [⟨13⟩, ⟨12⟩, ⟨10⟩, ⟨9⟩, ⟨11⟩, ⟨11⟩] := by decide +kernel
  rw [hlist] at howners
  rw [hassembled] at howners'
  exact ⟨hrun, hup, list, all, hlist, hassembled, hsame, Except.ok.inj howners,
    Except.ok.inj howners'⟩

end Graph

end TypeGraph
