import Mathlib.Logic.Relation
import TypeGraph.Proofs.Run
import TypeGraph.Proofs.Supertype.Walk

/-!
# How methods are gathered

Gathering goes through what is above a type, one supertype after the other, and adds the methods of
each to those that it has, where no earlier one agrees. What it comes to can be laid out beforehand:
the methods of the type, then all that is above its superclass, then all that is above each
interface. A type that is reached in two ways stands there twice. Adding the methods of this list
one by one gives what gathering gives, so lists that were gathered before can take the place of what
they were gathered from.

The answer is remembered. After a run, every list of inherited methods that a graph remembers was
laid out in this way from what was remembered at some time before.
-/

namespace TypeGraph

open Relation

/-! ## Adding methods -/

namespace Registry

variable {r r' : Registry} {a b method : Method} {methods list collected : List Method}

lemma agree_eq_true_iff : r.agree a b = true ↔
    a.decl.name = b.decl.name ∧ r.methodDescriptor a = r.methodDescriptor b := by
  simp [agree]

lemma agree_comm (a b : Method) : r.agree a b = r.agree b a := by
  simp [agree, eq_comm]

/-- Methods that agree agree with the same methods. -/
lemma agree_congr (h : r.agree a b = true) (c : Method) : r.agree a c = r.agree b c := by
  obtain ⟨hname, hdescriptor⟩ := agree_eq_true_iff.1 h
  simp [agree, hname, hdescriptor]

lemma addMethod_of_any (h : methods.any (r.agree method) = true) :
    r.addMethod methods method = methods := if_pos h

lemma addMethod_of_not_any (h : methods.any (r.agree method) = false) :
    r.addMethod methods method = methods ++ [method] := if_neg (by simp [h])

lemma any_addMethod (a : Method) :
    (r.addMethod methods method).any (r.agree a) =
      (methods ++ [method]).any (r.agree a) := by
  cases hany : methods.any (r.agree method) with
  | false => rw [addMethod_of_not_any hany]
  | true =>
    rw [addMethod_of_any hany, List.any_append]
    cases hagree : r.agree a method with
    | false => simp [hagree]
    | true => simp [funext (agree_congr hagree), hany]

lemma any_foldl_addMethod (a : Method) :
    (list.foldl r.addMethod collected).any (r.agree a) = (collected ++ list).any (r.agree a) := by
  induction list generalizing collected with
  | nil => simp
  | cons method list ih =>
    rw [List.foldl_cons, ih, List.any_append, any_addMethod, ← List.any_append]
    simp

/-- Methods may be added to others before these are added to a list. -/
lemma foldl_addMethod_foldl (methods : List Method) :
    (list.foldl r.addMethod collected).foldl r.addMethod methods =
      list.foldl r.addMethod (collected.foldl r.addMethod methods) := by
  induction list generalizing collected with
  | nil => rfl
  | cons method list ih =>
    rw [List.foldl_cons, ih, List.foldl_cons]
    congr 1
    cases hany : collected.any (r.agree method) with
    | false => rw [addMethod_of_not_any hany, List.foldl_append, List.foldl_cons, List.foldl_nil]
    | true =>
      rw [addMethod_of_any hany, addMethod_of_any]
      rw [any_foldl_addMethod, List.any_append, hany, Bool.or_true]

/-- Adding the methods of a list one by one keeps the first of those that agree. -/
lemma foldl_addMethod_eq_eraseDupsBy (list : List Method) :
    list.foldl r.addMethod [] = list.eraseDupsBy r.agree := by
  have hloop : ∀ (list collected : List Method),
      list.foldl r.addMethod collected = List.eraseDupsBy.loop r.agree list collected.reverse := by
    intro list
    induction list with
    | nil => simp [List.eraseDupsBy.loop]
    | cons method list ih =>
      intro collected
      rw [List.foldl_cons, ih, List.eraseDupsBy.loop, List.any_reverse]
      cases hany : collected.any (r.agree method) with
      | false => rw [addMethod_of_not_any hany, List.reverse_append]; rfl
      | true => rw [addMethod_of_any hany]
  exact hloop list []

lemma pairwise_addMethod (h : methods.Pairwise fun a b => r.agree a b = false) :
    (r.addMethod methods method).Pairwise fun a b => r.agree a b = false := by
  cases hany : methods.any (r.agree method) with
  | true => rwa [addMethod_of_any hany]
  | false =>
    rw [addMethod_of_not_any hany]
    refine List.pairwise_append.2 ⟨h, List.pairwise_singleton _ _, fun a ha b hb => ?_⟩
    rw [List.mem_singleton.1 hb, agree_comm]
    simpa using List.any_eq_false.1 hany a ha

lemma pairwise_foldl_addMethod (list : List Method) :
    (list.foldl r.addMethod []).Pairwise fun a b => r.agree a b = false :=
  List.foldlRecOn list r.addMethod List.Pairwise.nil fun _ h _ _ => pairwise_addMethod h

lemma find?_addMethod (a : Method) :
    (r.addMethod methods method ++ list).find? (r.agree a) =
      (methods ++ method :: list).find? (r.agree a) := by
  cases hany : methods.any (r.agree method) with
  | false => simp [addMethod_of_not_any hany]
  | true =>
    rw [addMethod_of_any hany, List.find?_append, List.find?_append]
    cases hagree : r.agree a method with
    | false => rw [List.find?_cons_of_neg (by simp [hagree])]
    | true =>
      -- one of the earlier methods is found in any case
      rw [funext (agree_congr hagree)]
      obtain ⟨found, hfound⟩ := Option.isSome_iff_exists.1 (List.isSome_find?.trans hany)
      rw [hfound, Option.some_or, Option.some_or]

/-- What is found among the methods that are left is what is found first among all. -/
lemma find?_foldl_addMethod (a : Method) :
    (list.foldl r.addMethod collected).find? (r.agree a) =
      (collected ++ list).find? (r.agree a) := by
  induction list generalizing collected with
  | nil => simp
  | cons method list ih => rw [List.foldl_cons, ih, find?_addMethod]

/-- Two registries with the same descriptors for the methods of a list add them alike. -/
lemma foldl_addMethod_congr
    (hcollected : ∀ a ∈ collected, r.methodDescriptor a = r'.methodDescriptor a)
    (hlist : ∀ a ∈ list, r.methodDescriptor a = r'.methodDescriptor a) :
    list.foldl r.addMethod collected = list.foldl r'.addMethod collected := by
  induction list generalizing collected with
  | nil => rfl
  | cons method list ih =>
    rw [List.forall_mem_cons] at hlist
    have hany : collected.any (r.agree method) = collected.any (r'.agree method) := by
      rw [Bool.eq_iff_iff, List.any_eq_true, List.any_eq_true]
      refine exists_congr fun a => and_congr_right fun ha => ?_
      rw [agree_eq_true_iff, agree_eq_true_iff, hlist.1, hcollected a ha]
    have hadd : r.addMethod collected method = r'.addMethod collected method := by
      rw [addMethod, addMethod, hany]
    rw [List.foldl_cons, List.foldl_cons, ← hadd]
    refine ih (fun a ha => ?_) hlist.2
    unfold addMethod at ha
    split at ha
    · exact hcollected a ha
    · rcases List.mem_append.1 ha with ha | ha
      · exact hcollected a ha
      · exact List.mem_singleton.1 ha ▸ hlist.1

end Registry

/-! ## Laying out the methods above a type -/

/-- The methods of some types and of all that is above them: those of the first type, then those
above it, then those of the other types. `own` tells the methods of a type and `links` its direct
supertypes. -/
inductive Spread (own : Handle → List Method → Prop) (links : Handle → List Handle → Prop) :
    List Handle → List Method → Prop
  | nil : Spread own links [] []
  | cons {t : Handle} {ts above : List Handle} {list inherited others : List Method}
      (hown : own t list) (hlinks : links t above) (habove : Spread own links above inherited)
      (hrest : Spread own links ts others) :
      Spread own links (t :: ts) (list ++ inherited ++ others)

namespace Spread

variable {own own' : Handle → List Method → Prop} {links links' : Handle → List Handle → Prop}
  {t u : Handle} {ts us : List Handle} {full full' : List Method}

lemma append (h : Spread own links ts full) (h' : Spread own links us full') :
    Spread own links (ts ++ us) (full ++ full') := by
  induction h with
  | nil => exact h'
  | cons hown hlinks habove _ _ ih =>
    rw [List.append_assoc]
    exact .cons hown hlinks habove ih

/-- Every method may be looked at in another way, for types with a property that supertypes have
too. -/
lemma map (h : Spread own links ts full) (look : Method → Method) {p : Handle → Prop}
    (hts : ∀ t ∈ ts, p t) (hown : ∀ {t list}, p t → own t list → own' t (list.map look))
    (hlinks : ∀ {t above}, p t → links t above → links' t above ∧ ∀ s ∈ above, p s) :
    Spread own' links' ts (full.map look) := by
  induction h with
  | nil => exact .nil
  | cons hlist hl _ _ ihabove ihrest =>
    rw [List.forall_mem_cons] at hts
    obtain ⟨hl', hp⟩ := hlinks hts.1 hl
    rw [List.map_append, List.map_append]
    exact .cons (hown hts.1 hlist) hl' (ihabove hp) (ihrest hts.2)

/-- The list is determined if methods and supertypes are. -/
lemma unique (h : Spread own links ts full) (h' : Spread own links ts full')
    (hown : ∀ {t list list'}, own t list → own t list' → list = list')
    (hlinks : ∀ {t above above'}, links t above → links t above' → above = above') :
    full = full' := by
  induction h generalizing full' with
  | nil =>
    cases h'
    rfl
  | cons hlist hl _ _ ihabove ihrest =>
    cases h' with
    | cons hlist' hl' habove' hrest' =>
      obtain rfl := hlinks hl hl'
      rw [hown hlist hlist', ihabove habove', ihrest hrest']

/-- The methods of every type above are in the list. -/
lemma exists_own (h : Spread own links ts full) (ht : t ∈ ts) {link : Handle → Handle → Prop}
    (hpath : ReflTransGen link t u)
    (hlink : ∀ {s x above}, links s above → link s x → x ∈ above) :
    ∃ list, own u list ∧ list ⊆ full := by
  -- what is laid out for the first type of the path is a part of the list
  have hpart : ∀ {ts full t}, Spread own links ts full → t ∈ ts → ∃ list above inherited,
      own t list ∧ links t above ∧ Spread own links above inherited ∧
        list ++ inherited ⊆ full := by
    intro ts full t h ht
    induction h with
    | nil => cases ht
    | cons hown hl habove _ _ ih =>
      rcases List.mem_cons.1 ht with rfl | ht
      · exact ⟨_, _, _, hown, hl, habove, List.subset_append_left _ _⟩
      · obtain ⟨list, above, inherited, hown, hl, habove, hsub⟩ := ih ht
        exact ⟨list, above, inherited, hown, hl, habove,
          fun a ha => List.mem_append_right _ (hsub ha)⟩
  induction hpath using ReflTransGen.head_induction_on generalizing ts full with
  | refl =>
    obtain ⟨list, _, _, hown, -, -, hsub⟩ := hpart h ht
    exact ⟨list, hown, fun a ha => hsub (List.mem_append_left _ ha)⟩
  | head hl _ ih =>
    obtain ⟨_, _, inherited, -, hlinks, habove, hsub⟩ := hpart h ht
    obtain ⟨list, hown, hsub'⟩ := ih habove (hlink hlinks hl)
    exact ⟨list, hown, fun a ha => hsub (List.mem_append_right _ (hsub' ha))⟩

/-- Every method of the list is one of a type above. -/
lemma exists_of_mem (h : Spread own links ts full) {p : Handle → Prop} (hts : ∀ t ∈ ts, p t)
    (hlinks : ∀ {t above}, p t → links t above → ∀ s ∈ above, p s) {a : Method} (ha : a ∈ full) :
    ∃ t list, p t ∧ own t list ∧ a ∈ list := by
  induction h with
  | nil => cases ha
  | cons hlist hl _ _ ihabove ihrest =>
    rw [List.forall_mem_cons] at hts
    rcases List.mem_append.1 ha with ha | ha
    · rcases List.mem_append.1 ha with ha | ha
      · exact ⟨_, _, hts.1, hlist, ha⟩
      · exact ihabove (hlinks hts.1 hl) ha
    · exact ihrest hts.2 ha

end Spread

namespace Memory

variable {m m' : Memory} {r : Registry} {t : Handle} {ts : List Handle} {full : List Method}

/-- The direct supertypes that were accepted, the superclass first. -/
def Above (m : Memory) (t : Handle) (above : List Handle) : Prop :=
  ∃ link links, (m.about t).superclass = some link ∧ (m.about t).interfaces = some links ∧
    above = link.toList ++ links

/-- What is remembered of some types and of all that is above them, laid out. -/
def Spread (m : Memory) : List Handle → List Method → Prop :=
  TypeGraph.Spread (fun t list => (m.about t).methods = some list) m.Above

lemma Keeps.above (h : Keeps m m') {above : List Handle} (ht : m.Above t above) :
    m'.Above t above := by
  obtain ⟨link, links, hsuper, hinterfaces, rfl⟩ := ht
  exact ⟨link, links, h.superclass hsuper, h.interfaces hinterfaces, rfl⟩

/-- Forgetting leaves inherited methods alone, and it makes no declared methods up. -/
lemma about_of_forgets (h : ∃ t, m' = m.forgetMethods t ∨ m' = m.forgetFields t) (s : Handle) :
    (m'.about s).allMethods = (m.about s).allMethods ∧
      ((m'.about s).methods = (m.about s).methods ∨ (m'.about s).methods = none) := by
  obtain ⟨t, rfl | rfl⟩ := h
  · refine ⟨about_update_eq Slots.allMethods ?_ s, ?_⟩
    · exact fun _ => rfl
    · by_cases hs : s = t
      · exact Or.inr (by rw [hs, forgetMethods, about_update_self])
      · exact Or.inl (by rw [forgetMethods, about_update_of_ne hs])
  · refine ⟨about_update_eq Slots.allMethods ?_ s, Or.inl (about_update_eq Slots.methods ?_ s)⟩
    · exact fun _ => rfl
    · exact fun _ => rfl

end Memory

open Memory in
/-- A step leaves the declared methods that are remembered of a type as they are, or it reads them
for the first time. -/
lemma Fill.methods_about {r : Registry} {m m' : Memory} (h : Fill r m m') (t : Handle) :
    (m'.about t).methods = (m.about t).methods ∨ (m.about t).methods = none ∧
      ∃ reading, (m'.about t).methods = some (Bound.ofList t reading (r.declaredMethods t)) ∧
        r.Reading t reading := by
  cases h with
  | @methods s reading ht hfree hreading =>
    by_cases hs : t = s
    · subst hs
      exact Or.inr ⟨hfree, reading, by rw [about_update_self], hreading⟩
    · rw [about_update_of_ne hs]
      exact Or.inl rfl
  | reading => exact Or.inl rfl
  | _ =>
    refine Or.inl (about_update_eq Slots.methods ?_ t)
    exact fun _ => rfl

open Memory in
/-- A step leaves the inherited methods that are remembered of a type as they are, or it has just
gathered them. -/
lemma Fill.allMethods_about {r : Registry} {m m' : Memory} (h : Fill r m m') (t : Handle) :
    (m'.about t).allMethods = (m.about t).allMethods ∨ (m.about t).allMethods = none ∧
      ∃ list, (m'.about t).allMethods = some list ∧
        ∃ m₀, (Query.collectMethods r.size [] [] t).answer r m₀ = (.ok list, m) := by
  cases h with
  | @allMethods s list ht hcollected hfree =>
    by_cases hs : t = s
    · subst hs
      exact Or.inr ⟨hfree, list, by rw [about_update_self], hcollected⟩
    · rw [about_update_of_ne hs]
      exact Or.inl rfl
  | reading => exact Or.inl rfl
  | _ =>
    refine Or.inl (about_update_eq Slots.allMethods ?_ t)
    exact fun _ => rfl

lemma methods_of_fills {r : Registry} {m m' : Memory} (h : ReflTransGen (Fill r) m m')
    (t : Handle) :
    (m'.about t).methods = (m.about t).methods ∨ (m.about t).methods = none ∧
      ∃ reading, (m'.about t).methods = some (Bound.ofList t reading (r.declaredMethods t)) ∧
        r.Reading t reading := by
  induction h with
  | refl => exact Or.inl rfl
  | tail _ hfill ih =>
    rcases hfill.methods_about t with heq | ⟨hfree, hnew⟩
    · rwa [heq]
    · rcases ih with heq | ⟨-, reading, hsome, -⟩
      · exact Or.inr ⟨heq.symm.trans hfree, hnew⟩
      · rw [hfree] at hsome
        cases hsome

lemma Fill.methods_eq_some {r : Registry} {m m' : Memory} (h : Fill r m m') {t : Handle}
    {list : List Method} (ht : (m.about t).methods = some list) :
    (m'.about t).methods = some list := by
  rcases h.methods_about t with heq | ⟨hfree, -⟩
  · rw [heq, ht]
  · rw [hfree] at ht
    cases ht

lemma Fill.allMethods_eq_some {r : Registry} {m m' : Memory} (h : Fill r m m') {t : Handle}
    {list : List Method} (ht : (m.about t).allMethods = some list) :
    (m'.about t).allMethods = some list := by
  rcases h.allMethods_about t with heq | ⟨hfree, -⟩
  · rw [heq, ht]
  · rw [hfree] at ht
    cases ht

lemma Fill.spread {r : Registry} {m m' : Memory} (h : Fill r m m') {ts : List Handle}
    {full : List Method} (hspread : m.Spread ts full) : m'.Spread ts full := by
  have hmap : m'.Spread ts (full.map id) := Spread.map hspread id (p := fun _ => True)
    (by simp) (fun _ hlist => by rw [List.map_id]; exact h.methods_eq_some hlist)
    fun _ hl => ⟨(Memory.Keeps.of_fill h).above hl, fun _ _ => trivial⟩
  rwa [List.map_id] at hmap

namespace Query

variable {r : Registry} {inv : Memory → Prop} {t : Handle} {m m' : Memory}

/-- What was laid out stays so while more is asked. -/
lemma Stable.and_spread (h : Stable r inv) (ts : List Handle) (p : List Method → Prop) :
    Stable r fun m => inv m ∧ ∃ full, m.Spread ts full ∧ p full := by
  rintro m m' ⟨hm, full, hfull, hp⟩ hstep
  exact ⟨h m m' hm hstep, full, hstep.spread hfull, hp⟩

lemma Stable.and_methods (h : Stable r inv) (t : Handle) (list : List Method) :
    Stable r fun m => inv m ∧ (m.about t).methods = some list :=
  fun m m' hm hstep => ⟨h m m' hm.1 hstep, hstep.methods_eq_some hm.2⟩

lemma methods_about_triple (ht : r.Issued t) (hinv : Stable r inv) {fails : Error → Memory → Prop} :
    Triple r inv (methods t) (fun list m => inv m ∧ (m.about t).methods = some list) fails := by
  refine Triple.of_ok fun m hm => ?_
  obtain ⟨list, m', hans⟩ := exists_methods (r := r) t m
  have hafter := hinv.fills hm (fills_methods ht m)
  rw [hans] at hafter
  exact ⟨list, m', hans, hafter, by rw [about_of_methods hans]⟩

/-- Gathering adds the methods that are laid out above the type, one by one. -/
lemma collectMethods_spread (hr : r.Sound) (hinv : Stable r inv) (trail : List Handle)
    (collected : List Method) (t : Handle) :
    Triple r inv (collectMethods r.size trail collected t)
      (fun list m => inv m ∧ ∃ full, m.Spread [t] full ∧ list = full.foldl r.addMethod collected)
      fun _ _ => True := by
  induction trail, collected, t using collectMethods.induct r.size generalizing inv with
  | case1 trail collected t hopen ih =>
    rw [collectMethods, dif_pos hopen]
    have hvisit : ∀ (links : List Handle) {inv : Memory → Prop}, Stable r inv → ∀ collected,
        Triple r inv (links.foldlM (collectMethods r.size (t :: trail)) collected)
          (fun list m => inv m ∧ ∃ full, m.Spread links full ∧
            list = full.foldl r.addMethod collected) fun _ _ => True := by
      intro links
      induction links with
      | nil => exact fun _ collected => Triple.pure collected fun m hm => ⟨hm, [], .nil, rfl⟩
      | cons s links ihlinks =>
        intro inv hinv collected
        rw [List.foldlM_cons]
        refine (ih collected s hinv).bind fun collected' => ?_
        refine (ihlinks (hinv.and_spread [s] _) collected').conseq (fun _ h => h) ?_ fun _ _ h => h
        rintro list m ⟨⟨hm, first, hfirst, rfl⟩, others, hothers, rfl⟩
        exact ⟨hm, first ++ others, hfirst.append hothers, List.foldl_append.symm⟩
    refine Triple.read_bind ((methods_about_triple hopen.1 hinv).bind fun own => ?_)
    have hown := hinv.and_methods t own
    refine Triple.bind ((superclass_triple hr hopen.1 hown).conseq (fun _ h => h) (fun _ _ h => h)
      fun _ _ _ => trivial) fun link => ?_
    have hlink := hown.and_superclass t link
    refine (hvisit link.toList hlink _).bind fun collected' => ?_
    have hsupers := hlink.and_spread link.toList
      fun full => collected' = full.foldl r.addMethod (own.foldl r.addMethod collected)
    refine Triple.bind ((interfaces_triple hr hopen.1 hsupers).conseq (fun _ h => h)
      (fun _ _ h => h) fun _ _ _ => trivial) fun links => ?_
    refine (hvisit links (hsupers.and_interfaces t links) collected').conseq (fun _ h => h) ?_
      fun _ _ h => h
    rintro _ m ⟨⟨⟨⟨⟨hm, hmethods⟩, hsuper⟩, first, hfirst, rfl⟩, hinterfaces⟩, others, hothers, rfl⟩
    refine ⟨hm, own ++ (first ++ others) ++ [],
      .cons hmethods ⟨link, links, hsuper, hinterfaces, rfl⟩ (hfirst.append hothers) .nil, ?_⟩
    simp only [List.append_nil, List.foldl_append]
  | case2 trail collected t hclosed =>
    rw [collectMethods, dif_neg hclosed]
    exact Triple.read_bind (Triple.throw _ fun _ _ => trivial)

lemma spread_of_collectMethods (hr : r.Sound) {list : List Method}
    (h : (collectMethods r.size [] [] t).answer r m = (.ok list, m')) :
    ∃ full, m'.Spread [t] full ∧ list = full.foldl r.addMethod [] := by
  have hcollects : Triple r (fun _ => True) (collectMethods r.size [] [] t)
      (fun list m => True ∧ ∃ full, m.Spread [t] full ∧ list = full.foldl r.addMethod [])
      fun _ _ => True := collectMethods_spread hr (fun _ _ _ _ => trivial) [] [] t
  exact (hcollects.post_of_ok trivial h).2

end Query

/-! ## Runs -/

namespace Graph

variable {g g' : Graph} {t : Handle} {list : List Method}

/-- The list is what is gathered from the methods that the graph remembers. -/
def Gathers (g : Graph) (t : Handle) (list : List Method) : Prop :=
  ∃ full, g.memory.Spread [t] full ∧ list = full.foldl g.registry.addMethod []

/-- Inherited methods that are remembered after a step were remembered before it, or the step has
gathered them. -/
lemma Step.gathers (hr : g.registry.Sound) (h : g.Step g')
    (hslot : (g'.memory.about t).allMethods = some list) :
    (g.memory.about t).allMethods = some list ∨ g'.Gathers t list := by
  cases h with
  | extend => exact Or.inl hslot
  | @ask m hfills =>
    induction hfills with
    | refl => exact Or.inl hslot
    | tail _ hfill ih =>
      rcases hfill.allMethods_about t with heq | ⟨-, list', hlist', m₀, hcollected⟩
      · refine (ih (heq ▸ hslot)).imp id ?_
        rintro ⟨full, hfull, rfl⟩
        exact ⟨full, hfill.spread hfull, rfl⟩
      · obtain rfl : list' = list := Option.some.inj (hlist'.symm.trans hslot)
        obtain ⟨full, hfull, rfl⟩ := Query.spread_of_collectMethods hr hcollected
        exact Or.inr ⟨full, hfill.spread hfull, rfl⟩
  | forget _ hforgets => exact Or.inl ((Memory.about_of_forgets hforgets t).1.symm.trans hslot)

/-- Declared methods that are remembered after a step were remembered before it, or the step has
read them. -/
lemma Step.reads (h : g.Step g') (hslot : (g'.memory.about t).methods = some list) :
    (g.memory.about t).methods = some list ∨
      ∃ reading, list = Bound.ofList t reading (g'.registry.declaredMethods t) := by
  cases h with
  | extend => exact Or.inl hslot
  | ask hfills =>
    rcases methods_of_fills hfills t with heq | ⟨-, reading, hnew, -⟩
    · exact Or.inl (heq.symm.trans hslot)
    · exact Or.inr ⟨reading, Option.some.inj (hslot.symm.trans hnew)⟩
  | forget _ hforgets =>
    rcases (Memory.about_of_forgets hforgets t).2 with heq | hnone
    · exact Or.inl (heq.symm.trans hslot)
    · rw [hnone] at hslot
      cases hslot

end Graph

/-- Every list of inherited methods that is remembered was gathered at some time of the run. -/
theorem Run.exists_gathers {g : Graph} {past : List Graph} (h : Run (g :: past)) {t : Handle}
    {list : List Method} (hslot : (g.memory.about t).allMethods = some list) :
    ∃ g' ∈ g :: past, g'.Gathers t list := by
  induction h using Run.history_induction with
  | start =>
    rw [show (({} : Graph).memory.about t) = {} from Memory.about_empty t] at hslot
    cases hslot
  | step hrun _ hstep ih =>
    rcases hstep.gathers hrun.sound.registry hslot with hslot | hgathers
    · obtain ⟨g', hg', hgathers⟩ := ih hslot
      exact ⟨g', List.mem_cons_of_mem _ hg', hgathers⟩
    · exact ⟨_, List.mem_cons_self, hgathers⟩

end TypeGraph
