import TypeGraph.Proofs.Overload.MostSpecific

/-!
# Calls

A call looks for the most specific ones of the applicable methods. In a well-formed graph those are
left that no other one beats. Since something is left of every list of candidates that is not empty,
a call finds nothing only when no method of its name is applicable.
-/

namespace TypeGraph

/-! ## What is left of the candidates -/

namespace Graph

variable {α : Type} {g : Graph}

/-- The first candidate is more specific than the second. -/
def Beats (g : Graph) (parameters : α → List Handle) (c d : α × Nat) : Prop :=
  g.registry.MoreSpecific g.memory (parameters c.1) (parameters d.1)

/-- What is left of a list of candidates, which are told apart by their places. -/
structure Survivors (g : Graph) (parameters : α → List Handle) (candidates : List α)
    (kept : List (α × Nat)) : Prop where
  /-- Candidates are kept in their order. -/
  sublist : kept.Sublist candidates.zipIdx
  /-- Those are kept that no other one beats. -/
  mem_iff : ∀ c ∈ candidates.zipIdx, c ∈ kept ↔
    ∀ other ∈ candidates.zipIdx, other.2 ≠ c.2 → ¬ g.Beats parameters other c
  /-- Something is kept unless there are no candidates. -/
  nonempty : candidates ≠ [] → kept ≠ []
  /-- Each dropped candidate is beaten by one that is kept. -/
  dropped : ∀ c ∈ candidates.zipIdx, c ∉ kept → ∃ k ∈ kept, g.Beats parameters k c
  /-- No candidate that is kept beats another one. -/
  apart : ∀ k ∈ kept, ∀ k' ∈ kept, ¬ g.Beats parameters k k'
  /-- A single candidate is kept exactly when it beats all others. -/
  single_iff : ∀ c ∈ candidates.zipIdx, kept = [c] ↔
    ∀ other ∈ candidates.zipIdx, other.2 ≠ c.2 → g.Beats parameters c other

lemma Survivors.eq_nil_iff {parameters : α → List Handle} {candidates : List α}
    {kept : List (α × Nat)} (h : g.Survivors parameters candidates kept) :
    kept = [] ↔ candidates = [] := by
  constructor
  · intro hkept
    by_contra hcandidates
    exact h.nonempty hcandidates hkept
  · rintro rfl
    exact List.sublist_nil.1 h.sublist

end Graph

/-- In a well-formed graph the candidates that nothing beats stand for all others. -/
lemma Registry.Choice.survivors {α : Type} {g : Graph} {parameters : α → List Handle}
    {candidates : List α} {kept : List (α × Nat)} (hlawful : g.registry.Lawful g.memory)
    (h : g.registry.Choice g.memory parameters candidates kept) :
    g.Survivors parameters candidates kept where
  sublist := h.sublist
  mem_iff c hc := by simpa [Registry.Beaten, Graph.Beats] using h.mem_iff c hc
  nonempty := h.nonempty hlawful
  dropped c := h.exists_beats hlawful
  apart k hk k' hk' := h.not_moreSpecific hk hk'
  single_iff c := h.eq_singleton_iff hlawful

/-! ## The end of a call -/

/-- A call of the methods with a name leads to those of a list that take the arguments, and from
these to the ones that no other is more specific than. -/
structure Graph.Resolves (g : Graph) (methods : List Method) (name : String)
    (arguments : List Handle) (call : Call) : Prop where
  sublist : call.applicable.Sublist methods
  mem_iff : ∀ method ∈ methods, method ∈ call.applicable ↔
    method.decl.name = name ∧ g.registry.WidensAll g.memory arguments method.decl.parameters
  choice : ∃ kept, call.mostSpecific = kept.map Prod.fst ∧
    g.Survivors (·.decl.parameters) call.applicable kept

namespace Graph.Resolves

variable {g : Graph} {methods : List Method} {name : String} {arguments : List Handle}
  {call : Call}

/-- A call ends without a method exactly when none of its name is applicable. -/
lemma mostSpecific_eq_nil_iff (h : g.Resolves methods name arguments call) :
    call.mostSpecific = [] ↔ ∀ method ∈ methods, method.decl.name = name →
      ¬ g.registry.WidensAll g.memory arguments method.decl.parameters := by
  obtain ⟨kept, heq, hkept⟩ := h.choice
  rw [heq, List.map_eq_nil_iff, hkept.eq_nil_iff]
  constructor
  · intro hnone method hmethod hname hall
    have hmem := (h.mem_iff method hmethod).2 ⟨hname, hall⟩
    rw [hnone] at hmem
    cases hmem
  · intro hnone
    refine List.eq_nil_iff_forall_not_mem.2 fun method hmem => ?_
    have hmethod := h.sublist.subset hmem
    obtain ⟨hname, hall⟩ := (h.mem_iff method hmethod).1 hmem
    exact hnone method hmethod hname hall

/-- The methods that are chosen have the name of the call. -/
lemma name_eq (h : g.Resolves methods name arguments call) {method : Method}
    (hmethod : method ∈ call.mostSpecific) : method.decl.name = name := by
  obtain ⟨kept, heq, hkept⟩ := h.choice
  rw [heq] at hmethod
  obtain ⟨c, hc, rfl⟩ := List.mem_map.1 hmethod
  have happlicable := List.fst_mem_of_mem_zipIdx (hkept.sublist.subset hc)
  exact ((h.mem_iff c.1 (h.sublist.subset happlicable)).1 happlicable).1

end Graph.Resolves

namespace Query

variable {α : Type} {r : Registry} {m₀ : Memory} {t : Handle}

section Settled

variable (h₀ : r.Lawful m₀)
include h₀

lemma mostSpecific_settled {parameters : α → List Handle} {candidates : List α}
    (hissued : ∀ c ∈ candidates, ∀ t ∈ parameters c, r.Issued t) :
    Triple r (Settled r m₀) (mostSpecific parameters candidates)
      (fun chosen m => Settled r m₀ m ∧ ∃ kept, chosen = kept.map Prod.fst ∧
        Graph.Survivors ⟨r, m₀⟩ parameters candidates kept)
      fun _ _ => False := by
  refine (mostSpecificPlaces_settled h₀ hissued).bind fun kept => Triple.given fun hkept => ?_
  exact Triple.pure _ fun m hm => ⟨hm, kept, rfl, hkept.survivors h₀⟩

/-- A call is always resolved. -/
lemma answer_call (ht : r.Issued t) (name : String) {arguments : List Handle}
    (harguments : ∀ s ∈ arguments, r.Issued s) :
    ∃ methods call m, ((allMethods t).answer r m₀).1 = .ok methods ∧
      (Query.call t name arguments).answer r m₀ = (.ok call, m) ∧
      Graph.Resolves ⟨r, m₀⟩ methods name arguments call := by
  obtain ⟨methods, m, hmethods, hm⟩ := (allMethods_settled h₀ ht).exists_ok (settled_refl h₀)
  have hchoice : Triple r (Settled r m₀)
      (do
        let candidates ← (methods.filter fun method => method.decl.name = name).filterM
          fun method => applicable method.decl.parameters arguments
        return Call.mk candidates (← mostSpecific (·.decl.parameters) candidates))
      (fun call m => Graph.Resolves ⟨r, m₀⟩ methods name arguments call)
      fun _ _ => False := by
    refine (Triple.filterM (p := fun method b =>
      b = true ↔ r.WidensAll m₀ arguments method.decl.parameters) fun method _ =>
        applicable_settled h₀ harguments method.decl.parameters).bind fun candidates =>
          Triple.given fun hselected => ?_
    -- arguments are issued, so what they widen to is issued as well
    have hissued : ∀ c ∈ candidates, ∀ t ∈ c.decl.parameters, r.Issued t := by
      intro c hc t ht
      have hall : r.WidensAll m₀ arguments c.decl.parameters := (hselected.2.1 c hc).1 rfl
      exact hall.issued h₀ harguments t ht
    refine (mostSpecific_settled h₀ hissued).bind fun chosen => Triple.given fun hchosen => ?_
    refine Triple.pure _ fun m hm => ⟨hselected.1.trans List.filter_sublist, ?_, hchosen⟩
    intro method hmethod
    constructor
    · intro hmem
      have hnamed := hselected.1.subset hmem
      exact ⟨by simpa [hmethod] using hnamed, (hselected.2.1 method hmem).1 rfl⟩
    · rintro ⟨hname, hall⟩
      refine (hselected.2.2 method (by simp [hmethod, hname])).resolve_right fun hfalse => ?_
      simpa using hfalse.2 hall
  obtain ⟨call, m', hcall, hresolves⟩ := hchoice.exists_ok hm
  refine ⟨methods, call, m', by rw [hmethods], ?_, hresolves⟩
  rw [Query.call, answer_bind_ok hmethods]
  exact hcall

end Settled

end Query

namespace Graph

variable {g : Graph}

/-- **The most specific candidates.** In a well-formed graph that some run leads to, it is always
answered which ones of a list of candidates are the most specific. -/
theorem mostSpecific_survivors (hg : g.Reachable) (hwf : g.WellFormed) {α : Type}
    (parameters : α → List Handle) {candidates : List α}
    (hissued : ∀ c ∈ candidates, ∀ t ∈ parameters c, g.registry.Issued t) :
    ∃ kept, g.answer (Query.mostSpecific parameters candidates) = .ok (kept.map Prod.fst) ∧
      g.Survivors parameters candidates kept := by
  have h := hg.lawful hwf
  obtain ⟨chosen, m, hanswer, -, kept, rfl, hkept⟩ :=
    (Query.mostSpecific_settled h hissued).exists_ok (Query.settled_refl h)
  exact ⟨kept, by rw [answer, hanswer], hkept⟩

end Graph

end TypeGraph
