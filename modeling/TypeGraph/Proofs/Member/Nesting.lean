import Mathlib.Data.List.Nodup
import Mathlib.Data.List.Perm.Subperm
import TypeGraph.Proofs.Query.Lasting
import TypeGraph.Proofs.Run

/-!
# How deep a search for member types is nested

A search is carried out by a procedure that calls itself for the superclass, the interfaces, the
declaring type and the outer type of a type. It keeps the types that it is in on a path, enters none
of them again, and takes a type off the path when it is done with it. Nothing else bounds it: links
to enclosing types are never checked, and what is remembered may be a circle of any links.

Here the procedure is written out with the path and the finds in one state, and with a bound on how
deep its calls may be nested. In every graph whose links lead to types of the graph, the path never
has a type twice, so it is never longer than there are types, and the bound is not met. The
procedure then does what `searchScope` does, and on success it leaves the path as it was. The two
checks that it may cause are loops; they end after as many rounds as there are types.
-/

namespace TypeGraph

open Relation

/-- Distinct types of a registry are at most as many as it has. -/
lemma Registry.length_le_size {r : Registry} {path : List Handle} (hnodup : path.Nodup)
    (hissued : ∀ t ∈ path, r.Issued t) : path.length ≤ r.size := by
  have hsubset : path ⊆ (List.range r.size).map Handle.mk := by
    intro t ht
    exact List.mem_map.2 ⟨t.index, List.mem_range.2 (hissued t ht), rfl⟩
  simpa using (List.subperm_of_subset hnodup hsubset).length_le

/-! ## The procedure -/

/-- A search under way: what is remembered, the types that the search is in, the innermost one
first, and what it has found. The paths of the past are kept for the record. -/
structure Search where
  memory : Memory
  path : List Handle := []
  found : List Handle := []
  past : List (List Handle) := []

/-- Why a search stops early: a question failed, or its calls were nested too deep. -/
inductive Halt where
  | failed (error : Error)
  | tooDeep

/-- Work on a search. -/
abbrev Searching := ReaderT Registry (ExceptT Halt (StateM Search))

namespace Searching

variable {α β : Type}

/-- The result of some work, and the search after it. -/
def result (work : Searching α) (r : Registry) (s : Search) : Except Halt α × Search :=
  (work.run r).run.run s

/-- Ask a question. What it writes down stays, also when it fails. -/
def ask (q : Query α) : Searching α := do
  let r ← read
  let s ← get
  let (result, memory) := q.answer r s.memory
  set { s with memory }
  match result with
  | .ok value => return value
  | .error error => throw (.failed error)

/-- Put a type on the path. -/
def enter (t : Handle) : Searching Unit :=
  modify fun s => { s with path := t :: s.path, past := (t :: s.path) :: s.past }

/-- Take the innermost type off the path. -/
def leave : Searching Unit :=
  modify fun s => { s with path := s.path.tail }

/-- Add to what was found. -/
def add (list : List Handle) : Searching Unit :=
  modify fun s => { s with found := s.found ++ list }

/-- Search the scope of a type, with calls nested at most as deep as given. -/
def visit (name : Option String) : Nat → Handle → Searching Unit
  | 0, _ => throw .tooDeep
  | n + 1, t => do
    if t ∈ (← get).path then return ()
    else
      let members ← ask (Query.memberTypes t)
      match ← ask (Query.memberNamed t members name) with
      | some member => add [member]
      | none =>
        add (if name.isSome then [] else members)
        enter t
        let link ← ask (Query.superclass t)
        link.toList.forM (visit name n)
        let links ← ask (Query.interfaces t)
        links.forM (visit name n)
        let declaring ← ask (Query.declaringClass t)
        declaring.toList.forM (visit name n)
        let outer ← ask (Query.outerClass t)
        (outer.filter fun outer => some outer ≠ declaring).toList.forM (visit name n)
        leave

variable {r : Registry} {s s' : Search} {work : Searching α}

lemma result_bind_ok {a : α} (h : work.result r s = (.ok a, s')) (f : α → Searching β) :
    (work >>= f).result r s = (f a).result r s' := by
  simp only [result, ReaderT.run_bind, ExceptT.run_bind, StateT.run_bind] at h ⊢
  rw [h]
  rfl

lemma result_bind_error {e : Halt} (h : work.result r s = (.error e, s'))
    (f : α → Searching β) : (work >>= f).result r s = (.error e, s') := by
  simp only [result, ReaderT.run_bind, ExceptT.run_bind, StateT.run_bind] at h ⊢
  rw [h]
  rfl

lemma result_ask_ok {q : Query α} {a : α} {m : Memory} (h : q.answer r s.memory = (.ok a, m)) :
    (ask q).result r s = (.ok a, { s with memory := m }) := by
  rw [ask, result_bind_ok (show (read : Searching Registry).result r s = (.ok r, s) from rfl),
    result_bind_ok (show (get : Searching Search).result r s = (.ok s, s) from rfl), h]
  rfl

lemma result_ask_error {q : Query α} {e : Error} {m : Memory}
    (h : q.answer r s.memory = (.error e, m)) :
    (ask q).result r s = (.error (.failed e), { s with memory := m }) := by
  rw [ask, result_bind_ok (show (read : Searching Registry).result r s = (.ok r, s) from rfl),
    result_bind_ok (show (get : Searching Search).result r s = (.ok s, s) from rfl), h]
  rfl

end Searching

/-! ## The procedure does what the search does -/

namespace Search

variable {r : Registry} {s : Search} {path found : List Handle} {t : Handle}

/-- The answers that are remembered name issued types, and so do the paths, which have no type
twice. -/
structure Proper (r : Registry) (s : Search) : Prop where
  placed : s.memory.Placed r
  nodup : ∀ path ∈ s.path :: s.past, path.Nodup
  issued : ∀ path ∈ s.path :: s.past, ∀ t ∈ path, r.Issued t

/-- The search has the given path and has found the given types. -/
def At (path found : List Handle) (s : Search) : Prop := s.path = path ∧ s.found = found

lemma Proper.withMemory (h : s.Proper r) {m : Memory} (hm : m.Placed r) :
    Proper r { s with memory := m } :=
  ⟨hm, h.nodup, h.issued⟩

lemma Proper.enter (h : s.Proper r) (ht : r.Issued t) (hfresh : t ∉ s.path) :
    Proper r { s with path := t :: s.path, past := (t :: s.path) :: s.past } := by
  obtain ⟨hnodup, hpastNodup⟩ := List.forall_mem_cons.1 h.nodup
  obtain ⟨hissued, hpastIssued⟩ := List.forall_mem_cons.1 h.issued
  have hnodup' : (t :: s.path).Nodup := List.nodup_cons.2 ⟨hfresh, hnodup⟩
  have hissued' : ∀ u ∈ t :: s.path, r.Issued u := List.forall_mem_cons.2 ⟨ht, hissued⟩
  refine ⟨h.placed, ?_, ?_⟩
  · exact List.forall_mem_cons.2 ⟨hnodup', List.forall_mem_cons.2 ⟨hnodup', hpastNodup⟩⟩
  · exact List.forall_mem_cons.2 ⟨hissued', List.forall_mem_cons.2 ⟨hissued', hpastIssued⟩⟩

lemma Proper.leave (h : s.Proper r) : Proper r { s with path := s.path.tail } := by
  obtain ⟨hnodup, hpastNodup⟩ := List.forall_mem_cons.1 h.nodup
  obtain ⟨hissued, hpastIssued⟩ := List.forall_mem_cons.1 h.issued
  refine ⟨h.placed, List.forall_mem_cons.2 ⟨hnodup.tail, hpastNodup⟩, ?_⟩
  exact List.forall_mem_cons.2 ⟨fun t ht => hissued t (List.mem_of_mem_tail ht), hpastIssued⟩

end Search

namespace Searching

open Search

variable {α : Type} {r : Registry} {pre : Search → Prop} {mid post : List Handle → Search → Prop}
  {path found : List Handle} {work rest : Searching Unit} {q : Query (List Handle)}
  {next : List Handle → Query (List Handle)} {t : Handle}

/-- From every proper search with the property `pre`, the work does what the query does: it leaves
the same memory, it ends with `post` where the query finds a list, and it fails where the query
fails. -/
def Does (r : Registry) (pre : Search → Prop) (work : Searching Unit) (q : Query (List Handle))
    (post : List Handle → Search → Prop) : Prop :=
  ∀ s, s.Proper r → pre s →
    (∀ list m, q.answer r s.memory = (.ok list, m) →
      ∃ s', work.result r s = (.ok (), s') ∧ s'.memory = m ∧ s'.Proper r ∧ post list s') ∧
    ∀ e m, q.answer r s.memory = (.error e, m) →
      ∃ s', work.result r s = (.error (.failed e), s') ∧ s'.memory = m ∧ s'.Proper r

lemma Does.bind (h : Does r pre work q mid)
    (hrest : ∀ list, Does r (mid list) rest (next list) post) :
    Does r pre (work >>= fun _ => rest) (q >>= next) post := by
  intro s hs hpre
  obtain ⟨hok, herror⟩ := h s hs hpre
  rcases hans : q.answer r s.memory with ⟨e | list, m⟩
  · obtain ⟨s₁, hwork, hm, hs₁⟩ := herror e m hans
    rw [Query.answer_bind_error hans, result_bind_error hwork]
    refine ⟨fun _ _ heq => (by cases heq), fun e' m' heq => ?_⟩
    cases heq
    exact ⟨s₁, rfl, hm, hs₁⟩
  · obtain ⟨s₁, hwork, rfl, hs₁, hmid⟩ := hok list m hans
    rw [Query.answer_bind_ok hans, result_bind_ok hwork]
    exact hrest list s₁ hs₁ hmid

/-- Questions are asked by both alike. -/
lemma Does.ask_bind (hr : r.Closed) {question : Query α} {known : α → Prop}
    (hfills : Query.Fills r question) (hquestion : Query.Repeats r r question question known)
    {work : α → Searching Unit} {next : α → Query (List Handle)}
    (h : ∀ a, known a → Does r (At path found) (work a) (next a) post) :
    Does r (At path found) (ask question >>= work) (question >>= next) post := by
  intro s hs hat
  have hplaced := hs.placed.fills hr (hfills s.memory)
  rcases hans : question.answer r s.memory with ⟨e | a, m⟩ <;> rw [hans] at hplaced
  · rw [Query.answer_bind_error hans, result_bind_error (result_ask_error hans)]
    refine ⟨fun _ _ heq => (by cases heq), fun e' m' heq => ?_⟩
    cases heq
    exact ⟨_, rfl, rfl, hs.withMemory hplaced⟩
  · obtain ⟨-, -, hknown, -⟩ := hquestion s.memory a m hs.placed hans
    rw [Query.answer_bind_ok hans, result_bind_ok (result_ask_ok hans)]
    exact h a hknown { s with memory := m } (hs.withMemory hplaced) hat

lemma Does.get_bind {work : Search → Searching Unit}
    (h : ∀ s, s.path = path → Does r (At path found) (work s) q post) :
    Does r (At path found) (get >>= work) q post := by
  intro s hs hat
  rw [result_bind_ok (show (get : Searching Search).result r s = (.ok s, s) from rfl)]
  exact h s hat.1 s hs hat

lemma Does.enter_bind (ht : r.Issued t) (hfresh : t ∉ path)
    (h : Does r (At (t :: path) found) rest q post) :
    Does r (At path found) (enter t >>= fun _ => rest) q post := by
  rintro s hs ⟨rfl, hfound⟩
  exact h _ (hs.enter ht hfresh) ⟨rfl, hfound⟩

lemma Does.add_bind {list : List Handle} (h : Does r (At path (found ++ list)) rest q post) :
    Does r (At path found) (add list >>= fun _ => rest) q post := by
  rintro s hs ⟨hpath, rfl⟩
  exact h { s with found := s.found ++ list } ⟨hs.placed, hs.nodup, hs.issued⟩ ⟨hpath, rfl⟩

lemma does_return : Does r (At path found) (pure ()) (pure [])
    fun list => At path (found ++ list) := by
  rintro s hs ⟨hpath, hfound⟩
  refine ⟨fun list m heq => ?_, fun e m heq => by cases heq⟩
  cases heq
  exact ⟨s, rfl, rfl, hs, hpath, by simpa using hfound⟩

lemma does_add (list : List Handle) : Does r (At path found) (add list) (pure list)
    fun list => At path (found ++ list) := by
  rintro s hs ⟨hpath, rfl⟩
  refine ⟨fun list' m heq => ?_, fun e m heq => by cases heq⟩
  cases heq
  exact ⟨_, rfl, rfl, ⟨hs.placed, hs.nodup, hs.issued⟩, hpath, rfl⟩

lemma does_leave (list : List Handle) : Does r (At (t :: path) (found ++ list)) leave (pure list)
    fun list => At path (found ++ list) := by
  rintro s hs ⟨hpath, hfound⟩
  refine ⟨fun list' m heq => ?_, fun e m heq => by cases heq⟩
  cases heq
  exact ⟨_, rfl, rfl, hs.leave, by simp [hpath], hfound⟩

/-- Searches from all types of a list, one after the other. -/
lemma Does.forM_bind {links : List Handle} {visit : Handle → Searching Unit}
    {search : Handle → Query (List Handle)} {next : List (List Handle) → Query (List Handle)}
    (hvisit : ∀ u ∈ links, ∀ found, Does r (At path found) (visit u) (search u)
      fun list => At path (found ++ list))
    (h : ∀ lists, Does r (At path (found ++ lists.flatten)) rest (next lists) post) :
    Does r (At path found) (links.forM visit >>= fun _ => rest) (links.mapM search >>= next)
      post := by
  induction links generalizing found next with
  | nil => simpa using h []
  | cons u links ih =>
    rw [List.mapM_cons]
    have hrest : ∀ list, Does r (At path (found ++ list)) (links.forM visit >>= fun _ => rest)
        (links.mapM search >>= fun lists => next (list :: lists)) post := by
      intro list
      refine ih (fun u hu => hvisit u (List.mem_cons_of_mem _ hu)) fun lists => ?_
      simpa using h (list :: lists)
    have hall := (hvisit u List.mem_cons_self found).bind hrest
    simpa [List.forM_cons] using hall

/-- The procedure does what the search does, as long as there is room for all types. -/
lemma does_visit (hr : r.Closed) (name : Option String) {n : Nat} (ht : r.Issued t)
    (hn : r.size + 1 ≤ n + path.length) :
    Does r (At path found) (visit name n t) (Query.searchScope r.size name path t)
      fun list => At path (found ++ list) := by
  induction n generalizing path found t with
  | zero =>
    -- the path would have more types than there are
    rintro s hs ⟨rfl, -⟩
    have hlength := Registry.length_le_size (hs.nodup s.path (by simp)) (hs.issued s.path (by simp))
    omega
  | succ n ih =>
    rw [visit]
    refine Does.get_bind fun s hpath => ?_
    rw [hpath]
    by_cases hmem : t ∈ path
    · rw [if_pos hmem, Query.searchScope, dif_neg fun hopen => hopen.2 hmem]
      exact does_return
    · have hnested : ∀ u, r.Issued u → ∀ found, Does r (At (t :: path) found) (visit name n u)
          (Query.searchScope r.size name (t :: path) u)
          fun list => At (t :: path) (found ++ list) :=
        fun u hu found => ih hu (by rw [List.length_cons]; omega)
      rw [if_neg hmem, Query.searchScope, dif_pos ⟨ht, hmem⟩]
      refine Does.ask_bind hr (Query.fills_memberTypes ht) (Query.repeats_memberTypes hr ht)
        fun members hmembers => ?_
      refine Does.ask_bind hr (Query.moves_memberNamed t members name)
        (Query.repeats_memberNamed ht (.refl r) hmembers name) fun member _ => ?_
      cases member with
      | some member => exact does_add [member]
      | none =>
        refine Does.add_bind (Does.enter_bind ht hmem ?_)
        refine Does.ask_bind hr (Query.fills_superclass ht) (Query.repeats_superclass hr ht)
          fun link hlink => Does.forM_bind (fun u hu => hnested u (hlink u hu))
            fun inSuperclass => ?_
        refine Does.ask_bind hr (Query.fills_interfaces ht) (Query.repeats_interfaces hr ht)
          fun links hlinks => Does.forM_bind (fun u hu => hnested u (hlinks u hu))
            fun inInterfaces => ?_
        refine Does.ask_bind hr (Query.fills_declaringClass ht) (Query.repeats_declaringClass hr ht)
          fun declaring hdeclaring => Does.forM_bind (fun u hu => hnested u (hdeclaring u hu))
            fun inDeclaring => ?_
        refine Does.ask_bind hr (Query.fills_outerClass ht) (Query.repeats_outerClass hr ht)
          fun outer houter => Does.forM_bind (fun u hu => hnested u (houter u ?_))
            fun inOuter => ?_
        · rw [Option.mem_toList, Option.filter_eq_some_iff] at hu
          exact Option.mem_toList.2 hu.1
        · have hfound : ∀ own : List Handle, found ++ own ++ inSuperclass.flatten ++
              inInterfaces.flatten ++ inDeclaring.flatten ++ inOuter.flatten = found ++
                (own ++ (inSuperclass ++ inInterfaces ++ inDeclaring ++ inOuter).flatten) := by
            simp
          rw [hfound]
          exact does_leave _

end Searching

/-! ## The checks as loops -/

namespace Registry

variable {r : Registry} {m : Memory}

/-- The check of a superclass chain as a loop: the types that were seen, and the next one. There is
no result if the loop does not end within the given number of rounds. -/
def chainRounds (r : Registry) (m : Memory) (t : Handle) :
    Nat → List Handle → Option Handle → Option (Except Error Unit)
  | _, _, none => some (.ok ())
  | 0, _, some _ => none
  | n + 1, seen, some u =>
    if u = t ∨ u ∈ seen then some (.error (.classCircularity (r.className u) (r.location u)))
    else
      match r.effectiveSuperclass m u with
      | .error error => some (.error error)
      | .ok superclass => chainRounds r m t n (u :: seen) superclass

/-- Put a type on the stack, unless it was visited before. -/
def push (state : List Handle × List Handle) (u : Handle) : List Handle × List Handle :=
  if u ∈ state.1 then state else (u :: state.1, u :: state.2)

/-- The check of an interface list as a loop: the types that were visited, and the stack of those
that are still to be looked at. -/
def interfaceRounds (r : Registry) (m : Memory) (target : Handle) :
    Nat → List Handle × List Handle → Option (Except Error Bool)
  | _, (_, []) => some (.ok false)
  | 0, (_, _ :: _) => none
  | n + 1, (visited, u :: stack) =>
    match r.effectiveSuperclass m u with
    | .error error => some (.error error)
    | .ok superclass =>
      match r.effectiveInterfaces m u with
      | .error error => some (.error error)
      | .ok interfaces =>
        if target ∈ interfaces then some (.ok true)
        else interfaceRounds r m target n
          ((superclass.toList ++ interfaces).foldl push (visited, stack))

lemma Closed.issued_of_placed (hr : r.Closed) (hm : m.Placed r) {u v : Handle}
    (hl : r.Link m u v) : r.Issued v := by
  refine Memory.issued_of_effective hr (fun {s t} hl => hm s t ?_) hl
  exact hl.elim Or.inl fun hl => Or.inr (Or.inl hl)

/-- The loop goes as far as the check, as long as there is a round for each type. -/
lemma chainRounds_eq (hr : r.Closed) (hm : m.Placed r) {t u : Handle} {n : Nat} {seen : List Handle}
    (hnodup : (seen ++ [t]).Nodup) (hissued : ∀ v ∈ seen ++ [t], r.Issued v) (hu : r.Issued u)
    (hn : r.size ≤ n + seen.length) :
    r.chainRounds m t n seen (some u) = some (r.checkChain m (seen ++ [t]) u) := by
  induction n generalizing seen u with
  | zero =>
    have hlength := length_le_size hnodup hissued
    rw [List.length_append, List.length_singleton] at hlength
    omega
  | succ n ih =>
    have hmem : u ∈ seen ++ [t] ↔ u = t ∨ u ∈ seen := by simp [or_comm]
    rw [chainRounds, checkChain]
    by_cases hseen : u ∈ seen ++ [t]
    · rw [if_pos (hmem.1 hseen), dif_neg fun hopen => hopen.2 hseen]
    · rw [if_neg fun hor => hseen (hmem.2 hor), dif_pos ⟨hu, hseen⟩]
      cases hlink : r.effectiveSuperclass m u with
      | error e => rfl
      | ok link =>
        cases link with
        | none => cases n <;> rfl
        | some v =>
          refine ih ?_ ?_ (hr.issued_of_placed hm (Or.inl hlink)) ?_
          · exact List.nodup_cons.2 ⟨hseen, hnodup⟩
          · exact List.forall_mem_cons.2 ⟨hu, hissued⟩
          · rw [List.length_cons]
            omega

/-- The types that are not visited yet are those that the search has not found. -/
def frontier (r : Registry) (state : List Handle × List Handle) : Frontier :=
  ⟨state.2, Trail.unvisited r.size state.1⟩

lemma rest_frontier (r : Registry) (visited stack : List Handle) :
    (r.frontier (visited, stack)).rest = stack.length + (Trail.unvisited r.size visited).length :=
  rfl

lemma visit_frontier {u : Handle} (hu : r.Issued u) (state : List Handle × List Handle) :
    (r.frontier state).visit u = r.frontier (push state u) := by
  have hfresh : u ∈ Trail.unvisited r.size state.1 ↔ u ∉ state.1 := by
    rw [Trail.mem_unvisited]
    exact and_iff_right hu
  rw [Frontier.visit, push, frontier]
  by_cases hvisited : u ∈ state.1
  · rw [if_neg fun h => hfresh.1 h hvisited, if_pos hvisited, frontier]
  · have herase : (Trail.unvisited r.size state.1).erase u =
        Trail.unvisited r.size (u :: state.1) := by
      rw [(nodup_unvisited r.size state.1).erase_eq_filter, Trail.unvisited, Trail.unvisited,
        List.filter_filter]
      exact List.filter_congr fun v _ => Bool.eq_iff_iff.2 (by simp)
    rw [if_pos (hfresh.2 hvisited), if_neg hvisited, frontier, herase]

lemma foldl_visit_frontier {us : List Handle} (hus : ∀ u ∈ us, r.Issued u)
    (state : List Handle × List Handle) :
    us.foldl Frontier.visit (r.frontier state) = r.frontier (us.foldl push state) := by
  induction us generalizing state with
  | nil => rfl
  | cons u us ih =>
    obtain ⟨hu, hus⟩ := List.forall_mem_cons.1 hus
    rw [List.foldl_cons, List.foldl_cons, visit_frontier hu, ih hus]

/-- Each round takes a type off the stack, and each type is put there once. -/
lemma interfaceRounds_eq (hr : r.Closed) (hm : m.Placed r) (target : Handle) {n : Nat}
    (state : List Handle × List Handle) (hn : (r.frontier state).rest ≤ n) :
    r.interfaceRounds m target n state =
      some (r.searchInterface m target (r.frontier state)) := by
  obtain ⟨visited, stack⟩ := state
  induction n generalizing visited stack with
  | zero =>
    cases stack with
    | nil => rw [interfaceRounds, frontier, searchInterface]
    | cons u stack =>
      rw [rest_frontier, List.length_cons] at hn
      omega
  | succ n ih =>
    cases stack with
    | nil => rw [interfaceRounds, frontier, searchInterface]
    | cons u stack =>
      rw [interfaceRounds, frontier]
      dsimp only
      rw [searchInterface]
      rcases hlink : r.effectiveSuperclass m u with e | link
      · rfl
      rcases hlinks : r.effectiveInterfaces m u with e | links
      · rfl
      by_cases htarget : target ∈ links
      · simp only [if_pos htarget]
      · have hissued : ∀ v ∈ link.toList ++ links, r.Issued v := fun v hv =>
          hr.issued_of_placed hm ((link_iff_mem hlink hlinks).2 hv)
        have hvisit := foldl_visit_frontier hissued (visited, stack)
        have hrest :
            (r.frontier ((link.toList ++ links).foldl push (visited, stack))).rest ≤ n := by
          rw [← hvisit, Frontier.rest_foldl_visit, rest_frontier]
          rw [rest_frontier, List.length_cons] at hn
          omega
        rw [frontier] at hvisit
        simp only [if_neg htarget, hvisit]
        exact ih _ _ hrest

/-- A search for an interface starts with one type that was visited. -/
lemma rest_frontier_start {u : Handle} (hu : r.Issued u) :
    (r.frontier ([u], [u])).rest ≤ r.size := by
  have hlt : (Trail.unvisited r.size [u]).length < (Trail.unvisited r.size []).length :=
    Trail.unvisited_cons_lt ⟨hu, List.not_mem_nil⟩
  have hall : (Trail.unvisited r.size []).length = r.size := by simp [Trail.unvisited]
  rw [rest_frontier, List.length_singleton]
  omega

/-- **The checks of links end.** In a graph of any shape, with anything remembered that names its
types, a superclass chain is checked and an interface list is searched in at most one round for each
type. -/
theorem checks_end (hr : r.Closed) (hm : m.Placed r) :
    (∀ u first, r.Issued u → r.Issued first →
      r.chainRounds m u r.size [] (some first) = some (r.checkChain m [u] first)) ∧
    ∀ start target, r.Issued start →
      r.interfaceRounds m target r.size ([start], [start]) =
        some (r.reachesInterface m start target) := by
  refine ⟨fun u first hu hfirst => ?_, fun start target hstart => ?_⟩
  · exact chainRounds_eq hr hm (List.nodup_singleton u) (by simpa using hu) hfirst (by simp)
  · exact interfaceRounds_eq hr hm target _ (rest_frontier_start hstart)

end Registry

namespace Searching

/-- **The nested search for member types ends.** In a graph of any shape, with anything remembered
that names its types, no call is nested deeper than there are types, and one more. At no time is a
type on the path twice. The procedure finds what the search finds and then has its path back, or a
question failed. The checks that the questions make end as well, after at most one round for each
type. -/
theorem nested_search_ends {r : Registry} {s : Search} {t : Handle} {n : Nat} (hr : r.Closed)
    (hs : s.Proper r) (ht : r.Issued t) (name : Option String)
    (hn : r.size + 1 ≤ n + s.path.length) :
    (∃ s', (∀ path ∈ s'.path :: s'.past,
        path.Nodup ∧ (∀ u ∈ path, r.Issued u) ∧ path.length ≤ r.size) ∧
      ((∃ list, (visit name n t).result r s = (.ok (), s') ∧
          s'.path = s.path ∧ s'.found = s.found ++ list ∧
          (Query.searchScope r.size name s.path t).answer r s.memory = (.ok list, s'.memory)) ∨
        ∃ e, (visit name n t).result r s = (.error (.failed e), s') ∧
          (Query.searchScope r.size name s.path t).answer r s.memory = (.error e, s'.memory))) ∧
    ∀ m : Memory, m.Placed r →
      (∀ u first, r.Issued u → r.Issued first →
        r.chainRounds m u r.size [] (some first) = some (r.checkChain m [u] first)) ∧
      ∀ start target, r.Issued start →
        r.interfaceRounds m target r.size ([start], [start]) =
          some (r.reachesInterface m start target) := by
  refine ⟨?_, fun m hm => Registry.checks_end hr hm⟩
  have hpaths : ∀ {s' : Search}, s'.Proper r → ∀ path ∈ s'.path :: s'.past,
      path.Nodup ∧ (∀ u ∈ path, r.Issued u) ∧ path.length ≤ r.size := by
    intro s' hs' path hpath
    have hnodup := hs'.nodup path hpath
    have hissued := hs'.issued path hpath
    exact ⟨hnodup, hissued, Registry.length_le_size hnodup hissued⟩
  obtain ⟨hok, herror⟩ := does_visit hr name ht hn s hs ⟨rfl, rfl⟩
  rcases hans : (Query.searchScope r.size name s.path t).answer r s.memory with ⟨e | list, m⟩
  · obtain ⟨s', hwork, rfl, hs'⟩ := herror e m hans
    exact ⟨s', hpaths hs', .inr ⟨e, hwork, rfl⟩⟩
  · obtain ⟨s', hwork, rfl, hs', hpath, hfound⟩ := hok list m hans
    exact ⟨s', hpaths hs', .inl ⟨list, hwork, hpath, hfound, rfl⟩⟩

/-- `A` and `B` are declared in each other. -/
def enclosingRun : List Action :=
  [.edit ⟨9⟩ (.setDeclaringClass (some ⟨10⟩)),
   .define (.draft { Draft.ofClass "B" with declaringClass := some ⟨9⟩ }),
   .define (.draft (Draft.ofClass "A"))]

/-- Each of the two is remembered as the superclass of the other. -/
def superclassCircle : Memory :=
  (Memory.empty.update ⟨9⟩ fun slots => { slots with superclass := some (some ⟨10⟩) }).update ⟨10⟩
    fun slots => { slots with superclass := some (some ⟨9⟩) }

/-- No check would accept the circle. The search for a type that is not there goes from `A` to `B`
and ends. -/
theorem nested_search_ends_circle :
    ∃ s', (visit (some "X") 12 ⟨9⟩).result (Run.after enclosingRun).registry
        { memory := superclassCircle } = (.ok (), s') ∧
      s'.path = [] ∧ s'.found = [] ∧ [⟨10⟩, ⟨9⟩] ∈ s'.past ∧
      ∀ path ∈ s'.past, path.Nodup ∧ path.length ≤ 11 := by
  have hsize : (Run.after enclosingRun).registry.size = 11 := by decide +kernel
  have hrun : Run (Run.after enclosingRun :: Run.past enclosingRun) :=
    Run.of_allowed (by decide +kernel)
  have hplaced : superclassCircle.Placed (Run.after enclosingRun).registry := by
    refine ((Memory.placed_empty _).update fun u hu => ?_).update fun u hu => ?_
    · obtain rfl : ⟨10⟩ = u := by simpa [Slots.Names] using hu
      decide +kernel
    · obtain rfl : ⟨9⟩ = u := by simpa [Slots.Names, Memory.about_update_of_ne] using hu
      decide +kernel
  have hproper : Search.Proper (Run.after enclosingRun).registry
      { memory := superclassCircle } := ⟨hplaced, by simp, by simp⟩
  have hanswer : ((Query.searchScope (Run.after enclosingRun).registry.size (some "X") []
      ⟨9⟩).answer (Run.after enclosingRun).registry superclassCircle).1 = .ok [] := by
    decide +kernel
  have hpast : [⟨10⟩, ⟨9⟩] ∈ ((visit (some "X") 12 ⟨9⟩).result (Run.after enclosingRun).registry
      { memory := superclassCircle }).2.past := by
    decide +kernel
  obtain ⟨⟨s', hpaths, ⟨list, hwork, hpath, hfound, hlist⟩ | ⟨e, -, hfailed⟩⟩, -⟩ :=
    nested_search_ends (n := 12) hrun.sound.registry.closed hproper (t := ⟨9⟩) (by decide +kernel)
      (some "X") (by rw [hsize]; decide)
  · rw [hlist] at hanswer
    cases hanswer
    rw [hwork] at hpast
    refine ⟨s', hwork, hpath, hfound, hpast, fun path hmem => ?_⟩
    obtain ⟨hnodup, -, hlength⟩ := hpaths path (List.mem_cons_of_mem _ hmem)
    exact ⟨hnodup, hlength.trans hsize.le⟩
  · rw [hfailed] at hanswer
    cases hanswer

end Searching

end TypeGraph
