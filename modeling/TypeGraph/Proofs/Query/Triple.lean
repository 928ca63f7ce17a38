import Mathlib.Tactic.Common
import TypeGraph.Memory

/-!
# Triples for queries

A query reads a registry, fills the memory and may fail. Its triple says what holds of the answer
and of the memory after it, for every memory with a given property; the two ways to end have a
postcondition each. There is one rule for each way to build a query, so a fact about a question is
put together from facts about the questions that it asks in turn.
-/

namespace TypeGraph.Query

variable {α β : Type} {r : Registry}

/-! ## Answers of composed queries -/

@[simp] lemma answer_pure (a : α) (r : Registry) (m : Memory) :
    (pure a : Query α).answer r m = (.ok a, m) := rfl

@[simp] lemma answer_throw (e : Error) (r : Registry) (m : Memory) :
    (throw e : Query α).answer r m = (.error e, m) := rfl

@[simp] lemma answer_read (r : Registry) (m : Memory) :
    (read : Query Registry).answer r m = (.ok r, m) := rfl

@[simp] lemma answer_get (r : Registry) (m : Memory) :
    (get : Query Memory).answer r m = (.ok m, m) := rfl

@[simp] lemma answer_remembered (t : Handle) (r : Registry) (m : Memory) :
    (remembered t).answer r m = (.ok (m.about t), m) := rfl

@[simp] lemma answer_remember (t : Handle) (change : Slots → Slots) (r : Registry) (m : Memory) :
    (remember t change).answer r m = (.ok (), m.update t change) := rfl

@[simp] lemma answer_ofExcept (result : Except Error α) (r : Registry) (m : Memory) :
    (ofExcept result).answer r m = (result, m) := by
  cases result <;> rfl

lemma answer_bind (q : Query α) (f : α → Query β) (r : Registry) (m : Memory) :
    (q >>= f).answer r m = match q.answer r m with
      | (.ok a, m') => (f a).answer r m'
      | (.error e, m') => (.error e, m') := by
  rcases h : q.answer r m with ⟨_ | a, m'⟩ <;>
    simp only [answer, ReaderT.run_bind, ExceptT.run_bind, StateT.run_bind] at h ⊢ <;>
    rw [h] <;> rfl

lemma answer_bind_ok {q : Query α} {m m' : Memory} {a : α} (h : q.answer r m = (.ok a, m'))
    (f : α → Query β) : (q >>= f).answer r m = (f a).answer r m' := by
  rw [answer_bind, h]

lemma answer_bind_error {q : Query α} {m m' : Memory} {e : Error}
    (h : q.answer r m = (.error e, m')) (f : α → Query β) :
    (q >>= f).answer r m = (.error e, m') := by
  rw [answer_bind, h]

/-- What is made of the answer makes no difference to the memory. -/
lemma memory_map (f : α → β) (q : Query α) (r : Registry) (m : Memory) :
    ((f <$> q).answer r m).2 = (q.answer r m).2 := by
  rw [map_eq_pure_bind, answer_bind]
  rcases q.answer r m with ⟨e | a, m'⟩ <;> rfl

lemma memory_discard (q : Query α) (r : Registry) (m : Memory) :
    ((discard q).answer r m).2 = (q.answer r m).2 :=
  memory_map _ q r m

/-! ## Triples -/

/-- From every memory with the property `pre`, the query either succeeds with `post` or fails with
`fails`. -/
def Triple (r : Registry) (pre : Memory → Prop) (q : Query α) (post : α → Memory → Prop)
    (fails : Error → Memory → Prop) : Prop :=
  ∀ m, pre m → match q.answer r m with
    | (.ok a, m') => post a m'
    | (.error e, m') => fails e m'

namespace Triple

variable {pre pre' : Memory → Prop} {post post' : α → Memory → Prop}
  {fails fails' : Error → Memory → Prop} {q : Query α}

lemma of_ok (h : ∀ m, pre m → ∃ a m', q.answer r m = (.ok a, m') ∧ post a m') :
    Triple r pre q post fails := by
  intro m hm
  obtain ⟨a, m', hq, hpost⟩ := h m hm
  rw [hq]
  exact hpost

/-- What a triple without failures says about the answer. -/
lemma exists_ok (h : Triple r pre q post fun _ _ => False) {m : Memory} (hm : pre m) :
    ∃ a m', q.answer r m = (.ok a, m') ∧ post a m' := by
  have hq := h m hm
  rcases hans : q.answer r m with ⟨e | a, m'⟩ <;> rw [hans] at hq
  · exact hq.elim
  · exact ⟨a, m', rfl, hq⟩

lemma post_of_ok (h : Triple r pre q post fails) {m m' : Memory} {a : α} (hm : pre m)
    (hq : q.answer r m = (.ok a, m')) : post a m' := by
  have := h m hm
  rwa [hq] at this

lemma fails_of_error (h : Triple r pre q post fails) {m m' : Memory} {e : Error} (hm : pre m)
    (hq : q.answer r m = (.error e, m')) : fails e m' := by
  have := h m hm
  rwa [hq] at this

lemma conseq (h : Triple r pre q post fails) (hpre : ∀ m, pre' m → pre m)
    (hpost : ∀ a m, post a m → post' a m) (hfails : ∀ e m, fails e m → fails' e m) :
    Triple r pre' q post' fails' := by
  intro m hm
  have hq := h m (hpre m hm)
  rcases hans : q.answer r m with ⟨e | a, m'⟩ <;> rw [hans] at hq
  · exact hfails e m' hq
  · exact hpost a m' hq

/-- What is known apart from the memory can be assumed. -/
lemma given {p : Prop} (h : p → Triple r pre q post fails) :
    Triple r (fun m => pre m ∧ p) q post fails :=
  fun m hm => h hm.2 m hm.1

lemma pure (a : α) (h : ∀ m, pre m → post a m) : Triple r pre (Pure.pure a) post fails :=
  fun m hm => h m hm

lemma throw (e : Error) (h : ∀ m, pre m → fails e m) :
    Triple r pre (MonadExcept.throw e : Query α) post fails :=
  fun m hm => h m hm

lemma bind {mid : α → Memory → Prop} {post : β → Memory → Prop} {f : α → Query β}
    (hq : Triple r pre q mid fails) (hf : ∀ a, Triple r (mid a) (f a) post fails) :
    Triple r pre (q >>= f) post fails := by
  intro m hm
  have h := hq m hm
  rcases hans : q.answer r m with ⟨e | a, m'⟩ <;> rw [hans] at h
  · rw [answer_bind_error hans]
    exact h
  · rw [answer_bind_ok hans]
    exact hf a m' h

lemma read_bind {post : β → Memory → Prop} {f : Registry → Query β}
    (hf : Triple r pre (f r) post fails) : Triple r pre (read >>= f) post fails :=
  fun m hm => hf m hm

end Triple

/-! ## Lists -/

section Lists

variable {fails : Error → Memory → Prop} {l : List α}

/-- The rule for a test on the members of a list, which stops at the first success. -/
lemma Triple.anyM {inv : Memory → Prop} {f : α → Query Bool} {p : α → Bool → Prop}
    (hf : ∀ a ∈ l, Triple r inv (f a) (fun b m => inv m ∧ p a b) fails) :
    Triple r inv (l.anyM f)
      (fun b m => inv m ∧ if b then ∃ a ∈ l, p a true else ∀ a ∈ l, p a false) fails := by
  induction l with
  | nil => exact Triple.pure false fun m hm => ⟨hm, by simp⟩
  | cons a l ih =>
    rw [List.anyM_cons]
    refine (hf a (by simp)).bind fun b => ?_
    cases b with
    | true => exact Triple.pure true fun m hm => ⟨hm.1, a, by simp, hm.2⟩
    | false =>
      intro m hm
      refine (ih fun x hx => hf x (by simp [hx])).conseq (fun _ h => h) ?_ (fun _ _ h => h) m hm.1
      rintro b m' ⟨hinv, hb⟩
      refine ⟨hinv, ?_⟩
      cases b with
      | true =>
        obtain ⟨x, hx, htest⟩ := hb
        exact ⟨x, by simp [hx], htest⟩
      | false =>
        intro x hx
        rcases List.mem_cons.1 hx with rfl | hx
        · exact hm.2
        · exact hb x hx

lemma Triple.foldlM {I : β → Memory → Prop} {f : β → α → Query β}
    (hf : ∀ b, ∀ a ∈ l, Triple r (I b) (f b a) I fails) (b : β) :
    Triple r (I b) (l.foldlM f b) I fails := by
  induction l generalizing b with
  | nil => exact Triple.pure b fun m hm => hm
  | cons a l ih =>
    rw [List.foldlM_cons]
    exact (hf b a (by simp)).bind fun b' => ih (fun b x hx => hf b x (by simp [hx])) b'

/-- The rule for a list of questions with one answer each. -/
lemma Triple.mapM {inv : Memory → Prop} {f : α → Query β}
    (hf : ∀ a ∈ l, Triple r inv (f a) (fun _ => inv) fails) :
    Triple r inv (l.mapM f) (fun _ => inv) fails := by
  induction l with
  | nil => exact Triple.pure [] fun m hm => hm
  | cons a l ih =>
    rw [List.mapM_cons]
    refine (hf a (by simp)).bind fun b => ?_
    exact (ih fun x hx => hf x (by simp [hx])).bind fun bs => Triple.pure _ fun m hm => hm

/-- The members that pass a test, in their order. -/
def Selected (p : α → Bool → Prop) (l kept : List α) : Prop :=
  kept.Sublist l ∧ (∀ a ∈ kept, p a true) ∧ ∀ a ∈ l, a ∈ kept ∨ p a false

lemma Triple.filterM {inv : Memory → Prop} {f : α → Query Bool} {p : α → Bool → Prop}
    (hf : ∀ a ∈ l, Triple r inv (f a) (fun b m => inv m ∧ p a b) fails) :
    Triple r inv (l.filterM f) (fun kept m => inv m ∧ Selected p l kept) fails := by
  -- the accumulator holds what was kept so far, last one first
  have key : ∀ (l acc : List α),
      (∀ a ∈ l, Triple r inv (f a) (fun b m => inv m ∧ p a b) fails) →
      Triple r inv (l.filterAuxM f acc)
        (fun kept m => inv m ∧ ∃ new, kept = new.reverse ++ acc ∧ Selected p l new) fails := by
    intro l
    induction l with
    | nil =>
      intro acc _
      exact Triple.pure acc fun m hm => ⟨hm, [], rfl, by simp [Selected]⟩
    | cons a l ih =>
      intro acc hf
      rw [List.filterAuxM]
      refine (hf a (by simp)).bind fun b => ?_
      intro m hm
      have hrest := ih (cond b (a :: acc) acc) (fun x hx => hf x (by simp [hx]))
      refine hrest.conseq (fun _ h => h) ?_ (fun _ _ h => h) m hm.1
      rintro kept m' ⟨hinv, new, rfl, hsub, hkept, hleft⟩
      cases b with
      | true =>
        refine ⟨hinv, a :: new, by simp, hsub.cons_cons a, ?_, ?_⟩
        · intro x hx
          rcases List.mem_cons.1 hx with rfl | hx
          · exact hm.2
          · exact hkept x hx
        · intro x hx
          rcases List.mem_cons.1 hx with rfl | hx
          · exact Or.inl (by simp)
          · exact (hleft x hx).imp (fun h => by simp [h]) id
      | false =>
        refine ⟨hinv, new, rfl, hsub.cons a, hkept, ?_⟩
        intro x hx
        rcases List.mem_cons.1 hx with rfl | hx
        · exact Or.inr hm.2
        · exact hleft x hx
  unfold List.filterM
  refine (key l [] hf).bind fun kept => Triple.pure _ ?_
  rintro m ⟨hinv, new, rfl, hsel⟩
  exact ⟨hinv, by simpa using hsel⟩

end Lists

end TypeGraph.Query
