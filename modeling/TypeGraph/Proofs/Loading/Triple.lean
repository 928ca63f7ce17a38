import Mathlib.Tactic.Common
import TypeGraph.Loading.Resolve

/-!
# Reasoning about loads

A load turns a registry into a result and a registry. `Load.Triple` says what holds after it, when
it succeeds and when it fails; there is one rule for each way to compose loads.
-/

namespace TypeGraph.Load

variable {α β : Type} {r r' : Registry}

/-- The result of a load in a registry, and the registry after it. -/
def result (action : Load α) (r : Registry) : Except Error α × Registry :=
  action.run.run r

lemma result_ofExcept (result : Except Error α) (r : Registry) :
    (Load.ofExcept result).result r = (result, r) := by
  cases result <;> rfl

lemma result_bind (q : Load α) (f : α → Load β) (r : Registry) :
    (q >>= f).result r = match q.result r with
      | (.ok a, r') => (f a).result r'
      | (.error e, r') => (.error e, r') := by
  rcases h : q.result r with ⟨_ | a, r'⟩ <;>
    simp only [result, ExceptT.run_bind, StateT.run_bind] at h ⊢ <;>
    rw [h] <;> rfl

lemma result_bind_ok {q : Load α} {a : α} (h : q.result r = (.ok a, r')) (f : α → Load β) :
    (q >>= f).result r = (f a).result r' := by
  rw [result_bind, h]

lemma result_bind_error {q : Load α} {e : Error} (h : q.result r = (.error e, r'))
    (f : α → Load β) : (q >>= f).result r = (.error e, r') := by
  rw [result_bind, h]

lemma result_bind_eq_ok {q : Load α} {f : α → Load β} {b : β}
    (h : (q >>= f).result r = (.ok b, r')) :
    ∃ a r₁, q.result r = (.ok a, r₁) ∧ (f a).result r₁ = (.ok b, r') := by
  rcases hq : q.result r with ⟨e | a, r₁⟩
  · rw [result_bind_error hq] at h
    cases h
  · rw [result_bind_ok hq] at h
    exact ⟨a, r₁, rfl, h⟩

lemma result_tryCatch (q : Load α) (handler : Error → Load α) (r : Registry) :
    (tryCatch q handler).result r = match q.result r with
      | (.ok a, r') => (.ok a, r')
      | (.error e, r') => (handler e).result r' := by
  rcases h : q.result r with ⟨_ | a, r'⟩ <;>
    simp only [result, ExceptT.run_tryCatch, StateT.run_bind] at h ⊢ <;>
    rw [h] <;> rfl

lemma result_discard (q : Load α) (r : Registry) :
    ((discard q).result r).2 = (q.result r).2 := by
  have hdiscard : (discard q : Load PUnit) = q >>= fun _ => pure ⟨⟩ := rfl
  rw [hdiscard]
  rcases hq : q.result r with ⟨e | a, r'⟩
  · rw [result_bind_error hq]
  · rw [result_bind_ok hq]
    rfl

lemma result_define (origin : Origin) (r : Registry) :
    (Load.define origin).result r = match r.define origin with
      | .ok (t, r') => (.ok t, r')
      | .error e => (.error e, r) := by
  rw [Load.define, result_bind_ok (show (get : Load Registry).result r = (.ok r, r) from rfl)]
  cases r.define origin <;> rfl

lemma result_defineSynthetic (t : Handle) (field : FieldDecl) (r : Registry) :
    (Load.defineSynthetic t field).result r = match r.defineSynthetic t field with
      | .ok r' => (.ok (), r')
      | .error e => (.error e, r) := by
  rw [Load.defineSynthetic,
    result_bind_ok (show (get : Load Registry).result r = (.ok r, r) from rfl)]
  cases r.defineSynthetic t field <;> rfl

/-- From every registry with the property `pre`, the load either succeeds with `post` or fails with
`fails`. -/
def Triple (pre : Registry → Prop) (q : Load α) (post : α → Registry → Prop)
    (fails : Error → Registry → Prop) : Prop :=
  ∀ r, pre r → match q.result r with
    | (.ok a, r') => post a r'
    | (.error e, r') => fails e r'

namespace Triple

variable {pre pre' : Registry → Prop} {post post' : α → Registry → Prop}
  {fails fails' : Error → Registry → Prop} {q : Load α}

lemma post_of_ok (h : Triple pre q post fails) {a : α} (hr : pre r)
    (hq : q.result r = (.ok a, r')) : post a r' := by
  have := h r hr
  rwa [hq] at this

lemma fails_of_error (h : Triple pre q post fails) {e : Error} (hr : pre r)
    (hq : q.result r = (.error e, r')) : fails e r' := by
  have := h r hr
  rwa [hq] at this

/-- What holds after the load whether it succeeds or fails. -/
lemma after (h : Triple pre q (fun _ => pre') fun _ => pre') (hr : pre r) :
    pre' (q.result r).2 := by
  have hq := h r hr
  rcases hres : q.result r with ⟨e | a, r'⟩ <;> rw [hres] at hq
  · exact hq
  · exact hq

lemma conseq (h : Triple pre q post fails) (hpre : ∀ r, pre' r → pre r)
    (hpost : ∀ a r, post a r → post' a r) (hfails : ∀ e r, fails e r → fails' e r) :
    Triple pre' q post' fails' := by
  intro r hr
  have hq := h r (hpre r hr)
  rcases hres : q.result r with ⟨e | a, r'⟩ <;> rw [hres] at hq
  · exact hfails e r' hq
  · exact hpost a r' hq

lemma and (h : Triple pre q post fails) (h' : Triple pre q post' fails') :
    Triple pre q (fun a r => post a r ∧ post' a r) fun e r => fails e r ∧ fails' e r := by
  intro r hr
  have hq := h r hr
  have hq' := h' r hr
  rcases hres : q.result r with ⟨e | a, r'⟩ <;> rw [hres] at hq hq'
  · exact ⟨hq, hq'⟩
  · exact ⟨hq, hq'⟩

lemma pure (a : α) (h : ∀ r, pre r → post a r) : Triple pre (Pure.pure a) post fails :=
  fun r hr => h r hr

lemma throw (e : Error) (h : ∀ r, pre r → fails e r) :
    Triple pre (MonadExcept.throw e : Load α) post fails :=
  fun r hr => h r hr

lemma ofExcept {result : Except Error α} (hok : ∀ a r, result = .ok a → pre r → post a r)
    (herror : ∀ e r, result = .error e → pre r → fails e r) :
    Triple pre (Load.ofExcept result) post fails := by
  intro r hr
  cases result with
  | ok a => exact hok a r rfl hr
  | error e => exact herror e r rfl hr

lemma bind {mid : α → Registry → Prop} {post : β → Registry → Prop} {f : α → Load β}
    (hq : Triple pre q mid fails) (hf : ∀ a, Triple (mid a) (f a) post fails) :
    Triple pre (q >>= f) post fails := by
  intro r hr
  have h := hq r hr
  rcases hres : q.result r with ⟨e | a, r'⟩ <;> rw [hres] at h
  · rw [result_bind_error hres]
    exact h
  · rw [result_bind_ok hres]
    exact hf a r' h

lemma get_bind {post : β → Registry → Prop} {f : Registry → Load β}
    (hf : ∀ r, pre r → Triple (· = r) (f r) post fails) : Triple pre (get >>= f) post fails :=
  fun r hr => hf r hr r rfl

lemma edit {t : Handle} {change : Draft → Draft} {post : Unit → Registry → Prop}
    (h : ∀ r, pre r → post () (r.edit t change)) : Triple pre (Load.edit t change) post fails :=
  fun r hr => h r hr

lemma arrayOf {component root : Handle} {post : Handle → Registry → Prop}
    (h : ∀ r, pre r → post (r.arrayOf component root).1 (r.arrayOf component root).2) :
    Triple pre (Load.arrayOf component root) post fails :=
  fun r hr => h r hr

lemma tryCatch {handler : Error → Load α} {fails' : Error → Registry → Prop}
    (hq : Triple pre q post fails') (hhandler : ∀ e, Triple (fails' e) (handler e) post fails) :
    Triple pre (MonadExcept.tryCatch q handler) post fails := by
  intro r hr
  have h := hq r hr
  rw [result_tryCatch]
  rcases hres : q.result r with ⟨e | a, r'⟩ <;> rw [hres] at h
  · exact hhandler e r' h
  · exact h

end Triple

end TypeGraph.Load
