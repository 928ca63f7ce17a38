import TypeGraph.Proofs.Query.Moves

/-!
# What queries write down

However complicated a question is, it changes the memory in small steps: each one fills one slot of
one type with what the registry declares, or counts one more reading. `Fill` lists these steps with
the condition under which each is taken, and the rest of the file shows that every question is a
sequence of them, whether it succeeds or fails. Whatever the single steps preserve, all questions
preserve.
-/

namespace TypeGraph

open Relation

namespace Registry

/-- The type of the enclosing instance that a type declares now. -/
def declaredOuterClass (r : Registry) (t : Handle) : Except Error (Option Handle) :=
  match r.declaration? t with
  | some declaration => declaration.outerClass
  | none => .ok none

/-- The declaring type that a type declares now. -/
def declaredDeclaringClass (r : Registry) (t : Handle) : Except Error (Option Handle) :=
  match r.declaration? t with
  | some declaration => declaration.declaringClass
  | none => .ok none

/-- The member types that a type declares now. -/
def declaredMemberTypes (r : Registry) (t : Handle) : Except Error (List Handle) :=
  match r.declaration? t with
  | some declaration => declaration.memberTypes
  | none => .ok []

/-- The constructors that a type declares now. -/
def declaredConstructors (r : Registry) (t : Handle) : List ConstructorDecl :=
  match r.shape t with
  | .declared origin => origin.declaration.constructors
  | _ => []

/-- The methods that a type declares now. -/
def declaredMethods (r : Registry) (t : Handle) : List MethodDecl :=
  match r.shape t with
  | .primitive _ => []
  | .declared origin => origin.declaration.methods
  | .array _ root => [{ name := "clone", result := root }]

/-- The fields that a type declares now. -/
def declaredFields (r : Registry) (t : Handle) : List FieldDecl :=
  match r.shape t with
  | .declared origin => origin.declaration.fields
  | _ => []

/-- A number that a reading of the members of a type can have: the declarations of a draft last, so
that all their readings count as one. -/
def Reading (r : Registry) (t : Handle) (reading : Nat) : Prop :=
  (r.draft? t).isSome → reading = 0

end Registry

/-- What does not depend on the change stays as it is. -/
lemma Memory.about_update_eq {β : Type} {m : Memory} {t : Handle} (part : Slots → β)
    {change : Slots → Slots} (h : ∀ slots, part (change slots) = part slots) (s : Handle) :
    part ((m.update t change).about s) = part (m.about s) := by
  by_cases hs : s = t
  · rw [hs, about_update_self, h]
  · rw [about_update_of_ne hs]

/-- One step in which a question changes the memory. -/
inductive Fill (r : Registry) (m : Memory) : Memory → Prop
  | superclass {t : Handle} (link : Option Handle) (ht : r.Issued t)
      (hfree : (m.about t).superclass = none) (hdeclared : r.declaredSuperclass t = .ok link)
      (hcheck : ∀ s, link = some s → r.checkChain m [t] s = .ok ()) :
      Fill r m (m.update t fun slots => { slots with superclass := some link })
  | interfaces {t : Handle} (links : List Handle) (ht : r.Issued t)
      (hfree : (m.about t).interfaces = none) (hdeclared : r.declaredInterfaces t = .ok links)
      (hcheck : r.checkInterfaces m t links = .ok ()) :
      Fill r m (m.update t fun slots => { slots with interfaces := some links })
  | outerClass {t : Handle} (link : Option Handle) (ht : r.Issued t)
      (hfree : (m.about t).outerClass = none) (hdeclared : r.declaredOuterClass t = .ok link) :
      Fill r m (m.update t fun slots => { slots with outerClass := some link })
  | declaringClass {t : Handle} (link : Option Handle) (ht : r.Issued t)
      (hfree : (m.about t).declaringClass = none)
      (hdeclared : r.declaredDeclaringClass t = .ok link) :
      Fill r m (m.update t fun slots => { slots with declaringClass := some link })
  | memberTypes {t : Handle} (list : List Handle) (ht : r.Issued t)
      (hfree : (m.about t).memberTypes = none) (hdeclared : r.declaredMemberTypes t = .ok list) :
      Fill r m (m.update t fun slots => { slots with memberTypes := some list })
  | constructors {t : Handle} (list : List Constructor) (ht : r.Issued t)
      (hfree : (m.about t).constructors = none)
      (hdeclared : list.map Bound.decl = r.declaredConstructors t) :
      Fill r m (m.update t fun slots => { slots with constructors := some list })
  | methods {t : Handle} (reading : Nat) (ht : r.Issued t)
      (hfree : (m.about t).methods = none) (hreading : r.Reading t reading) :
      Fill r m (m.update t fun slots =>
        { slots with methods := some (Bound.ofList t reading (r.declaredMethods t)) })
  | methodIndex {t : Handle} (list : List Method) (ht : r.Issued t)
      (hfree : (m.about t).methodIndex = none) (hmethods : (m.about t).methods = some list) :
      Fill r m (m.update t fun slots =>
        { slots with methodIndex := some (MethodIndex.ofList list) })
  | allMethods {t : Handle} (list : List Method) (ht : r.Issued t)
      (hcollected : ∃ m₀, (Query.collectMethods r.size [] [] t).answer r m₀ = (.ok list, m))
      (hfree : (m.about t).allMethods = none) :
      Fill r m (m.update t fun slots => { slots with allMethods := some list })
  | fields {t : Handle} (list : List Field) (ht : r.Issued t)
      (hfree : (m.about t).fields = none)
      (hdeclared : list.map Bound.decl = r.declaredFields t) :
      Fill r m (m.update t fun slots => { slots with fields := some (FieldIndex.ofList list) })
  | scope {t : Handle} (name : Option String) (found : List Handle) (ht : r.Issued t)
      (hsearched : ∃ m₀, (Query.searchScope r.size name [] t).answer r m₀ = (.ok found, m))
      (hfree : (m.about t).scopes.lookup name = none) :
      Fill r m (m.update t fun slots => { slots with scopes := (name, found) :: slots.scopes })
  | reading : Fill r m { m with readings := m.readings + 1 }

namespace Query

variable {α β : Type} {r : Registry} {t : Handle}

/-! ## Single answers -/

lemma answer_once_some {slot : Slots → Option α} {keep : α → Slots → Slots} {ask : Query α}
    {m : Memory} {a : α} (h : slot (m.about t) = some a) :
    (once t slot keep ask).answer r m = (.ok a, m) := by
  unfold once
  rw [answer_bind_ok (answer_remembered t r m), h]
  rfl

lemma answer_once_none {slot : Slots → Option α} {keep : α → Slots → Slots} {ask : Query α}
    {m : Memory} (h : slot (m.about t) = none) :
    (once t slot keep ask).answer r m = match ask.answer r m with
      | (.ok a, m') => (.ok a, m'.update t (keep a))
      | (.error e, m') => (.error e, m') := by
  unfold once
  rw [answer_bind_ok (answer_remembered t r m), h]
  rcases hask : ask.answer r m with ⟨e | a, m'⟩
  · rw [answer_bind_error hask]
  · rw [answer_bind_ok hask, answer_bind_ok (answer_remember t (keep a) r m')]
    rfl

lemma once_eq_ok {slot : Slots → Option α} {keep : α → Slots → Slots} {ask : Query α}
    {m m' : Memory} {a : α} (h : (once t slot keep ask).answer r m = (.ok a, m')) :
    (slot (m.about t) = some a ∧ m' = m) ∨
      (slot (m.about t) = none ∧ ∃ m₁, ask.answer r m = (.ok a, m₁) ∧
        m' = m₁.update t (keep a)) := by
  cases hslot : slot (m.about t) with
  | some known =>
    rw [answer_once_some hslot] at h
    cases h
    exact Or.inl ⟨rfl, rfl⟩
  | none =>
    rw [answer_once_none hslot] at h
    rcases hask : ask.answer r m with ⟨e | a', m₁⟩ <;> rw [hask] at h <;> cases h
    exact Or.inr ⟨rfl, m₁, rfl, rfl⟩

lemma once_eq_error {slot : Slots → Option α} {keep : α → Slots → Slots} {ask : Query α}
    {m m' : Memory} {e : Error} (h : (once t slot keep ask).answer r m = (.error e, m')) :
    slot (m.about t) = none ∧ ask.answer r m = (.error e, m') := by
  cases hslot : slot (m.about t) with
  | some known =>
    rw [answer_once_some hslot] at h
    cases h
  | none =>
    rw [answer_once_none hslot] at h
    rcases hask : ask.answer r m with ⟨e' | a, m₁⟩ <;> rw [hask] at h <;> cases h
    exact ⟨rfl, rfl⟩

lemma exists_once_ok {slot : Slots → Option α} {keep : α → Slots → Slots} {ask : Query α}
    (hask : ∀ m, ∃ a m', ask.answer r m = (.ok a, m')) (m : Memory) :
    ∃ a m', (once t slot keep ask).answer r m = (.ok a, m') := by
  rcases hans : (once t slot keep ask).answer r m with ⟨e | a, m'⟩
  · obtain ⟨a, m₁, hask⟩ := hask m
    rw [(once_eq_error hans).2] at hask
    cases hask
  · exact ⟨a, m', rfl⟩

/-- An answer that was given is remembered. -/
lemma slot_of_once_ok {slot : Slots → Option α} {keep : α → Slots → Slots} {ask : Query α}
    {m m' : Memory} {a : α} (hkeep : ∀ a slots, slot (keep a slots) = some a)
    (h : (once t slot keep ask).answer r m = (.ok a, m')) : slot (m'.about t) = some a := by
  rcases once_eq_ok h with ⟨hslot, rfl⟩ | ⟨-, m₁, -, rfl⟩
  · exact hslot
  · rw [Memory.about_update_self, hkeep]

lemma answer_superclass_some {m : Memory} {link : Option Handle}
    (h : (m.about t).superclass = some link) : (superclass t).answer r m = (.ok link, m) :=
  answer_once_some h

lemma answer_superclass_none {m : Memory} (h : (m.about t).superclass = none) :
    (superclass t).answer r m = match r.declaredSuperclass t with
      | .error e => (.error e, m)
      | .ok link =>
        match link.elim (.ok ()) (r.checkChain m [t]) with
        | .error e => (.error e, m)
        | .ok () => (.ok link, m.update t fun slots => { slots with superclass := some link }) := by
  unfold superclass
  rw [answer_once_none h, answer_bind_ok (answer_read r m)]
  rcases hdecl : r.declaredSuperclass t with e | link
  · rw [answer_bind_error (answer_ofExcept _ r m)]
  · rw [answer_bind_ok (answer_ofExcept _ r m)]
    cases link with
    | none => rfl
    | some first =>
      simp only [answer_bind_ok (answer_get r m), Option.elim_some]
      rcases hcheck : r.checkChain m [t] first with e | u
      · rw [answer_bind_error (answer_ofExcept _ r m)]
      · rw [answer_bind_ok (answer_ofExcept _ r m)]
        rfl

lemma answer_interfaces_some {m : Memory} {links : List Handle}
    (h : (m.about t).interfaces = some links) : (interfaces t).answer r m = (.ok links, m) :=
  answer_once_some h

lemma answer_interfaces_none {m : Memory} (h : (m.about t).interfaces = none) :
    (interfaces t).answer r m = match r.declaredInterfaces t with
      | .error e => (.error e, m)
      | .ok links =>
        match r.checkInterfaces m t links with
        | .error e => (.error e, m)
        | .ok () =>
          (.ok links, m.update t fun slots => { slots with interfaces := some links }) := by
  unfold interfaces
  rw [answer_once_none h, answer_bind_ok (answer_read r m)]
  rcases hdecl : r.declaredInterfaces t with e | links
  · rw [answer_bind_error (answer_ofExcept _ r m)]
  · rw [answer_bind_ok (answer_ofExcept _ r m), answer_bind_ok (answer_get r m)]
    rcases hcheck : r.checkInterfaces m t links with e | u
    · simp only [answer_bind_error (answer_ofExcept _ r m), hcheck]
    · simp only [answer_bind_ok (answer_ofExcept _ r m), answer_pure, hcheck]

/-! ## Composition -/

/-- The query changes the memory in the given steps only. -/
def Fills (r : Registry) (q : Query α) : Prop :=
  ∀ m, ReflTransGen (Fill r) m (q.answer r m).2

lemma fills_pure (a : α) : Fills r (pure a : Query α) := moves_pure a

lemma Fills.bind {q : Query α} {f : α → Query β} (hq : Fills r q) (hf : ∀ a, Fills r (f a)) :
    Fills r (q >>= f) :=
  Moves.bind hq hf

lemma fills_read_bind {f : Registry → Query β} (hf : Fills r (f r)) : Fills r (read >>= f) :=
  moves_read_bind hf

/-- The rule for a question that is answered once: asking makes steps only, and the answer then
fits into the slot, which is still free. -/
lemma fills_once {slot : Slots → Option α} {keep : α → Slots → Slots} {ask : Query α}
    (hask : Fills r ask)
    (hkeep : ∀ m a m', slot (m.about t) = none → ask.answer r m = (.ok a, m') →
      Fill r m' (m'.update t (keep a))) : Fills r (once t slot keep ask) := by
  intro m
  cases hslot : slot (m.about t) with
  | some a => rw [answer_once_some hslot]
  | none =>
    rw [answer_once_none hslot]
    have h := hask m
    rcases hans : ask.answer r m with ⟨e | a, m'⟩ <;> rw [hans] at h
    · exact h
    · exact h.tail (hkeep m a m' hslot hans)

/-! ## Supertypes and enclosing types -/

lemma fills_superclass (ht : r.Issued t) : Fills r (superclass t) := by
  intro m
  cases hslot : (m.about t).superclass with
  | some link => rw [answer_superclass_some hslot]
  | none =>
    rw [answer_superclass_none hslot]
    rcases hdecl : r.declaredSuperclass t with e | link
    · exact ReflTransGen.refl
    · rcases hcheck : link.elim (.ok ()) (r.checkChain m [t]) with e | u
      · simp only [hcheck]
        exact ReflTransGen.refl
      · simp only [hcheck]
        refine ReflTransGen.single (Fill.superclass link ht hslot hdecl ?_)
        rintro s rfl
        exact hcheck

lemma fills_interfaces (ht : r.Issued t) : Fills r (interfaces t) := by
  intro m
  cases hslot : (m.about t).interfaces with
  | some links => rw [answer_interfaces_some hslot]
  | none =>
    rw [answer_interfaces_none hslot]
    rcases hdecl : r.declaredInterfaces t with e | links
    · exact ReflTransGen.refl
    · rcases hcheck : r.checkInterfaces m t links with e | u
      · simp only [hcheck]
        exact ReflTransGen.refl
      · simp only [hcheck]
        exact ReflTransGen.single (Fill.interfaces links ht hslot hdecl hcheck)

/-- The rule for a slot that is filled with what the registry declares. -/
lemma fills_once_declared {slot : Slots → Option α} {keep : α → Slots → Slots} {ask : Query α}
    (declared : Except Error α) (hask : ∀ m, ask.answer r m = (declared, m))
    (hkeep : ∀ m a, slot (m.about t) = none → declared = .ok a →
      Fill r m (m.update t (keep a))) : Fills r (once t slot keep ask) := by
  refine fills_once (fun m => by rw [hask]) ?_
  intro m a m' hslot hans
  rw [hask] at hans
  obtain ⟨hdecl, rfl⟩ := Prod.mk.inj hans
  exact hkeep m a hslot hdecl

/-- Reading a part of the declaration of a type changes nothing. -/
lemma answer_declaration (t : Handle) (part : Declaration → Except Error α) (other : α)
    (m : Memory) :
    (do match (← read).declaration? t with
        | some declaration => ofExcept (part declaration)
        | none => return other : Query α).answer r m =
      (match r.declaration? t with
        | some declaration => part declaration
        | none => .ok other, m) := by
  rw [answer_bind_ok (answer_read r m)]
  cases r.declaration? t with
  | none => rfl
  | some declaration => exact answer_ofExcept _ r m

lemma fills_outerClass (ht : r.Issued t) : Fills r (outerClass t) :=
  fills_once_declared (r.declaredOuterClass t) (answer_declaration t Declaration.outerClass none)
    fun _ link hfree hdecl => Fill.outerClass link ht hfree hdecl

lemma fills_declaringClass (ht : r.Issued t) : Fills r (declaringClass t) :=
  fills_once_declared (r.declaredDeclaringClass t)
    (answer_declaration t Declaration.declaringClass none)
    fun _ link hfree hdecl => Fill.declaringClass link ht hfree hdecl

lemma fills_memberTypes (ht : r.Issued t) : Fills r (memberTypes t) :=
  fills_once_declared (r.declaredMemberTypes t) (answer_declaration t Declaration.memberTypes [])
    fun _ list hfree hdecl => Fill.memberTypes list ht hfree hdecl

/-! ## Members -/

lemma fills_newReading : Fills r newReading := fun _ => ReflTransGen.single Fill.reading

/-- The members that are read are the declared ones, and reading fills no slot. -/
lemma readMembers_spec {origin : Origin} (horigin : r.shape t = .declared origin) (decls : List α)
    (m : Memory) :
    ∃ list m', (readMembers t origin decls).answer r m = (.ok list, m') ∧
      (∃ reading, list = Bound.ofList t reading decls ∧ r.Reading t reading) ∧
      m'.slots = m.slots ∧ ReflTransGen (Fill r) m m' := by
  cases origin with
  | draft d => exact ⟨_, m, rfl, ⟨0, rfl, fun _ => rfl⟩, rfl, ReflTransGen.refl⟩
  | fixed d =>
    refine ⟨_, _, rfl, ⟨_, rfl, fun hdraft => ?_⟩, rfl, fills_newReading m⟩
    simp [Registry.draft?, horigin] at hdraft

/-- The rule for a slot that is filled with the declared members of a type. -/
lemma fills_once_members {δ : Type} {slot : Slots → Option α} {keep : α → Slots → Slots}
    {ask : Query α} (decls : List δ) (make : List (Bound δ) → α)
    (hask : ∀ m, ∃ list m', ask.answer r m = (.ok (make list), m') ∧
      (∃ reading, list = Bound.ofList t reading decls ∧ r.Reading t reading) ∧
      m'.slots = m.slots ∧ ReflTransGen (Fill r) m m')
    (hkeep : ∀ (m : Memory) reading, slot (m.about t) = none → r.Reading t reading →
      Fill r m (m.update t (keep (make (Bound.ofList t reading decls))))) :
    Fills r (once t slot keep ask) := by
  refine fills_once (fun m => ?_) ?_
  · obtain ⟨list, m', hans, -, -, hfills⟩ := hask m
    rw [hans]
    exact hfills
  · intro m a m' hslot hans
    obtain ⟨_, m'', hans', ⟨reading, rfl, hreading⟩, hslots, -⟩ := hask m
    rw [hans'] at hans
    obtain ⟨ha, rfl⟩ := Prod.mk.inj hans
    cases ha
    refine hkeep m'' reading ?_ hreading
    -- reading touches no slot, so the slot is as free as before
    rw [Memory.about, hslots]
    exact hslot

/-- What is done to answer for the constructors of a type for the first time. -/
def readConstructors (t : Handle) : Query (List Constructor) := do
  match (← read).shape t with
  | .declared origin => readMembers t origin origin.declaration.constructors
  | _ => return []

lemma constructors_eq_once (t : Handle) :
    constructors t = once t Slots.constructors
      (fun list slots => { slots with constructors := some list }) (readConstructors t) := rfl

lemma readConstructors_spec (t : Handle) (m : Memory) :
    ∃ list m', (readConstructors t).answer r m = (.ok list, m') ∧
      (∃ reading, list = Bound.ofList t reading (r.declaredConstructors t) ∧ r.Reading t reading) ∧
      m'.slots = m.slots ∧ ReflTransGen (Fill r) m m' := by
  rw [readConstructors, answer_bind_ok (answer_read r m), Registry.declaredConstructors]
  cases hshape : r.shape t with
  | declared origin => exact readMembers_spec hshape _ m
  | primitive p => exact ⟨[], m, rfl, ⟨0, rfl, fun _ => rfl⟩, rfl, ReflTransGen.refl⟩
  | array component root => exact ⟨[], m, rfl, ⟨0, rfl, fun _ => rfl⟩, rfl, ReflTransGen.refl⟩

lemma fills_constructors (ht : r.Issued t) : Fills r (constructors t) :=
  fills_once_members (r.declaredConstructors t) id (readConstructors_spec t)
    fun _ reading hfree _ => Fill.constructors _ ht hfree (Bound.map_decl_ofList t reading _)

/-- The constructors of a type can always be read. -/
lemma exists_constructors (t : Handle) (m : Memory) :
    ∃ list m', (constructors t).answer r m = (.ok list, m') := by
  rw [constructors_eq_once]
  refine exists_once_ok (fun m => ?_) m
  obtain ⟨list, m', hans, -⟩ := readConstructors_spec (r := r) t m
  exact ⟨list, m', hans⟩

/-- What is done to answer for the declared methods of a type for the first time. -/
def readMethods (t : Handle) : Query (List Method) := do
  match (← read).shape t with
  | .primitive _ => return []
  | .declared origin => readMembers t origin origin.declaration.methods
  | .array _ root => return Bound.ofList t (← newReading) [{ name := "clone", result := root }]

lemma methods_eq_once (t : Handle) :
    methods t = once t Slots.methods (fun list slots => { slots with methods := some list })
      (readMethods t) := rfl

lemma readMethods_spec (t : Handle) (m : Memory) :
    ∃ list m', (readMethods t).answer r m = (.ok list, m') ∧
      (∃ reading, list = Bound.ofList t reading (r.declaredMethods t) ∧ r.Reading t reading) ∧
      m'.slots = m.slots ∧ ReflTransGen (Fill r) m m' := by
  rw [readMethods, answer_bind_ok (answer_read r m), Registry.declaredMethods]
  cases hshape : r.shape t with
  | declared origin => exact readMembers_spec hshape _ m
  | primitive p => exact ⟨[], m, rfl, ⟨0, rfl, fun _ => rfl⟩, rfl, ReflTransGen.refl⟩
  | array component root =>
    refine ⟨_, _, rfl, ⟨_, rfl, fun hdraft => ?_⟩, rfl, fills_newReading m⟩
    simp [Registry.draft?, hshape] at hdraft

/-- The declared methods of a type can always be read. -/
lemma exists_methods (t : Handle) (m : Memory) :
    ∃ list m', (methods t).answer r m = (.ok list, m') := by
  rw [methods_eq_once]
  refine exists_once_ok (fun m => ?_) m
  obtain ⟨list, m', hans, -⟩ := readMethods_spec (r := r) t m
  exact ⟨list, m', hans⟩

lemma fills_methods (ht : r.Issued t) : Fills r (methods t) :=
  fills_once_members (r.declaredMethods t) id (readMethods_spec t)
    fun _ reading hfree hreading => Fill.methods reading ht hfree hreading

/-- What is done to answer for the fields of a type for the first time. -/
def readFields (t : Handle) : Query FieldIndex := do
  match (← read).shape t with
  | .declared origin =>
    return FieldIndex.ofList (← readMembers t origin origin.declaration.fields)
  | _ => return .empty

lemma fieldIndex_eq_once (t : Handle) :
    fieldIndex t = once t Slots.fields (fun index slots => { slots with fields := some index })
      (readFields t) := rfl

lemma readFields_spec (t : Handle) (m : Memory) :
    ∃ list m', (readFields t).answer r m = (.ok (FieldIndex.ofList list), m') ∧
      (∃ reading, list = Bound.ofList t reading (r.declaredFields t) ∧ r.Reading t reading) ∧
      m'.slots = m.slots ∧ ReflTransGen (Fill r) m m' := by
  rw [readFields, answer_bind_ok (answer_read r m), Registry.declaredFields]
  cases hshape : r.shape t with
  | declared origin =>
    obtain ⟨list, m', hans, hlist, hslots, hfills⟩ :=
      readMembers_spec hshape origin.declaration.fields m
    exact ⟨list, m', answer_bind_ok hans _, hlist, hslots, hfills⟩
  | primitive p => exact ⟨[], m, rfl, ⟨0, rfl, fun _ => rfl⟩, rfl, ReflTransGen.refl⟩
  | array component root => exact ⟨[], m, rfl, ⟨0, rfl, fun _ => rfl⟩, rfl, ReflTransGen.refl⟩

lemma fills_fieldIndex (ht : r.Issued t) : Fills r (fieldIndex t) :=
  fills_once_members (r.declaredFields t) FieldIndex.ofList (readFields_spec t)
    fun _ reading hfree _ => Fill.fields _ ht hfree (Bound.map_decl_ofList t reading _)

lemma fills_fields (ht : r.Issued t) : Fills r (fields t) :=
  (fills_fieldIndex ht).bind fun _ => fills_pure _

/-- Afterwards the methods that were given are the ones remembered, and no other slot of the type
has changed. -/
lemma about_of_methods {m m' : Memory} {list : List Method}
    (h : (methods t).answer r m = (.ok list, m')) :
    m'.about t = { m.about t with methods := some list } := by
  rcases once_eq_ok h with ⟨hslot, rfl⟩ | ⟨-, m₁, hans, rfl⟩
  · rw [← hslot]
  · obtain ⟨list', m₂, hans', -, hslots, -⟩ := readMethods_spec (r := r) t m
    have heq : (.ok list', m₂) = ((.ok list : Except Error _), m₁) := hans'.symm.trans hans
    cases heq
    rw [Memory.about_update_self, Memory.about, hslots, Memory.about]

lemma fills_methodsNamed (ht : r.Issued t) (name : String) : Fills r (methodsNamed t name) := by
  refine (fills_once ((fills_methods ht).bind fun list => fills_pure _) ?_).bind
    fun index => fills_pure _
  intro m index m' hslot hans
  rcases hmethods : (methods t).answer r m with ⟨e | list, m₁⟩
  · rw [answer_bind_error hmethods] at hans
    cases hans
  · rw [answer_bind_ok hmethods] at hans
    cases hans
    have habout := about_of_methods hmethods
    exact Fill.methodIndex list ht (by rw [habout]; exact hslot) (by rw [habout])

lemma fills_findMethod (ht : r.Issued t) (name : String) (parameters : List Handle) :
    Fills r (findMethod t name parameters) :=
  (fills_methodsNamed ht name).bind fun _ => fills_pure _

lemma fills_hasMethod (ht : r.Issued t) (name : String) (parameters : List Handle) :
    Fills r (hasMethod t name parameters) :=
  (fills_findMethod ht name parameters).bind fun _ => fills_pure _

lemma fills_field (ht : r.Issued t) (name : String) : Fills r (field t name) :=
  (fills_fieldIndex ht).bind fun _ => fills_pure _

lemma fills_syntheticFields : Fills r (syntheticFields t) := by
  refine fills_read_bind ?_
  cases r.declaration? t with
  | none => exact fills_pure _
  | some declaration => exact fills_pure _

lemma fills_constructorDescriptor {constructor : Constructor} (ht : r.Issued constructor.owner) :
    Fills r (constructorDescriptor constructor) :=
  fills_read_bind ((fills_outerClass ht).bind fun _ => fills_pure _)

/-! ## What is left alone

A question that is answered from one declaration fills its own slot and no other. The answers that
are put together along a walk are filled in by the question for them, and by no question that is
asked on the walk. -/

/-- The query fills no slot. -/
def Leaves (r : Registry) (q : Query α) : Prop := ∀ m, (q.answer r m).2.slots = m.slots

lemma leaves_pure (a : α) : Leaves r (pure a : Query α) := fun _ => rfl

lemma leaves_ofExcept (result : Except Error α) : Leaves r (ofExcept result) := by
  intro m
  rw [answer_ofExcept]

lemma Leaves.bind {q : Query α} {f : α → Query β} (hq : Leaves r q) (hf : ∀ a, Leaves r (f a)) :
    Leaves r (q >>= f) := by
  intro m
  have h := hq m
  rcases hans : q.answer r m with ⟨e | a, m'⟩ <;> rw [hans] at h
  · rw [answer_bind_error hans]
    exact h
  · rw [answer_bind_ok hans, hf a m']
    exact h

lemma leaves_read_bind {f : Registry → Query β} (hf : Leaves r (f r)) : Leaves r (read >>= f) :=
  fun m => hf m

lemma leaves_get_bind {f : Memory → Query β} (hf : ∀ m, Leaves r (f m)) : Leaves r (get >>= f) :=
  fun m => hf m m

/-- The question is answered from a slot, or else from the declaration of the type. -/
def Direct (r : Registry) (t : Handle) (slot : Slots → Option α) (keep : α → Slots → Slots)
    (q : Query α) : Prop :=
  ∃ ask, q = once t slot keep ask ∧ Leaves r ask

lemma direct_superclass (t : Handle) : Direct r t Slots.superclass
    (fun link slots => { slots with superclass := some link }) (superclass t) := by
  refine ⟨_, rfl, leaves_read_bind ((leaves_ofExcept _).bind fun link => ?_)⟩
  cases link with
  | none => exact leaves_pure none
  | some first => exact leaves_get_bind fun _ => (leaves_ofExcept _).bind fun _ => leaves_pure _

lemma direct_interfaces (t : Handle) : Direct r t Slots.interfaces
    (fun links slots => { slots with interfaces := some links }) (interfaces t) := by
  refine ⟨_, rfl, leaves_read_bind ((leaves_ofExcept _).bind fun links => ?_)⟩
  exact leaves_get_bind fun _ => (leaves_ofExcept _).bind fun _ => leaves_pure _

/-- Reading a part of the declaration of a type fills no slot. -/
lemma leaves_declaration (t : Handle) (part : Declaration → Except Error α) (other : α) :
    Leaves r (do match (← read).declaration? t with
      | some declaration => ofExcept (part declaration)
      | none => return other : Query α) := by
  intro m
  rw [answer_declaration]

lemma direct_outerClass (t : Handle) : Direct r t Slots.outerClass
    (fun link slots => { slots with outerClass := some link }) (outerClass t) :=
  ⟨_, rfl, leaves_declaration t Declaration.outerClass none⟩

lemma direct_declaringClass (t : Handle) : Direct r t Slots.declaringClass
    (fun link slots => { slots with declaringClass := some link }) (declaringClass t) :=
  ⟨_, rfl, leaves_declaration t Declaration.declaringClass none⟩

lemma direct_memberTypes (t : Handle) : Direct r t Slots.memberTypes
    (fun list slots => { slots with memberTypes := some list }) (memberTypes t) :=
  ⟨_, rfl, leaves_declaration t Declaration.memberTypes []⟩

lemma direct_constructors (t : Handle) : Direct r t Slots.constructors
    (fun list slots => { slots with constructors := some list }) (constructors t) := by
  refine ⟨readConstructors t, rfl, fun m => ?_⟩
  obtain ⟨list, m', hans, -, hslots, -⟩ := readConstructors_spec (r := r) t m
  rw [hans]
  exact hslots

lemma direct_methods (t : Handle) : Direct r t Slots.methods
    (fun list slots => { slots with methods := some list }) (methods t) := by
  refine ⟨readMethods t, rfl, fun m => ?_⟩
  obtain ⟨list, m', hans, -, hslots, -⟩ := readMethods_spec (r := r) t m
  rw [hans]
  exact hslots

section Spares

variable {σ : Type} {part : Slots → σ}

/-- The same part is remembered, for all types. -/
def SamePart (part : Slots → σ) (m m' : Memory) : Prop :=
  ∀ t, part (m'.about t) = part (m.about t)

instance : Std.Refl (SamePart part) := ⟨fun _ _ => rfl⟩

instance : IsTrans Memory (SamePart part) := ⟨fun _ _ _ h h' t => (h' t).trans (h t)⟩

/-- The question leaves a part of what is remembered as it is. -/
def Spares (part : Slots → σ) (r : Registry) (q : Query α) : Prop := Moves (SamePart part) r q

lemma Leaves.spares {q : Query α} (hq : Leaves r q) : Spares part r q := by
  intro m t
  rw [Memory.about, hq m, Memory.about]

/-- The rule for a question that is answered once: neither asking nor keeping the answer touches the
part. -/
lemma spares_once {slot : Slots → Option α} {keep : α → Slots → Slots} {ask : Query α}
    (hask : Spares part r ask) (hkeep : ∀ a slots, part (keep a slots) = part slots) :
    Spares part r (once t slot keep ask) := by
  intro m u
  cases hslot : slot (m.about t) with
  | some a => rw [answer_once_some hslot]
  | none =>
    have h := hask m u
    rw [answer_once_none hslot]
    rcases hans : ask.answer r m with ⟨e | a, m'⟩ <;> rw [hans] at h
    · exact h
    · exact (Memory.about_update_eq part (hkeep a) u).trans h

lemma Direct.spares {slot : Slots → Option α} {keep : α → Slots → Slots} {q : Query α}
    (h : Direct r t slot keep q) (hkeep : ∀ a slots, part (keep a slots) = part slots) :
    Spares part r q := by
  obtain ⟨ask, rfl, hask⟩ := h
  exact spares_once hask.spares hkeep

/-- The part has nothing of what is asked on the walks through supertypes and scopes. -/
structure Apart (part : Slots → σ) : Prop where
  superclass : ∀ link slots, part { slots with superclass := some link } = part slots
  interfaces : ∀ links slots, part { slots with interfaces := some links } = part slots
  outerClass : ∀ link slots, part { slots with outerClass := some link } = part slots
  declaringClass : ∀ link slots, part { slots with declaringClass := some link } = part slots
  memberTypes : ∀ list slots, part { slots with memberTypes := some list } = part slots
  methods : ∀ list slots, part { slots with methods := some list } = part slots

lemma apart_allMethods : Apart Slots.allMethods := by constructor <;> exact fun _ _ => rfl

lemma apart_scopes : Apart Slots.scopes := by constructor <;> exact fun _ _ => rfl

/-- The walks leave such a part alone. -/
lemma Apart.walksAlong (hpart : Apart part) : WalksAlong (SamePart part) r where
  superclass _ := (direct_superclass _).spares hpart.superclass
  interfaces _ := (direct_interfaces _).spares hpart.interfaces
  outerClass _ := (direct_outerClass _).spares hpart.outerClass
  declaringClass _ := (direct_declaringClass _).spares hpart.declaringClass
  memberTypes _ := (direct_memberTypes _).spares hpart.memberTypes
  methods _ := (direct_methods _).spares hpart.methods

end Spares

/-! ## Walks -/

lemma fills_walks : WalksAlong (ReflTransGen (Fill r)) r where
  superclass := fills_superclass
  interfaces := fills_interfaces
  outerClass := fills_outerClass
  declaringClass := fills_declaringClass
  memberTypes := fills_memberTypes
  methods := fills_methods

lemma fills_collectMethods (trail : List Handle) (collected : List Method) (t : Handle) :
    Fills r (collectMethods r.size trail collected t) :=
  fills_walks.collectMethods trail collected t

lemma fills_allMethods (ht : r.Issued t) : Fills r (allMethods t) := by
  refine fills_once (fills_read_bind (fills_collectMethods [] [] t)) fun m list m' hfree hans => ?_
  have hspares := apart_allMethods.walksAlong.collectMethods (r := r) [] [] t m t
  rw [show (collectMethods r.size [] [] t).answer r m = (.ok list, m') from hans] at hspares
  exact Fill.allMethods list ht ⟨m, hans⟩ (hspares.trans hfree)

lemma fills_searchScope (name : Option String) (trail : List Handle) (t : Handle) :
    Fills r (searchScope r.size name trail t) :=
  fills_walks.searchScope name trail t

lemma fills_findMemberTypes (ht : r.Issued t) (name : Option String) :
    Fills r (findMemberTypes t name) := by
  refine fills_once (fills_read_bind (fills_searchScope name [] t)) fun m found m' hfree hans => ?_
  have hspares := apart_scopes.walksAlong.searchScope (r := r) name [] t m t
  rw [show (searchScope r.size name [] t).answer r m = (.ok found, m') from hans] at hspares
  exact Fill.scope name found ht ⟨m, hans⟩ ((congrArg (List.lookup name) hspares).trans hfree)

lemma fills_call (ht : r.Issued t) (name : String) (arguments : List Handle) :
    Fills r (call t name arguments) := by
  obtain ⟨choose, hcall, hchoose⟩ := fills_walks.exists_call_eq (r := r) t name arguments
  rw [hcall]
  exact (fills_allMethods ht).bind hchoose

end Query

end TypeGraph
