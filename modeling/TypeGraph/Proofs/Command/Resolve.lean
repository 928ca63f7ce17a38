import TypeGraph.Command
import TypeGraph.Proofs.Overload.Call

/-!
# Calls resolved by the command

The command that resolves a call first loads the types that the call names, and then writes how it
ends: the method that was found, the ones that it cannot choose between, or that no method is
applicable. The text of a method never reads like the last of these, because there is a point in it
before the name of the method. So the end of a call can be read off what is written, in both forms.
-/

namespace TypeGraph

/-! ## Texts -/

namespace Command

lemma lines_singleton (text : String) : lines [text] = text ++ "\n" := by
  rw [lines, List.map_singleton, String.join_cons, String.join_nil, String.append_empty]

end Command

namespace Registry

/-- A point stands before the name of a method, and its signature behind it. -/
lemma renderMethod_split (r : Registry) (method : Method) :
    ∃ before, r.renderMethod method = before ++ "." ++ method.decl.name ++
      r.renderSignature method.decl.parameters method.decl.thrown :=
  ⟨_, rfl⟩

/-- A signature has its parentheses at least. -/
lemma two_le_length_renderSignature (r : Registry) (parameters thrown : List Handle) :
    2 ≤ (r.renderSignature parameters thrown).toList.length := by
  simp only [renderSignature, String.toList_append, List.length_append]
  have hopen : "(".toList.length = 1 := by decide
  have hclose : ")".toList.length = 1 := by decide
  omega

/-- The text of a method is not the one for a missing method. -/
lemma renderMethod_ne (r : Registry) (method : Method) :
    r.renderMethod method ≠ "no applicable method " ++ method.decl.name := by
  intro heq
  obtain ⟨before, hsplit⟩ := r.renderMethod_split method
  have hlong := r.two_le_length_renderSignature method.decl.parameters method.decl.thrown
  have hchars := congrArg String.toList (hsplit.symm.trans heq)
  have hpoint : ".".toList = ['.'] := rfl
  simp only [String.toList_append, hpoint, List.append_assoc, List.singleton_append] at hchars
  have hwords : "no applicable method ".toList.length = 21 := by decide
  have hlength := congrArg List.length hchars
  simp only [List.length_append, List.length_cons, hwords] at hlength
  -- so the point would be one of the characters before the name, none of which is a point
  have hhead : ("no applicable method ".toList ++ method.decl.name.toList)[before.toList.length]? =
      "no applicable method ".toList[before.toList.length]? := List.getElem?_append_left (by omega)
  rw [← hchars, List.getElem?_append_right (Nat.le_refl _), Nat.sub_self] at hhead
  exact absurd (List.mem_of_getElem? hhead.symm) (by decide)

end Registry

/-! ## What is written -/

open Document in
/-- The fields of a JSON report on a call, up to the outcome. -/
def callFields (className method : String) (arguments applicable mostSpecific : List String) :
    String :=
  "\x7b\n  \"class\": " ++ quoted className ++
  ",\n  \"method\": " ++ quoted method ++
  ",\n  \"arguments\": " ++ (strings arguments).pretty "  " ++
  ",\n  \"applicable\": " ++ (strings applicable).pretty "  " ++
  ",\n  \"most_specific\": " ++ (strings mostSpecific).pretty "  "

/-- The last field of the JSON report on a call. -/
def outcomeField (outcome : String) : String :=
  ",\n  \"outcome\": \"" ++ outcome ++ "\"\n\x7d\n"

namespace Output

/-- What is written about a call. -/
structure Reports (output : Output) (json : Bool) (r : Registry) (t : Handle) (method : String)
    (arguments : List String) (call : Call) : Prop where
  exit : output.exit = 0
  err : output.err = ""
  /-- As text, the end of the call. -/
  not_found : json = false → call.mostSpecific = [] →
    output.out = "no applicable method " ++ method ++ "\n"
  resolved : json = false → ∀ found, call.mostSpecific = [found] →
    output.out = r.renderMethod found ++ "\n"
  ambiguous : json = false → 2 ≤ call.mostSpecific.length →
    output.out = "ambiguous:\n" ++
      String.join (call.mostSpecific.map fun found => "  " ++ r.renderMethod found ++ "\n")
  /-- As JSON, what was asked and found, and the outcome. -/
  fields : json = true → ∃ outcome,
    output.out = callFields (r.className t) method arguments (call.applicable.map r.renderMethod)
      (call.mostSpecific.map r.renderMethod) ++ outcomeField outcome ∧
    (outcome = "not_found" ↔ call.mostSpecific = []) ∧
    (outcome = "resolved" ↔ call.mostSpecific.length = 1) ∧
    (outcome = "ambiguous" ↔ 2 ≤ call.mostSpecific.length)

/-- It is written that no method is applicable. -/
def ReportsNotFound (output : Output) (json : Bool) (method : String) : Prop :=
  output.exit = 0 ∧ output.err = "" ∧
    if json then ∃ start, output.out = start ++ ",\n  \"outcome\": \"not_found\"\n\x7d\n"
    else output.out = "no applicable method " ++ method ++ "\n"

end Output

lemma outcomeField_not_found :
    outcomeField "not_found" = ",\n  \"outcome\": \"not_found\"\n\x7d\n" := by
  decide +kernel

/-- Reports with different outcomes end differently. -/
lemma append_outcomeField_ne {outcome : String} (h : outcome = "resolved" ∨ outcome = "ambiguous")
    (start start' : String) :
    start ++ outcomeField outcome ≠ start' ++ outcomeField "not_found" := by
  intro heq
  have hchars := congrArg String.toList heq
  simp only [String.toList_append] at hchars
  have hend : (outcomeField outcome).toList <:+
      start'.toList ++ (outcomeField "not_found").toList := ⟨_, hchars⟩
  have hends := List.suffix_or_suffix_of_suffix hend (List.suffix_append _ _)
  rcases h with rfl | rfl
  · exact absurd hends (by decide +kernel)
  · exact absurd hends (by decide +kernel)

/-- The end of a call can be read off what is written about it. -/
lemma Output.Reports.notFound_iff {output : Output} {json : Bool} {r : Registry} {t : Handle}
    {method : String} {arguments : List String} {call : Call}
    (h : output.Reports json r t method arguments call)
    (hnames : ∀ found ∈ call.mostSpecific, found.decl.name = method) :
    output.ReportsNotFound json method ↔ call.mostSpecific = [] := by
  cases json with
  | false =>
    constructor
    · rintro ⟨-, -, hout⟩
      rw [if_neg (by simp)] at hout
      rcases hfound : call.mostSpecific with _ | ⟨found, _ | ⟨other, rest⟩⟩
      · rfl
      · have htext := h.resolved rfl found hfound
        have hline : r.renderMethod found = "no applicable method " ++ method :=
          (String.append_left_inj _).1 (htext.symm.trans hout)
        rw [← hnames found (by simp [hfound])] at hline
        exact absurd hline (r.renderMethod_ne found)
      · have htext := (h.ambiguous rfl (by simp [hfound])).symm.trans hout
        have hchars := congrArg String.toList htext
        simp [String.toList_append] at hchars
    · intro hnone
      exact ⟨h.exit, h.err, by rw [if_neg (by simp)]; exact h.not_found rfl hnone⟩
  | true =>
    obtain ⟨outcome, htext, hnot, hone, hmany⟩ := h.fields rfl
    constructor
    · rintro ⟨-, -, hout⟩
      rw [if_pos rfl] at hout
      obtain ⟨start, hstart⟩ := hout
      rw [← outcomeField_not_found] at hstart
      by_contra hsome
      have hcount : call.mostSpecific.length = 1 ∨ 2 ≤ call.mostSpecific.length := by
        have hpos := List.length_pos_iff.2 hsome
        omega
      exact append_outcomeField_ne (hcount.imp hone.2 hmany.2) _ start (htext.symm.trans hstart)
    · intro hnone
      refine ⟨h.exit, h.err, ?_⟩
      rw [if_pos rfl, ← outcomeField_not_found, ← hnot.2 hnone]
      exact ⟨_, htext⟩

open Document in
lemma documentText_document (report : ResolutionReport) :
    Command.documentText report.document =
      callFields report.className report.method report.arguments report.applicable
        report.mostSpecific ++ outcomeField report.outcome.name := by
  have hnames : quoted "class" = "\"class\"" ∧ quoted "method" = "\"method\"" ∧
      quoted "arguments" = "\"arguments\"" ∧ quoted "applicable" = "\"applicable\"" ∧
      quoted "most_specific" = "\"most_specific\"" ∧ quoted "outcome" = "\"outcome\"" := by
    decide +kernel
  have houtcome : quoted report.outcome.name = "\"" ++ report.outcome.name ++ "\"" := by
    cases report.outcome <;> decide +kernel
  obtain ⟨hclass, hmethod, harguments, happlicable, hmost, hlast⟩ := hnames
  unfold callFields outcomeField
  simp only [Command.documentText, Command.lines_singleton, ResolutionReport.document, pretty,
    prettyFields, atomText, houtcome, hclass, hmethod, harguments, happlicable, hmost, hlast,
    String.empty_append]
  -- both sides are the same pieces, divided differently
  apply String.toList_injective
  simp only [String.toList_append, List.append_assoc]
  rfl

namespace Command

/-- What is reported on a call. -/
def callReport (r : Registry) (t : Handle) (method : String) (arguments : List String)
    (call : Call) : ResolutionReport where
  className := r.className t
  method := method
  arguments := arguments
  applicable := call.applicable.map r.renderMethod
  mostSpecific := call.mostSpecific.map r.renderMethod
  outcome := call.outcome

section Writing

variable (r : Registry) (t : Handle) (method : String) (arguments : List String) (call : Call)

/-- How the number of most specific methods shows in the outcome. -/
lemma outcome_name_iff :
    (call.outcome.name = "not_found" ↔ call.mostSpecific = []) ∧
    (call.outcome.name = "resolved" ↔ call.mostSpecific.length = 1) ∧
    (call.outcome.name = "ambiguous" ↔ 2 ≤ call.mostSpecific.length) := by
  rw [Call.outcome]
  rcases call.mostSpecific with _ | ⟨found, _ | ⟨other, rest⟩⟩
  all_goals simp [Outcome.ofCount, Outcome.name]

lemma write_reports (model : String) (path : ClassPath) (json : Bool) :
    (Session.write ⟨model, path, json⟩ (callReport r t method arguments call).document
      { out := lines (Session.callText (callReport r t method arguments call)) }).Reports
      json r t method arguments call := by
  cases json with
  | true =>
    exact {
      exit := rfl
      err := rfl
      not_found := nofun
      resolved := nofun
      ambiguous := nofun
      fields := fun _ => ⟨call.outcome.name, documentText_document _, outcome_name_iff call⟩ }
  | false =>
    refine { exit := rfl, err := rfl, not_found := ?_, resolved := ?_, ambiguous := ?_,
             fields := nofun }
    · intro _ hnone
      have houtcome : call.outcome = .notFound := by rw [Call.outcome, hnone]; rfl
      simp [Session.write, Session.callText, callReport, houtcome, lines_singleton]
    · intro _ found hfound
      have houtcome : call.outcome = .resolved := by rw [Call.outcome, hfound]; rfl
      simp [Session.write, Session.callText, callReport, houtcome, hfound, lines_singleton]
    · intro _ hmany
      have houtcome : call.outcome = .ambiguous := by
        rw [Call.outcome]
        rcases hfound : call.mostSpecific with _ | ⟨found, _ | ⟨other, rest⟩⟩
        · simp [hfound] at hmany
        · simp [hfound] at hmany
        · rfl
      simp [Session.write, Session.callText, callReport, houtcome, lines, List.map_map,
        Function.comp_def]

end Writing

end Command

/-! ## The types that a call names -/

namespace Work

variable {α β : Type}

lemma load_bind (q : Load α) (f : α → Load β) :
    Work.load (q >>= f) = Work.load q >>= fun a => Work.load (f a) := by
  funext g
  change (Work.load (q >>= f)).result g = (Work.load q >>= fun a => Work.load (f a)).result g
  have hload := result_load q g
  rcases hq : q.result g.registry with ⟨e | a, r⟩ <;> rw [hq] at hload
  · rw [result_load, Load.result_bind_error hq, result_bind_error hload]
  · rw [result_load, Load.result_bind_ok hq, result_bind_ok hload, result_load]

lemma load_mapM (f : α → Load β) (l : List α) :
    Work.load (l.mapM f) = l.mapM fun a => Work.load (f a) := by
  induction l with
  | nil => rfl
  | cons a l ih =>
    rw [List.mapM_cons, List.mapM_cons, load_bind]
    simp only [load_bind, ih]
    rfl

end Work

namespace Command

/-- The type with a given name; `null` stands for the null literal. -/
def namedType (path : ClassPath) (name : String) : Load Handle :=
  (Source.classPath path).require none (if name = "null" then "void" else name)

/-- The type and the argument types that a call names. -/
def callTypes (path : ClassPath) (className : String) (arguments : List String) :
    Load (Handle × List Handle) := do
  let t ← namedType path className
  return (t, ← arguments.mapM (namedType path))

section Types

variable {inv : Registry → Prop} {path : ClassPath} {r r' : Registry}

lemma gets_namedType (name : String) : Load.Gets (.classPath path) (namedType path name) :=
  Load.gets_require (Source.finds_load _) none _

lemma keeps_callTypes (hinv : Load.Stable (.classPath path) inv) (className : String)
    (arguments : List String) :
    Load.Keeps inv (callTypes path className arguments)
      fun types r => r.Issued types.1 ∧ ∀ s ∈ types.2, r.Issued s := by
  refine (gets_namedType className inv hinv).bind (fun _ h => h) fun t => ?_
  refine (Load.Gets.mapM gets_namedType (hinv.and_issued t) arguments).bind (fun _ h => h.1)
    fun types => ?_
  exact Load.Triple.pure _ fun r hr => ⟨hr.1.1, hr.1.2, hr.2⟩

lemma keeps_install (hinv : Load.Stable (.classPath path) inv) :
    Load.Keeps inv (Builtins.install (.classPath path)) fun _ _ => True := by
  have hinstall : Load.Triple inv (Builtins.install (.classPath path)) (fun _ => inv)
      fun e r => inv r ∧ e.isEndless = false :=
    Builtins.install_triple fun name => (Load.gets_require (Source.finds_load _) none name inv
      hinv).conseq (fun _ h => h) (fun _ _ h => h.1) (fun _ _ h => h)
  exact hinstall.conseq (fun _ h => h) (fun _ _ h => ⟨h, trivial⟩) (fun _ _ h => h)

end Types

lemma Session.resolve_eq (session : Session) (className method : String)
    (arguments : List String) :
    session.resolve className method arguments =
      Work.load (callTypes session.path className arguments) >>= fun (t, argumentTypes) => do
        let call ← Work.ask (Query.call t method argumentTypes)
        let r ← Work.registry
        let report : ResolutionReport := {
          className := r.className t
          method, arguments
          applicable := call.applicable.map r.renderMethod
          mostSpecific := call.mostSpecific.map r.renderMethod
          outcome := call.outcome }
        return session.write report.document { out := lines (callText report) } := by
  have hreturn : ∀ x : Handle × List Handle, Work.load (pure x) = pure x := fun _ => rfl
  simp only [callTypes, Work.load_bind, Work.load_mapM, hreturn, bind_assoc, pure_bind]
  rfl

/-! ## The command -/

lemma runOn_eq_write {command : Command} {path : ClassPath} {className method : String}
    {arguments : List String} {r : Registry} {t : Handle} {types : List Handle} {call : Call}
    {m : Memory} (hquestion : command.question = .resolve className method arguments)
    (hload : (Builtins.install (.classPath path) >>= fun _ =>
      callTypes path className arguments).result .initial = (.ok (t, types), r))
    (hcall : (Query.call t method types).answer r .empty = (.ok call, m)) :
    command.runOn path =
      Session.write ⟨command.model, path, command.json⟩
        (callReport r t method arguments call).document
        { out := lines (Session.callText (callReport r t method arguments call)) } := by
  obtain ⟨builtins, r₁, hinstall, htypes⟩ := Load.result_bind_eq_ok hload
  have hstart : (Work.load (Builtins.install (.classPath path))).result {} =
      (.ok builtins, ⟨r₁, .empty⟩) := by
    rw [Work.result_load]
    simp [hinstall]
  have hnamed : (Work.load (callTypes path className arguments)).result ⟨r₁, .empty⟩ =
      (.ok (t, types), ⟨r, .empty⟩) := by
    rw [Work.result_load, htypes]
  have hask : (Work.ask (Query.call t method types)).result ⟨r, .empty⟩ = (.ok call, ⟨r, m⟩) := by
    rw [Work.result_ask, hcall]
  have hresolve : ((Session.resolve ⟨command.model, path, command.json⟩ className method
      arguments).result ⟨r₁, .empty⟩).1 =
      .ok (Session.write ⟨command.model, path, command.json⟩
        (callReport r t method arguments call).document
        { out := lines (Session.callText (callReport r t method arguments call)) }) := by
    rw [Session.resolve_eq, Work.result_bind_ok hnamed, Work.result_bind_ok hask]
    rfl
  rw [runOn]
  simp only [hstart, Session.answer, hquestion, hresolve]

/-- **Calls on the command line.** When the types that a call names are loaded and the graph is
well-formed, the command writes how the call ends, as text or as JSON. -/
theorem runOn_resolve {command : Command} {path : ClassPath} {className method : String}
    {arguments : List String} {t : Handle} {types : List Handle} {r : Registry}
    (hquestion : command.question = .resolve className method arguments)
    (hload : (Builtins.install (.classPath path) >>= fun _ =>
      callTypes path className arguments).result .initial = (.ok (t, types), r))
    (hwf : Graph.WellFormed ⟨r, .empty⟩) :
    ∃ methods call, Graph.answer ⟨r, .empty⟩ (Query.allMethods t) = .ok methods ∧
      Graph.Resolves ⟨r, .empty⟩ methods method types call ∧
      (command.runOn path).Reports command.json r t method arguments call := by
  have hsound : Load.Stable (.classPath path) Registry.Sound :=
    ⟨fun h => h, fun h hl => hl.sound h⟩
  obtain ⟨hr, ht, htypes⟩ : r.Sound ∧ r.Issued t ∧ ∀ s ∈ types, r.Issued s :=
    ((keeps_install hsound).bind (fun _ h => h) fun _ =>
      (keeps_callTypes hsound className arguments).conseq (fun _ h => h.1)
        (fun _ _ h => h) (fun _ _ h => h)).post_of_ok Registry.sound_initial hload
  have hlawful : r.Lawful .empty := { hwf with registry := hr, memory := Memory.sound_empty r }
  obtain ⟨methods, call, m, hmethods, hcall, hresolves⟩ :=
    Query.answer_call hlawful ht method htypes
  refine ⟨methods, call, hmethods, hresolves, ?_⟩
  rw [runOn_eq_write hquestion hload hcall]
  exact write_reports r t method arguments call command.model path command.json

end Command

/-- **The choice among overloads.** In a well-formed graph that some run leads to, it is always
answered whether one parameter list is more specific than another, and which ones of a list of
candidates no other one beats: something is kept unless the list is empty, each dropped candidate is
beaten by one that is kept, none of these beats another, and a single one is kept exactly when it
beats all others. So a call that the command resolves in a well-formed graph is reported as not
found exactly when no method of its name takes the arguments. -/
theorem overload_choice :
    (∀ g : Graph, g.Reachable → g.WellFormed →
      (∀ these those, (∀ t ∈ these ++ those, g.registry.Issued t) →
        ∃ b, g.answer (Query.moreSpecific these those) = .ok b ∧
          (b = true ↔ g.registry.MoreSpecific g.memory these those)) ∧
      ∀ (α : Type) (parameters : α → List Handle) (candidates : List α),
        (∀ c ∈ candidates, ∀ t ∈ parameters c, g.registry.Issued t) →
        ∃ kept, g.answer (Query.mostSpecific parameters candidates) = .ok (kept.map Prod.fst) ∧
          g.Survivors parameters candidates kept) ∧
    ∀ (command : Command) (path : ClassPath) (className method : String)
      (arguments : List String) (t : Handle) (types : List Handle) (r : Registry),
      command.question = .resolve className method arguments →
      (Builtins.install (.classPath path) >>= fun _ =>
        Command.callTypes path className arguments).result .initial = (.ok (t, types), r) →
      Graph.WellFormed ⟨r, .empty⟩ →
      ∃ methods call, Graph.answer ⟨r, .empty⟩ (Query.allMethods t) = .ok methods ∧
        Graph.Resolves ⟨r, .empty⟩ methods method types call ∧
        (command.runOn path).Reports command.json r t method arguments call ∧
        ((command.runOn path).ReportsNotFound command.json method ↔
          ∀ candidate ∈ methods, candidate.decl.name = method →
            ¬ r.WidensAll .empty types candidate.decl.parameters) := by
  refine ⟨fun g hg hwf => ⟨fun these those hissued => ?_, fun α parameters candidates hissued =>
    g.mostSpecific_survivors hg hwf parameters hissued⟩, ?_⟩
  · have h := hg.lawful hwf
    obtain ⟨b, m, hanswer, -, hb⟩ := (Query.moreSpecific_settled h
      (fun t ht => hissued t (List.mem_append_left _ ht)) those).exists_ok (Query.settled_refl h)
    exact ⟨b, by rw [Graph.answer, hanswer], hb⟩
  · intro command path className method arguments t types r hquestion hload hwf
    obtain ⟨methods, call, hmethods, hresolves, hreports⟩ :=
      Command.runOn_resolve hquestion hload hwf
    refine ⟨methods, call, hmethods, hresolves, hreports, ?_⟩
    rw [hreports.notFound_iff fun found => hresolves.name_eq, hresolves.mostSpecific_eq_nil_iff]

/-- The question for the text of the arguments. -/
def valueOfCommand (arguments : List String) (json : Bool) : Command where
  model := "empty.json"
  question := .resolve "java.lang.String" "valueOf" arguments
  json := json

/-- The types that are loaded for the question, from a class path without classes. -/
def valueOfTypes (arguments : List String) : Except Error (Handle × List Handle) × Registry :=
  (Builtins.install (.classPath {}) >>= fun _ =>
    Command.callTypes {} "java.lang.String" arguments).result .initial

/-- The text of a byte is given by the overloads for wider numbers. There is none for nothing. -/
theorem overload_choice_valueOf :
    (∃ kept : List (List Handle × Nat), (Run.after Graph.libraryRun).answer
        (Query.mostSpecific id [[⟨12⟩], [⟨15⟩], [⟨9⟩]]) = .ok (kept.map Prod.fst) ∧ kept ≠ []) ∧
    (∃ methods,
      Graph.answer ⟨(valueOfTypes ["byte"]).2, .empty⟩ (Query.allMethods ⟨10⟩) = .ok methods ∧
      ((valueOfCommand ["byte"] false).runOn {}).out =
        "public static java.lang.String java.lang.String.valueOf(int)\n" ∧
      ∃ candidate ∈ methods, candidate.decl.name = "valueOf" ∧
        (valueOfTypes ["byte"]).2.WidensAll .empty [.ofPrimitive .byte]
          candidate.decl.parameters) ∧
    ∃ methods,
      Graph.answer ⟨(valueOfTypes []).2, .empty⟩ (Query.allMethods ⟨10⟩) = .ok methods ∧
      ((valueOfCommand [] true).runOn {}).ReportsNotFound true "valueOf" ∧
      ∀ candidate ∈ methods, candidate.decl.name = "valueOf" →
        ¬ (valueOfTypes []).2.WidensAll .empty [] candidate.decl.parameters := by
  refine ⟨?_, ?_, ?_⟩
  · have hreach : (Run.after Graph.libraryRun).Reachable := ⟨_, Run.of_allowed (by decide +kernel)⟩
    have hwf : (Run.after Graph.libraryRun).WellFormed :=
      Registry.wellFormed_of_orderly hreach.sound.memory Handle.index (by decide +kernel)
    obtain ⟨-, hchoice⟩ := overload_choice.1 _ hreach hwf
    obtain ⟨kept, hanswer, hkept⟩ := hchoice _ id [[⟨12⟩], [⟨15⟩], [⟨9⟩]] (by decide +kernel)
    exact ⟨kept, hanswer, hkept.nonempty (by simp)⟩
  · have htypes : (valueOfTypes ["byte"]).1 = .ok (⟨10⟩, [.ofPrimitive .byte]) := by decide +kernel
    -- strings extend the root class and an interface; nothing else is linked
    have hwf : Graph.WellFormed ⟨(valueOfTypes ["byte"]).2, .empty⟩ :=
      Registry.wellFormed_of_orderly (Memory.sound_empty _)
        (fun t => if t.index = 10 then 1 else 0) (by decide +kernel)
    obtain ⟨methods, -, hmethods, -, -, hiff⟩ := overload_choice.2 (valueOfCommand ["byte"] false)
      {} _ _ _ _ _ (valueOfTypes ["byte"]).2 rfl (Prod.ext htypes rfl) hwf
    have hout : ((valueOfCommand ["byte"] false).runOn {}).out =
        "public static java.lang.String java.lang.String.valueOf(int)\n" := by decide +kernel
    refine ⟨methods, hmethods, hout, ?_⟩
    by_contra hnone
    obtain ⟨-, -, hmissing⟩ := hiff.2 fun candidate hcandidate hname hall =>
      hnone ⟨candidate, hcandidate, hname, hall⟩
    exact absurd (hout.symm.trans hmissing) (by decide +kernel)
  · have htypes : (valueOfTypes []).1 = .ok (⟨10⟩, []) := by decide +kernel
    have hwf : Graph.WellFormed ⟨(valueOfTypes []).2, .empty⟩ :=
      Registry.wellFormed_of_orderly (Memory.sound_empty _)
        (fun t => if t.index = 10 then 1 else 0) (by decide +kernel)
    obtain ⟨methods, -, hmethods, -, -, hiff⟩ := overload_choice.2 (valueOfCommand [] true)
      {} _ _ _ _ _ (valueOfTypes []).2 rfl (Prod.ext htypes rfl) hwf
    have hwritten : ((valueOfCommand [] true).runOn {}).exit = 0 ∧
        ((valueOfCommand [] true).runOn {}).err = "" ∧
        ((valueOfCommand [] true).runOn {}).out =
          "\x7b\n  \"class\": \"java.lang.String\",\n  \"method\": \"valueOf\"" ++
          ",\n  \"arguments\": [],\n  \"applicable\": [],\n  \"most_specific\": []" ++
          ",\n  \"outcome\": \"not_found\"\n\x7d\n" := by decide +kernel
    have hmissing : ((valueOfCommand [] true).runOn {}).ReportsNotFound true "valueOf" :=
      ⟨hwritten.1, hwritten.2.1, _, hwritten.2.2⟩
    exact ⟨methods, hmethods, hmissing, hiff.1 hmissing⟩

end TypeGraph
