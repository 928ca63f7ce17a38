import TypeGraph.ClassPath.Decode
import TypeGraph.Graph
import TypeGraph.Member.Rendering
import TypeGraph.Report.Answer

/-!
# The command line

A command asks one question about the classes of a class path: whether they are all sound, whether
a type may be assigned to another, which methods or member types a class has, and which method a
call leads to. Answers are given as text or as JSON reports. The exit code is 0 when the question
was answered, 1 when it failed and the error was reported, and 2 when the class path could not be
opened.
-/

namespace TypeGraph

/-- What is asked. Types are in source spelling; `null` stands for the null literal. -/
inductive Question where
  | check
  | assignable (target source : String)
  | methods (className : String)
  | memberTypes (className : String) (name : Option String)
  | resolve (className method : String) (arguments : List String)

/-- A command: the file of the class path, the question and the form of the answer. -/
structure Command where
  model : String
  question : Question
  json : Bool := false

/-- What a command writes, and its exit code. -/
structure Output where
  exit : Nat := 0
  out : String := ""
  err : String := ""

namespace Command

/-! ## Reading commands -/

/-- Words without the flag for JSON, and whether the flag is among them. It may stand anywhere but
behind a double dash, and not twice. -/
def words? : List String → Option (List String × Bool)
  | [] => some ([], false)
  | "--" :: rest => some (rest, false)
  | word :: rest => do
    let (words, json) ← words? rest
    if word = "--json" then if json then none else some (words, true)
    else if word.startsWith "-" && word ≠ "-" then none
    else some (word :: words, json)

/-- The question and the file of the class path in the words of a command line. -/
def question? : List String → Option (String × Question)
  | ["check", model] => some (model, .check)
  | ["assignable", model, target, source] => some (model, .assignable target source)
  | ["methods", model, className] => some (model, .methods className)
  | ["member-types", model, className] => some (model, .memberTypes className none)
  | ["member-types", model, className, name] => some (model, .memberTypes className (some name))
  | "resolve" :: model :: className :: method :: arguments =>
    some (model, .resolve className method arguments)
  | _ => none

/-- The command in the words of a command line. The flag for JSON may also stand in front of all
others. -/
def ofArguments? (arguments : List String) : Option Command := do
  let (early, arguments) := match arguments with
    | "--json" :: rest => (true, rest)
    | _ => (false, arguments)
  match arguments with
  | [] => none
  | name :: rest =>
    if name.startsWith "-" then none
    else
      let (words, late) ← words? rest
      let (model, question) ← question? (name :: words)
      return { model, question, json := early || late }

/-! ## Writing answers -/

/-- Lines of text. -/
def lines (texts : List String) : String :=
  String.join (texts.map (· ++ "\n"))

/-- A document as it is written. -/
def documentText (document : Document) : String :=
  lines [document.pretty ""]

/-- A diagnostic as text. -/
def diagnosticText (diagnostic : Diagnostic) : String :=
  match diagnostic.severity with
  | .warning => lines ["warning[" ++ diagnostic.code ++ "]: " ++ diagnostic.message]
  | .error =>
    let place := match diagnostic.location with
      | some location => " (" ++ location.file ++ ":" ++ toString location.start ++ ".." ++
          toString location.stop ++ ")"
      | none => ""
    lines (("error[" ++ diagnostic.code ++ "]: " ++ diagnostic.message ++ place) ::
      diagnostic.suggestions.map fun suggestion => "  help: " ++ suggestion.message)

/-! ## Answering -/

/-- An opened class path. -/
structure Session where
  file : String
  path : ClassPath
  json : Bool

namespace Session

/-- The type with a given name. -/
def typeNamed (session : Session) (name : String) : Work Handle :=
  Work.load ((Source.classPath session.path).require none (if name = "null" then "void" else name))

/-- Report an error. -/
def report (session : Session) (error : Error) : Diagnostic :=
  Diagnostic.ofError error session.file session.path.names

/-- An answer in the form that was asked for. -/
def write (session : Session) (document : Document) (text : Output) : Output :=
  if session.json then { text with out := documentText document, err := "" } else text

/-! ### Check -/

/-- The warning for a class that stands in place of a built-in type. -/
def replacementWarning (name : String) : List Diagnostic :=
  match Descriptor.ofClassName name with
  | .ok descriptor =>
    if (Builtin.ofDescriptor? descriptor).isSome then
      [Diagnostic.warning "W0001" (name ++ " replaces the built-in type") none]
    else []
  | .error _ => []

/-- Ask for everything that the soundness of a class depends on. -/
def checkClass (session : Session) (name : String) : Work Unit := do
  let t ← session.typeNamed name
  let _ ← Work.ask (Query.superclass t)
  let _ ← Work.ask (Query.interfaces t)
  let _ ← Work.ask (Query.allMethods t)

/-- Check classes one after the other. The number of sound ones and all diagnostics are
returned. -/
def checkAll (session : Session) : List String → Graph → Nat × List Diagnostic
  | [], _ => (0, [])
  | name :: names, graph =>
    let (result, graph) := (session.checkClass name).result graph
    let (sound, diagnostics) := session.checkAll names graph
    match result with
    | .ok _ => (sound + 1, replacementWarning name ++ diagnostics)
    | .error error => (sound, replacementWarning name ++ session.report error :: diagnostics)

/-- The report on all classes. -/
def checkReport (session : Session) (graph : Graph) : CheckReport :=
  let names := session.path.names
  let (classes, diagnostics) := session.checkAll names graph
  { success := classes = names.length, model := session.file, classes, diagnostics }

/-- Check all classes. -/
def check (session : Session) (graph : Graph) : Output :=
  let report := session.checkReport graph
  let success := if report.success then
      ["✅ No errors found (" ++ toString report.classes ++ " classes)"]
    else []
  session.write report.document {
    exit := if report.success then 0 else 1
    out := lines (("Checking: " ++ report.model) :: success)
    err := String.join (report.diagnostics.map diagnosticText) }

/-! ### Other questions -/

/-- Whether a type may be assigned to another. -/
def assignable (session : Session) (target source : String) : Work Output := do
  let targetType ← session.typeNamed target
  let sourceType ← session.typeNamed source
  let answer ← Work.ask (Query.assignable targetType sourceType)
  return session.write (assignabilityDocument target source answer)
    { out := lines [if answer then "true" else "false"] }

/-- The methods of a class. -/
def methods (session : Session) (className : String) : Work Output := do
  let t ← session.typeNamed className
  let found ← Work.ask (Query.allMethods t)
  let r ← Work.registry
  let texts := found.map r.renderMethod
  return session.write (methodsDocument (r.className t) texts) { out := lines texts }

/-- The member types visible in a class. -/
def memberTypes (session : Session) (className : String) (name : Option String) :
    Work Output := do
  let t ← session.typeNamed className
  let found ← Work.ask (Query.findMemberTypes t name)
  let r ← Work.registry
  let report := MemberTypesReport.ofHits (r.className t) name (found.map r.className)
  let warnings := if report.ambiguous then
      ["warning: " ++ name.getD "" ++ " is ambiguous in " ++ report.className]
    else []
  return session.write report.document
    { out := lines report.memberTypes, err := lines warnings }

/-- The outcome of a call as text. -/
def callText (report : ResolutionReport) : List String :=
  match report.outcome with
  | .resolved => report.mostSpecific
  | .ambiguous => "ambiguous:" :: report.mostSpecific.map ("  " ++ ·)
  | .notFound => ["no applicable method " ++ report.method]

/-- The method that a call leads to. -/
def resolve (session : Session) (className method : String) (arguments : List String) :
    Work Output := do
  let t ← session.typeNamed className
  let argumentTypes ← arguments.mapM session.typeNamed
  let call ← Work.ask (Query.call t method argumentTypes)
  let r ← Work.registry
  let report : ResolutionReport := {
    className := r.className t
    method, arguments
    applicable := call.applicable.map r.renderMethod
    mostSpecific := call.mostSpecific.map r.renderMethod
    outcome := call.outcome }
  return session.write report.document { out := lines (callText report) }

/-- Answer a question, or report why it cannot be answered. -/
def answer (session : Session) (graph : Graph) (question : Question) : Output :=
  let finish (work : Work Output) : Output :=
    match (work.result graph).1 with
    | .ok output => output
    | .error error =>
      let diagnostic := session.report error
      session.write diagnostic.document { exit := 1, err := diagnosticText diagnostic }
  match question with
  | .check => session.check graph
  | .assignable target source => finish (session.assignable target source)
  | .methods className => finish (session.methods className)
  | .memberTypes className name => finish (session.memberTypes className name)
  | .resolve className method arguments => finish (session.resolve className method arguments)

end Session

/-- Give up because the class path cannot be opened. -/
def cannotOpen (what : String) (error : Error) : Output where
  exit := 2
  err := lines ["Error: " ++ what ++ ": " ++ error.message]

/-- Carry out a command on a class path. The built-in types come first. -/
def runOn (command : Command) (path : ClassPath) : Output :=
  match (Work.load (Builtins.install (.classPath path))).result {} with
  | (.error error, _) => cannotOpen "failed to install built-in types" error
  | (.ok _, graph) => Session.answer ⟨command.model, path, command.json⟩ graph command.question

/-- Carry out a command, given what was read from the file of its class path. -/
def run (command : Command) (content : Except Error String) : Output :=
  match content >>= ClassPath.ofText with
  | .error error => cannotOpen ("failed to load class-path model " ++ command.model) error
  | .ok path => command.runOn path

end Command

end TypeGraph
