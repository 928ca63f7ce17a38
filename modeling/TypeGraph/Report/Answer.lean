import TypeGraph.Overload
import TypeGraph.Report.Basic

/-!
# Reports of answers

Each question of the command line has a report of its own, with what was asked and the answer.
-/

namespace TypeGraph

open Document

/-- Each text once, in the order of first occurrence. -/
def distinctTexts (texts : List String) : List String :=
  texts.foldl (fun kept text => if kept.contains text then kept else kept ++ [text]) []

/-- The member types found in a class, each of them once. -/
structure MemberTypesReport where
  className : String
  /-- The simple name that was asked for. -/
  name : Option String
  memberTypes : List String
  /-- Whether the name stands for more than one type. -/
  ambiguous : Bool

/-- The report on what a search found. A type that was found on several ways counts once. -/
def MemberTypesReport.ofHits (className : String) (name : Option String) (hits : List String) :
    MemberTypesReport :=
  let memberTypes := distinctTexts hits
  ⟨className, name, memberTypes, name.isSome && 1 < memberTypes.length⟩

/-- The report as a document. -/
def MemberTypesReport.document (report : MemberTypesReport) : Document :=
  record [("class", string report.className), ("name", ofOption string report.name),
    ("member_types", strings report.memberTypes), ("ambiguous", bool report.ambiguous)]

/-- The result of checking all classes of a class path. -/
structure CheckReport where
  success : Bool
  model : String
  /-- The number of classes without errors. -/
  classes : Nat
  diagnostics : List Diagnostic

/-- The report as a document. -/
def CheckReport.document (report : CheckReport) : Document :=
  record [("success", bool report.success), ("model", string report.model),
    ("classes", nat report.classes),
    ("diagnostics", list (report.diagnostics.map Diagnostic.document))]

/-- The report on a question about assignability. -/
def assignabilityDocument (target source : String) (assignable : Bool) : Document :=
  record [("target", string target), ("source", string source), ("assignable", bool assignable)]

/-- The report on the methods of a class. -/
def methodsDocument (className : String) (methods : List String) : Document :=
  record [("class", string className), ("methods", strings methods)]

/-- How an outcome is written. -/
def Outcome.name : Outcome → String
  | resolved => "resolved"
  | ambiguous => "ambiguous"
  | notFound => "not_found"

/-- The report on a call. -/
structure ResolutionReport where
  className : String
  method : String
  arguments : List String
  applicable : List String
  mostSpecific : List String
  outcome : Outcome

/-- The report as a document. -/
def ResolutionReport.document (report : ResolutionReport) : Document :=
  record [("class", string report.className), ("method", string report.method),
    ("arguments", strings report.arguments), ("applicable", strings report.applicable),
    ("most_specific", strings report.mostSpecific), ("outcome", string report.outcome.name)]

end TypeGraph
