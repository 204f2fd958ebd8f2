/-!
# Diagnostics

What an analysis has to say to its user: an error that stopped it, or a warning. Every kind of
finding has a code that never changes its meaning.

## Main definitions

* `DiagnosticCode`, `Severity`, `Diagnostic`
* `Diagnostic.describe` — the text of a diagnostic
* `hasErrors` — is any diagnostic of a list an error?
-/

namespace KernelGraph

/-- The kinds of findings. -/
inductive DiagnosticCode
  /-- The index of the calls disagrees with a call. -/
  | malformedEdge
  /-- A routine hosts more than one kernel region on a GPU. -/
  | duplicateKernelRegion
  /-- A region refers to a template that does not exist. -/
  | unknownTemplate
  /-- A routine would get two different positions. -/
  | conflictingPosition
  /-- A region is owned by no routine. -/
  | detachedRegion
  /-- A routine that hosts a kernel has no name. -/
  | unnamedKernel
  /-- A region has no template that applies to the platform. -/
  | missingTemplate
  /-- Two routines have the same name. -/
  | duplicateRoutine
  /-- A routine calls both a kernel and a kernel wrapper; told for the first time. -/
  | mixedCalls
  /-- The same of a further routine. -/
  | mixedCallsAgain
  deriving DecidableEq, Repr

namespace DiagnosticCode

/-- The code of a kind of finding. -/
def text : DiagnosticCode → String
  | malformedEdge => "E0700"
  | duplicateKernelRegion => "E0701"
  | unknownTemplate => "E0702"
  | conflictingPosition => "E0703"
  | detachedRegion => "E0704"
  | unnamedKernel => "E0705"
  | missingTemplate => "E0706"
  | duplicateRoutine => "E0707"
  | mixedCalls => "W0700"
  | mixedCallsAgain => "W0701"

/-- All kinds of findings. -/
def all : List DiagnosticCode :=
  [malformedEdge, duplicateKernelRegion, unknownTemplate, conflictingPosition, detachedRegion,
    unnamedKernel, missingTemplate, duplicateRoutine, mixedCalls, mixedCallsAgain]

/-- The kind of finding with a code. -/
def ofText? (s : String) : Option DiagnosticCode := all.find? (·.text = s)

end DiagnosticCode

/-- How grave a finding is. -/
inductive Severity
  | error
  | warning
  deriving DecidableEq, Repr

/-- The name of a severity. -/
def Severity.name : Severity → String
  | .error => "error"
  | .warning => "warning"

/-- A finding, the routine it is about, and what may be done. -/
structure Diagnostic where
  code : Option DiagnosticCode
  severity : Severity
  subject : Option String
  message : String
  hint : Option String
  deriving DecidableEq, Repr

namespace Diagnostic

/-- Is the finding an error? -/
def isError (d : Diagnostic) : Bool := d.severity = .error

/-- The text of a finding: severity, code and message, and the hint on a line of its own. -/
def describe (d : Diagnostic) : String :=
  d.severity.name ++ (d.code.elim "" fun c => "[" ++ c.text ++ "]") ++ ": " ++ d.message
    ++ d.hint.elim "" ("\n  hint: " ++ ·)

end Diagnostic

/-- Is one of the findings an error? -/
def hasErrors (ds : List Diagnostic) : Bool := ds.any Diagnostic.isError

end KernelGraph
