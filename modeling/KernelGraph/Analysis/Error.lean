import KernelGraph.Diagnostic
import KernelGraph.Graph.Position

/-!
# What stops an analysis

Each error has a cause, from which its wording, its code, the routine it is about and a hint
follow.

## Main definitions

* `AnalysisError` — the causes
* `AnalysisError.message`, `AnalysisError.code`, `AnalysisError.subject`, `AnalysisError.hint`
* `AnalysisError.toDiagnostic` — the error as a finding
-/

namespace KernelGraph

/-- One of the two ends of a call. -/
inductive CallEnd
  | caller
  | callee
  deriving DecidableEq, Repr

/-- The name of an end of a call. -/
def CallEnd.name : CallEnd → String
  | .caller => "caller"
  | .callee => "callee"

/-- The causes for which an analysis stops. -/
inductive AnalysisError
  /-- A call is listed under a name that is not at its end; `found` is empty if there is no such
  call. -/
  | malformedEdge (edge : Nat) (key : String) (role : CallEnd) (found : String)
  /-- A routine hosts a second region on a GPU. -/
  | duplicateKernelRegion (routine : String)
  /-- A region of a routine refers to a template that does not exist. -/
  | unknownTemplate (id routine : String)
  /-- A routine has a position that may not be overwritten with another. -/
  | conflictingPosition (routine : String) (existing requested : Position) (direction : Direction)
  /-- A region is owned by no routine. -/
  | detachedRegion (region : Nat)
  /-- A routine that hosts a region has no name. -/
  | unnamedKernel
  /-- A region has no template. -/
  | missingTemplate (routine : String)
  /-- A name is given to two routines. -/
  | duplicateRoutine (name : String)
  deriving DecidableEq, Repr

namespace AnalysisError

/-- What is wrong with a routine whose position conflicts, by the direction of the spread. -/
def conflict : Direction → String
  | .upward =>
    "contains one or more kernels and at the same time "
      ++ "has one or more kernels in its inner call graph"
  | .downward =>
    "contains one or more kernels and at the same time "
      ++ "is being called inside a kernel"
  | .kernel =>
    "contains one or more kernels and at the same time "
      ++ "is either called by or calls one or more other kernels"

/-- The wording of an error. -/
def message : AnalysisError → String
  | malformedEdge edge key role found =>
    "call edge " ++ toString edge ++ " is indexed under '" ++ key ++ "' but its " ++ role.name
      ++ " is '" ++ found ++ "'"
  | duplicateKernelRegion routine => "multiple GPU parallel regions in routine '" ++ routine ++ "'"
  | unknownTemplate id routine =>
    "parallel region template id '" ++ id ++ "' referenced by routine '" ++ routine
      ++ "' cannot be matched"
  | conflictingPosition routine existing requested direction =>
    "routine '" ++ routine ++ "' " ++ conflict direction ++ " (position '" ++ existing.name
      ++ "', requested '" ++ requested.name ++ "')"
  | detachedRegion region =>
    "parallel region " ++ toString region ++ " is not attached to a routine"
  | unnamedKernel => "kernel routine without name"
  | missingTemplate routine =>
    "routine '" ++ routine
      ++ "' hosts a parallel region but has no template applying to this platform"
  | duplicateRoutine name => "routine '" ++ name ++ "' is declared more than once"

/-- The code of an error. -/
def code : AnalysisError → DiagnosticCode
  | malformedEdge .. => .malformedEdge
  | duplicateKernelRegion .. => .duplicateKernelRegion
  | unknownTemplate .. => .unknownTemplate
  | conflictingPosition .. => .conflictingPosition
  | detachedRegion .. => .detachedRegion
  | unnamedKernel => .unnamedKernel
  | missingTemplate .. => .missingTemplate
  | duplicateRoutine .. => .duplicateRoutine

/-- The routine that an error is about. -/
def subject : AnalysisError → Option String
  | duplicateKernelRegion routine => some routine
  | unknownTemplate _ routine => some routine
  | conflictingPosition routine .. => some routine
  | missingTemplate routine => some routine
  | duplicateRoutine name => some name
  | malformedEdge .. | detachedRegion .. | unnamedKernel => none

/-- What may be done about an error. -/
def hint : AnalysisError → Option String
  | duplicateKernelRegion .. => some "move each parallel region into its own routine"
  | conflictingPosition _ _ _ .upward =>
    some ("turn this routine into a kernel wrapper, "
      ++ "putting its own parallel regions into separate routines")
  | conflictingPosition _ _ _ .downward =>
    some ("call this routine from a wrapper instead, "
      ++ "moving the other kernel into its own routine")
  | conflictingPosition _ _ _ .kernel =>
    some "separate kernel routines from wrapper and inner routines"
  | _ => none

/-- The error as a finding. -/
def toDiagnostic (e : AnalysisError) : Diagnostic :=
  ⟨some e.code, .error, e.subject, e.message, e.hint⟩

end AnalysisError

end KernelGraph
