import KernelGraph.Call.Index
import KernelGraph.Region.Catalog

/-!
# Callers that mix kernels and kernel wrappers

A kernel wrapper is a routine that itself calls a kernel. A routine that calls a kernel and also
calls a kernel wrapper needs the attributes of both at one depth, which is reported as a warning.
Only the routines called directly are looked at. Each caller is reported once, and only the first
report says in full what is wrong.

## Main definitions

* `Reported` — the callers reported so far
* `firstWrapperCall` — the first call of a routine to a kernel wrapper
* `Reported.check` — the new findings about the callers of a kernel
-/

namespace KernelGraph

/-- The callers reported so far, the latest first. -/
structure Reported where
  callers : List String
  deriving DecidableEq, Repr

/-- The first of several calls that leads to a routine which calls a kernel. -/
def firstToWrapper (calls : List Call) (index : CallIndex) (catalog : Catalog) :
    List Call → Except AnalysisError (Option Call)
  | [] => .ok none
  | c :: rest =>
    match index.calleesOf calls c.callee with
    | .error e => .error e
    | .ok inner =>
      if inner.any fun i => catalog.hostsKernel i.callee then .ok (some c)
      else firstToWrapper calls index catalog rest

/-- The first call of a routine to a kernel wrapper. -/
def firstWrapperCall (calls : List Call) (index : CallIndex) (catalog : Catalog)
    (caller : String) : Except AnalysisError (Option Call) :=
  match index.calleesOf calls caller with
  | .error e => .error e
  | .ok made => firstToWrapper calls index catalog made

namespace Reported

/-- No caller has been reported. -/
def none : Reported := ⟨[]⟩

instance : Inhabited Reported := ⟨none⟩

/-- The number of callers reported. -/
def size (r : Reported) : Nat := r.callers.length

/-- The first report: what is wrong in full, and what may be done. -/
def fullFinding (caller kernel wrapper : String) : Diagnostic :=
  ⟨some .mixedCalls, .warning, some caller,
    "routine '" ++ caller ++ "' calls at least one kernel ('" ++ kernel
      ++ "') and at least one kernel wrapper ('" ++ wrapper
      ++ "'); this may cause device attribute mismatch compiler errors",
    some ("wrap all kernels called by '" ++ caller
      ++ "' so that it does not call a mix of kernel wrappers and kernels")⟩

/-- A later report, which refers to the first. -/
def shortFinding (caller kernel wrapper : String) : Diagnostic :=
  ⟨some .mixedCallsAgain, .warning, some caller,
    "...same for '" ++ caller ++ "': calls kernel '" ++ kernel ++ "', kernel wrapper '" ++ wrapper
      ++ "'",
    Option.none⟩

/-- The report on a caller, in full if it is the first. -/
def finding (r : Reported) (caller kernel wrapper : String) : Diagnostic :=
  if r.callers.isEmpty then fullFinding caller kernel wrapper
  else shortFinding caller kernel wrapper

/-- The callers reported, and one more. -/
def add (r : Reported) (caller : String) : Reported := ⟨caller :: r.callers⟩

/-- The findings about the callers of several calls to one kernel. A caller counts as reported even
if a later call turns out to be listed wrongly. -/
def checkCalls (r : Reported) (calls : List Call) (index : CallIndex) (catalog : Catalog)
    (kernel : String) : List Call → Except AnalysisError (List Diagnostic) × Reported
  | [] => (.ok [], r)
  | c :: rest =>
    match firstWrapperCall calls index catalog c.caller with
    | .error e => (.error e, r)
    | .ok Option.none => r.checkCalls calls index catalog kernel rest
    | .ok (some inner) =>
      -- the search comes before the question whether the caller has been reported, since a call
      -- that is listed wrongly stops the check in either case
      if c.caller ∈ r.callers then r.checkCalls calls index catalog kernel rest
      else
        let (findings, after) := (r.add c.caller).checkCalls calls index catalog kernel rest
        (findings.map (r.finding c.caller kernel inner.callee :: ·), after)

/-- The findings about the callers of a kernel that have not been reported, or the first call that
is listed wrongly, and the callers reported afterwards. -/
def check (r : Reported) (calls : List Call) (index : CallIndex) (catalog : Catalog)
    (kernel : String) : Except AnalysisError (List Diagnostic) × Reported :=
  match index.callersOf calls kernel with
  | .error e => (.error e, r)
  | .ok callers => r.checkCalls calls index catalog kernel callers

end Reported

end KernelGraph
