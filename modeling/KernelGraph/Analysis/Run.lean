import KernelGraph.Call.Mixing
import KernelGraph.Call.Spread
import KernelGraph.Region.Narrowing
import KernelGraph.Region.Promotion

/-!
# The analysis of kernel regions

Each kernel region of the catalog is treated in turn: its routine is marked as `within`, the
positions `outside` and `inside` spread from it, and its marker is promoted. On a GPU the callers of
the kernel are then checked for mixed calls, which is advice and never stops the analysis.

## Main definitions

* `Report` — what an analysis found
* `Program.analyseRegions` — the analysis of a narrowed program by an index and a catalog
* `Program.analyse` — narrowing, index, catalog and analysis together
-/

namespace KernelGraph

/-- The kernel regions treated, the positions given by spreading, and the warnings. -/
structure Report where
  kernels : Nat
  assignments : Nat
  diagnostics : List Diagnostic
  deriving DecidableEq, Repr

namespace Report

/-- The report on no regions. -/
def empty : Report := ⟨0, 0, []⟩

/-- The report on one more region, in front of the others. -/
def cons (assignments : Nat) (diagnostics : List Diagnostic) (r : Report) : Report :=
  ⟨r.kernels + 1, assignments + r.assignments, diagnostics ++ r.diagnostics⟩

end Report

namespace Program

/-- Marks the routine of a catalog entry as hosting a kernel, and gives its name. The marker must
have a template, and the routine must be there and able to take the position. -/
def enterKernel (entry : CatalogEntry) (m : Marker) : Action String := fun p =>
  if m.templates.isEmpty then ⟨.error (.missingTemplate (p.nameOf entry.routine)), p, []⟩
  else
    match p.routine? entry.routine with
    | none => ⟨.error (.detachedRegion entry.region), p, []⟩
    | some r =>
      if r.position.Accepts .within then
        ⟨.ok r.name, p.modifyRoutine entry.routine fun r => { r with position := .within }, []⟩
      else ⟨.error (.conflictingPosition r.name r.position .within .kernel), p, []⟩

/-- Tells that a region has been treated. -/
def analysedRecord (n total : Nat) (kernel : String) (upward downward : Nat) : LogRecord :=
  .debug ("region " ++ toString (n + 1) ++ "/" ++ toString total ++ " analysed")
    [("kernel", kernel), ("upward", toString upward), ("downward", toString downward)]

/-- Checks the callers of a kernel on a GPU, and does nothing elsewhere. -/
def checkMixing (index : CallIndex) (catalog : Catalog) (platform : Platform) (kernel : String)
    (reported : Reported) : Action (List Diagnostic × Reported) := do
  if platform.isGpu then
    let p ← Action.look id
    match reported.check p.calls index catalog kernel with
    | (.ok findings, reported) => return (findings, reported)
    | (.error e, _) => Action.fail e
  else return ([], reported)

/-- Treats the region of a catalog entry whose marker is left. Gives the number of positions that
spread from it, and its findings. -/
def analyseRegion (index : CallIndex) (catalog : Catalog) (platform : Platform)
    (entry : CatalogEntry) (n : Nat) (m : Marker) (reported : Reported) :
    Action (Nat × List Diagnostic × Reported) := do
  let kernel ← enterKernel entry m
  let upward ← spreadFrom index .upward entry.routine
  let downward ← spreadFrom index .downward entry.routine
  Action.modify fun p => (p.promote entry.region).1
  Action.tell (analysedRecord n catalog.entries.length kernel upward downward)
  let (findings, reported) ← checkMixing index catalog platform kernel reported
  return (upward + downward, findings, reported)

/-- Treats the regions of several catalog entries, each given with its place in the catalog. An
entry whose marker is gone is passed over. -/
def analyseEntries (index : CallIndex) (catalog : Catalog) (platform : Platform) :
    List (CatalogEntry × Nat) → Reported → Action Report
  | [], _ => return .empty
  | (entry, n) :: rest, reported => do
    match ← Action.look (·.marker? entry.region) with
    | none => analyseEntries index catalog platform rest reported
    | some m =>
      let (assignments, findings, reported) ←
        analyseRegion index catalog platform entry n m reported
      let report ← analyseEntries index catalog platform rest reported
      return report.cons assignments findings

/-- Treats every region of a catalog, in its order. -/
def analyseRegions (index : CallIndex) (catalog : Catalog) (platform : Platform) :
    Action Report := do
  Action.tell (.info "parallel region analysis" [("kernels", toString catalog.entries.length)])
  analyseEntries index catalog platform catalog.entries.zipIdx .none

/-- Tells that regions are being narrowed to a platform. -/
def narrowingRecord (platform : Platform) : LogRecord :=
  .info ("filtering parallel regions for " ++ platform.name)

/-- Tells that the catalog is being built. -/
def catalogRecord : LogRecord := .info "populating parallel region cache"

/-- Narrows the program to a platform and treats every region that is left. -/
def analyse (platform : Platform) : Action Report := do
  Action.tell (narrowingRecord platform)
  narrowAll platform
  let index ← Action.look (CallIndex.build ·.calls)
  Action.tell catalogRecord
  let catalog ← Action.ofExcept (Catalog.build · platform)
  analyseRegions index catalog platform

end Program

end KernelGraph
