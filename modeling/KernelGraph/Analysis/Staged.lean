import KernelGraph.Analysis.Run
import KernelGraph.Analysis.Stage

/-!
# Running an analysis in stages

A staged analysis keeps a program together with what the stages have produced and found so far. A
stage that finds an error ends its run; what it and earlier stages produced stays.

## Main definitions

* `Progress` — a program, the artifacts of the stages, and the findings so far
* `Progress.perform` — one stage, with its findings and its log
* `Progress.run` — all stages needed to reach a stage
* `StagedRun` — the stages that ran, and the one that failed
-/

namespace KernelGraph

/-- How far a staged analysis has come. -/
structure Progress where
  program : Program
  platform : Platform
  index : Option CallIndex
  catalog : Option Catalog
  report : Option Report
  diagnostics : List Diagnostic
  hasError : Bool
  deriving DecidableEq, Repr

/-- A stage that ran, with what it found and what it told. -/
structure StageRun where
  stage : Stage
  diagnostics : List Diagnostic
  log : Log
  deriving DecidableEq, Repr

/-- The stages that ran, in their order, and the stage that failed if one did. -/
structure StagedRun where
  progress : Progress
  stages : List StageRun
  failing : Option Stage
  deriving DecidableEq, Repr

/-- The finding that the analysis was asked for without the index or the catalog. -/
def missingArtifact : Diagnostic :=
  ⟨none, .error, none, "region analysis ran without call index or region catalog", none⟩

/-- Tells that a stage has ended, and how long it took. -/
def Stage.completeRecord (s : Stage) (elapsed : String) : LogRecord :=
  .info (s.title ++ " complete, " ++ elapsed ++ "ms")

namespace Progress

/-- The start of a staged analysis. -/
def start (program : Program) (platform : Platform) : Progress :=
  ⟨program, platform, none, none, none, [], false⟩

/-- Narrows the program. -/
def performNarrow (g : Progress) : Progress × List Diagnostic × Log :=
  let o := Program.narrowAll g.platform g.program
  let found := match o.result with
    | .ok () => []
    | .error e => [e.toDiagnostic]
  ({ g with program := o.program }, found, Program.narrowingRecord g.platform :: o.log)

/-- Builds the index. -/
def performIndex (g : Progress) : Progress × List Diagnostic × Log :=
  ({ g with index := some (CallIndex.build g.program.calls) }, [], [])

/-- Builds the catalog; if that fails, an earlier catalog stays. -/
def performCatalog (g : Progress) : Progress × List Diagnostic × Log :=
  match Catalog.build g.program g.platform with
  | .ok catalog => ({ g with catalog := some catalog }, [], [Program.catalogRecord])
  | .error e => (g, [e.toDiagnostic], [Program.catalogRecord])

/-- Treats the regions. The warnings go to the findings, not into the report that is kept. -/
def performAnalyse (g : Progress) : Progress × List Diagnostic × Log :=
  match g.index, g.catalog with
  | some index, some catalog =>
    let o := Program.analyseRegions index catalog g.platform g.program
    match o.result with
    | .ok report =>
      ({ g with program := o.program, report := some { report with diagnostics := [] } },
        report.diagnostics, o.log)
    | .error e => ({ g with program := o.program }, [e.toDiagnostic], o.log)
  | _, _ => (g, [missingArtifact], [])

/-- Does the work of a stage. -/
def work (g : Progress) : Stage → Progress × List Diagnostic × Log
  | .narrow => g.performNarrow
  | .index => g.performIndex
  | .catalog => g.performCatalog
  | .analyse => g.performAnalyse

/-- Does the work of a stage and adds its findings to those so far. -/
def perform (g : Progress) (s : Stage) : Progress × StageRun :=
  let (after, found, log) := g.work s
  ({ after with
      diagnostics := after.diagnostics ++ found
      hasError := after.hasError || hasErrors found },
    ⟨s, found, log⟩)

/-- Performs stages in turn, up to the first that finds an error. -/
def performAll (g : Progress) : List Stage → StagedRun
  | [] => ⟨g, [], none⟩
  | s :: rest =>
    let (after, done) := g.perform s
    -- the stage that fails is listed with its findings, and is the last
    if hasErrors done.diagnostics then ⟨after, [done], some s⟩
    else
      let run := after.performAll rest
      { run with stages := done :: run.stages }

/-- Performs the stages needed to reach a stage. -/
def run (g : Progress) (target : Stage) : StagedRun := g.performAll target.required

end Progress

end KernelGraph
