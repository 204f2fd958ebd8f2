/-!
# The stages of an analysis

The analysis can be run in stages, each of which needs the results of others. To reach a stage, the
stages that it needs are run first, each once, those that it needs in turn before it.

## Main definitions

* `Stage`, `Artifact` — the stages and what they produce
* `Stage.name`, `Stage.title`, `Stage.inputs`, `Stage.outputs`, `Stage.guarantee`
* `Stage.required` — the stages to be run to reach a stage, in order
-/

namespace KernelGraph

/-- The stages of an analysis. -/
inductive Stage
  | narrow
  | index
  | catalog
  | analyse
  deriving DecidableEq, Repr

/-- What the stages produce. -/
inductive Artifact
  /-- The program with its markers narrowed. -/
  | narrowed
  /-- The index of the calls. -/
  | callIndex
  /-- The catalog of the regions. -/
  | catalog
  /-- The program with its final positions, and a report. -/
  | annotated
  deriving DecidableEq, Repr

namespace Stage

/-- The name of a stage. -/
def name : Stage → String
  | narrow => "FilterTemplates"
  | index => "IndexCalls"
  | catalog => "CatalogRegions"
  | analyse => "AnalyzeRegions"

/-- The title under which the end of a stage is logged. -/
def title : Stage → String
  | narrow => "filter_templates"
  | index => "index_calls"
  | catalog => "catalog_regions"
  | analyse => "analyze_regions"

/-- The stages whose results a stage needs. -/
def inputs : Stage → List Stage
  | narrow => []
  | index => []
  | catalog => [narrow]
  | analyse => [index, catalog]

/-- What a stage produces. -/
def outputs : Stage → List Artifact
  | narrow => [.narrowed]
  | index => [.callIndex]
  | catalog => [.catalog]
  | analyse => [.annotated]

/-- What holds after a stage. -/
def guarantee : Stage → String
  | narrow => "every live region holds only templates applying to the platform"
  | index => "callers/callees indexed in edge-list order"
  | catalog => "every region attached and named; one GPU region per routine"
  | analyse => "positions consistent, all surviving regions promoted"

/-- The length of the longest chain of stages that a stage needs. -/
def height : Stage → Nat
  | narrow => 0
  | index => 0
  | catalog => 1
  | analyse => 2

/-- A stage needs only stages of a smaller height. -/
theorem height_lt_of_mem_inputs {s t : Stage} (h : t ∈ s.inputs) : t.height < s.height := by
  cases s <;> cases t <;> simp_all [inputs, height]

/-- The stages in `order`, followed by those still missing to reach a stage. -/
def visit (order : List Stage) (s : Stage) : List Stage :=
  if s ∈ order then order
  else
    -- what the stage needs comes in front of it, in the order in which it is listed
    s.inputs.attach.foldl (fun acc t => visit acc t.1) order ++ [s]
termination_by s.height
decreasing_by exact height_lt_of_mem_inputs t.2

/-- The stages to be run to reach a stage, in the order in which they are run. -/
def required (s : Stage) : List Stage := visit [] s

end Stage

end KernelGraph
