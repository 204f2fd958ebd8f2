import KernelGraph.Graph.Action
import KernelGraph.Platform

/-!
# Narrowing regions to a platform

Each marker is narrowed to the templates that apply to the platform, and dropped if none is left. A
marker that had no templates to begin with is left as it is, for the analysis to report.

## Main definitions

* `Program.applicable` — the templates of a set that apply, or the first that does not exist
* `Program.narrowMarker`, `Program.narrowRoutine`, `Program.narrowAll` — the actions
-/

namespace KernelGraph

namespace Program

/-- Tells that a template does not apply to the platform. -/
def droppingRecord (p : Program) (platform : Platform) (owner : Nat) (id : String) : LogRecord :=
  .debug ("dropping template '" ++ id ++ "' from routine '" ++ p.nameOf owner ++ "' for "
    ++ platform.name)

/-- The ids of a list whose template applies to the platform. Of several templates with one id the
first counts; an id without a template is an error. -/
def applicable (p : Program) (platform : Platform) (owner : Nat) :
    List String → Except AnalysisError (List String) × Log
  | [] => (.ok [], [])
  | id :: ids =>
    match p.template? id with
    | none => (.error (.unknownTemplate id (p.nameOf owner)), [])
    | some t =>
      let (rest, log) := applicable p platform owner ids
      if platform.Admits t.appliesTo then (rest.map (id :: ·), log)
      else (rest, p.droppingRecord platform owner id :: log)

/-- What becomes of a marker of which the given ids are kept. -/
def narrowed (m : Marker) (kept : List String) : Option Marker :=
  if kept.isEmpty then none
  else some { m with templates := m.templates.retain fun id => kept.contains id }

/-- Narrows the marker at a place. -/
def narrowMarker (platform : Platform) (place : Nat) : Action Unit := fun p =>
  match p.marker? place with
  | none => ⟨.ok (), p, []⟩
  | some m =>
    -- a marker without templates is not one that lost them
    if m.templates.isEmpty then ⟨.ok (), p, []⟩
    else
      match p.applicable platform m.owner m.templates.ids with
      | (.error e, log) => ⟨.error e, p, log⟩
      | (.ok kept, log) => ⟨.ok (), p.setMarker place (narrowed m kept), log⟩

/-- Narrows the markers of a routine. -/
def narrowRoutine (platform : Platform) (routine : Nat) : Action Unit := do
  let places ← Action.look (·.markersOf routine)
  places.forM (narrowMarker platform)

/-- Narrows the markers of the routines whose numbers are given, of `total` routines. -/
def narrowEach (platform : Platform) (total : Nat) : List Nat → Action Unit
  | [] => pure ()
  | i :: rest => do
    narrowRoutine platform i
    Action.tell (.debug ("filtered routine " ++ toString (i + 1) ++ "/" ++ toString total))
    narrowEach platform total rest

/-- Narrows the markers of all routines, in the order of the routines. -/
def narrowAll (platform : Platform) : Action Unit := do
  let total ← Action.look (·.routines.length)
  narrowEach platform total (List.range total)

end Program

end KernelGraph
