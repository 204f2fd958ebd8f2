import KernelGraph.Graph.TemplateSet
import KernelGraph.Document.Basic

/-!
# Programs

A program is a document in the form in which it is analysed. Routines, calls and region markers are
lists, and a number names the entry at that place. A marker is consumed by emptying its place, so
that the numbers of the others stay what they are.

## Main definitions

* `Routine`, `Container`, `Marker`, `Call`, `Template`, `Program` — the data
* `Program.routine?`, `Program.marker?`, `Program.template?`, `Program.idOf?` — what a number or a
  name stands for
* `Program.live`, `Program.markersOf` — the markers that are left
* `Program.relationsOf` — the templates that a routine hands on
* `Program.modifyRoutine`, `Program.setMarker` — change one entry

## Main results

* `Program.routine?_modifyRoutine`, `Program.marker?_setMarker` — what is found after a change
-/

namespace KernelGraph

/-- The container of the active regions of a routine. -/
structure Container where
  templates : TemplateSet
  extra : Fields
  deriving DecidableEq, Repr

/-- The container without templates. -/
def Container.empty : Container := ⟨∅, []⟩

/-- A routine of a program. -/
structure Routine where
  id : Nat
  name : String
  position : Position
  active : Option Container
  extra : Fields
  deriving DecidableEq, Repr

/-- The marker of a kernel region, not yet promoted, and the number of the routine that owns it. -/
structure Marker where
  id : Nat
  owner : Nat
  templates : TemplateSet
  extra : Fields
  deriving DecidableEq, Repr

/-- A call between routines given by name. -/
structure Call where
  id : Nat
  caller : String
  callee : String
  site : Option String
  extra : Fields
  deriving DecidableEq, Repr

/-- Does the call stand inside the caller's own kernel region? -/
def Call.isSurround (c : Call) : Bool := c.site = some "surround"

/-- A template and the platforms that it applies to. -/
structure Template where
  id : String
  appliesTo : List String
  extra : Fields
  deriving DecidableEq, Repr

/-- A call graph with its kernel regions. The names of routines are kept in a table of their
own. -/
structure Program where
  routines : List Routine
  calls : List Call
  templates : List Template
  regions : List (Option Marker)
  names : List (String × Nat)
  extra : Fields
  deriving DecidableEq, Repr

namespace Program

/-- The program without routines. -/
def empty : Program := ⟨[], [], [], [], [], []⟩

instance : Inhabited Program := ⟨empty⟩

/-- The number of the routine with a name. -/
def idOf? (p : Program) (name : String) : Option Nat := p.names.lookup name

/-- The routine with a number. -/
def routine? (p : Program) (id : Nat) : Option Routine := p.routines[id]?

/-- The routine with a name. -/
def routineNamed? (p : Program) (name : String) : Option Routine :=
  (p.idOf? name).bind p.routine?

/-- The name of the routine with a number, empty if there is none. -/
def nameOf (p : Program) (id : Nat) : String := ((p.routine? id).map Routine.name).getD ""

/-- The first template with an id. -/
def template? (p : Program) (id : String) : Option Template := p.templates.find? (·.id = id)

/-- The marker at a place, if it is left. -/
def marker? (p : Program) (place : Nat) : Option Marker := (p.regions[place]?).join

/-- The markers that are left, in the order of their places. -/
def live (p : Program) : List Marker := p.regions.filterMap id

/-- The numbers of the markers left to a routine. -/
def markersOf (p : Program) (owner : Nat) : List Nat :=
  (p.live.filter (·.owner = owner)).map Marker.id

/-- The templates that a routine hands on: those of its markers if any is left, else those of its
container. -/
def relationsOf (p : Program) (id : Nat) : TemplateSet :=
  match p.live.filter (·.owner = id) with
  -- the container speaks only for a routine whose markers are all promoted or dropped
  | [] => ((p.routine? id).bind Routine.active).elim ∅ Container.templates
  | owned => owned.foldl (fun acc m => acc ∪ m.templates) ∅

/-- The program with one routine changed. -/
def modifyRoutine (p : Program) (id : Nat) (f : Routine → Routine) : Program :=
  { p with routines := p.routines.modify id f }

/-- Only the routine that is changed looks different. -/
theorem routine?_modifyRoutine (p : Program) (id other : Nat) (f : Routine → Routine) :
    (p.modifyRoutine id f).routine? other
      = if id = other then (p.routine? other).map f else p.routine? other := by
  simp only [routine?, modifyRoutine, List.getElem?_modify]
  split <;> simp_all

/-- The program with one place for a marker set. -/
def setMarker (p : Program) (place : Nat) (m : Option Marker) : Program :=
  { p with regions := p.regions.set place m }

/-- Only the place that is set looks different, and only if there is such a place. -/
theorem marker?_setMarker (p : Program) (place other : Nat) (m : Option Marker) :
    (p.setMarker place m).marker? other
      = if place = other ∧ other < p.regions.length then m else p.marker? other := by
  simp only [marker?, setMarker, List.getElem?_set]
  by_cases h : place = other
  · by_cases hlt : other < p.regions.length <;> simp [h, hlt]
  · simp [h]

end Program

end KernelGraph
