import KernelGraph.Analysis.Error
import KernelGraph.Graph.Program
import KernelGraph.Platform

/-!
# The catalog of kernel regions

The catalog lists the markers that are left, with the routines that host them, and finds the last
of them by the name of its routine.

## Main definitions

* `CatalogEntry`, `Catalog`
* `Catalog.build` — the catalog of a program, or the first marker that cannot be listed
* `Catalog.hostsKernel`, `Catalog.regionOf?` — look-ups by name
-/

namespace KernelGraph

/-- A kernel region and the routine that hosts it. -/
structure CatalogEntry where
  region : Nat
  routine : Nat
  deriving DecidableEq, Repr

/-- The kernel regions in order, and the last region of each name, the latest name first. -/
structure Catalog where
  entries : List CatalogEntry
  byName : List (String × Nat)
  deriving DecidableEq, Repr

namespace Catalog

/-- The catalog without regions. -/
def empty : Catalog := ⟨[], []⟩

instance : Inhabited Catalog := ⟨empty⟩

/-- Does a routine of that name host a kernel? -/
def hostsKernel (c : Catalog) (name : String) : Bool := (c.byName.lookup name).isSome

/-- The last region of the routine of that name. -/
def regionOf? (c : Catalog) (name : String) : Option Nat := c.byName.lookup name

/-- The catalog with one more region. -/
def push (c : Catalog) (region : Nat) (routine : Routine) : Catalog :=
  ⟨c.entries ++ [⟨region, routine.id⟩], (routine.name, region) :: c.byName⟩

/-- Adds a marker: its owner must be a routine with a name, and on a GPU that routine must not have
been listed before. -/
def add (p : Program) (platform : Platform) (c : Catalog) (m : Marker) :
    Except AnalysisError Catalog :=
  match p.routine? m.owner with
  | none => .error (.detachedRegion m.id)
  | some routine =>
    -- regions are found by name, so a routine without one cannot be listed
    if routine.name = "" then .error .unnamedKernel
    else if platform.isGpu && c.hostsKernel routine.name then
      .error (.duplicateKernelRegion routine.name)
    else .ok (c.push m.id routine)

/-- The catalog of the markers that are left in a program. -/
def build (p : Program) (platform : Platform) : Except AnalysisError Catalog :=
  p.live.foldlM (add p platform) empty

end Catalog

end KernelGraph
