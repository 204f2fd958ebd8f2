import KernelGraph.Graph.Program

/-!
# Promoting regions

Promotion moves what a marker holds into the container of its routine and empties the marker's
place. The container is created if the routine has none. A place that is empty has nothing to move,
so promoting twice is the same as promoting once.

## Main definitions

* `Container.receive` — a container with the contents of a marker
* `Program.promote` — promotes the marker at a place
* `Program.promoteRoutine` — promotes the markers of a routine
-/

namespace KernelGraph

/-- A container with the templates and the fields of a marker. Fields that it has already keep
their values. -/
def Container.receive (c : Container) (m : Marker) : Container :=
  ⟨c.templates ∪ m.templates, Fields.merge c.extra m.extra⟩

namespace Program

/-- Empties a place and gives what its marker held to the routine that owns it. Tells whether a
marker was moved; one whose owner does not exist is lost. -/
def promote (p : Program) (place : Nat) : Program × Bool :=
  match p.marker? place with
  | none => (p, false)
  | some m =>
    -- the place is emptied first: a marker that no routine owns is gone all the same
    let q := p.setMarker place none
    match q.routine? m.owner with
    | none => (q, false)
    | some _ =>
      (q.modifyRoutine m.owner fun r =>
        { r with active := some ((r.active.getD .empty).receive m) }, true)

/-- Promotes the markers at several places, and counts those that were moved. -/
def promoteEach (p : Program) : List Nat → Program × Nat
  | [] => (p, 0)
  | place :: places =>
    let (p, moved) := p.promote place
    let (p, count) := p.promoteEach places
    (p, count + moved.toNat)

/-- Promotes the markers left to a routine, and counts those that were moved. -/
def promoteRoutine (p : Program) (routine : Nat) : Program × Nat :=
  p.promoteEach (p.markersOf routine)

end Program

end KernelGraph
