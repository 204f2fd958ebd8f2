import KernelGraph.Analysis.Error
import KernelGraph.Graph.Program

/-!
# From documents to programs and back

A document becomes a program by numbering its routines, calls and regions in the order in which they
are listed, each kind on its own. It is refused if two routines have one name. A program becomes a
document by listing, under each routine, the markers that are left to it.

## Main definitions

* `Program.firstRepeated` — the first name that repeats an earlier one
* `Program.ofDocument` — the program of a document
* `Program.toDocument` — the document of a program
-/

namespace KernelGraph

/-- A template of a document as one of a program. -/
def Template.ofDocument (t : Document.Template) : Template := ⟨t.id, t.appliesTo, t.extra⟩

/-- A template of a program as one of a document. -/
def Template.toDocument (t : Template) : Document.Template := ⟨t.id, t.appliesTo, t.extra⟩

/-- A call of a document with its number. -/
def Call.ofDocument (id : Nat) (c : Document.Call) : Call :=
  ⟨id, c.caller, c.callee, c.site, c.extra⟩

/-- A call of a program as one of a document. -/
def Call.toDocument (c : Call) : Document.Call := ⟨c.caller, c.callee, c.site, c.extra⟩

/-- A region of a document as a container. -/
def Container.ofDocument (r : Document.Region) : Container :=
  ⟨TemplateSet.ofList r.templates, r.extra⟩

/-- A container as a region of a document. -/
def Container.toDocument (c : Container) : Document.Region := ⟨c.templates.ids, c.extra⟩

/-- A region of a document as a marker with its number and its owner. -/
def Marker.ofDocument (id owner : Nat) (r : Document.Region) : Marker :=
  ⟨id, owner, TemplateSet.ofList r.templates, r.extra⟩

/-- A marker as a region of a document. -/
def Marker.toDocument (m : Marker) : Document.Region := ⟨m.templates.ids, m.extra⟩

/-- A routine of a document with its number. -/
def Routine.ofDocument (id : Nat) (r : Document.Routine) : Routine :=
  ⟨id, r.name, r.position, r.active.map Container.ofDocument, r.extra⟩

/-- A routine of a program as one of a document, with the markers left to it. -/
def Routine.toDocument (r : Routine) (owned : List Marker) : Document.Routine :=
  ⟨r.name, r.position, owned.map Marker.toDocument, r.active.map Container.toDocument, r.extra⟩

namespace Program

/-- The first name that repeats an earlier one; empty names do not count. -/
def firstRepeated (seen : List String) : List String → Option String
  | [] => none
  | name :: names =>
    if name ≠ "" ∧ name ∈ seen then some name else firstRepeated (name :: seen) names

/-- The regions of routines in their order, each with the number of its routine, when the first
routine has the number `owner`. -/
def ownedRegions (owner : Nat) : List Document.Routine → List (Nat × Document.Region)
  | [] => []
  | r :: routines => r.regions.map (owner, ·) ++ ownedRegions (owner + 1) routines

/-- The names of routines with their numbers, when the first has the number `id`. Empty names are
left out. -/
def namesFrom (id : Nat) : List Document.Routine → List (String × Nat)
  | [] => []
  | r :: routines =>
    if r.name = "" then namesFrom (id + 1) routines
    else (r.name, id) :: namesFrom (id + 1) routines

/-- The program of a document, unless two of its routines have one name. -/
def ofDocument (d : Document) : Except AnalysisError Program :=
  match firstRepeated [] (d.routines.map Document.Routine.name) with
  | some name => .error (.duplicateRoutine name)
  | none =>
    .ok
      { routines := d.routines.mapIdx Routine.ofDocument
        calls := d.calls.mapIdx Call.ofDocument
        templates := d.templates.map Template.ofDocument
        regions := (ownedRegions 0 d.routines).mapIdx fun id owned =>
          some (Marker.ofDocument id owned.1 owned.2)
        names := namesFrom 0 d.routines
        extra := d.extra }

/-- The document of a program. A marker whose owner does not exist is left out. -/
def toDocument (p : Program) : Document :=
  { routines := p.routines.mapIdx fun i r => r.toDocument (p.live.filter (·.owner = i))
    calls := p.calls.map Call.toDocument
    templates := p.templates.map Template.toDocument
    extra := p.extra }

end Program

end KernelGraph
