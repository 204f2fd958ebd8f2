import KernelGraph.Call.Index
import KernelGraph.Graph.Action

/-!
# Spreading positions along calls

From a kernel the position `outside` spreads to every routine that calls it, directly or not, and
the position `inside` to every routine called from inside its region. Out of a routine that hosts a
kernel only the calls inside its region lead downwards; from the others every call does. Each
routine hands its templates on to those that it leads to.

The spread goes depth first. What is still to be handed over is a list: the routines that a newly
reached routine leads to are put in front of it. A routine receives once; reached again, it is only
checked. Since each step that receives takes one name from those not yet visited, the spread ends
on every graph.

## Main definitions

* `Handover` — a routine to be reached, by name, with the templates handed to it
* `Program.handovers` — what a routine hands over in a direction
* `Program.receive` — a routine takes a position and templates
* `Program.advance` — the next routine that has not been visited
* `Program.spread` — the whole spread from a list of handovers
* `Program.spreadFrom` — the spread from a routine
-/

namespace KernelGraph

/-- Templates to be handed to a routine, which is given by name. -/
structure Handover where
  target : String
  relations : TemplateSet
  deriving DecidableEq, Repr

/-- What is met next on the way. -/
inductive Advance
  /-- Nothing is left to hand over. -/
  | done
  /-- A routine has a position that may not be overwritten. -/
  | conflict (e : AnalysisError)
  /-- A routine that has not been visited, what it receives, and what is left after it. -/
  | fresh (id : Nat) (relations : TemplateSet) (rest : List Handover)

namespace Program

/-- Does the call lead on from a routine with the position `position`? Out of one that hosts a
kernel only the calls inside its region do. -/
def leadsDown (position : Position) (c : Call) : Bool := position ≠ .within || c.isSurround

/-- The names of the routines that a routine leads to. -/
def successors (p : Program) (index : CallIndex) (direction : Direction) (r : Routine) :
    Except AnalysisError (List String) :=
  match direction with
  | .upward => (index.callersOf p.calls r.name).map (·.map Call.caller)
  | .downward | .kernel =>
    (index.calleesOf p.calls r.name).map fun calls =>
      (calls.filter (leadsDown r.position)).map Call.callee

/-- What a routine hands over: its templates, to each routine that it leads to. -/
def handovers (p : Program) (index : CallIndex) (direction : Direction) (id : Nat) :
    Except AnalysisError (List Handover) :=
  match p.routine? id with
  | none => .ok []
  | some r =>
    (p.successors index direction r).map (·.map fun target => ⟨target, p.relationsOf id⟩)

/-- The error that a routine cannot take the position of a direction, if it cannot. -/
def conflict? (p : Program) (direction : Direction) (id : Nat) : Option AnalysisError :=
  match p.routine? id with
  | none => none
  | some r =>
    if r.position.Accepts direction.position then none
    else some (.conflictingPosition r.name r.position direction.position direction)

end Program

/-- A routine with a position, and with templates added to its container if there are any. -/
def Routine.receive (r : Routine) (position : Position) (relations : TemplateSet) : Routine :=
  let active :=
    if relations.isEmpty then r.active
    else
      let c := r.active.getD .empty
      some { c with templates := c.templates ∪ relations }
  { r with position := position, active := active }

namespace Program

/-- The program in which a routine has received a position and templates. -/
def receive (p : Program) (position : Position) (id : Nat) (relations : TemplateSet) : Program :=
  p.modifyRoutine id (·.receive position relations)

@[simp] theorem names_receive (p : Program) (position : Position) (id : Nat)
    (relations : TemplateSet) : (p.receive position id relations).names = p.names := rfl

/-- Tells that a call names a routine that does not exist. -/
def skippedRecord (name : String) : LogRecord :=
  .debug "call edge names an unknown routine; skipped" [("routine", name)]

/-- Tells that a routine received a position. -/
def receivedRecords (p : Program) (position : Position) (id : Nat) : Log :=
  match p.routine? id with
  | none => []
  | some r => [.debug "propagated" [("routine", r.name), ("position", position.name)]]

/-- Goes along the handovers to the first routine that has not been visited. Names that no routine
has are passed over; a routine that cannot take the position stops the way. -/
def advance (p : Program) (direction : Direction) (visited : List Nat) :
    List Handover → Advance × Log
  | [] => (.done, [])
  | h :: rest =>
    match p.idOf? h.target with
    | none =>
      let (met, log) := p.advance direction visited rest
      (met, skippedRecord h.target :: log)
    | some id =>
      -- a routine reached again must still be able to take the position
      match p.conflict? direction id with
      | some e => (.conflict e, [])
      | none =>
        if id ∈ visited then p.advance direction visited rest else (.fresh id h.relations rest, [])

/-- A routine met as not visited has a name in the table, and was not visited. -/
theorem fresh_of_advance {p : Program} {direction : Direction} {visited : List Nat}
    {pending rest : List Handover} {id : Nat} {relations : TemplateSet} {log : Log}
    (h : p.advance direction visited pending = (.fresh id relations rest, log)) :
    (∃ name, p.idOf? name = some id) ∧ id ∉ visited := by
  induction pending generalizing log with
  | nil => simp [advance] at h
  | cons first others ih =>
    rw [advance] at h
    split at h
    · simp only [Prod.mk.injEq] at h
      exact ih (Prod.ext h.1 rfl)
    · rename_i i hi
      split at h
      · simp at h
      · split at h
        · exact ih h
        · rename_i hv
          simp only [Prod.mk.injEq, Advance.fresh.injEq] at h
          obtain ⟨⟨rfl, -, -⟩, -⟩ := h
          exact ⟨⟨_, hi⟩, hv⟩

/-- The number of names whose routine has not been visited. -/
def unvisited (p : Program) (visited : List Nat) : Nat :=
  (p.names.filter fun entry => entry.2 ∉ visited).length

/-- Visiting a named routine for the first time leaves fewer to visit. -/
theorem unvisited_cons_lt {p : Program} {visited : List Nat} {id : Nat} {name : String}
    (hname : p.idOf? name = some id) (hid : id ∉ visited) :
    p.unvisited (id :: visited) < p.unvisited visited := by
  obtain ⟨before, after, hnames, -⟩ := List.lookup_eq_some_iff.mp hname
  -- the entries left are those left before without the new number
  have hsplit : p.names.filter (fun entry => entry.2 ∉ id :: visited)
      = (p.names.filter fun entry => entry.2 ∉ visited).filter fun entry => entry.2 ≠ id := by
    rw [List.filter_filter]
    congr 1
    funext entry
    simp
  -- and the entry of the name is one that goes
  rw [unvisited, unvisited, hsplit, List.length_filter_lt_length_iff_exists]
  exact ⟨(name, id), by simp [hnames, hid], by simp⟩

/-- Hands over in turn, and counts the routines that received. -/
def spread (index : CallIndex) (direction : Direction) (visited : List Nat)
    (pending : List Handover) (p : Program) : Outcome Nat :=
  match _h : p.advance direction visited pending with
  | (.done, log) => ⟨.ok 0, p, log⟩
  | (.conflict e, log) => ⟨.error e, p, log⟩
  | (.fresh id relations rest, log) =>
    let q := p.receive direction.position id relations
    let log := log ++ p.receivedRecords direction.position id
    match q.handovers index direction id with
    | .error e => ⟨.error e, q, log⟩
    | .ok next =>
      -- depth first: what the new routine leads to comes before what was still pending
      let o := spread index direction (id :: visited) (next ++ rest) q
      ⟨o.result.map (· + 1), o.program, log ++ o.log⟩
termination_by p.unvisited visited
decreasing_by
  obtain ⟨⟨name, hname⟩, hid⟩ := fresh_of_advance _h
  exact unvisited_cons_lt hname hid

/-- Spreads the position of a direction from a routine, which itself is not changed, and counts the
routines that received it. -/
def spreadFrom (index : CallIndex) (direction : Direction) (origin : Nat) : Action Nat := fun p =>
  match p.handovers index direction origin with
  | .error e => ⟨.error e, p, []⟩
  | .ok next => p.spread index direction [origin] next

end Program

end KernelGraph
