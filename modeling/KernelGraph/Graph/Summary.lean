import KernelGraph.Graph.Program

/-!
# The summary of a program

One line a routine: its name and position, the templates of its container if it has one, and the
number of its markers that are left, if any.

## Main definitions

* `Program.summary`
-/

namespace KernelGraph.Program

/-- The number of markers left to a routine, unless it is zero. -/
def pendingText (count : Nat) : String :=
  if count = 0 then "" else " (" ++ toString count ++ " unpromoted region(s))"

/-- The line of a routine. -/
def summaryLine (p : Program) (r : Routine) : String :=
  r.name ++ ": " ++ r.position.name ++ r.active.elim "" (fun c => " " ++ c.templates.describe)
    ++ pendingText (p.markersOf r.id).length ++ "\n"

/-- The summary of a program. -/
def summary (p : Program) : String := String.join (p.routines.map p.summaryLine)

end KernelGraph.Program
