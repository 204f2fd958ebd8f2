import KernelGraph.Graph.Program

/-!
# Calling strategies

What a code generator asks of an analysed program: how a call to a routine is to be made, which
routines are kernels, and with which templates a routine is generated.

## Main definitions

* `CallStrategy`, `Program.strategy`
* `Program.kernels`, `Program.templatesOf`
-/

namespace KernelGraph

/-- How a call is made. -/
inductive CallStrategy
  /-- The callee hosts a kernel, which is launched. -/
  | kernelLaunch
  /-- The callee runs inside a kernel. -/
  | deviceCall
  /-- The callee reaches a kernel later, and runs on the host. -/
  | hostCall
  /-- The callee has nothing to do with kernels. -/
  | plain
  deriving DecidableEq, Repr

/-- The strategy for calls to a routine with a position. -/
def CallStrategy.ofPosition : Position → CallStrategy
  | .within => kernelLaunch
  | .inside => deviceCall
  | .outside => hostCall
  | .unset => plain

namespace Program

/-- The strategy for calls to the routine of a name. Unknown routines are called plainly. -/
def strategy (p : Program) (callee : String) : CallStrategy :=
  match p.routineNamed? callee with
  | none => .plain
  | some r => .ofPosition r.position

/-- The routines that host a kernel, in their order. -/
def kernels (p : Program) : List Routine := p.routines.filter (·.position = .within)

/-- The ids in the container of the routine of a name. -/
def templatesOf (p : Program) (name : String) : List String :=
  ((p.routineNamed? name).bind Routine.active).elim [] fun c => c.templates.ids

end Program

end KernelGraph
