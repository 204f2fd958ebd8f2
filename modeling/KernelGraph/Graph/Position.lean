/-!
# Positions

Where a routine stands relative to the kernels: it hosts one, it is called from inside one, it
calls into one, or none of these.

## Main definitions

* `Position` — the four positions, with `Position.name` and `Position.ofName?`
* `Position.Accepts` — may a position be overwritten with another?
* `Direction`, `Direction.position` — the ways in which positions spread, and what they assign
-/

namespace KernelGraph

/-- The position of a routine relative to the kernels. -/
inductive Position
  /-- Unrelated to any kernel. -/
  | unset
  /-- Hosts a kernel region. -/
  | within
  /-- Called, directly or not, from inside a kernel region. -/
  | inside
  /-- Calls a kernel, directly or not. -/
  | outside
  deriving DecidableEq, Repr, Inhabited

namespace Position

/-- The name of a position. -/
def name : Position → String
  | .unset => "unset"
  | .within => "within"
  | .inside => "inside"
  | .outside => "outside"

/-- The position that a document means by a name. The empty name stands for `unset` too. -/
def ofName? (s : String) : Option Position :=
  if s = "" ∨ s = "unset" then some .unset
  else if s = "within" then some .within
  else if s = "inside" then some .inside
  else if s = "outside" then some .outside
  else none

/-- The name that a document writes for a position. -/
def written : Position → String
  | .unset => ""
  | p => p.name

/-- A position may be overwritten if it is unset, or with itself. -/
def Accepts (p q : Position) : Prop := p = .unset ∨ p = q

instance (p q : Position) : Decidable (p.Accepts q) := inferInstanceAs (Decidable (_ ∨ _))

@[simp] theorem accepts_iff {p q : Position} : p.Accepts q ↔ p = .unset ∨ p = q := Iff.rfl

end Position

/-- The ways in which a kernel gives other routines, or its own, a position. -/
inductive Direction
  /-- To the routines that call it. -/
  | upward
  /-- To the routines called from inside its region. -/
  | downward
  /-- To the routine that hosts it. -/
  | kernel
  deriving DecidableEq, Repr

/-- The position assigned in a direction. -/
def Direction.position : Direction → Position
  | .upward => .outside
  | .downward => .inside
  | .kernel => .within

end KernelGraph
