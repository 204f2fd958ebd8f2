/-!
# Numbering

Routines, calls and regions are numbered from zero in the order in which they come, each kind on its
own.

## Main definitions

* `Numbered`, `Numbering` — the kinds, and the numbers to be given next
* `Numbering.take`, `Numbering.takeAll`
-/

namespace KernelGraph

/-- What is numbered. -/
inductive Numbered
  | routine
  | call
  | region
  deriving DecidableEq, Repr

/-- The number to be given next, for each kind. -/
structure Numbering where
  routine : Nat := 0
  call : Nat := 0
  region : Nat := 0
  deriving DecidableEq, Repr

namespace Numbering

/-- Gives a number to one of a kind. -/
def take (n : Numbering) : Numbered → Nat × Numbering
  | .routine => (n.routine, { n with routine := n.routine + 1 })
  | .call => (n.call, { n with call := n.call + 1 })
  | .region => (n.region, { n with region := n.region + 1 })

/-- Gives numbers in turn. -/
def takeAll (n : Numbering) : List Numbered → List Nat
  | [] => []
  | kind :: kinds => (n.take kind).1 :: (n.take kind).2.takeAll kinds

end Numbering

end KernelGraph
