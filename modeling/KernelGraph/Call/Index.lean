import KernelGraph.Analysis.Error
import KernelGraph.Graph.Program

/-!
# The index of calls

The index lists, for each name, the places of the calls with that caller and of the calls with that
callee. It is a table of its own and does not follow later changes of the calls; a look-up therefore
checks every call that it finds.

## Main definitions

* `Adjacency` — for each name, places in increasing order
* `CallIndex`, `CallIndex.build` — one table for callers and one for callees
* `CallIndex.calleesOf`, `CallIndex.callersOf` — the calls of a name, checked
-/

namespace KernelGraph

/-- For each name that occurs, the places listed under it. -/
abbrev Adjacency := List (String × List Nat)

namespace Adjacency

/-- The table with one more place at the end of a name's list. -/
def add (name : String) (place : Nat) : Adjacency → Adjacency
  | [] => [(name, [place])]
  | (n, places) :: rest =>
    if n = name then (n, places ++ [place]) :: rest else (n, places) :: add name place rest

/-- The places listed under a name, `none` if the name does not occur. -/
def find? (table : Adjacency) (name : String) : Option (List Nat) := table.lookup name

end Adjacency

/-- The places of the calls by the names at their two ends. -/
structure CallIndex where
  byCaller : Adjacency
  byCallee : Adjacency
  deriving DecidableEq, Repr

namespace CallIndex

/-- The index of no calls. -/
def empty : CallIndex := ⟨[], []⟩

instance : Inhabited CallIndex := ⟨empty⟩

/-- The index with one more call. -/
def add (index : CallIndex) (place : Nat) (call : Call) : CallIndex :=
  ⟨Adjacency.add call.caller place index.byCaller, Adjacency.add call.callee place index.byCallee⟩

/-- Adds calls to the index, the first at the place given. -/
def addFrom (index : CallIndex) (place : Nat) : List Call → CallIndex
  | [] => index
  | call :: calls => (index.add place call).addFrom (place + 1) calls

/-- The index of a list of calls. -/
def build (calls : List Call) : CallIndex := empty.addFrom 0 calls

end CallIndex

/-- The name at an end of a call. -/
def Call.nameAt (c : Call) : CallEnd → String
  | .caller => c.caller
  | .callee => c.callee

/-- The calls at the places listed under a name, as long as each has that name at the end given;
the first that has not is an error. -/
def resolve (calls : List Call) (key : String) (role : CallEnd) :
    List Nat → Except AnalysisError (List Call)
  | [] => .ok []
  | place :: places =>
    match calls[place]? with
    | none => .error (.malformedEdge place key role "")
    | some call =>
      if call.nameAt role = key then (resolve calls key role places).map (call :: ·)
      else .error (.malformedEdge place key role (call.nameAt role))

namespace CallIndex

/-- The calls made by a routine, in the order of the calls. -/
def calleesOf (index : CallIndex) (calls : List Call) (caller : String) :
    Except AnalysisError (List Call) :=
  resolve calls caller .caller ((index.byCaller.find? caller).getD [])

/-- The calls of a routine, in the order of the calls. -/
def callersOf (index : CallIndex) (calls : List Call) (callee : String) :
    Except AnalysisError (List Call) :=
  resolve calls callee .callee ((index.byCallee.find? callee).getD [])

/-- Does the routine call anything? -/
def callsAnything (index : CallIndex) (caller : String) : Bool :=
  (index.byCaller.find? caller).isSome

end CallIndex

end KernelGraph
