import KernelGraph.Graph.Strategy

/-!
# Drawings of programs

A program is drawn as a directed graph in the DOT language: a node for each routine, shaped and
coloured by its position, and an edge for each call between routines that exist, coloured by the
strategy of the call and bold if it stands inside the caller's region. A label is a quoted string
in which a backslash takes the character after it along, so backslashes and quotation marks of names
are preceded by one, while the line breaks between the parts of a label are written `\n`.

## Main definitions

* `Drawing.escape` — a text inside a quoted string
* `Drawing.nodeText`, `Drawing.edgeText` — the statements
* `Program.drawing` — the whole drawing
-/

namespace KernelGraph

namespace Drawing

/-- A character inside a quoted string. -/
def escapeChar (c : Char) : List Char := if c = '\\' ∨ c = '"' then ['\\', c] else [c]

/-- A text inside a quoted string. -/
def escape (s : String) : String := String.ofList (s.toList.flatMap escapeChar)

/-- The shape of a node. -/
def shape : Position → String
  | .within => "box"
  | .inside | .outside | .unset => "ellipse"

/-- The colour of a node. -/
def fill : Position → String
  | .within => "lightcoral"
  | .inside => "palegreen"
  | .outside => "lightblue"
  | .unset => "white"

/-- The colour of an edge. -/
def stroke : CallStrategy → String
  | .kernelLaunch => "red"
  | .deviceCall => "darkgreen"
  | .hostCall => "blue"
  | .plain => "gray50"

/-- The parts of a label: the name, the position unless it is unset, and the templates if there are
any. -/
def labelParts (r : Routine) : List String :=
  [r.name] ++ (if r.position = .unset then [] else [r.position.name])
    ++ r.active.elim [] fun c => if c.templates.isEmpty then [] else [c.templates.describe]

/-- The label of a node, one part a line. -/
def label (r : Routine) : String := "\\n".intercalate ((labelParts r).map escape)

/-- The statement of a node. -/
def nodeText (r : Routine) : String :=
  "    r" ++ toString r.id ++ " [shape=" ++ shape r.position ++ ", style=filled, fillcolor="
    ++ fill r.position ++ ", label=\"" ++ label r ++ "\"];\n"

/-- The statement of an edge between two routines. -/
def edgeText (caller callee : Nat) (strategy : CallStrategy) (bold : Bool) : String :=
  "    r" ++ toString caller ++ " -> r" ++ toString callee ++ " [color=" ++ stroke strategy
    ++ ", style=" ++ (if bold then "bold" else "solid") ++ "];\n"

/-- The lines in front of the statements. -/
def header : String :=
  "digraph callgraph \x7b\n    rankdir=TB;\n    node [fontname=\"Helvetica\", fontsize=10];\n" ++
    "    edge [fontname=\"Helvetica\", fontsize=9];\n"

/-- Statements after an empty line, or nothing if there are none. -/
def paragraph (statements : List String) : String :=
  if statements.isEmpty then "" else "\n" ++ String.join statements

end Drawing

namespace Program

/-- The statement of a call, if both its ends exist. -/
def edgeText? (p : Program) (c : Call) : Option String :=
  match p.idOf? c.caller, p.idOf? c.callee with
  | some caller, some callee =>
    some (Drawing.edgeText caller callee (p.strategy c.callee) c.isSurround)
  | _, _ => none

/-- The drawing of a program. -/
def drawing (p : Program) : String :=
  Drawing.header ++ Drawing.paragraph (p.routines.map Drawing.nodeText)
    ++ Drawing.paragraph (p.calls.filterMap p.edgeText?) ++ "\x7d\n"

end Program

end KernelGraph
