import KernelGraph.Document.Basic

/-!
# Writing a document

A record is written as an object with its known fields first, in a fixed order, and then the fields
that were kept, which are sorted. Fields that say nothing are left out: an unset position, an empty
list of regions or platforms, and what is absent.

## Main definitions

* `Document.toValue` — a document as a JSON value
* `Document.print` — the text of a document, ending in a new line
-/

namespace KernelGraph.Document

/-- A member that is left out if there is nothing to say. -/
def optional (key : String) : Option Value → List (String × Value)
  | none => []
  | some v => [(key, v)]

/-- A list that is left out if it is empty. -/
def unlessEmpty (vs : List Value) : Option Value := if vs.isEmpty then none else some (.list vs)

/-- A region as a JSON value. -/
def Region.toValue (r : Region) : Value :=
  .object (("templateRelations", .list (r.templates.map fun id => .object [("id", .text id)]))
    :: r.extra)

/-- A routine as a JSON value. -/
def Routine.toValue (r : Routine) : Value :=
  .object (("name", .text r.name)
    :: optional "parallelRegionPosition"
        (if r.position = .unset then none else some (.text r.position.written))
    ++ optional "parallelRegions" (unlessEmpty (r.regions.map Region.toValue))
    ++ optional "activeParallelRegions" (r.active.map Region.toValue)
    ++ r.extra)

/-- A call as a JSON value. -/
def Call.toValue (c : Call) : Value :=
  .object (("caller", .text c.caller) :: ("callee", .text c.callee)
    :: optional "parallelRegionPosition" (c.site.map Value.text)
    ++ c.extra)

/-- A template as a JSON value. -/
def Template.toValue (t : Template) : Value :=
  .object (("id", .text t.id)
    :: optional "appliesTo" (unlessEmpty (t.appliesTo.map Value.text))
    ++ t.extra)

/-- A document as a JSON value. -/
def toValue (d : Document) : Value :=
  .object (("routines", .list (d.routines.map Routine.toValue))
    :: ("calls", .list (d.calls.map Call.toValue))
    :: ("parallelRegionTemplates", .list (d.templates.map Template.toValue))
    :: d.extra)

/-- The characters of a document in a style, with a new line at the end. -/
def printChars (style : Style) (d : Document) : List Char := d.toValue.print style ++ ['\n']

/-- The text of a document, on one line or indented. -/
def print (d : Document) (pretty : Bool) : String :=
  String.ofList (d.printChars (if pretty then .indented 0 else .compact))

end KernelGraph.Document
