import KernelGraph.Graph.Position
import KernelGraph.Json.Reader

/-!
# Call-graph documents

A document lists routines, the calls between them, and the templates that kernel regions refer to.
Fields that carry no meaning here are kept beside the known ones and written back.

## Main definitions

* `Document` with `Document.Routine`, `Document.Region`, `Document.Call`, `Document.Template`
-/

namespace KernelGraph

namespace Document

/-- A kernel region: the ids of its templates as listed, repetitions included. -/
structure Region where
  templates : List String
  extra : Fields
  deriving DecidableEq, Repr

/-- A routine with the markers of its kernel regions and the container of its active ones. -/
structure Routine where
  name : String
  position : Position
  regions : List Region
  active : Option Region
  extra : Fields
  deriving DecidableEq, Repr

/-- A call between routines given by name. The site tells where in the caller it stands. -/
structure Call where
  caller : String
  callee : String
  site : Option String
  extra : Fields
  deriving DecidableEq, Repr

/-- A template and the platforms that it applies to. -/
structure Template where
  id : String
  appliesTo : List String
  extra : Fields
  deriving DecidableEq, Repr

end Document

/-- A call-graph document. -/
structure Document where
  routines : List Document.Routine
  calls : List Document.Call
  templates : List Document.Template
  extra : Fields
  deriving DecidableEq, Repr

end KernelGraph
