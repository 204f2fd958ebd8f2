import KernelGraph.Digest
import KernelGraph.Json.Printer

/-!
# Build information

The digest of the text of a document together with the version of the program that reads it.

## Main definitions

* `BuildInfo`, `BuildInfo.ofSource`, `BuildInfo.print`
-/

namespace KernelGraph

/-- The version of the program. -/
def version : String := "0.3.1"

/-- What is known about a run before it starts. -/
structure BuildInfo where
  sourceDigest : String
  version : String
  deriving DecidableEq, Repr

namespace BuildInfo

/-- The build information of a document's text. -/
def ofSource (text : String) : BuildInfo := ⟨Digest.ofText text, KernelGraph.version⟩

/-- The build information as an indented JSON text. -/
def print (b : BuildInfo) : String :=
  let value : Value :=
    .object [("source_hash", .text b.sourceDigest), ("compiler_version", .text b.version)]
  String.ofList (value.print (.indented 0) ++ ['\n'])

end BuildInfo

end KernelGraph
