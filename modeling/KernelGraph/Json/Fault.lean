import KernelGraph.Json.Printer
import KernelGraph.Text.Quoted

/-!
# What can be wrong with a document's text

Reading goes from left to right and stops at the first fault. A text may end too early, break the
grammar, or be well-formed and still not have the shape of a document; only a fault of shape has
an explanation of its own.

## Main definitions

* `Fault` — the three kinds of fault
* `Mismatch` — the faults of shape, with their wording `Mismatch.message`
-/

namespace KernelGraph

/-- A value found where another kind of value was expected. -/
inductive Found
  | null
  | bool (b : Bool)
  | number (n : Number)
  | text (s : String)
  | list
  | object
  deriving DecidableEq, Repr

/-- The records that a document consists of. -/
inductive RecordKind
  | document
  | routine
  | region
  | call
  | template
  | relation
  deriving DecidableEq, Repr

/-- What was expected in its place. -/
inductive Expected
  | text
  | list
  | null
  | record (kind : RecordKind)
  deriving DecidableEq, Repr

/-- A well-formed text whose shape is not that of a document. -/
inductive Mismatch
  | wrongKind (found : Found) (expected : Expected)
  | missingField (name : String)
  | repeatedField (name : String)
  | unknownPosition (name : String)
  | emptyRelation
  deriving DecidableEq, Repr

/-- A fault found in a text. -/
inductive Fault
  /-- The text ended too early. -/
  | cutOff
  /-- The text breaks the grammar or a limit of the format. -/
  | illFormed
  /-- The text is well-formed so far, but its shape is wrong. -/
  | mismatch (what : Mismatch)
  deriving DecidableEq, Repr

namespace Found

/-- How a found value is named. -/
def describe : Found → String
  | .null => "null"
  | .bool true => "boolean `true`"
  | .bool false => "boolean `false`"
  | .number (.integer i _) => "integer `" ++ String.ofList (Number.printInt i) ++ "`"
  | .number (.double x) => "floating point `" ++ String.ofList x.print ++ "`"
  | .text s => "string " ++ Text.quoted s
  | .list => "sequence"
  | .object => "map"

end Found

namespace RecordKind

/-- The name of a record in a message. -/
def describe : RecordKind → String
  | .document => "CallGraphDocument"
  | .routine => "RoutineNode"
  | .region => "RegionNode"
  | .call => "CallNode"
  | .template => "TemplateNode"
  | .relation => "TemplateRelationNode"

end RecordKind

namespace Expected

/-- How an expected value is named. -/
def describe : Expected → String
  | .text => "a string"
  | .list => "a sequence"
  | .null => "unit"
  | .record kind => "struct " ++ kind.describe

end Expected

namespace Mismatch

/-- The explanation of a fault of shape. -/
def message : Mismatch → String
  | .wrongKind found expected =>
    "invalid type: " ++ found.describe ++ ", expected " ++ expected.describe
  | .missingField name => "missing field `" ++ name ++ "`"
  | .repeatedField name => "duplicate field `" ++ name ++ "`"
  | .unknownPosition name =>
    "unknown variant `" ++ name ++
      "`, expected one of ``, `unset`, `within`, `inside`, `outside`"
  | .emptyRelation => "invalid length 0, expected struct TemplateRelationNode with 1 element"

end Mismatch

end KernelGraph
