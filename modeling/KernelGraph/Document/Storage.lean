import KernelGraph.Document.Reader
import KernelGraph.Host

/-!
# Documents in files

A document is loaded together with the text that it was read from. A file that cannot be read and a
text that is no document are told apart.

## Main definitions

* `DocumentError`, `DocumentError.message`
* `Document.load`, `Document.store`
-/

namespace KernelGraph

/-- Why a document could not be loaded or stored. -/
inductive DocumentError
  /-- The file at a path cannot be used. -/
  | file (path : String) (e : FileError)
  /-- The text of the file is no document. -/
  | malformed (fault : Fault)
  deriving DecidableEq, Repr

/-- What is wrong with a text that is no document. -/
def Fault.describe : Fault → String
  | .cutOff => "the text ends too early"
  | .illFormed => "the text is ill-formed"
  | .mismatch what => what.message

/-- The wording of a document error. -/
def DocumentError.message : DocumentError → String
  | .file path e => path ++ ": " ++ e.message
  | .malformed fault => "malformed call-graph document: " ++ fault.describe

namespace Document

variable {m : Type → Type} [Monad m] [Host m]

/-- The text and the document that the bytes of a file hold. -/
def ofBytes (path : String) (bytes : ByteArray) : Except DocumentError (String × Document) :=
  match String.fromUTF8? bytes with
  | none => .error (.file path .invalidText)
  | some text =>
    match ofString? text with
    | .ok d => .ok (text, d)
    | .error fault => .error (.malformed fault)

/-- Loads the document of a file, with its text. -/
def load (path : String) : m (Except DocumentError (String × Document)) := do
  match ← Host.readFile path with
  | .error e => return .error (.file path e)
  | .ok bytes => return ofBytes path bytes

/-- Stores a text in a file. -/
def store (path text : String) : m (Except DocumentError Unit) := do
  match ← Host.writeFile path text.toUTF8 with
  | .error e => return .error (.file path e)
  | .ok () => return .ok ()

end Document

end KernelGraph
