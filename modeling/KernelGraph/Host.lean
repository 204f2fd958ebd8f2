import KernelGraph.Files
import KernelGraph.Log

/-!
# What a command needs of its surroundings

A command reads and writes files, prints, and logs. These abilities are a class of monads, so that
one definition of a command can be run by the system and can also be followed as a function on
worlds, which are values.

## Main definitions

* `Host` — the abilities
* `World` — the files of a system and what has been printed and logged
* `StateM World` is a `Host`
-/

namespace KernelGraph

/-- What a command can do. -/
class Host (m : Type → Type) where
  /-- The bytes of a file. -/
  readFile : String → m (Except FileError ByteArray)
  /-- Gives a file new bytes, creating it if need be. -/
  writeFile : String → ByteArray → m (Except FileError Unit)
  /-- Prints a text. -/
  print : String → m (Except FileError Unit)
  /-- Writes a text to the log: to the file given, or to the error output. -/
  log : Option String → String → m Unit
  /-- The moment at which it is asked for. -/
  now : m Instant
  /-- Does a computation, and gives its duration in milliseconds as a text. -/
  timed : {α : Type} → (Unit → α) → m (α × String)

/-- The files of a system, what has been printed, and what has been written to the error output. The
standard output may refuse what is written to it; the error output takes everything. The clock
stands still, and every computation takes the same time. -/
structure World where
  files : Files
  printed : String
  errors : String
  time : Instant
  duration : String
  /-- Why the standard output refuses what is written to it, if it does. -/
  refusal : Option FileError

namespace World

/-- The world with the files of a system, in which nothing has been printed and the standard output
takes everything. -/
def ofFiles (files : Files) (duration : String) : World :=
  ⟨files, "", "", default, duration, none⟩

/-- Prints a text. The standard output is written line by line, and what stands after the last line
break only when the program ends, where nobody notices that it is refused. -/
def print (text : String) (w : World) : Except FileError Unit × World :=
  match w.refusal with
  | none => (.ok (), { w with printed := w.printed ++ text })
  | some e => (if '\n' ∈ text.toList then .error e else .ok (), w)

/-- The world after a text has been written to a path: on the outputs it is seen, if the path leads
to one of them. -/
def received (path text : String) (w : World) : World :=
  match w.files.device? path with
  | some .output => if w.refusal.isSome then w else { w with printed := w.printed ++ text }
  | some .errors => { w with errors := w.errors ++ text }
  | _ => w

/-- The files after bytes have been written to a path. One that leads to the standard output is
refused as printing is, unless there is nothing to write. -/
def write (path : String) (bytes : ByteArray) (w : World) : Except FileError Files :=
  match w.files.write path bytes with
  | .error e => .error e
  | .ok files =>
    match w.refusal with
    | none => .ok files
    | some e =>
      if w.files.device? path = some .output ∧ ¬ bytes.isEmpty then .error e else .ok files

/-- Writes bytes to a file of the world. -/
def writeFile (path : String) (bytes : ByteArray) (w : World) : Except FileError Unit × World :=
  match w.write path bytes with
  | .error e => (.error e, w)
  | .ok files =>
    (.ok (), { w with files := files }.received path ((String.fromUTF8? bytes).getD ""))

/-- Writes a text to the log of the world. -/
def log (file : Option String) (text : String) (w : World) : World :=
  match file with
  | none => { w with errors := w.errors ++ text }
  | some path => { w with files := w.files.append path text.toUTF8 }.received path text

end World

instance : Host (StateM World) where
  readFile path := fun w => (w.files.read path, w)
  writeFile := World.writeFile
  print := World.print
  log file text := fun w => ((), w.log file text)
  now := fun w => (w.time, w)
  timed f := fun w => ((f (), w.duration), w)

end KernelGraph
