/-!
# Files

The files of a system as a value, for the parts of the program that read and write them. A path is
followed name by name, from the root of the system or from the working directory, as an operating
system does; what can go wrong on the way has the wording of the system. Links are not modelled.

## Main definitions

* `FileError`, `FileError.message` — why a file cannot be used
* `Device` — a special file
* `Files` — a working directory, other directories, and files with their bytes
* `Files.resolve` — what a path leads to
* `Files.read`, `Files.write`, `Files.append`
-/

namespace KernelGraph

/-- Why a file cannot be used. -/
inductive FileError
  | notFound
  | notADirectory
  | isADirectory
  | nameTooLong
  | noRoom
  | noDevice
  | nameWithNul
  | invalidText
  | other (text : String)
  deriving DecidableEq, Repr

/-- The wording of a file error. -/
def FileError.message : FileError → String
  | notFound => "No such file or directory (os error 2)"
  | notADirectory => "Not a directory (os error 20)"
  | isADirectory => "Is a directory (os error 21)"
  | nameTooLong => "File name too long (os error 36)"
  | noRoom => "No space left on device (os error 28)"
  | noDevice => "No such device or address (os error 6)"
  | nameWithNul => "file name contained an unexpected NUL byte"
  | invalidText => "stream did not contain valid UTF-8"
  | other text => text

/-- The names from the root of the system down to a file or a directory. -/
abbrev Place := List String

/-- A special file: what is written to it is not kept in a file. -/
inductive Device
  /-- Takes everything and keeps nothing. -/
  | null
  /-- Has no room for a single byte. -/
  | full
  /-- The terminal, which a program without one cannot use. -/
  | terminal
  /-- Stands for the standard input, which is empty. -/
  | input
  /-- Stands for the standard output. -/
  | output
  /-- Stands for the error output. -/
  | errors
  deriving DecidableEq, Repr

namespace Device

/-- Where the devices are found. -/
def places : List (Place × Device) :=
  [(["dev", "null"], null), (["dev", "zero"], null), (["dev", "random"], null),
   (["dev", "urandom"], null), (["dev", "full"], full), (["dev", "tty"], terminal),
   (["dev", "stdin"], input), (["dev", "fd", "0"], input), (["proc", "self", "fd", "0"], input),
   (["dev", "stdout"], output), (["dev", "fd", "1"], output),
   (["proc", "self", "fd", "1"], output),
   (["dev", "stderr"], errors), (["dev", "fd", "2"], errors),
   (["proc", "self", "fd", "2"], errors)]

/-- The device at a place. -/
def at? (place : Place) : Option Device := places.lookup place

end Device

/-- The files of a system, as far as a program comes across them: its working directory, the
directories that hold nothing else, and the files with their bytes. -/
structure Files where
  home : Place
  directories : List Place
  files : List (Place × ByteArray)

namespace Files

/-- A system with nothing in it of its own, and its root as the working directory. -/
def empty : Files := ⟨[], [], []⟩

instance : Inhabited Files := ⟨empty⟩

/-- The directories that every system has below its root. -/
def systemDirectories : List String :=
  ["bin", "boot", "dev", "etc", "home", "lib", "media", "mnt", "opt", "proc", "root", "run", "sbin",
    "srv", "sys", "tmp", "usr", "var"]

/-- The bytes of the file at a place. -/
def contents? (fs : Files) (place : Place) : Option ByteArray := fs.files.lookup place

/-- A place is a directory if it is listed or every system has it, or if something lies below
it. -/
def isDirectory (fs : Files) (place : Place) : Bool :=
  place.isPrefixOf fs.home || fs.directories.any (place.isPrefixOf ·)
    || systemDirectories.any (place.isPrefixOf [·])
    || Device.places.any (fun d => place.isPrefixOf d.1 && place ≠ d.1)
    || fs.files.any fun f => place.isPrefixOf f.1 && place ≠ f.1

/-- What a path leads to. -/
inductive Target
  /-- A directory. -/
  | directory
  /-- A special file. -/
  | device (d : Device)
  /-- A file. -/
  | file (place : Place)
  /-- A place in a directory where nothing is yet. -/
  | vacant (place : Place)
  /-- A name that a slash at the end asks to be a directory, though it is none: the fault that is
  found when it is looked up. -/
  | slashed (fault : FileError)
  deriving DecidableEq, Repr

/-- The longest name of a file, in bytes. -/
def maxNameBytes : Nat := 255

/-- The longest path, in bytes. -/
def maxPathBytes : Nat := 4095

/-- The fault that is found when a name that is no directory is taken for one. -/
def notEntered (fs : Files) (base : Place) (name : String) : FileError :=
  if maxNameBytes < name.utf8ByteSize then .nameTooLong
  else if (Device.at? (base ++ [name])).isSome || (fs.contents? (base ++ [name])).isSome then
    .notADirectory
  else .notFound

/-- What a path leads to that ends with a name that is no directory. -/
def leaf (fs : Files) (base : Place) (name : String) : Except FileError Target :=
  let place := base ++ [name]
  if maxNameBytes < name.utf8ByteSize then .error .nameTooLong
  else
    match Device.at? place with
    | some d => .ok (.device d)
    | none => .ok (if (fs.contents? place).isSome then .file place else .vacant place)

/-- Follows the names of a path from a directory. An empty name stands for the directory itself, and
there is nothing above the root. -/
def follow (fs : Files) (base : Place) : List String → Except FileError Target
  | [] => .ok .directory
  | name :: rest =>
    if name = "" ∨ name = "." then follow fs base rest
    else if name = ".." then follow fs base.dropLast rest
    else if fs.isDirectory (base ++ [name]) then follow fs (base ++ [name]) rest
    else if rest.isEmpty then fs.leaf base name
    else if rest.all (· = "") then .ok (.slashed (fs.notEntered base name))
    else .error (fs.notEntered base name)

/-- The names of a path, between its slashes. -/
def namesOf (path : String) : List String := (path.toList.splitOn '/').map String.ofList

/-- What a path leads to. One that starts with a slash is followed from the root, any other from the
working directory. -/
def resolve (fs : Files) (path : String) : Except FileError Target :=
  if path.toList.contains '\x00' then .error .nameWithNul
  else if path = "" then .error .notFound
  else if maxPathBytes < path.utf8ByteSize then .error .nameTooLong
  else fs.follow (if path.toList.head? = some '/' then [] else fs.home) (namesOf path)

/-- The device that a path leads to. -/
def device? (fs : Files) (path : String) : Option Device :=
  match fs.resolve path with
  | .ok (.device d) => some d
  | _ => none

/-- The bytes of the file that a path leads to. A device has none to give. -/
def read (fs : Files) (path : String) : Except FileError ByteArray :=
  match fs.resolve path with
  | .error e => .error e
  | .ok .directory => .error .isADirectory
  | .ok (.device .terminal) => .error .noDevice
  | .ok (.device _) => .ok ByteArray.empty
  | .ok (.vacant _) => .error .notFound
  | .ok (.slashed fault) => .error fault
  | .ok (.file place) =>
    match fs.contents? place with
    | none => .error .notFound
    | some bytes => .ok bytes

/-- The files with the bytes at a place set. -/
def put (fs : Files) (place : Place) (bytes : ByteArray) : Files :=
  { fs with files := (place, bytes) :: fs.files.filter (·.1 ≠ place) }

/-- The files after the file that a path leads to has got new bytes. A file is created only where
the path ends with its name, so a slash at the end is refused before the name is looked up. -/
def write (fs : Files) (path : String) (bytes : ByteArray) : Except FileError Files :=
  match fs.resolve path with
  | .error e => .error e
  | .ok .directory | .ok (.slashed _) => .error .isADirectory
  | .ok (.device .terminal) => .error .noDevice
  | .ok (.device .full) => if bytes.isEmpty then .ok fs else .error .noRoom
  | .ok (.device _) => .ok fs
  | .ok (.vacant place) | .ok (.file place) => .ok (fs.put place bytes)

/-- The files after bytes have been added to the end of a file. -/
def append (fs : Files) (path : String) (bytes : ByteArray) : Files :=
  match fs.read path with
  | .error _ => fs
  | .ok old => (fs.write path (old ++ bytes)).toOption.getD fs

end Files

end KernelGraph
