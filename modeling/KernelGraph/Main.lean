import KernelGraph.Command.Run
import Std.Time.DateTime.Timestamp

/-!
# The program

The command line run by the system, with its files, its standard output and its error output.
-/

namespace KernelGraph

/-- The number of a system error; some calls give it as its negative. -/
def errorNumber (code : UInt32) : Nat :=
  if code.toNat < 0x80000000 then code.toNat else 0x100000000 - code.toNat

/-- The reason for which a file cannot be used, by the number of the system error. -/
def FileError.ofNumber (number : Nat) (details : String) : FileError :=
  match number with
  | 2 => .notFound
  | 6 => .noDevice
  | 13 => .other "Permission denied (os error 13)"
  | 20 => .notADirectory
  | 21 => .isADirectory
  | 28 => .noRoom
  | 32 => .other "Broken pipe (os error 32)"
  | 36 => .nameTooLong
  | n => .other (details ++ " (os error " ++ toString n ++ ")")

/-- The reason that the system gives for a file that cannot be used. -/
def FileError.ofSystem (e : IO.Error) : FileError :=
  match e with
  | .noFileOrDirectory _ code details | .invalidArgument _ code details
  | .permissionDenied _ code details | .inappropriateType _ code details
  | .resourceExhausted _ code details | .noSuchThing _ code details =>
    .ofNumber (errorNumber code) details
  | .resourceVanished code details => .ofNumber (errorNumber code) details
  | e => .other (toString e)

/-- The result of using a file. -/
def fileResult {α : Type} (use : IO α) : IO (Except FileError α) := do
  try return .ok (← use)
  catch e => return .error (.ofSystem e)

/-- A duration in milliseconds, with one place after the point. -/
def millisecondsText (nanoseconds : Nat) : String :=
  let tenths := (nanoseconds + 50000) / 100000
  toString (tenths / 10) ++ "." ++ toString (tenths % 10)

instance : Host IO where
  readFile path := fileResult (IO.FS.readBinFile path)
  writeFile path bytes := fileResult do
    IO.FS.withFile path .write fun handle => do
      handle.write bytes
      -- a device without room says so only when it gets the bytes
      handle.flush
  print text := do
    let printed ← fileResult do
      (← IO.getStdout).putStr text
      (← IO.getStdout).flush
    -- a text without a line break is not written before the program ends, where faults are dropped
    return if '\n' ∈ text.toList then printed else .ok ()
  log file text :=
    match file with
    | none => do (← IO.getStderr).putStr text
    | some path => do
      let handle ← IO.FS.Handle.mk path .append
      handle.putStr text
  now := do
    let time ← Std.Time.Timestamp.now
    return ⟨(time.toNanosecondsSinceUnixEpoch.val / 1000).toNat⟩
  timed f := do
    let start ← IO.monoNanosNow
    let answer := f ()
    let stop ← IO.monoNanosNow
    return (answer, millisecondsText (stop - start))

end KernelGraph

/-- Runs the command line. -/
def main (arguments : List String) : IO UInt32 := do
  let exit ← KernelGraph.Command.ofArguments arguments
  return UInt32.ofNat exit.code
