import KernelGraph.Analysis.Staged
import KernelGraph.BuildInfo
import KernelGraph.Command.Arguments
import KernelGraph.Document.Printer
import KernelGraph.Document.Storage
import KernelGraph.Graph.Drawing
import KernelGraph.Graph.Lowering
import KernelGraph.Graph.Summary

/-!
# The command

The command loads a document, analyses it for a platform, and writes the result. The exit code tells
whether all went well, the analysis failed, or a file or the arguments were at fault. Nothing is
written unless all went well. A result that the standard output does not take breaks the program
off.

## Main definitions

* `ExitCode` — how a run ended
* `Command.treat` — lowering and analysis of a loaded document, up to the text that is written
* `Command.execute` — a run, in any host
* `Command.ofArguments` — the command line as a whole
-/

namespace KernelGraph

/-- How a run of the command ended. -/
inductive ExitCode
  /-- All went well. -/
  | success
  /-- The analysis failed. -/
  | failure
  /-- A file, a document's text, or the arguments were at fault. -/
  | trouble
  /-- The program broke off. -/
  | broken
  deriving DecidableEq, Repr

/-- The number of an exit code. -/
def ExitCode.code : ExitCode → Nat
  | success => 0
  | failure => 1
  | trouble => 2
  | broken => 101

namespace LogRecord

/-- A record of the level `error`. -/
def error (message : String) : LogRecord := ⟨.error, message, []⟩

/-- A finding in the log. -/
def ofDiagnostic (d : Diagnostic) : LogRecord :=
  ⟨match d.severity with
    | .error => .error
    | .warning => .warn,
    d.describe, []⟩

end LogRecord

namespace Emission

/-- The last stage that a kind of output needs. -/
def target : Emission → Stage
  | filtered => .narrow
  | annotated | summary | dot | buildInfo => .analyse

/-- The text of an analysed program. Build information is not about the program and has none. -/
def text (e : Emission) (pretty : Bool) (p : Program) : String :=
  match e with
  | annotated | filtered => p.toDocument.print pretty
  | summary => p.summary
  | dot => p.drawing
  | buildInfo => ""

end Emission

namespace Command

variable {m : Type → Type} [Monad m] [Host m]

/-- The level up to which a run logs. -/
def level (a : Arguments) : LogLevel := if a.debug then .debug else .info

/-- Logs the records of a log that a run shows. -/
def tellAll (a : Arguments) (log : Log) : m Unit :=
  (log.upTo (level a)).forM fun r => do Host.log a.logFile (r.line (← Host.now))

/-- Logs a record. -/
def tell (a : Arguments) (r : LogRecord) : m Unit := tellAll a [r]

/-- Logs a record if the run is verbose. -/
def tellVerbose (a : Arguments) (r : LogRecord) : m Unit := if a.verbose then tell a r else pure ()

/-- Breaks the program off, since a text could not be printed. This is said on the error output,
whether or not there is a file for the log. -/
def breakOff (e : FileError) : m ExitCode := do
  Host.log none ("failed printing to stdout: " ++ e.message ++ "\n")
  return .broken

/-- Writes a text where the run puts its output. A file that cannot be written is reported, while a
text that cannot be printed breaks the program off. -/
def emit (a : Arguments) (text : String) : m ExitCode := do
  match a.output with
  | none =>
    match ← Host.print text with
    | .ok () => return .success
    | .error e => breakOff e
  | some path =>
    match ← Document.store path text with
    | .ok () => return .success
    | .error e =>
      tell a (.error e.message)
      return .trouble

/-- Performs stages in turn and logs what they tell and find, up to the first that finds an
error. -/
def performAll (a : Arguments) : Progress → List Stage → m (Progress × Option Stage)
  | g, [] => return (g, none)
  | g, s :: rest => do
    let ((g, done), elapsed) ← Host.timed fun () => g.perform s
    tellAll a (done.log ++ done.diagnostics.map .ofDiagnostic)
    tellVerbose a (s.completeRecord elapsed)
    if hasErrors done.diagnostics then return (g, some s)
    else performAll a g rest

/-- Analyses a program and writes the result. -/
def analyse (a : Arguments) (platform : Platform) (p : Program) : m ExitCode := do
  tellVerbose a (.info ("loaded " ++ toString p.routines.length ++ " routines, "
    ++ toString p.calls.length ++ " calls, " ++ toString p.templates.length ++ " templates"))
  let (g, failing) ← performAll a (.start p platform) a.emit.target.required
  match failing with
  | some s =>
    tell a (.debug ("aborted in pass " ++ s.name))
    return .failure
  | none =>
    match g.report with
    | none => pure ()
    | some report =>
      tellVerbose a (.info (toString report.kernels ++ " kernel regions analysed, "
        ++ toString report.assignments ++ " positions propagated"))
    emit a (a.emit.text a.pretty g.program)

/-- Treats a document that has been loaded, given with its text. -/
def treat (a : Arguments) (platform : Platform) (source : String) (d : Document) : m ExitCode := do
  let info := BuildInfo.ofSource source
  tell a (.debug "document loaded" [("source_hash", info.sourceDigest)])
  if a.emit = .buildInfo then emit a info.print
  else
    match Program.ofDocument d with
    | .error e =>
      tell a (.ofDiagnostic e.toDiagnostic)
      return .failure
    | .ok p => analyse a platform p

/-- Runs the command once its log is open. -/
def run (a : Arguments) : m ExitCode := do
  let platform := Platform.ofString a.appliesTo
  tellVerbose a (.info ("source   = " ++ a.source))
  tellVerbose a (.info ("platform = " ++ platform.name))
  tellVerbose a (.info ("emit     = " ++ a.emit.title))
  match ← Document.load a.source with
  | .error e =>
    tell a (.error e.message)
    return .trouble
  | .ok (source, d) => treat a platform source d

/-- Runs the command. The file for the log, if there is one, is emptied first. -/
def execute (a : Arguments) : m ExitCode := do
  match a.logFile with
  | none => run a
  | some path =>
    match ← Host.writeFile path ByteArray.empty with
    | .ok () => run a
    | .error e =>
      Host.log none ("prac: error: cannot open log file: " ++ e.message ++ "\n")
      return .trouble

/-- The version of the program as it is printed. -/
def versionText : String := "prac " ++ version ++ "\n"

/-- How the command is used. -/
def usageText : String :=
  "Parallel Region Analysis for Call graphs: annotates routines relative to kernel regions\n\n"
    ++ "Usage: prac [OPTIONS] <SOURCE>\n\n"
    ++ "Arguments:\n"
    ++ "  <SOURCE>  Input call-graph document (JSON)\n\n"
    ++ "Options:\n"
    ++ "  -o, --output <OUTPUT>          Output file path (stdout when omitted)\n"
    ++ "  -a, --applies-to <APPLIES_TO>  Target platform as named in template `appliesTo` lists "
    ++ "(\"CPU\" or empty for CPU) [default: ]\n"
    ++ "      --emit <EMIT>              Output stage [default: annotated] "
    ++ "[possible values: annotated, filtered, summary, dot, build-info]\n"
    ++ "  -p, --pretty                   Pretty-print JSON output\n"
    ++ "  -d, --debug                    Log at debug level\n"
    ++ "      --log-file <LOG_FILE>      Write log output to this file instead of stderr\n"
    ++ "      --verbose                  Print pass timing\n"
    ++ "  -h, --help                     Print help\n"
    ++ "  -V, --version                  Print version\n"

/-- Runs a command line. Help and version are printed without regard to whether this works. -/
def ofArguments (arguments : List String) : m ExitCode := do
  match Request.ofArguments arguments with
  | .error e =>
    Host.log none ("error: " ++ e.message ++ "\n\nUsage: prac [OPTIONS] <SOURCE>\n")
    return .trouble
  | .ok .help =>
    let _ ← Host.print usageText
    return .success
  | .ok .version =>
    let _ ← Host.print versionText
    return .success
  | .ok (.run a) => execute a

end Command

end KernelGraph
