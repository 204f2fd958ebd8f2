/-!
# The arguments of the command

Options come in a long and, for some, a short form. The value of an option is attached to it, with
or without an equals sign, or is the next argument; a next argument that looks like an option is no
value. Short options without values can be put together. After `--` all arguments are paths. No
option may be given twice.

## Main definitions

* `Emission` — what is written in the end
* `Arguments` — the arguments of a run
* `Request` — what the command line asks for
* `Request.ofArguments` — the request of a list of arguments, or why it is refused
-/

namespace KernelGraph

/-- What a run writes in the end. -/
inductive Emission
  | annotated
  | filtered
  | summary
  | dot
  | buildInfo
  deriving DecidableEq, Repr

namespace Emission

/-- The name of a kind of output on the command line. -/
def name : Emission → String
  | annotated => "annotated"
  | filtered => "filtered"
  | summary => "summary"
  | dot => "dot"
  | buildInfo => "build-info"

/-- The title of a kind of output in the log. -/
def title : Emission → String
  | annotated => "Annotated"
  | filtered => "Filtered"
  | summary => "Summary"
  | dot => "Dot"
  | buildInfo => "BuildInfo"

/-- All kinds of output. -/
def all : List Emission := [annotated, filtered, summary, dot, buildInfo]

/-- The kind of output with a name. -/
def ofName? (s : String) : Option Emission := all.find? (·.name = s)

end Emission

/-- The arguments of a run. -/
structure Arguments where
  source : String
  output : Option String
  appliesTo : String
  emit : Emission
  pretty : Bool
  debug : Bool
  logFile : Option String
  verbose : Bool
  deriving DecidableEq, Repr

/-- Why arguments are refused. -/
inductive UsageError
  | unknown (argument : String)
  | repeated (option : String)
  | missingValue (option : String)
  | unexpectedValue (option : String)
  | emptyPath (option : String)
  | unknownEmission (value : String)
  | missingSource
  deriving DecidableEq, Repr

/-- The wording of a refusal. -/
def UsageError.message : UsageError → String
  | unknown argument => "unexpected argument '" ++ argument ++ "' found"
  | repeated option => "the argument '" ++ option ++ "' cannot be used multiple times"
  | missingValue option => "a value is required for '" ++ option ++ "' but none was supplied"
  | unexpectedValue option => "unexpected value for '" ++ option ++ "'"
  | emptyPath option => "a value is required for '" ++ option ++ "' but none was supplied"
  | unknownEmission value => "invalid value '" ++ value ++ "' for '--emit <EMIT>'"
  | missingSource => "the following required arguments were not provided: <SOURCE>"

/-- The options with a value, and the path that needs no option. -/
inductive Setting
  | source
  | output
  | appliesTo
  | emit
  | logFile
  deriving DecidableEq, Repr

/-- The options without a value. -/
inductive Switch
  | pretty
  | debug
  | verbose
  | help
  | version
  deriving DecidableEq, Repr

/-- An option of either kind. -/
inductive CommandOption
  | setting (s : Setting)
  | switch (s : Switch)
  deriving DecidableEq, Repr

/-- The option with a long form. -/
def CommandOption.ofLong? (name : String) : Option CommandOption :=
  match name with
  | "output" => some (.setting .output)
  | "applies-to" => some (.setting .appliesTo)
  | "emit" => some (.setting .emit)
  | "log-file" => some (.setting .logFile)
  | "pretty" => some (.switch .pretty)
  | "debug" => some (.switch .debug)
  | "verbose" => some (.switch .verbose)
  | "help" => some (.switch .help)
  | "version" => some (.switch .version)
  | _ => none

/-- The option with a short form. -/
def CommandOption.ofShort? (letter : Char) : Option CommandOption :=
  match letter with
  | 'o' => some (.setting .output)
  | 'a' => some (.setting .appliesTo)
  | 'p' => some (.switch .pretty)
  | 'd' => some (.switch .debug)
  | 'h' => some (.switch .help)
  | 'V' => some (.switch .version)
  | _ => none

/-- The name of a setting in a refusal. -/
def Setting.name : Setting → String
  | source => "<SOURCE>"
  | output => "--output <OUTPUT>"
  | appliesTo => "--applies-to <APPLIES_TO>"
  | emit => "--emit <EMIT>"
  | logFile => "--log-file <LOG_FILE>"

/-- The name of a switch in a refusal. -/
def Switch.name : Switch → String
  | pretty => "--pretty"
  | debug => "--debug"
  | verbose => "--verbose"
  | help => "--help"
  | version => "--version"

/-- What a command line asks for. -/
inductive Request
  | run (a : Arguments)
  | help
  | version
  deriving DecidableEq, Repr

/-- The options given so far. -/
structure Given where
  source : Option String := none
  output : Option String := none
  appliesTo : Option String := none
  emit : Option Emission := none
  logFile : Option String := none
  switches : List Switch := []
  deriving DecidableEq, Repr

namespace Given

/-- A path as a value, which must not be empty, of an option that was not given before. -/
def path (s : Setting) (before : Option String) (value : String) : Except UsageError String :=
  if before.isSome then .error (if s = .source then .unknown value else .repeated s.name)
  else if value = "" then .error (.emptyPath s.name)
  else .ok value

/-- Gives a setting its value. -/
def set (g : Given) (s : Setting) (value : String) : Except UsageError Given :=
  match s with
  | .source => do return { g with source := some (← path s g.source value) }
  | .output => do return { g with output := some (← path s g.output value) }
  | .logFile => do return { g with logFile := some (← path s g.logFile value) }
  | .appliesTo =>
    if g.appliesTo.isSome then .error (.repeated s.name)
    else .ok { g with appliesTo := some value }
  | .emit =>
    if g.emit.isSome then .error (.repeated s.name)
    else
      match Emission.ofName? value with
      | some e => .ok { g with emit := some e }
      | none => .error (.unknownEmission value)

/-- Turns a switch on. -/
def turnOn (g : Given) (s : Switch) : Except UsageError Given :=
  if s ∈ g.switches then .error (.repeated s.name)
  else .ok { g with switches := s :: g.switches }

/-- Has help or the version been asked for? -/
def early? (g : Given) : Option Request :=
  if .help ∈ g.switches then some .help
  else if .version ∈ g.switches then some .version
  else none

/-- The arguments of a run, which must have a source. -/
def complete (g : Given) : Except UsageError Arguments :=
  match g.source with
  | none => .error .missingSource
  | some source =>
    .ok
      { source := source
        output := g.output
        appliesTo := g.appliesTo.getD ""
        emit := g.emit.getD .annotated
        pretty := .pretty ∈ g.switches
        debug := .debug ∈ g.switches
        logFile := g.logFile
        verbose := .verbose ∈ g.switches }

end Given

/-- A long option split at its first equals sign. -/
def splitAtEquals (s : List Char) : List Char × Option (List Char) :=
  match s.dropWhile (· ≠ '=') with
  | [] => (s, none)
  | _ :: value => (s.takeWhile (· ≠ '='), some value)

/-- Where the reading of the arguments stands. -/
inductive Awaiting
  /-- At any argument. -/
  | argument
  /-- At the value of a setting. -/
  | value (s : Setting)
  /-- After `--`: at paths only. -/
  | path
  deriving DecidableEq, Repr

namespace Request

/-- Reads a long option, without its dashes. -/
def readLong (g : Given) (argument : List Char) : Except UsageError (Given × Awaiting) :=
  let (name, value) := splitAtEquals argument
  match CommandOption.ofLong? (String.ofList name), value with
  | none, _ => .error (.unknown ("--" ++ String.ofList argument))
  | some (.setting s), some v => do return (← g.set s (String.ofList v), .argument)
  | some (.setting s), none => .ok (g, .value s)
  | some (.switch s), none => do return (← g.turnOn s, .argument)
  | some (.switch s), some _ => .error (.unexpectedValue s.name)

/-- Reads short options that are put together, without their dash. The rest after an option with a
value is its value. -/
def readShort (g : Given) : List Char → Except UsageError (Given × Awaiting)
  | [] => .ok (g, .argument)
  | letter :: rest =>
    -- help and the version end the reading at once, so later letters are not looked at
    if (g.early?).isSome then .ok (g, .argument)
    else
      match CommandOption.ofShort? letter with
      | none => .error (.unknown (String.ofList ['-', letter]))
      | some (.switch s) => do readShort (← g.turnOn s) rest
      | some (.setting s) =>
        match rest with
        | [] => .ok (g, .value s)
        | '=' :: value => do return (← g.set s (String.ofList value), .argument)
        | value => do return (← g.set s (String.ofList value), .argument)

/-- Reads one argument. -/
def readArgument (g : Given) : Awaiting → String → Except UsageError (Given × Awaiting)
  | .path, argument => do return (← g.set .source argument, .path)
  | .value s, argument =>
    match argument.toList with
    -- a lone dash is a value like any other
    | '-' :: _ :: _ => .error (.missingValue s.name)
    | _ => do return (← g.set s argument, .argument)
  | .argument, argument =>
    match argument.toList with
    | ['-', '-'] => .ok (g, .path)
    | '-' :: '-' :: long => readLong g long
    | '-' :: c :: short => readShort g (c :: short)
    | _ => do return (← g.set .source argument, .argument)

/-- Reads arguments in turn, up to one that asks for help or the version. -/
def readAll (g : Given) (awaiting : Awaiting) : List String → Except UsageError Request
  | [] =>
    match awaiting with
    | .value s => .error (.missingValue s.name)
    | .argument | .path => do return .run (← g.complete)
  | argument :: rest =>
    match readArgument g awaiting argument with
    | .error e => .error e
    | .ok (g, awaiting) =>
      match g.early? with
      | some request => .ok request
      | none => readAll g awaiting rest

/-- The request of a list of arguments. -/
def ofArguments (arguments : List String) : Except UsageError Request :=
  readAll {} .argument arguments

end Request

end KernelGraph
