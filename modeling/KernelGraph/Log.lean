import KernelGraph.Instant

/-!
# Log records

What the program tells about its progress. A record has a level, a message, and named fields whose
values were not part of the message. In a log it stands after the moment when it was told.

## Main definitions

* `LogLevel`, `LogRecord`
* `LogRecord.describe` — a record as a text
* `LogRecord.line` — a record as it stands in a log
* `Log.upTo` — the records that are shown at a level
-/

namespace KernelGraph

/-- How important a record is. -/
inductive LogLevel
  | error
  | warn
  | info
  | debug
  deriving DecidableEq, Repr

namespace LogLevel

/-- The name of a level. -/
def name : LogLevel → String
  | error => "ERROR"
  | warn => "WARN"
  | info => "INFO"
  | debug => "DEBUG"

/-- The blanks before the name of a level, by which the names end in one column. -/
def margin (level : LogLevel) : String :=
  String.ofList (List.replicate (5 - level.name.length) ' ')

/-- The place of a level, the gravest first. -/
def rank : LogLevel → Nat
  | error => 0
  | warn => 1
  | info => 2
  | debug => 3

end LogLevel

/-- One thing that was told. -/
structure LogRecord where
  level : LogLevel
  message : String
  fields : List (String × String)
  deriving DecidableEq, Repr

/-- The records told so far, in their order. -/
abbrev Log := List LogRecord

namespace LogRecord

/-- A record of the level `info`. -/
def info (message : String) (fields : List (String × String) := []) : LogRecord :=
  ⟨.info, message, fields⟩

/-- A record of the level `debug`. -/
def debug (message : String) (fields : List (String × String) := []) : LogRecord :=
  ⟨.debug, message, fields⟩

/-- A character of a message in the log. Controls by which a text could steer a terminal are written
by their codes. -/
def harmless (c : Char) : List Char :=
  if c = '\x1b' ∨ c = '\x07' ∨ c = '\x08' ∨ c = '\x0c' ∨ c = '\x7f' then
    let ds := Nat.toDigits 16 c.toNat
    ['\\', 'x'] ++ List.replicate (2 - ds.length) '0' ++ ds
  else if 0x80 ≤ c.toNat ∧ c.toNat ≤ 0x9f then
    ['\\', 'u', '\x7b'] ++ Nat.toDigits 16 c.toNat ++ ['\x7d']
  else [c]

/-- A record as text: its level, its message, and its fields with their values as they are. -/
def describe (r : LogRecord) : String :=
  r.level.name ++ " " ++ String.ofList (r.message.toList.flatMap harmless)
    ++ String.join (r.fields.map fun f => " " ++ f.1 ++ "=" ++ f.2)

/-- A record as it stands in the log, with the new line that ends it. -/
def line (r : LogRecord) (time : Instant) : String :=
  time.describe ++ " " ++ r.level.margin ++ r.describe ++ "\n"

end LogRecord

/-- The records that are shown if those up to `level` are. -/
def Log.upTo (log : Log) (level : LogLevel) : Log :=
  log.filter fun r => r.level.rank ≤ level.rank

end KernelGraph
