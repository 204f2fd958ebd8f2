import KernelGraph.Json.Fault

/-!
# Words, texts and numbers

The leaves of the grammar. A reader takes a list of characters and gives a value with the
characters that follow it, or the first fault. Texts are read by a machine that takes one character
a step, so that a fault is found where it stands; a number is first split into its parts and then
given its value.

A value that is only skipped obeys the same grammar, except that half a surrogate pair may stand
alone, that a number may be too large, and that a number cut off by the end of the text counts as
ill-formed.

## Main definitions

* `Reader` — a reader of values of a type
* `skipBlanks`, `word` — blanks and the words `null`, `true`, `false`
* `Quoted.scan` — the inside of a text, up to its closing quotation mark
* `NumberText`, `numberText`, `Number.ofText?` — the parts of a number and their value
-/

namespace KernelGraph

/-- A reader gives a value and the characters after it, or the first fault it meets. -/
abbrev Reader (α : Type) := List Char → Except Fault (α × List Char)

/-- The characters that may stand between lexemes. -/
def isBlank (c : Char) : Bool := c = ' ' || c = '\t' || c = '\n' || c = '\r'

/-- The characters from the first that is not blank. -/
def skipBlanks (s : List Char) : List Char := s.dropWhile isBlank

/-- The characters after the word `w`, which must stand first. -/
def word : (w s : List Char) → Except Fault (List Char)
  | [], s => .ok s
  | _ :: _, [] => .error .cutOff
  | c :: w, d :: s => if c = d then word w s else .error .illFormed

namespace Quoted

/-- Where the reading of a text stands. -/
inductive Mode
  /-- Between characters. -/
  | plain
  /-- After a backslash. -/
  | escape
  /-- Within four digits of base sixteen, `missing` of them to come. The digits so far have the
  value `value`, and `lead` is the first half of a surrogate pair if one came before. -/
  | code (lead : Option Nat) (missing value : Nat)
  /-- After the first half of a surrogate pair: a backslash must follow. -/
  | pairBackslash (lead : Nat)
  /-- After that backslash: the letter of a code must follow. -/
  | pairLetter (lead : Nat)
  deriving DecidableEq, Repr

/-- The character that a letter names after a backslash. -/
def named : Char → Option Char
  | '"' => some '"'
  | '\\' => some '\\'
  | '/' => some '/'
  | 'b' => some '\x08'
  | 'f' => some '\x0c'
  | 'n' => some '\n'
  | 'r' => some '\r'
  | 't' => some '\t'
  | _ => none

/-- The value of a digit of base sixteen, in either case. -/
def hexValue (c : Char) : Option Nat :=
  if '0' ≤ c ∧ c ≤ '9' then some (c.toNat - '0'.toNat)
  else if 'a' ≤ c ∧ c ≤ 'f' then some (c.toNat - 'a'.toNat + 10)
  else if 'A' ≤ c ∧ c ≤ 'F' then some (c.toNat - 'A'.toNat + 10)
  else none

/-- The first half of a surrogate pair. -/
def isLead (n : Nat) : Bool := 0xD800 ≤ n && n ≤ 0xDBFF

/-- The second half of a surrogate pair. -/
def isTrail (n : Nat) : Bool := 0xDC00 ≤ n && n ≤ 0xDFFF

/-- The character of a surrogate pair. -/
def paired (lead trail : Nat) : Char :=
  Char.ofNat (0x10000 + (lead - 0xD800) * 0x400 + (trail - 0xDC00))

/-- What a finished code of four digits stands for: a character, or half a pair that must be
completed. -/
inductive Code
  | char (c : Char)
  | half (lead : Nat)
  | bad
  deriving DecidableEq, Repr

/-- The meaning of a code, given the first half of a pair before it. Where halves need not match,
each code stands for itself. -/
def finish (strict : Bool) (lead : Option Nat) (n : Nat) : Code :=
  if strict then
    match lead with
    | some l => if isTrail n then .char (paired l n) else .bad
    | none => if isTrail n then .bad else if isLead n then .half n else .char (Char.ofNat n)
  else .char (Char.ofNat n)

/-- Does the text end, counted in bytes, before `missing` digits can have come? -/
def tooShort (missing : Nat) (s : List Char) : Bool :=
  (String.ofList (s.take missing)).utf8ByteSize < missing

/-- A character put before what is read after it. -/
def keep (c : Char) : Except Fault (List Char × List Char) → Except Fault (List Char × List Char)
  | .ok (cs, rest) => .ok (c :: cs, rest)
  | .error fault => .error fault

/-- The characters of a text up to its closing quotation mark, and what follows it. With `strict`
off the halves of surrogate pairs are not matched. -/
def scan (strict : Bool) : Mode → Reader (List Char)
  | _, [] => .error .cutOff
  | .plain, c :: s =>
    if c = '"' then .ok ([], s)
    else if c = '\\' then scan strict .escape s
    else if c.toNat < 0x20 then .error .illFormed
    else keep c (scan strict .plain s)
  | .escape, c :: s =>
    if c = 'u' then scan strict (.code none 4 0) s
    else
      match named c with
      | some d => keep d (scan strict .plain s)
      | none => .error .illFormed
  | .code lead missing value, c :: s =>
    -- the four digits are taken together: if the text is too short for them it is cut off, even
    -- where it goes on with something else
    match hexValue c with
    | none => .error (if tooShort missing (c :: s) then .cutOff else .illFormed)
    | some d =>
      if 1 < missing then scan strict (.code lead (missing - 1) (16 * value + d)) s
      else
        match finish strict lead (16 * value + d) with
        | .char x => keep x (scan strict .plain s)
        | .half l => scan strict (.pairBackslash l) s
        | .bad => .error .illFormed
  | .pairBackslash lead, c :: s =>
    if c = '\\' then scan strict (.pairLetter lead) s else .error .illFormed
  | .pairLetter lead, c :: s =>
    if c = 'u' then scan strict (.code (some lead) 4 0) s else .error .illFormed

/-- The text whose opening quotation mark has been taken. -/
def read : Reader String := fun s =>
  match scan true .plain s with
  | .ok (cs, rest) => .ok (String.ofList cs, rest)
  | .error fault => .error fault

/-- What follows the text whose opening quotation mark has been taken. -/
def skip (s : List Char) : Except Fault (List Char) :=
  match scan false .plain s with
  | .ok (_, rest) => .ok rest
  | .error fault => .error fault

end Quoted

/-- The parts of a number: its sign, the digits before and after the point, and the sign and the
digits of its exponent. Without a point or an exponent that part is `none`. -/
structure NumberText where
  negative : Bool
  whole : List Char
  fraction : Option (List Char)
  exponent : Option (Bool × List Char)
  deriving DecidableEq, Repr

/-- An ASCII digit. -/
def isDigit (c : Char) : Bool := '0' ≤ c && c ≤ '9'

/-- One or more digits; `atEnd` is the fault if the text ends before the first. -/
def someDigits (atEnd : Fault) : Reader (List Char) := fun s =>
  match s.takeWhile isDigit, s.dropWhile isDigit with
  | [], [] => .error atEnd
  | [], _ :: _ => .error .illFormed
  | ds, rest => .ok (ds, rest)

/-- The digits before the point, with no zero in front of another digit. -/
def wholeDigits (atEnd : Fault) : Reader (List Char) := fun s =>
  match someDigits atEnd s with
  | .ok ('0' :: _ :: _, _) => .error .illFormed
  | answer => answer

/-- The point and the digits after it, if there is a point. -/
def fractionDigits (atEnd : Fault) : Reader (Option (List Char))
  | '.' :: s =>
    match someDigits atEnd s with
    | .ok (ds, rest) => .ok (some ds, rest)
    | .error fault => .error fault
  | s => .ok (none, s)

/-- The sign of an exponent; without one it is positive. -/
def exponentSign : List Char → Bool × List Char
  | '+' :: s => (false, s)
  | '-' :: s => (true, s)
  | s => (false, s)

/-- The exponent, if there is one. -/
def exponentDigits (atEnd : Fault) : Reader (Option (Bool × List Char))
  | c :: s =>
    if c = 'e' ∨ c = 'E' then
      match someDigits atEnd (exponentSign s).2 with
      | .ok (ds, rest) => .ok (some ((exponentSign s).1, ds), rest)
      | .error fault => .error fault
    else .ok (none, c :: s)
  | [] => .ok (none, [])

/-- The parts of a number whose minus sign, if any, has been taken. -/
def numberText (atEnd : Fault) (negative : Bool) : Reader NumberText := fun s => do
  let (whole, s) ← wholeDigits atEnd s
  let (fraction, s) ← fractionDigits atEnd s
  let (exponent, s) ← exponentDigits atEnd s
  return (⟨negative, whole, fraction, exponent⟩, s)

/-- The value of a digit. -/
def digitValue (c : Char) : Nat := c.toNat - '0'.toNat

/-- The number that digits of base ten write. -/
def ofDigits (ds : List Char) : Nat := ds.foldl (fun n c => 10 * n + digitValue c) 0

/-- The number `n` continued by digits as long as it fits an unsigned word of 64 bits, and how many
digits that takes. -/
def continued (n : Nat) : List Char → Nat × Nat
  | [] => (n, 0)
  | c :: ds =>
    if 10 * n + digitValue c < 0x10000000000000000 then
      let (m, count) := continued (10 * n + digitValue c) ds
      (m, count + 1)
    else (n, 0)

namespace Number

/-- The double that the parts of a number write. The digits that fit a word make the significand:
those left over before the point count as zeros, those left over after it are dropped. -/
def doubleOfText? (t : NumberText) : Option Number :=
  let (m, taken) := continued 0 t.whole
  -- a digit after the point may still fit where a larger one before it did not
  let (m, takenAfter) := continued m (t.fraction.getD [])
  let shift : Int :=
    match t.exponent with
    | none => 0
    | some (true, ds) => -(ofDigits ds : Int)
    | some (false, ds) => ofDigits ds
  let untaken := t.whole.length - taken
  (Binary64.ofDecimal? t.negative m ((untaken : Int) - takenAfter + shift)).map Number.double

/-- The value of a number, or `none` if it is too large for a double. A number without point and
exponent is an integer if it fits a word; minus zero does not. -/
def ofText? (t : NumberText) : Option Number :=
  match t.fraction, t.exponent with
  | none, none =>
    let n := ofDigits t.whole
    -- minus zero is left to the doubles, which alone have one
    if t.negative then
      if h : 0 < n ∧ n ≤ 0x8000000000000000 then some (.integer (-n) (by omega))
      else doubleOfText? t
    else if h : n < 0x10000000000000000 then some (.integer n (by omega)) else doubleOfText? t
  | _, _ => doubleOfText? t

/-- The number whose minus sign, if any, has been taken. One that is too large is ill-formed. -/
def read (negative : Bool) : Reader Number := fun s =>
  match numberText .cutOff negative s with
  | .ok (t, rest) =>
    match ofText? t with
    | some n => .ok (n, rest)
    | none => .error .illFormed
  | .error fault => .error fault

/-- What follows the number whose minus sign, if any, has been taken. -/
def skip (s : List Char) : Except Fault (List Char) :=
  match numberText .illFormed false s with
  | .ok (_, rest) => .ok rest
  | .error fault => .error fault

end Number

end KernelGraph
