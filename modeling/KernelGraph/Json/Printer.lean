import KernelGraph.Json.Value

/-!
# Writing JSON

A value is written on one line without blanks, or indented by two blanks a level. Text is written
as it stands, except for the quotation mark, the backslash and the control characters below the
blank. Members are written in the order in which they are listed.

## Main definitions

* `Style` — on one line, or indented
* `Quoted.encode` — the characters between the quotation marks of a text
* `Value.print` — the text of a value
-/

namespace KernelGraph

/-- How the parts of a value are set out: on one line, or one to a line at an indentation. -/
inductive Style
  | compact
  | indented (level : Nat)
  deriving DecidableEq, Repr

namespace Style

/-- What stands before a part, and before the closing bracket: nothing, or a new line. -/
def lineBreak : Style → List Char
  | .compact => []
  | .indented level => '\n' :: List.replicate (2 * level) ' '

/-- The style of the parts of a value. -/
def deeper : Style → Style
  | .compact => .compact
  | .indented level => .indented (level + 1)

/-- What stands between a key and its value. -/
def colon : Style → List Char
  | .compact => [':']
  | .indented _ => [':', ' ']

end Style

namespace Quoted

/-- A digit of base sixteen, in lower case. -/
def hexDigit (d : Nat) : Char :=
  if d < 10 then Char.ofNat ('0'.toNat + d) else Char.ofNat ('a'.toNat + (d - 10))

/-- How a character is written inside a text. -/
def encodeChar (c : Char) : List Char :=
  if c = '"' then ['\\', '"']
  else if c = '\\' then ['\\', '\\']
  else if c = '\x08' then ['\\', 'b']
  else if c = '\x0c' then ['\\', 'f']
  else if c = '\n' then ['\\', 'n']
  else if c = '\r' then ['\\', 'r']
  else if c = '\t' then ['\\', 't']
  else if c.toNat < 0x20 then
    ['\\', 'u', '0', '0', hexDigit (c.toNat / 16), hexDigit (c.toNat % 16)]
  else [c]

/-- The characters between the quotation marks of a text. -/
def encode : List Char → List Char
  | [] => []
  | c :: cs => encodeChar c ++ encode cs

/-- A text with its quotation marks. -/
def print (s : String) : List Char := '"' :: encode s.toList ++ ['"']

end Quoted

namespace Number

/-- The digits of an integer, with a minus sign if it is negative. -/
def printInt (i : Int) : List Char :=
  if i < 0 then '-' :: Nat.toDigits 10 i.natAbs else Nat.toDigits 10 i.natAbs

/-- The text of a number. -/
def print : Number → List Char
  | .integer i _ => printInt i
  | .double x => x.print

end Number

namespace Value

mutual

/-- The text of a value in a style. Brackets without content stand side by side. -/
def print (style : Style) : Value → List Char
  | .null => "null".toList
  | .bool true => "true".toList
  | .bool false => "false".toList
  | .number n => n.print
  | .text s => Quoted.print s
  | .list [] => ['[', ']']
  | .list (v :: vs) =>
    '[' :: style.deeper.lineBreak ++ print style.deeper v ++ printRest style.deeper vs
      ++ style.lineBreak ++ [']']
  | .object [] => ['\x7b', '\x7d']
  | .object ((k, v) :: fields) =>
    '\x7b' :: style.deeper.lineBreak ++ Quoted.print k ++ style.colon ++ print style.deeper v
      ++ printMembers style.deeper fields ++ style.lineBreak ++ ['\x7d']

/-- The text of the elements after the first, each with its comma. -/
def printRest (style : Style) : List Value → List Char
  | [] => []
  | v :: vs => ',' :: style.lineBreak ++ print style v ++ printRest style vs

/-- The text of the members after the first, each with its comma. -/
def printMembers (style : Style) : List (String × Value) → List Char
  | [] => []
  | (k, v) :: fields =>
    ',' :: style.lineBreak ++ Quoted.print k ++ style.colon ++ print style v
      ++ printMembers style fields

end

end Value

end KernelGraph
