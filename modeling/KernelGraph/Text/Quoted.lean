import KernelGraph.Text.Shapeless

/-!
# Text quoted in a message

A message shows a text of the document between quotation marks, so that its ends can be seen.
Quotation marks and backslashes get a backslash, a few controls are named, and what has no shape
of its own is given by its code point.

## Main definitions

* `Text.quoted` — a text as a message shows it
-/

namespace KernelGraph.Text

/-- How a character is shown inside quotation marks. -/
def shown (c : Char) : List Char :=
  if c = '\x00' then ['\\', '0']
  else if c = '\t' then ['\\', 't']
  else if c = '\r' then ['\\', 'r']
  else if c = '\n' then ['\\', 'n']
  else if c = '\\' then ['\\', '\\']
  else if c = '"' then ['\\', '"']
  else if c.toNat < 0x20 || isShapeless c then
    ['\\', 'u', '\x7b'] ++ Nat.toDigits 16 c.toNat ++ ['\x7d']
  else [c]

/-- A text between quotation marks. -/
def quoted (s : String) : String :=
  String.ofList ('"' :: s.toList.flatMap shown ++ ['"'])

end KernelGraph.Text
