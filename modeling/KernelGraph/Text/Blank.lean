/-!
# White space and letter case

Names of platforms are compared without the white space around them and without regard to the case
of their ASCII letters. White space is the Unicode property `White_Space`, of 25 characters, to
which the zero width space and the byte order mark do not belong.

## Main definitions

* `Text.isWhite` — the property `White_Space`
* `Text.trim` — a text without white space at its ends
* `Text.normal` — trimmed, with ASCII letters in upper case
-/

namespace KernelGraph.Text

/-- The Unicode property `White_Space`. -/
def isWhite (c : Char) : Bool :=
  let n := c.toNat
  (0x9 ≤ n && n ≤ 0xD) || n = 0x20 || n = 0x85 || n = 0xA0 || n = 0x1680
    || (0x2000 ≤ n && n ≤ 0x200A) || n = 0x2028 || n = 0x2029 || n = 0x202F || n = 0x205F
    || n = 0x3000

/-- The four blanks of ASCII text are white space. -/
theorem isWhite_of_isWhitespace {c : Char} (h : c.isWhitespace) : isWhite c := by
  simp only [Char.isWhitespace, Bool.or_eq_true, decide_eq_true_eq] at h
  rcases h with ((rfl | rfl) | rfl) | rfl <;> rfl

/-- The characters without white space at either end. -/
def trimChars (s : List Char) : List Char :=
  ((s.dropWhile isWhite).reverse.dropWhile isWhite).reverse

/-- A text without white space at either end. -/
def trim (s : String) : String := String.ofList (trimChars s.toList)

/-- A text trimmed, with its ASCII letters in upper case. Other letters keep their case. -/
def normal (s : String) : String := String.ofList ((trimChars s.toList).map Char.toUpper)

end KernelGraph.Text
