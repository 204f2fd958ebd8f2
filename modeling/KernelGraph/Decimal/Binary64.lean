/-!
# Finite doubles as natural numbers

A finite double of 64 bits is a sign and a magnitude. The magnitudes are numbered upwards from
zero, so that a natural number below `infinity` names each of them and their order is the order of
the naturals: `units n` is the magnitude numbered `n`, counted in steps of `2 ^ -1074`. With that
numbering rounding needs no case for subnormal numbers, for a carry into the next power of two,
or for overflow.

## Main definitions

* `Binary64` — a sign and the number of a finite magnitude
* `Binary64.units` — the magnitude with a number, in the smallest steps there are
* `Binary64.nearest` — the number of the magnitude nearest to a quotient, a tie going to even
* `Binary64.scale` — a significand times a power of ten, in the roundings that the format names
-/

namespace KernelGraph

/-- A finite double: its sign and the number of its magnitude. -/
structure Binary64 where
  negative : Bool
  magnitude : Nat
  finite : magnitude < 0x7FF0000000000000
  deriving DecidableEq, Repr

namespace Binary64

/-- The number that follows the largest finite magnitude. -/
def infinity : Nat := 0x7FF0000000000000

/-- The number of magnitudes in a binade, from one power of two to the next. -/
def binade : Nat := 0x10000000000000

/-- The number of steps of `2 ^ -1074` in one. -/
def stepsInOne : Nat := Nat.pow 2 1074

/-- The magnitude numbered `n`, counted in steps of `2 ^ -1074`: steps double from one binade to
the next, and the first two binades share the smallest step. -/
def units (n : Nat) : Nat :=
  if n < 2 * binade then n else (binade + n % binade) * Nat.pow 2 (n / binade - 1)

/-- The quotient of two naturals, rounded to nearest and to even on a tie. -/
def divideToEven (a b : Nat) : Nat :=
  let q := a / b
  let twice := 2 * (a % b)
  if twice < b then q else if b < twice then q + 1 else q + q % 2

/-- The number of the magnitude nearest to `a / b` steps of `2 ^ -1074`, for positive `b`. The
quotient is cut to 53 binary digits, or to whole steps if it has fewer; a result of `infinity` or
more is an overflow. -/
def nearestUnits (a b : Nat) : Nat :=
  let guess := (a / b).log2 - 52
  guess * binade + divideToEven a (b * Nat.pow 2 guess)

/-- The number of the magnitude nearest to `a / b`, for positive `b`. -/
def nearest (a b : Nat) : Nat := nearestUnits (a * stepsInOne) b

/-- The number of the magnitude `1`. -/
def one : Nat := 0x3FF0000000000000

/-- The number of the product of two magnitudes. -/
def multiply (m n : Nat) : Nat := nearestUnits (units m * units n) stepsInOne

/-- The number of the quotient of two magnitudes, the second not zero. -/
def divide (m n : Nat) : Nat := nearest (units m) (units n)

/-- The number of the magnitude nearest to `10 ^ k`. -/
def tenPower (k : Nat) : Nat := nearest (Nat.pow 10 k) 1

/-- The largest power of ten that is a finite double. -/
def largestTenPower : Nat := 308

/-- The magnitude numbered `n` divided by `10 ^ k`. A power beyond `largestTenPower` is taken off
in several divisions, each of them rounded, until the quotient is zero. -/
def scaleDown (n k : Nat) : Nat :=
  if n = 0 then 0
  else if k ≤ largestTenPower then divide n (tenPower k)
  else scaleDown (divide n (tenPower largestTenPower)) (k - largestTenPower)
termination_by k
decreasing_by simp_all [largestTenPower]; omega

/-- The magnitude `significand * 10 ^ exponent`, or `none` if it is too large. The significand is
rounded first and the result once more, so it may differ from the nearest double in its last
place. -/
def scale (significand : Nat) (exponent : Int) : Option Nat :=
  let n := nearest significand 1
  if exponent < 0 then some (scaleDown n exponent.natAbs)
  else if n = 0 then some 0
  else if largestTenPower < exponent.natAbs then none
  else
    let product := multiply n (tenPower exponent.natAbs)
    if product < infinity then some product else none

/-- The double of a sign and `significand * 10 ^ exponent`, or `none` if it is too large. -/
def ofDecimal? (negative : Bool) (significand : Nat) (exponent : Int) : Option Binary64 :=
  match scale significand exponent with
  | none => none
  | some n => if h : n < infinity then some ⟨negative, n, h⟩ else none

end Binary64

end KernelGraph
