import KernelGraph.Decimal.Binary64

/-!
# The shortest decimal that reads back

The numbers that round to a given double form an interval: from half-way to the magnitude below up
to half-way to the magnitude above, ends included exactly when the double is even. The text of a
double shows the fewest digits that name a point of this interval, and of those the point nearest
to the double itself. `Layout` then says how the digits are set out.

## Main definitions

* `Decimal` — digits and a power of ten
* `Binary64.readsBack` — does a decimal lie in the rounding interval of a magnitude?
* `Binary64.shortest` — the shortest decimal in that interval, nearest to the magnitude
* `Layout`, `Layout.print` — where positional notation ends, and how the exponent is written
-/

namespace KernelGraph

/-- The number `digits * 10 ^ exponent`. -/
structure Decimal where
  digits : Nat
  exponent : Int
  deriving DecidableEq, Repr

namespace Decimal

/-- A positive fraction equal to the decimal, counted in half steps of `2 ^ -1075`. -/
def halfSteps (d : Decimal) : Nat × Nat :=
  let scaled := d.digits * (2 * Binary64.stepsInOne)
  if d.exponent < 0 then (scaled, Nat.pow 10 d.exponent.natAbs)
  else (scaled * Nat.pow 10 d.exponent.natAbs, 1)

end Decimal

namespace Binary64

/-- Twice the number of steps from zero to the lower end of the rounding interval of `n`. -/
def lowerEnd (n : Nat) : Nat := units (n - 1) + units n

/-- Twice the number of steps from zero to the upper end of the rounding interval of `n`. -/
def upperEnd (n : Nat) : Nat := units n + units (n + 1)

/-- Does the decimal lie in the interval of the numbers that round to the magnitude `n`? The ends
belong to it exactly when `n` is even. -/
def readsBack (n : Nat) (d : Decimal) : Bool :=
  let (a, b) := d.halfSteps
  if n % 2 = 0 then lowerEnd n * b ≤ a && a ≤ upperEnd n * b
  else lowerEnd n * b < a && a < upperEnd n * b

/-- The largest multiple of `10 ^ e` that does not exceed the magnitude `n`, as its quotient by
`10 ^ e`, and twice the remainder compared with `10 ^ e`. -/
def gridBelow (n : Nat) (e : Int) : Nat × Ordering :=
  let a := if e < 0 then units n * Nat.pow 10 e.natAbs else units n
  let b := if e < 0 then stepsInOne else stepsInOne * Nat.pow 10 e.natAbs
  (a / b, compare (2 * (a % b)) b)

/-- The multiple of `10 ^ e` that names the magnitude `n` best, if one of its two neighbours on
that grid reads back. Of two that do, the nearer is taken, and the even one on a tie. -/
def onGrid (n : Nat) (e : Int) : Option Decimal :=
  let (q, side) := gridBelow n e
  let below : Decimal := ⟨q, e⟩
  let above : Decimal := ⟨q + 1, e⟩
  match readsBack n below, readsBack n above with
  | false, false => none
  | true, false => some below
  | false, true => some above
  | true, true =>
    match side with
    | .lt => some below
    | .gt => some above
    | .eq => some (if q % 2 = 0 then below else above)

/-- The power of ten of the leading digit of a positive magnitude. -/
def leadingPower (n : Nat) : Int :=
  if stepsInOne ≤ units n then ((Nat.toDigits 10 (units n / stepsInOne)).length : Int) - 1
  else
    -- below one: ten to this power, taken off, is the first to leave a whole part
    -((((List.range 330).find? fun k => stepsInOne ≤ units n * Nat.pow 10 k).getD 330 : Nat) : Int)

/-- The first grid with a hit, going from coarse to fine, with at most `count` grids to try. -/
def firstHit (n : Nat) (e : Int) : Nat → Option Decimal
  | 0 => none
  | count + 1 =>
    match onGrid n e with
    | some d => some d
    | none => firstHit n (e - 1) count

/-- The shortest decimal that reads back as the magnitude `n`, nearest to it. Seventeen digits
always suffice. -/
def shortest (n : Nat) : Decimal :=
  if n = 0 then ⟨0, 0⟩
  else (firstHit n (leadingPower n + 1) 18).getD ⟨units n, -1074⟩

end Binary64

/-- How a decimal is set out: the powers of the leading digit that are written positionally. All
others are written with one digit before the point and an exponent with its sign. -/
structure Layout where
  smallest : Int
  largest : Int
  deriving DecidableEq, Repr

namespace Layout

/-- The digits of a decimal without trailing zeros, and the power of ten of the first. -/
def leading (d : Decimal) : List Char × Int :=
  let ds := Nat.toDigits 10 d.digits
  ((ds.reverse.dropWhile (· == '0')).reverse, d.exponent + ds.length - 1)

/-- The text of a positive or zero decimal. A whole number keeps one decimal zero in positional
notation. -/
def print (layout : Layout) (d : Decimal) : List Char :=
  match leading d with
  | ([], _) => ['0', '.', '0']
  | (first :: others, power) =>
    let ds := first :: others
    if layout.smallest ≤ power && power ≤ layout.largest then
      if power < 0 then
        ['0', '.'] ++ List.replicate (power.natAbs - 1) '0' ++ ds
      else
        let whole := power.toNat + 1
        if ds.length ≤ whole then
          ds ++ List.replicate (whole - ds.length) '0' ++ ['.', '0']
        else
          ds.take whole ++ ['.'] ++ ds.drop whole
    else
      let mantissa := if others.isEmpty then [first] else first :: '.' :: others
      mantissa ++ ['e', if power < 0 then '-' else '+'] ++ Nat.toDigits 10 power.natAbs

end Layout

/-- Doubles in a document are written positionally for powers from `10 ^ -5` to `10 ^ 15`. -/
def documentLayout : Layout := ⟨-5, 15⟩

namespace Binary64

/-- The text of a double: its sign, negative zero included, and its shortest decimal. -/
def print (x : Binary64) : List Char :=
  let text := documentLayout.print (shortest x.magnitude)
  if x.negative then '-' :: text else text

end Binary64

end KernelGraph
