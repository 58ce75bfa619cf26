import RowFlow.Number.Double

/-!
# Shortest decimals

The decimal with the fewest digits among those that read back as a given double, and among these
the nearest to it. For each number of digits only the two neighbours of the double on that decimal
grid need to be tried: when any point of the grid reads back, so does one of the two.
-/

namespace RowFlow

/-- The positive decimal `0.d₁d₂… * 10 ^ point`, written by its digits as one natural. -/
structure Decimal where
  digits : Nat
  exponent : Int
deriving DecidableEq, Repr

namespace Decimal

/-- Digits in base ten, most significant first; zero has one digit. -/
def digitsOf (n : Nat) : List Char := Nat.toDigits 10 n

/-- Moves trailing zeros of the digits into the exponent. The fuel is a bound on their number. -/
def trimZeros : Nat → Decimal → Decimal
  | 0, d => d
  | fuel + 1, d =>
    if d.digits ≠ 0 ∧ d.digits % 10 = 0 then trimZeros fuel ⟨d.digits / 10, d.exponent + 1⟩ else d

end Decimal

namespace Double

/-- The reals that round to a double, all scaled by one positive factor so that the ends and the
double itself are naturals over a common power of two. -/
structure RoundingInterval where
  low : Nat
  value : Nat
  high : Nat
  exponent : Int
  ends : Bool

/-- The interval of reals that round to the double. Below a power of two the neighbouring doubles
are twice as dense; the ends belong to the interval when the mantissa is even. -/
def roundingInterval (x : Double) : RoundingInterval :=
  let dense := x.mantissa = Nat.pow 2 52 ∧ leastExponent < x.exponent
  { low := 4 * x.mantissa - (if dense then 1 else 2)
    value := 4 * x.mantissa
    high := 4 * x.mantissa + 2
    exponent := x.exponent - 2
    ends := x.mantissa % 2 = 0 }

/-- `n * 2 ^ e / 10 ^ p` as a fraction. -/
def onGrid (n : Nat) (e p : Int) : Nat × Nat :=
  let n := if 0 ≤ e then n * Nat.pow 2 e.natAbs else n
  let d := if e < 0 then Nat.pow 2 e.natAbs else 1
  if 0 ≤ p then (n, d * Nat.pow 10 p.natAbs) else (n * Nat.pow 10 p.natAbs, d)

/-- The point of the grid of multiples of `10 ^ place` that reads back as `x` and is nearest to
it; a tie goes to the even one. -/
def nearestOnGrid? (x : Double) (place : Int) : Option Nat :=
  let r := x.roundingInterval
  let (v, d) := onGrid r.value r.exponent place
  let (lo, _) := onGrid r.low r.exponent place
  let (hi, _) := onGrid r.high r.exponent place
  let inside (k : Nat) : Bool :=
    if r.ends then lo ≤ k * d && k * d ≤ hi else lo < k * d && k * d < hi
  let below := v / d
  let above := below + 1
  let below? := 0 < below && inside below
  if below? && inside above then
    let left := v - below * d
    let right := above * d - v
    if left < right then some below
    else if right < left then some above
    else some (if below % 2 = 0 then below else above)
  else if below? then some below
  else if inside above then some above
  else none

/-- The place of the leading digit: the double is at least ten to it and below ten times that. -/
def leadingPlace (x : Double) : Int :=
  let r := x.roundingInterval
  let bits : Int := (Nat.log2 r.value : Int) + r.exponent
  let estimate := bits * 30103 / 100000
  let (n, d) := onGrid r.value r.exponent (estimate + 1)
  if d ≤ n then estimate + 1 else
    let (n, d) := onGrid r.value r.exponent estimate
    if d ≤ n then estimate else estimate - 1

/-- Tries grids of the given many digits, then of ever more; seventeen always suffice. -/
def shortestFrom (x : Double) (place : Int) : Nat → Decimal
  | 0 => ⟨(x.nearestOnGrid? place).getD 0, place⟩
  | more + 1 =>
    match x.nearestOnGrid? place with
    | some digits => ⟨digits, place⟩
    | none => shortestFrom x (place - 1) more

/-- The shortest decimal that reads back as the magnitude of a double other than zero. -/
def shortest (x : Double) : Decimal :=
  Decimal.trimZeros 20 (shortestFrom x x.leadingPlace 17)

end Double

end RowFlow
