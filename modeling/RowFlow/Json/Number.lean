import RowFlow.Value
import RowFlow.Number.Layout

/-!
# Numbers in JSON

Integers from `-2 ^ 63` to `2 ^ 64 - 1` are read as integers. Every other number is read as a
double from the leading digits that fit 64 bits and a power of ten, with one rounding for each; a
number that is too large for a double is refused. Doubles are written with the fewest digits that
identify them, positionally when the leading digit is at one of the places `-5` to `15`.
-/

namespace RowFlow.Json

/-- Doubles from `0.00001` up to but not including `1e+16` are positional and keep a decimal. -/
def numberFormat : NumberFormat where
  leastPositional := -5
  greatestPositional := 15
  wholeTail := ['.', '0']
  exponentMark := 'e'
  plus := ['+']

def writeInt (n : Int) : List Char :=
  if n < 0 then '-' :: Decimal.digitsOf n.natAbs else Decimal.digitsOf n.natAbs

def writeNumber : Number → List Char
  | .int n => writeInt n
  | .double x => numberFormat.double x

/-- The parts of a number's text: sign, digits before and after the point, and the exponent's sign
and digits. -/
structure NumberText where
  negative : Bool
  whole : List Char
  fraction : Option (List Char)
  exponent : Option (Bool × List Char)

def isDigit (c : Char) : Bool := '0' ≤ c && c ≤ '9'

def digitValue (c : Char) : Nat := c.toNat - 48

def natOfDigits (digits : List Char) : Nat :=
  digits.foldl (fun n c => 10 * n + digitValue c) 0

/-- Splits an exponent after its mark; it needs a digit. -/
def splitExponent? : List Char → Option (Bool × List Char)
  | '-' :: ds => if ds ≠ [] ∧ ds.all isDigit then some (true, ds) else none
  | '+' :: ds => if ds ≠ [] ∧ ds.all isDigit then some (false, ds) else none
  | ds => if ds ≠ [] ∧ ds.all isDigit then some (false, ds) else none

def splitMark? : List Char → Option (Option (Bool × List Char))
  | [] => some none
  | c :: cs => if c = 'e' ∨ c = 'E' then (splitExponent? cs).map some else none

/-- Splits a text by the grammar of numbers: no leading zeros, a digit on both sides of a point. -/
def NumberText.ofChars? (cs : List Char) : Option NumberText :=
  let (negative, cs) := match cs with
    | '-' :: cs => (true, cs)
    | cs => (false, cs)
  let whole := cs.takeWhile isDigit
  let rest := cs.dropWhile isDigit
  if whole = [] ∨ (whole.head? = some '0' ∧ 1 < whole.length) then none else
    match rest with
    | '.' :: rest =>
      let fraction := rest.takeWhile isDigit
      if fraction = [] then none else
        (splitMark? (rest.dropWhile isDigit)).map fun e => ⟨negative, whole, some fraction, e⟩
    | rest => (splitMark? rest).map fun e => ⟨negative, whole, none, e⟩

/-- Appends digits to a significand as long as it fits 64 bits, and gives the digits that are left
over from the first that does not fit. -/
def accumulate : Nat → List Char → Nat × List Char
  | n, [] => (n, [])
  | n, d :: ds =>
    if 10 * n + digitValue d < Nat.pow 2 64 then accumulate (10 * n + digitValue d) ds
    else (n, d :: ds)

def powerOfTen? (n : Nat) : Option Double := Double.ofNat (Nat.pow 10 n)

/-- `x * 10 ^ exponent`, one rounding for each factor of at most `10 ^ 308`. The fuel bounds the
number of steps that leave a value other than zero. -/
def scaleByTen? : Nat → Double → Int → Option Double
  | fuel, x, exponent =>
    if exponent.natAbs ≤ 308 then do
      let power ← powerOfTen? exponent.natAbs
      if 0 ≤ exponent then x.mul power else x.div power
    else if x.mantissa = 0 then some x
    else if 0 ≤ exponent then none
    else match fuel with
      | 0 => some (Double.zero false)
      | fuel + 1 => do
        let power ← powerOfTen? 308
        scaleByTen? fuel (← x.div power) (exponent + 308)

/-- The double of a number's text. -/
def NumberText.double? (t : NumberText) : Option Double := do
  let (significand, dropped) := accumulate 0 t.whole
  let (significand, used) := match t.fraction with
    | none => (significand, 0)
    | some fraction =>
      let (s, unused) := accumulate significand fraction
      (s, fraction.length - unused.length)
  let exponent : Int := (dropped.length : Int) - used
  let written : Int := match t.exponent with
    | none => 0
    | some (negative, ds) => if negative then -(natOfDigits ds : Int) else natOfDigits ds
  if significand = 0 then return Double.zero t.negative
  let x ← Double.ofNat significand
  return (← scaleByTen? 4 x (exponent + written)).withSign t.negative

/-- The number of a text; an integer in range stays one, except that `-0` is a double. -/
def readNumber? (cs : List Char) : Option Number := do
  let t ← NumberText.ofChars? cs
  let n := natOfDigits t.whole
  if t.fraction.isNone ∧ t.exponent.isNone then
    if t.negative then
      if 0 < n ∧ n ≤ Nat.pow 2 63 then return .int (-(n : Int))
    else if n < Nat.pow 2 64 then return .int n
  return .double (← t.double?)

end RowFlow.Json
