/-!
# Binary floating point, exactly

A finite double is a sign, a mantissa and a power of two, kept in the one form that its 64 bits
would have. Quotients of naturals are rounded to the nearest double in exact arithmetic, halves
going to the even mantissa.
-/

namespace RowFlow

/-- The finite double `± mantissa * 2 ^ exponent`. The mantissa is below `2 ^ 53`, and it is at
least `2 ^ 52` unless the exponent is the least one, `-1074`. -/
structure Double where
  negative : Bool
  mantissa : Nat
  exponent : Int
deriving DecidableEq, Repr, Inhabited

namespace Double

def leastExponent : Int := -1074

def greatestExponent : Int := 971

/-- Zero with the given sign. -/
def zero (negative : Bool) : Double := ⟨negative, 0, leastExponent⟩

/-- The quotient rounded to the nearest natural, a half going to the even one. -/
def roundDiv (num den : Nat) : Nat :=
  let quotient := num / den
  let twice := 2 * (num % den)
  if twice < den then quotient
  else if den < twice then quotient + 1
  else quotient + quotient % 2

/-- `num / den / 2 ^ exponent` as a fraction. -/
def scaled (num den : Nat) (exponent : Int) : Nat × Nat :=
  if exponent < 0 then (num * Nat.pow 2 exponent.natAbs, den)
  else (num, den * Nat.pow 2 exponent.natAbs)

/-- The exponent at which the rounded mantissa of `num / den` has 53 bits, or the least one. -/
def exponentOf (num den : Nat) : Int :=
  let estimate : Int := (Nat.log2 num : Int) - Nat.log2 den - 53
  let (n, d) := scaled num den estimate
  let exponent := if Nat.pow 2 53 * d ≤ n then estimate + 1 else estimate
  max leastExponent exponent

/-- The double nearest to `± num / den`; none when it lies beyond the largest double. -/
def ofRatio (negative : Bool) (num den : Nat) : Option Double :=
  if num = 0 then some (zero negative) else
    let exponent := exponentOf num den
    let (n, d) := scaled num den exponent
    let mantissa := roundDiv n d
    let rounded : Double :=
      if mantissa = Nat.pow 2 53 then ⟨negative, Nat.pow 2 52, exponent + 1⟩
      else ⟨negative, mantissa, exponent⟩
    if rounded.exponent ≤ greatestExponent then some rounded else none

def ofNat (n : Nat) : Option Double := ofRatio false n 1

/-- The magnitude as a fraction. -/
def toRatio (x : Double) : Nat × Nat :=
  if x.exponent < 0 then (x.mantissa, Nat.pow 2 x.exponent.natAbs)
  else (x.mantissa * Nat.pow 2 x.exponent.natAbs, 1)

/-- The product, rounded to nearest. -/
def mul (x y : Double) : Option Double :=
  let (a, b) := x.toRatio
  let (c, d) := y.toRatio
  ofRatio (x.negative != y.negative) (a * c) (b * d)

/-- The quotient, rounded to nearest; the divisor is not zero. -/
def div (x y : Double) : Option Double :=
  let (a, b) := x.toRatio
  let (c, d) := y.toRatio
  ofRatio (x.negative != y.negative) (a * d) (b * c)

def withSign (x : Double) (negative : Bool) : Double := { x with negative }

/-- The double nearest to `± digits * 10 ^ exponent`, rounded once. Exponents so far out that the
answer is zero or too large whatever the digits are answered without computing the power. -/
def ofDecimal (negative : Bool) (digits : Nat) (exponent : Int) : Option Double :=
  let places : Int := (Nat.log2 digits : Int) / 3 + 1
  if digits = 0 then some (zero negative)
  else if exponent + places < -330 then some (zero negative)
  else if 310 < exponent then none
  else if exponent < 0 then ofRatio negative digits (Nat.pow 10 exponent.natAbs)
  else ofRatio negative (digits * Nat.pow 10 exponent.natAbs) 1

end Double

end RowFlow
