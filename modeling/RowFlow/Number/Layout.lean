import RowFlow.Number.Shortest

/-!
# The layout of decimals

Where a decimal is written positionally and where with an exponent is a matter of format, kept in
one record.
-/

namespace RowFlow

/-- The decisions of a number format. The place of the leading digit settles whether a decimal is
positional. -/
structure NumberFormat where
  leastPositional : Int
  greatestPositional : Int
  /-- Written after a positional number without a fraction. -/
  wholeTail : List Char
  exponentMark : Char
  /-- Written between the mark and an exponent that is not negative. -/
  plus : List Char

namespace NumberFormat

/-- The texts of the two parts of `digits * 10 ^ exponent` around the decimal point. -/
def positional (f : NumberFormat) (digits : List Char) (exponent : Int) : List Char :=
  if 0 ≤ exponent then digits ++ List.replicate exponent.natAbs '0' ++ f.wholeTail
  else
    let fraction := exponent.natAbs
    if fraction < digits.length then
      digits.take (digits.length - fraction) ++ '.' :: digits.drop (digits.length - fraction)
    else '0' :: '.' :: (List.replicate (fraction - digits.length) '0' ++ digits)

def scientific (f : NumberFormat) (digits : List Char) (place : Int) : List Char :=
  let mantissa := match digits with
    | [] => []
    | [d] => [d]
    | d :: ds => d :: '.' :: ds
  let sign := if place < 0 then ['-'] else f.plus
  mantissa ++ f.exponentMark :: (sign ++ Decimal.digitsOf place.natAbs)

def decimal (f : NumberFormat) (d : Decimal) : List Char :=
  let digits := Decimal.digitsOf d.digits
  let place := d.exponent + digits.length - 1
  if f.leastPositional ≤ place ∧ place ≤ f.greatestPositional then f.positional digits d.exponent
  else f.scientific digits place

/-- The shortest text of a double that reads back as it. -/
def double (f : NumberFormat) (x : Double) : List Char :=
  let sign := if x.negative then ['-'] else []
  if x.mantissa = 0 then sign ++ '0' :: f.wholeTail else sign ++ f.decimal x.shortest

end NumberFormat

end RowFlow
