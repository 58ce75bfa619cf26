import RowFlow.Json.Number
import RowFlow.Text.Blank

/-!
# Points in time

A time is a second and a fraction of it, counted in nanoseconds. The fraction of a leap second is
added to the second before it, and so reaches up to two seconds. Times are written in UTC, as a
date and a time of the day.
-/

namespace RowFlow

structure Time where
  /-- Seconds since the start of 1970, without leap seconds. -/
  second : Int
  nano : Nat := 0
deriving DecidableEq, Repr, Inhabited

namespace Time

/-- Whether one time is not later than another. -/
def le (a b : Time) : Bool := a.second < b.second || (a.second = b.second && a.nano ≤ b.nano)

/-- The time so many nanoseconds later. -/
def later (t : Time) (nanos : Nat) : Time :=
  let total := t.nano + nanos
  ⟨t.second + (total / 1000000000 : Nat), total % 1000000000⟩

/-! ## The calendar -/

structure Date where
  year : Int
  month : Nat
  day : Nat
deriving DecidableEq, Repr

def isLeapYear (year : Int) : Bool :=
  year % 4 = 0 && (year % 100 ≠ 0 || year % 400 = 0)

def daysInMonth (year : Int) (month : Nat) : Nat :=
  if month = 2 then if isLeapYear year then 29 else 28
  else if month = 4 ∨ month = 6 ∨ month = 9 ∨ month = 11 then 30
  else 31

def Date.isValid (d : Date) : Bool :=
  1 ≤ d.month && d.month ≤ 12 && 1 ≤ d.day && d.day ≤ daysInMonth d.year d.month

/-- The days from the start of 1970 to a date. Years are taken from March on, so that a leap day
is the last day of its year, and in cycles of 400, which all have the same number of days. -/
def Date.toDays (d : Date) : Int :=
  let year := if d.month ≤ 2 then d.year - 1 else d.year
  let cycle := year / 400
  let yearOfCycle := year % 400
  let monthOfYear := (d.month + 9) % 12
  let dayOfYear := (153 * monthOfYear + 2) / 5 + (d.day - 1)
  let dayOfCycle := yearOfCycle * 365 + yearOfCycle / 4 - yearOfCycle / 100 + dayOfYear
  cycle * 146097 + dayOfCycle - 719468

def Date.ofDays (days : Int) : Date :=
  let days := days + 719468
  let cycle := days / 146097
  let dayOfCycle := (days % 146097).toNat
  let yearOfCycle :=
    (dayOfCycle - dayOfCycle / 1460 + dayOfCycle / 36524 - dayOfCycle / 146096) / 365
  let dayOfYear := dayOfCycle - (365 * yearOfCycle + yearOfCycle / 4 - yearOfCycle / 100)
  let monthOfYear := (5 * dayOfYear + 2) / 153
  let day := dayOfYear - (153 * monthOfYear + 2) / 5 + 1
  let month := if monthOfYear < 10 then monthOfYear + 3 else monthOfYear - 9
  let year := cycle * 400 + yearOfCycle
  ⟨if month ≤ 2 then year + 1 else year, month, day⟩

/-! ## Writing -/

/-- A number with at least so many digits. -/
def padded (width n : Nat) : String :=
  let digits := toString n
  String.ofList (List.replicate (width - digits.length) '0') ++ digits

/-- A year of the first ten millennia has four digits; another has a sign and at least four. -/
def yearText (year : Int) : String :=
  if 0 ≤ year ∧ year ≤ 9999 then padded 4 year.toNat
  else if year < 0 then "-" ++ padded 4 year.natAbs
  else "+" ++ padded 4 year.natAbs

def dateText (t : Time) : String :=
  let date := Date.ofDays (t.second / 86400)
  s!"{yearText date.year}-{padded 2 date.month}-{padded 2 date.day}"

/-- The time of the day in whole seconds; a leap second is the sixtieth. -/
def clockText (t : Time) : String :=
  let s := (t.second % 86400).toNat
  let second := s % 60 + t.nano / 1000000000
  s!"{padded 2 (s / 3600)}:{padded 2 (s / 60 % 60)}:{padded 2 second}"

/-- The fraction of the second in as many groups of three digits as it needs. -/
def fractionText (t : Time) : String :=
  let nano := t.nano % 1000000000
  if nano = 0 then ""
  else if nano % 1000000 = 0 then "." ++ padded 3 (nano / 1000000)
  else if nano % 1000 = 0 then "." ++ padded 6 (nano / 1000)
  else "." ++ padded 9 nano

def text (t : Time) : String := s!"{t.dateText}T{t.clockText}{t.fractionText}Z"

/-- The same with the distance from UTC in digits. -/
def offsetText (t : Time) : String := s!"{t.dateText}T{t.clockText}{t.fractionText}+00:00"

/-- The form in which a time is shown to people. -/
def shortText (t : Time) : String := s!"{t.dateText} {t.clockText}"

/-- The form in which a time is stored in a table. -/
def columnText (t : Time) : String := s!"{t.dateText} {t.clockText}{t.fractionText}"

/-! ## Reading -/

/-- A number of at least one and at most so many digits, and the text after it. -/
def number? (width : Nat) (cs : List Char) : Option (Nat × List Char) :=
  let digits := (cs.take width).takeWhile Json.isDigit
  if digits = [] then none else some (Json.natOfDigits digits, cs.drop digits.length)

/-- A number after white space. -/
def field? (width : Nat) (cs : List Char) : Option (Nat × List Char) :=
  number? width (Text.trimStart cs)

/-- A year of at most four digits, or of any number of digits after a sign. -/
def year? (cs : List Char) : Option (Int × List Char) :=
  match Text.trimStart cs with
  | '-' :: cs => (number? cs.length cs).map fun (n, rest) => (-(n : Int), rest)
  | '+' :: cs => (number? cs.length cs).map fun (n, rest) => ((n : Int), rest)
  | cs => (number? 4 cs).map fun (n, rest) => ((n : Int), rest)

/-- Takes a mark, which white space may stand before. -/
def mark? (c : Char) (cs : List Char) : Option (List Char) :=
  match Text.trimStart cs with
  | d :: rest => if d = c then some rest else none
  | [] => none

/-- The fraction of a second in nanoseconds. Digits after the ninth do not count. -/
def fraction? : List Char → Option (Nat × List Char)
  | '.' :: cs => do
    let (n, rest) ← number? 9 cs
    let width := cs.length - rest.length
    return (n * Nat.pow 10 (9 - width), rest.dropWhile Json.isDigit)
  | cs => some (0, cs)

def isColonOrBlank (c : Char) : Bool := c = ':' || Text.isBlank c

/-- The distance from UTC in seconds, of less than a day. -/
def offset? (cs : List Char) : Option (Int × List Char) := do
  let (negative, cs) ← match cs with
    | '+' :: cs => some (false, cs)
    | '-' :: cs => some (true, cs)
    | '−' :: cs => some (true, cs)
    | _ => none
  let (hours, cs) ← twoDigits? cs
  let (minutes, cs) ← twoDigits? (cs.dropWhile isColonOrBlank)
  if hours < 24 ∧ minutes < 60 then
    let seconds : Int := ((hours * 60 + minutes) * 60 : Nat)
    return (if negative then -seconds else seconds, cs)
  else none
where
  twoDigits? (cs : List Char) : Option (Nat × List Char) := do
    let (n, rest) ← number? 2 cs
    if cs.length - rest.length = 2 then return (n, rest) else none

/-- UTC itself, or a distance from it. -/
def zone? : List Char → Option (Int × List Char)
  | 'Z' :: cs => some (0, cs)
  | 'z' :: cs => some (0, cs)
  | a :: b :: c :: cs =>
    if [a, b, c].map Char.toUpper = ['U', 'T', 'C'] then some (0, cs)
    else offset? (a :: b :: c :: cs)
  | _ => none

/-- The years that dates may have. -/
def isYear (year : Int) : Bool := -262143 ≤ year && year ≤ 262142

/-- Reads a date, the time of the day and the distance from UTC. White space may stand before the
parts, except between the date and the letter or the space after it. -/
def parse? (text : String) : Option Time := do
  let (year, cs) ← year? text.toList
  let (month, cs) ← (mark? '-' cs).bind (field? 2)
  let (day, cs) ← (mark? '-' cs).bind (field? 2)
  let date : Date := ⟨year, month, day⟩
  let cs ← match cs with
    | 'T' :: cs => some cs
    | 't' :: cs => some cs
    | ' ' :: cs => some cs
    | _ => none
  let (hour, cs) ← field? 2 cs
  let (minute, cs) ← (mark? ':' cs).bind (field? 2)
  let (second, cs) ← (mark? ':' cs).bind (field? 2)
  let (nano, cs) ← fraction? cs
  let (offset, cs) ← zone? (Text.trimStart cs)
  if isYear year && date.isValid && hour < 24 && minute < 60 && second ≤ 60
      && cs.all Text.isBlank then
    let leap := second = 60
    let seconds := (hour * 60 + minute) * 60 + (if leap then 59 else second)
    return ⟨date.toDays * 86400 + seconds - offset, if leap then nano + 1000000000 else nano⟩
  else none

end Time

end RowFlow
