import RowFlow.Json.Number
import RowFlow.Yaml.Node

/-!
# What plain scalars mean

A plain scalar is a null, a boolean, an integer, a double or else a text. Integers may be written in
base 16, 8 or 2; digits with a leading zero are a text.
-/

namespace RowFlow.Yaml

def isNullWord (s : String) : Bool := s = "null" || s = "Null" || s = "NULL" || s = "~"

def boolWord? (s : String) : Option Bool :=
  if s = "true" || s = "True" || s = "TRUE" then some true
  else if s = "false" || s = "False" || s = "FALSE" then some false
  else none

def digitIn? (base : Nat) (c : Char) : Option Nat :=
  (hexDigit? c).bind fun n => if n < base then some n else none

/-- A natural in a base; there is at least one digit. -/
def natIn? (base : Nat) (cs : List Char) : Option Nat :=
  if cs = [] then none else cs.foldlM (fun n c => (digitIn? base c).map (base * n + ·)) 0

/-- Digits with a leading zero, perhaps after a sign. -/
def isZeroLed (cs : List Char) : Bool :=
  let digits := match cs with
    | '-' :: ds | '+' :: ds => ds
    | ds => ds
  match digits with
  | '0' :: d :: ds => (d :: ds).all Json.isDigit
  | _ => false

/-- The digits after the mark of a base. -/
def based? : List Char → Option (Nat × List Char)
  | '0' :: 'x' :: cs => some (16, cs)
  | '0' :: 'o' :: cs => some (8, cs)
  | '0' :: 'b' :: cs => some (2, cs)
  | _ => none

/-- The magnitude of an integer without its sign; `zeroLed` texts are integers only in a base. -/
def magnitude? (zeroLed : Bool) (cs : List Char) : Option Nat :=
  match based? cs with
  | some (base, digits) => natIn? base digits
  | none => if zeroLed then none else natIn? 10 cs

/-- The integer of a text, of whatever size. -/
def int? (cs : List Char) : Option Int :=
  match cs with
  | '-' :: ds => (magnitude? (isZeroLed cs) ds).map fun n => -(n : Int)
  | '+' :: ds => (magnitude? (isZeroLed cs) ds).map Int.ofNat
  | ds => (magnitude? (isZeroLed cs) ds).map Int.ofNat

/-- The integer of a text if it is in a range. -/
def intIn? (low high : Int) (cs : List Char) : Option Int :=
  (int? cs).bind fun n => if low ≤ n ∧ n ≤ high then some n else none

def greatestNat : Int := Nat.pow 2 64 - 1
def greatestInt : Int := Nat.pow 2 63 - 1
def leastInt : Int := -Nat.pow 2 63

/-- The mantissa of a double's text: digits around at most one point, at least one digit. -/
def mantissa? (cs : List Char) : Option (Nat × Nat) :=
  let whole := cs.takeWhile Json.isDigit
  let fraction? := match cs.dropWhile Json.isDigit with
    | [] => some []
    | '.' :: ds => if ds.all Json.isDigit then some ds else none
    | _ => none
  fraction?.bind fun fraction =>
    if whole ++ fraction = [] then none
    else some (Json.natOfDigits (whole ++ fraction), fraction.length)

/-- A finite double in decimal: a mantissa and perhaps an exponent. -/
def finite? (negative : Bool) (cs : List Char) : Option Double := do
  let isMark (c : Char) : Bool := c = 'e' || c = 'E'
  let (digits, places) ← mantissa? (cs.takeWhile (!isMark ·))
  let exponent : Int ← match cs.dropWhile (!isMark ·) with
    | [] => some 0
    | _ :: ds => (Json.splitExponent? ds).map fun (below, ds) =>
      if below then -(Json.natOfDigits ds : Int) else (Json.natOfDigits ds : Int)
  Double.ofDecimal negative digits (exponent - places)

/-- A double that is not finite, which has no number in rows. -/
def isUnbounded (s : String) : Bool :=
  s ∈ [".inf", ".Inf", ".INF", "+.inf", "+.Inf", "+.INF", "-.inf", "-.Inf", "-.INF",
    ".nan", ".NaN", ".NAN"]

def double? (cs : List Char) : Option Double :=
  match cs with
  | '-' :: ds => finite? true ds
  | '+' :: ds => finite? false ds
  | ds => finite? false ds

/-- Why a free value is refused. -/
inductive ResolveError where
  | wideInteger
  | tagged
  | invalid (text expected : String)
deriving DecidableEq

def intValue? (cs : List Char) : Option (Except ResolveError Value) :=
  match int? cs with
  | none => none
  | some n =>
    if leastInt ≤ n ∧ n ≤ greatestNat then some (.ok (.number (.int n)))
    else if -Nat.pow 2 127 ≤ n ∧ n < Nat.pow 2 128 then some (.error .wideInteger)
    else none

/-- The value of a plain scalar without a tag. -/
def plainValue (s : String) : Except ResolveError Value :=
  let cs := s.toList
  if s = "" || isNullWord s then .ok .null
  else match boolWord? s with
    | some b => .ok (.bool b)
    | none =>
      match intValue? cs with
      | some result => result
      | none =>
        if isZeroLed cs then .ok (.text s)
        else if isUnbounded s then .ok .null
        else match double? cs with
          | some x => .ok (.number (.double x))
          | none => .ok (.text s)

def coreTag (name : String) : String := "tag:yaml.org,2002:" ++ name

/-- A tag of the document's own, which only types with alternatives understand. -/
def isLocalTag (tag : Option String) : Bool := (tag.bind (·.toList.head?)) = some '!'

def scalarValue (text : String) (style : Style) (tag : Option String) : Except ResolveError Value :=
  match tag with
  | none => if style = .plain then plainValue text else .ok (.text text)
  | some tag =>
    if tag.toList.head? = some '!' then .error .tagged
    else if tag = coreTag "bool" then
      match boolWord? text with
      | some b => .ok (.bool b)
      | none => .error (.invalid text "a boolean")
    else if tag = coreTag "int" then
      match intValue? text.toList with
      | some result => result
      | none => .error (.invalid text "an integer")
    else if tag = coreTag "float" then
      if isUnbounded text then .ok .null
      else match double? text.toList with
        | some x => .ok (.number (.double x))
        | none => .error (.invalid text "a float")
    else if tag = coreTag "null" then
      if isNullWord text then .ok .null else .error (.invalid text "null")
    else .ok (.text text)

mutual

/-- The value of a node as free data. The keys of a mapping are the texts of scalars; the last of
several fields of one name wins. -/
def Node.value : Node → Except ResolveError Value
  | .scalar text style tag => scalarValue text style tag
  | .sequence tag items => do
    if isLocalTag tag then throw .tagged
    return .list (← itemValues items)
  | .mapping tag entries => do
    if isLocalTag tag then throw .tagged
    return .object (Dict.ofEntries (← fieldValues entries))

def itemValues : List Node → Except ResolveError (List Value)
  | [] => .ok []
  | n :: ns => do return (← n.value) :: (← itemValues ns)

def fieldValues : List (Node × Node) → Except ResolveError (List (String × Value))
  | [] => .ok []
  | (key, value) :: entries => do
    match key with
    | .scalar name _ _ => return (name, ← value.value) :: (← fieldValues entries)
    | _ => throw (.invalid "" "a string key")

end

def ResolveError.message : ResolveError → String
  | .wideInteger => "invalid type: integer, expected any valid JSON value"
  | .tagged => "invalid type: enum, expected any valid JSON value"
  | .invalid text expected => s!"invalid value: string \"{text}\", expected {expected}"

end RowFlow.Yaml
