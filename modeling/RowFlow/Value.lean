import RowFlow.Dict
import RowFlow.Number.Double

/-!
# Values and rows

The data that pipelines carry: nulls, booleans, numbers, texts, lists, and objects whose fields are
kept in key order. A row is the list of fields of an object.
-/

namespace RowFlow

/-- A number is an integer or a double; `1` and `1.0` are different numbers. -/
inductive Number where
  | int (n : Int)
  | double (x : Double)
deriving DecidableEq, Repr, Inhabited

/-- Structured data. The fields of an object are in key order in every value that is read, and in
the order of writing in a document that is only printed. -/
inductive Value where
  | null
  | bool (b : Bool)
  | number (n : Number)
  | text (s : String)
  | list (items : List Value)
  | object (fields : List (String × Value))
deriving Repr, Inhabited

/-- The fields of an object, by name. -/
abbrev Row := Dict Value

namespace Value

def nat (n : Nat) : Value := .number (.int n)

def ofRows (rows : List Row) : Value := .list (rows.map .object)

def ofOption (f : α → Value) : Option α → Value
  | none => .null
  | some a => f a

def isNull : Value → Bool
  | .null => true
  | _ => false

def text? : Value → Option String
  | .text s => some s
  | _ => none

/-- The integer from 0 to `2 ^ 64 - 1` that the value is. -/
def nat? : Value → Option Nat
  | .number (.int n) => if 0 ≤ n ∧ n < Nat.pow 2 64 then some n.toNat else none
  | _ => none

def row? : Value → Option Row
  | .object fields => some fields
  | _ => none

mutual

/-- Puts the fields of every object into key order, the last of several fields of one name
winning. -/
def normal : Value → Value
  | .null => .null
  | .bool b => .bool b
  | .number n => .number n
  | .text s => .text s
  | .list items => .list (normalItems items)
  | .object fields => .object (Dict.ofEntries (normalFields fields))

def normalItems : List Value → List Value
  | [] => []
  | v :: vs => normal v :: normalItems vs

def normalFields : List (String × Value) → List (String × Value)
  | [] => []
  | (k, v) :: fields => (k, normal v) :: normalFields fields

end

end Value

end RowFlow
