import RowFlow.Json.Number
import RowFlow.Json.Text

/-!
# Writing JSON

`write` is compact. `pretty` puts every item and every field on a line of its own, indented by two
spaces for each container around it; an empty container is written compactly.
-/

namespace RowFlow.Json

mutual

def write : Value → List Char
  | .null => ['n', 'u', 'l', 'l']
  | .bool true => ['t', 'r', 'u', 'e']
  | .bool false => ['f', 'a', 'l', 's', 'e']
  | .number n => writeNumber n
  | .text s => quote s
  | .list items => '[' :: (writeItems items ++ [']'])
  | .object fields => '{' :: (writeFields fields ++ ['}'])

/-- The items of a list with commas between them. -/
def writeItems : List Value → List Char
  | [] => []
  | [v] => write v
  | v :: vs => write v ++ ',' :: writeItems vs

def writeFields : List (String × Value) → List Char
  | [] => []
  | [(k, v)] => quote k ++ ':' :: write v
  | (k, v) :: fields => quote k ++ ':' :: (write v ++ ',' :: writeFields fields)

end

/-- The compact text of a value. -/
def print (v : Value) : String := String.ofList (write v)

def newLine (depth : Nat) : List Char := '\n' :: List.replicate (2 * depth) ' '

mutual

def writePretty (depth : Nat) : Value → List Char
  | .list (item :: items) =>
    '[' :: (newLine (depth + 1) ++ writePretty (depth + 1) item
      ++ prettyItems (depth + 1) items ++ newLine depth ++ [']'])
  | .object ((name, value) :: fields) =>
    '{' :: (newLine (depth + 1) ++ quote name ++ ':' :: ' ' :: writePretty (depth + 1) value
      ++ prettyFields (depth + 1) fields ++ newLine depth ++ ['}'])
  | v => write v

/-- The items after the first, each with the comma before it. -/
def prettyItems (depth : Nat) : List Value → List Char
  | [] => []
  | v :: vs => ',' :: (newLine depth ++ writePretty depth v ++ prettyItems depth vs)

def prettyFields (depth : Nat) : List (String × Value) → List Char
  | [] => []
  | (k, v) :: fields =>
    ',' :: (newLine depth ++ quote k ++ ':' :: ' ' :: writePretty depth v
      ++ prettyFields depth fields)

end

/-- The text of a value over several lines. -/
def pretty (v : Value) : String := String.ofList (writePretty 0 v)

end RowFlow.Json
