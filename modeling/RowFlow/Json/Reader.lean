import RowFlow.Json.Number
import RowFlow.Json.Token

/-!
# Reading JSON

Tokens are read one by one, with the containers that are still open on a stack. Containers may be
nested 127 deep. `readRaw?` keeps fields as they are written; `read?` puts them into key order and
resolves repeated names to the last.
-/

namespace RowFlow.Json

/-- A container that is still open, its parts so far in reverse. An object holds the name of the
field whose value is being read, if one is. -/
inductive Frame where
  | list (items : List Value)
  | object (fields : List (String × Value)) (name : Option String)

/-- What may come next. -/
inductive Expected where
  | value
  /-- A value, or the end of a list that has just been opened. -/
  | firstItem
  | name
  /-- A field's name, or the end of an object that has just been opened. -/
  | firstName
  | colon
  /-- A comma or the end of the container. -/
  | separator
deriving DecidableEq

inductive Progress where
  | reading (stack : List Frame) (expected : Expected)
  | done (v : Value)

namespace Progress

def deepest : Nat := 127

/-- A value is complete: it goes into the innermost open container. -/
def deliver (v : Value) : List Frame → Option Progress
  | [] => some (.done v)
  | .list items :: stack => some (.reading (.list (v :: items) :: stack) .separator)
  | .object fields (some name) :: stack =>
    some (.reading (.object ((name, v) :: fields) none :: stack) .separator)
  | .object _ none :: _ => none

def push (frame : Frame) (stack : List Frame) (expected : Expected) : Option Progress :=
  if stack.length < deepest then some (.reading (frame :: stack) expected) else none

/-- The value of a word. -/
def word? (cs : List Char) : Option Value :=
  if cs = ['n', 'u', 'l', 'l'] then some .null
  else if cs = ['t', 'r', 'u', 'e'] then some (.bool true)
  else if cs = ['f', 'a', 'l', 's', 'e'] then some (.bool false)
  else (readNumber? cs).map .number

/-- A token where a value is expected. -/
def startValue (stack : List Frame) : Token → Option Progress
  | .openList => push (.list []) stack .firstItem
  | .openObject => push (.object [] none) stack .firstName
  | .text s => deliver (.text s) stack
  | .word cs => (word? cs).bind (deliver · stack)
  | _ => none

def closeList : List Frame → Option Progress
  | .list items :: stack => deliver (.list items.reverse) stack
  | _ => none

def closeObject : List Frame → Option Progress
  | .object fields none :: stack => deliver (.object fields.reverse) stack
  | _ => none

def startName (stack : List Frame) : Token → Option Progress
  | .text s => match stack with
    | .object fields none :: stack => some (.reading (.object fields (some s) :: stack) .colon)
    | _ => none
  | _ => none

def afterComma : List Frame → Option Progress
  | .list items :: stack => some (.reading (.list items :: stack) .value)
  | .object fields none :: stack => some (.reading (.object fields none :: stack) .name)
  | _ => none

def step : Progress → Token → Option Progress
  | .done _, _ => none
  | .reading stack .value, token => startValue stack token
  | .reading stack .firstItem, token =>
    if token = .closeList then closeList stack else startValue stack token
  | .reading stack .name, token => startName stack token
  | .reading stack .firstName, token =>
    if token = .closeObject then closeObject stack else startName stack token
  | .reading stack .colon, token => if token = .colon then some (.reading stack .value) else none
  | .reading stack .separator, token =>
    if token = .comma then afterComma stack
    else if token = .closeList then closeList stack
    else if token = .closeObject then closeObject stack
    else none

def run : Progress → List Token → Option Value
  | .done v, [] => some v
  | .reading _ _, [] => none
  | progress, token :: tokens => (step progress token).bind (run · tokens)

end Progress

/-- The value of a text, the fields of objects as they are written. -/
def readRaw? (cs : List Char) : Option Value := do
  (Progress.reading [] .value).run (← Token.scan? cs)

/-- The value of a text. -/
def read? (s : String) : Option Value := (readRaw? s.toList).map Value.normal

end RowFlow.Json
