import RowFlow.Json.Text

/-!
# Tokens of JSON

A text is cut into tokens one character at a time. What is neither blank, punctuation nor a quoted
text is gathered into words; whether a word is a literal or a number is decided by its reader.
-/

namespace RowFlow.Json

inductive Token where
  | openList
  | closeList
  | openObject
  | closeObject
  | comma
  | colon
  | text (s : String)
  | word (cs : List Char)
deriving DecidableEq, Repr

/-- Where the cutting of a text stands. Characters of an unfinished token are held in reverse. -/
inductive Token.Mode where
  | between
  | word (held : List Char)
  | text (held : List Char)
  | escape (held : List Char)
  /-- Inside `\uXXXX`: how many digits are missing and the value of the ones before. The pair's
  first unit is given when this is its second. -/
  | unit (held : List Char) (high : Option Nat) (missing : Nat) (value : Nat)
  /-- After the first unit of a pair; the second is announced by a backslash, then the letter. -/
  | pair (held : List Char) (high : Nat) (announced : Bool)
deriving Repr

namespace Token

def isBlank (c : Char) : Bool := c = ' ' || c = '\n' || c = '\t' || c = '\r'

def punctuation? : Char → Option Token
  | '[' => some .openList
  | ']' => some .closeList
  | '{' => some .openObject
  | '}' => some .closeObject
  | ',' => some .comma
  | ':' => some .colon
  | _ => none

/-- A character outside texts. -/
def stepBetween (c : Char) : List Token × Mode :=
  if isBlank c then ([], .between)
  else if c = '"' then ([], .text [])
  else match punctuation? c with
    | some token => ([token], .between)
    | none => ([], .word [c])

/-- What a finished code unit stands for. -/
def finishUnit (held : List Char) (high : Option Nat) (unit : Nat) : Option Mode :=
  match high with
  | some high => if isLow unit then some (.text (pairChar high unit :: held)) else none
  | none =>
    if isHigh unit then some (.pair held unit false)
    else if isLow unit then none
    else some (.text (Char.ofNat unit :: held))

def step : Mode → Char → Option (List Token × Mode)
  | .between, c => some (stepBetween c)
  | .word held, c =>
    if isBlank c ∨ c = '"' ∨ (punctuation? c).isSome then
      let (tokens, mode) := stepBetween c
      some (.word held.reverse :: tokens, mode)
    else some ([], .word (c :: held))
  | .text held, c =>
    if c = '"' then some ([.text (String.ofList held.reverse)], .between)
    else if c = '\\' then some ([], .escape held)
    else if c.toNat < 32 then none
    else some ([], .text (c :: held))
  | .escape held, c =>
    if c = 'u' then some ([], .unit held none 4 0)
    else (unescape? c).map fun c => ([], .text (c :: held))
  | .unit held high missing value, c => do
    let unit := 16 * value + (← hexValue? c)
    if missing ≤ 1 then return ([], ← finishUnit held high unit)
    return ([], .unit held high (missing - 1) unit)
  | .pair held high announced, c =>
    if announced then
      if c = 'u' then some ([], .unit held (some high) 4 0) else none
    else if c = '\\' then some ([], .pair held high true) else none

/-- What is left when the text ends; it may end inside a word but not inside a quoted text. -/
def finish? : Mode → Option (List Token)
  | .between => some []
  | .word held => some [.word held.reverse]
  | _ => none

def scanFrom? : Mode → List Char → Option (List Token)
  | mode, [] => finish? mode
  | mode, c :: cs => do
    let (tokens, mode) ← step mode c
    return tokens ++ (← scanFrom? mode cs)

/-- The tokens of a text. -/
def scan? (cs : List Char) : Option (List Token) := scanFrom? .between cs

end Token

end RowFlow.Json
