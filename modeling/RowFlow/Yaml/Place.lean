/-!
# Places in a YAML text

The characters that are left, with the line and the column of the first of them.
-/

namespace RowFlow.Yaml

/-- Why a text is no YAML document, and the line, counted from zero, where that shows. -/
structure Fault where
  problem : String
  line : Nat
deriving Repr

def Fault.message (f : Fault) : String := s!"{f.problem} at line {f.line + 1}"

/-- The end of a line: line feed, carriage return and the separators of lines and paragraphs. -/
def isBreak (c : Char) : Bool :=
  c = '\n' || c = '\r' || c = '\u0085' || c = '\u2028' || c = '\u2029'

def isSpace (c : Char) : Bool := c = ' ' || c = '\t'

/-- A space, a break or the end of the text. -/
def endsWord : Option Char → Bool
  | none => true
  | some c => isSpace c || isBreak c

/-- A break or the end of the text. -/
def endsLine : Option Char → Bool
  | none => true
  | some c => isBreak c

/-- Letters, digits, hyphen and underscore. -/
def isWord (c : Char) : Bool := c.isAlphanum || c = '-' || c = '_'

/-- The characters that may stand in a text at all. -/
def isPrintable (c : Char) : Bool :=
  let n := c.toNat
  n = 9 || n = 10 || n = 13 || (0x20 ≤ n && n ≤ 0x7E) || n = 0x85 || (0xA0 ≤ n && n ≤ 0xD7FF)
    || (0xE000 ≤ n && n ≤ 0xFFFD) || 0x10000 ≤ n

structure Place where
  rest : List Char
  index : Nat := 0
  line : Nat := 0
  column : Nat := 0

namespace Place

def peek (p : Place) (n : Nat) : Option Char := p.rest[n]?

def head (p : Place) : Option Char := p.rest.head?

def is (p : Place) (c : Char) : Bool := p.head = some c

/-- Past one character that is no break. -/
def skip (p : Place) : Place :=
  { p with rest := p.rest.tail, index := p.index + 1, column := p.column + 1 }

def skipMany (p : Place) (n : Nat) : Place :=
  { p with rest := p.rest.drop n, index := p.index + n, column := p.column + n }

/-- Past one break; a carriage return and the line feed after it are one. -/
def skipLine (p : Place) : Place :=
  match p.rest with
  | '\r' :: '\n' :: rest => { rest, index := p.index + 2, line := p.line + 1, column := 0 }
  | _ :: rest => { rest, index := p.index + 1, line := p.line + 1, column := 0 }
  | [] => p

/-- How the break at a place counts in a scalar: the separators as they are, the others as a line
feed, and the end of the text as nothing. -/
def lineBreak (p : Place) : List Char :=
  match p.head with
  | none => []
  | some c => if c = '\u2028' || c = '\u2029' then [c] else ['\n']

/-- The leading characters with a property, and the place after them. -/
def span (p : Place) (property : Char → Bool) : List Char × Place :=
  let found := p.rest.takeWhile property
  (found, p.skipMany found.length)

def skipSpaces (p : Place) : Place := (p.span isSpace).2

/-- At the start of a line with one of the two document markers. -/
def atMarker (p : Place) : Bool :=
  p.column = 0 && (p.rest.take 3 = ['-', '-', '-'] || p.rest.take 3 = ['.', '.', '.'])
    && endsWord (p.peek 3)

def fault (p : Place) (problem : String) : Except Fault α := .error ⟨problem, p.line⟩

end Place

end RowFlow.Yaml
