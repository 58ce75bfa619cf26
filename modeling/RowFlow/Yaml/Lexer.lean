import RowFlow.Yaml.Scalar
import RowFlow.Yaml.Token

/-!
# From text to tokens

Indentation becomes tokens that open and close block collections. A scalar or collection may turn
out to be a key only when the colon after it is seen; until then its place among the tokens is
remembered, so that the key token can be put in front of it.
-/

namespace RowFlow.Yaml

/-- A token that may yet become a key: its number, where it starts, and whether a key is all it can
be. -/
structure PossibleKey where
  number : Nat
  required : Bool
  index : Nat
  line : Nat
  column : Nat

structure Lexer where
  place : Place
  tokens : Array Token := #[]
  /-- The depth of flow collections around the place. -/
  flow : Nat := 0
  /-- The column of the innermost block collection; `-1` outside of all. -/
  indent : Int := -1
  outer : List Int := []
  keyAllowed : Bool := true
  /-- The possible key of each level of flow, the innermost first. -/
  keys : List (Option PossibleKey) := [none]

namespace Lexer

def fault (x : Lexer) (problem : String) : Except Fault α := x.place.fault problem

def emit (x : Lexer) (token : Token) : Lexer := { x with tokens := x.tokens.push token }

def goTo (x : Lexer) (place : Place) : Lexer := { x with place }

/-! ## Blanks and comments -/

/-- Past blanks, comments and breaks. Tabs do not indent, so at the start of a line of a block they
stay. A line break outside of flow collections allows a key again. -/
def skipBlanks : Nat → Lexer → Lexer
  | 0, x => x
  | fuel + 1, x =>
    let tabs := 0 < x.flow || !x.keyAllowed
    let p := (x.place.span (fun c => c = ' ' || (tabs && c = '\t'))).2
    let p := if p.is '#' then (p.span (fun c => !isBreak c)).2 else p
    if (p.head.map isBreak).getD false then
      skipBlanks fuel { x with place := p.skipLine, keyAllowed := x.keyAllowed || x.flow = 0 }
    else { x with place := p }

/-! ## Possible keys -/

/-- Whether a possible key can no longer be one: keys end on their line and within 1024
characters. -/
def isStale (p : Place) (key : PossibleKey) : Bool :=
  key.line < p.line || key.index + 1024 < p.index

def dropStaleKeys (x : Lexer) : Except Fault Lexer := do
  let keys ← x.keys.mapM fun key? =>
    match key? with
    | none => .ok none
    | some key =>
      if isStale x.place key then
        if key.required then x.fault "could not find expected ':'" else .ok none
      else .ok (some key)
  return { x with keys }

/-- Gives up the possible key of this level. -/
def dropKey (x : Lexer) : Except Fault Lexer :=
  match x.keys with
  | some key :: keys =>
    if key.required then x.fault "could not find expected ':'"
    else .ok { x with keys := none :: keys }
  | _ => .ok x

/-- Remembers that the next token may become a key. -/
def saveKey (x : Lexer) : Except Fault Lexer :=
  if x.keyAllowed then do
    let x ← x.dropKey
    let key : PossibleKey :=
      { number := x.tokens.size, required := x.flow = 0 && x.indent = x.place.column
        index := x.place.index, line := x.place.line, column := x.place.column }
    return { x with keys := some key :: x.keys.tail }
  else .ok x

/-! ## Indentation -/

/-- Opens a block collection at a column, unless one of that column is open, putting its token at a
place among the tokens. -/
def openBlock (x : Lexer) (column : Nat) (number : Nat) (token : Token) : Lexer :=
  if x.flow = 0 ∧ x.indent < column then
    { x with
      outer := x.indent :: x.outer
      indent := column
      tokens := x.tokens.insertIdxIfInBounds number token }
  else x

/-- Closes the block collections at columns greater than the given one. -/
def closeBlocks (x : Lexer) (column : Int) : Lexer :=
  if 0 < x.flow then x else
    let closed := (x.indent :: x.outer).takeWhile (column < ·)
    match (x.indent :: x.outer).drop closed.length with
    | [] => { x with tokens := x.tokens ++ closed.map (fun _ => Token.blockEnd) }
    | indent :: outer =>
      { x with indent, outer, tokens := x.tokens ++ closed.map (fun _ => Token.blockEnd) }

/-! ## Tokens -/

def flowStart (x : Lexer) (token : Token) : Except Fault Lexer := do
  let x ← x.saveKey
  let x := { x with keys := none :: x.keys, flow := x.flow + 1, keyAllowed := true }
  return (x.goTo x.place.skip).emit token

def flowEnd (x : Lexer) (token : Token) : Except Fault Lexer := do
  let x ← x.dropKey
  let x := if x.flow = 0 then x else { x with keys := x.keys.tail, flow := x.flow - 1 }
  return ({ x with keyAllowed := false }.goTo x.place.skip).emit token

def flowEntry (x : Lexer) : Except Fault Lexer := do
  let x ← x.dropKey
  return ({ x with keyAllowed := true }.goTo x.place.skip).emit .flowEntry

def blockEntry (x : Lexer) : Except Fault Lexer := do
  if x.flow = 0 ∧ !x.keyAllowed then
    x.fault "block sequence entries are not allowed in this context"
  let x := x.openBlock x.place.column x.tokens.size .blockSequence
  let x ← x.dropKey
  return ({ x with keyAllowed := true }.goTo x.place.skip).emit .blockEntry

def key (x : Lexer) : Except Fault Lexer := do
  if x.flow = 0 ∧ !x.keyAllowed then x.fault "mapping keys are not allowed in this context"
  let x := x.openBlock x.place.column x.tokens.size .blockMapping
  let x ← x.dropKey
  return ({ x with keyAllowed := x.flow = 0 }.goTo x.place.skip).emit .key

/-- A colon makes a key of the possible key before it; without one it stands for a value with an
empty or explicit key. -/
def value (x : Lexer) : Except Fault Lexer := do
  match x.keys with
  | some key :: keys =>
    let x := { x with
      tokens := x.tokens.insertIdxIfInBounds key.number .key
      keys := none :: keys
      keyAllowed := false }
    let x := x.openBlock key.column key.number .blockMapping
    return (x.goTo x.place.skip).emit .value
  | _ =>
    if x.flow = 0 ∧ !x.keyAllowed then x.fault "mapping values are not allowed in this context"
    let x := x.openBlock x.place.column x.tokens.size .blockMapping
    return ({ x with keyAllowed := x.flow = 0 }.goTo x.place.skip).emit .value

/-- The name after `&` or `*`. -/
def anchorName (p : Place) : Except Fault (String × Place) :=
  let (name, after) := p.skip.span isWord
  let ended := endsWord after.head
    || (after.head.map (fun c => "?:,]\x7d%@`".toList.contains c)).getD false
  if name = [] ∨ !ended then after.fault "did not find expected alphabetic or numeric character"
  else .ok (String.ofList name, after)

def reference (x : Lexer) (token : String → Token) : Except Fault Lexer := do
  let x ← x.saveKey
  let (name, after) ← anchorName x.place
  return ({ x with keyAllowed := false }.goTo after).emit (token name)

/-! ## Tags -/

def isTagChar (verbatim : Bool) (c : Char) : Bool :=
  isWord c || ";/?:@&=+$.%!~*'()".toList.contains c || (verbatim && ",[]".toList.contains c)

/-- Resolves the `%XX` escapes of a tag, which hold the bytes of characters. -/
def unescapeTag? : List Char → List UInt8 → Option (List UInt8)
  | [], held => some held.reverse
  | '%' :: a :: b :: cs, held => do
    let n := 16 * (← hexDigit? a) + (← hexDigit? b)
    unescapeTag? cs (n.toUInt8 :: held)
  | '%' :: _, _ => none
  | c :: cs, held => unescapeTag? cs ((String.singleton c).toUTF8.toList.reverse ++ held)

def tagText (p : Place) (cs : List Char) : Except Fault String :=
  match (unescapeTag? cs []).bind fun bytes => String.fromUTF8? (ByteArray.mk bytes.toArray) with
  | some s => .ok s
  | none => p.fault "did not find URI escaped octet"

/-- The handle and the suffix of a tag: `!<suffix>`, `!handle!suffix`, `!suffix` or `!`. -/
def tagParts (p : Place) : Except Fault (String × String × Place) := do
  if p.peek 1 = some '<' then
    let (uri, after) := (p.skipMany 2).span (isTagChar true)
    if uri = [] then after.fault "did not find expected tag URI"
    if !after.is '>' then after.fault "did not find the expected '>'"
    return ("", ← tagText p uri, after.skip)
  let (name, after) := p.skip.span isWord
  if after.is '!' then
    let (uri, rest) := after.skip.span (isTagChar false)
    if uri = [] then rest.fault "did not find expected tag URI"
    return (String.ofList ('!' :: name ++ ['!']), ← tagText p uri, rest)
  let (more, rest) := after.span (isTagChar false)
  if name ++ more = [] then return ("", "!", rest)
  return ("!", ← tagText p (name ++ more), rest)

def tag (x : Lexer) : Except Fault Lexer := do
  let x ← x.saveKey
  let (handle, suffix, after) ← tagParts x.place
  if !(endsWord after.head || (0 < x.flow && after.is ',')) then
    after.fault "did not find expected whitespace or line break"
  return ({ x with keyAllowed := false }.goTo after).emit (.tag handle suffix)

/-! ## Directives and document markers -/

/-- Leaves all blocks before a directive or a document marker. -/
def leaveBlocks (x : Lexer) : Except Fault Lexer := do
  let x ← (x.closeBlocks (-1)).dropKey
  return { x with keyAllowed := false }

def marker (x : Lexer) (token : Token) : Except Fault Lexer := do
  let x ← x.leaveBlocks
  return (x.goTo (x.place.skipMany 3)).emit token

def versionPart (p : Place) : Except Fault (Nat × Place) :=
  let (digits, after) := p.span Char.isDigit
  if digits = [] ∨ 9 < digits.length then after.fault "did not find expected version number"
  else .ok (digits.foldl (fun n c => 10 * n + (c.toNat - 48)) 0, after)

def directiveBody (name : String) (p : Place) : Except Fault (Token × Place) := do
  if name = "YAML" then
    let (major, p) ← versionPart p.skipSpaces
    if !p.is '.' then p.fault "did not find expected digit or '.' character"
    let (minor, p) ← versionPart p.skip
    return (.versionDirective major minor, p)
  else if name = "TAG" then
    let p := p.skipSpaces
    if !p.is '!' then p.fault "did not find expected '!'"
    let (name, after) := p.skip.span isWord
    let (handle, after) := if after.is '!' then ('!' :: name ++ ['!'], after.skip)
      else ('!' :: name, after)
    if handle.getLast? ≠ some '!' then after.fault "did not find expected '!'"
    if !(after.head.map isSpace).getD false then after.fault "did not find expected whitespace"
    let (lead, after) := after.skipSpaces.span (isTagChar true)
    if lead = [] then after.fault "did not find expected tag URI"
    if !endsWord after.head then after.fault "did not find expected whitespace or line break"
    return (.tagDirective (String.ofList handle) (← tagText p lead), after)
  else p.fault "found unknown directive name"

def directive (x : Lexer) : Except Fault Lexer := do
  let x ← x.leaveBlocks
  let (name, after) := x.place.skip.span isWord
  if name = [] then after.fault "could not find expected directive name"
  if !endsWord after.head then after.fault "found unexpected non-alphabetical character"
  let (token, after) ← directiveBody (String.ofList name) after
  let after := after.skipSpaces
  let after := if after.is '#' then (after.span (fun c => !isBreak c)).2 else after
  if !endsLine after.head then after.fault "did not find expected comment or line break"
  return (x.goTo after.skipLine).emit token

/-! ## Scalars -/

def plain (x : Lexer) : Except Fault Lexer := do
  let x ← x.saveKey
  let (held, after, broken) ←
    plainFrom (0 < x.flow) (x.indent + 1).toNat x.place.rest.length x.place .none []
  return ({ x with keyAllowed := broken }.goTo after).emit
    (.scalar (String.ofList held.reverse) .plain)

def quoted (x : Lexer) (single : Bool) : Except Fault Lexer := do
  let x ← x.saveKey
  let (held, after) ← quotedFrom single (x.place.rest.length + 1) x.place.skip []
  return ({ x with keyAllowed := false }.goTo after).emit
    (.scalar (String.ofList held.reverse) .quoted)

def block (x : Lexer) (literal : Bool) : Except Fault Lexer := do
  let x ← x.dropKey
  let (text, after) ← blockScalar literal x.indent x.place
  return ({ x with keyAllowed := true }.goTo after).emit (.scalar (String.ofList text) .block)

/-- Whether a plain scalar may start with a character, given the one after it. -/
def startsPlain (inFlow : Bool) (c : Char) (next : Option Char) : Bool :=
  let indicator := "-?:,[]{}#&*!|>'\"%@`".toList.contains c
  !(indicator || endsWord (some c))
    || (c = '-' && !(next.map isSpace).getD false)
    || (!inFlow && (c = '?' || c = ':') && !endsWord next)

/-- The next token at a place that is not blank, with the tokens of indentation before it. -/
def next (x : Lexer) (c : Char) : Except Fault Lexer := do
  let p := x.place
  let inFlow := 0 < x.flow
  if p.column = 0 && c = '%' then x.directive
  else if p.atMarker then x.marker (if c = '-' then .documentStart else .documentEnd)
  else if c = '[' then x.flowStart .flowSequence
  else if c = '{' then x.flowStart .flowMapping
  else if c = ']' then x.flowEnd .flowSequenceEnd
  else if c = '}' then x.flowEnd .flowMappingEnd
  else if c = ',' then x.flowEntry
  else if c = '-' && endsWord (p.peek 1) then x.blockEntry
  else if c = '?' && (inFlow || endsWord (p.peek 1)) then x.key
  else if c = ':' && (inFlow || endsWord (p.peek 1)) then x.value
  else if c = '*' then x.reference .alias
  else if c = '&' then x.reference .anchor
  else if c = '!' then x.tag
  else if c = '|' && !inFlow then x.block true
  else if c = '>' && !inFlow then x.block false
  else if c = '\'' then x.quoted true
  else if c = '"' then x.quoted false
  else if startsPlain inFlow c (p.peek 1) then x.plain
  else x.fault "found character that cannot start any token"

/-- The end of the text closes what is open. -/
def finish (x : Lexer) : Except Fault (Array Token) := do
  let x ← (x.closeBlocks (-1)).dropKey
  return x.tokens

def run : Nat → Lexer → Except Fault (Array Token)
  | 0, x => x.finish
  | fuel + 1, x => do
    let x := x.skipBlanks (x.place.rest.length + 1)
    let x ← x.dropStaleKeys
    let x := x.closeBlocks x.place.column
    match x.place.head with
    | none => x.finish
    | some c => run fuel (← x.next c)

end Lexer

/-- The tokens of a text. -/
def tokens (text : String) : Except Fault (List Token) := do
  let cs := match text.toList with
    | '\ufeff' :: cs => cs
    | cs => cs
  if !cs.all isPrintable then throw ⟨"control characters are not allowed", 0⟩
  let tokens ← Lexer.run (cs.length + 1) { place := { rest := cs } }
  return tokens.toList

end RowFlow.Yaml
