import RowFlow.Yaml.Place

/-!
# Scalars

Plain, quoted and block scalars. Line breaks inside plain and quoted scalars are folded: one break
is a space, and of several the first is dropped. The fuel of every loop bounds the characters that
are left.
-/

namespace RowFlow.Yaml

/-- Blanks between two words of a scalar: spaces on one line, or a first break and the breaks
after it. -/
inductive Gap where
  | none
  | spaces (cs : List Char)
  | breaks (first : List Char) (more : List Char)

/-- What a gap contributes to the text of a scalar. -/
def Gap.folded : Gap → List Char
  | .none => []
  | .spaces cs => cs
  | .breaks first more =>
    if first = ['\n'] then (if more = [] then [' '] else more) else first ++ more

def Gap.hasBreak : Gap → Bool
  | .breaks .. => true
  | _ => false

/-- Reads the blanks at a place. Within a plain scalar that runs over several lines a tab may not
stand left of the given column. -/
def readGap (tabLimit : Nat) : Nat → Place → Gap → Except Fault (Gap × Place)
  | 0, p, gap => .ok (gap, p)
  | fuel + 1, p, gap =>
    match p.head with
    | none => .ok (gap, p)
    | some c =>
      if isSpace c then
        match gap with
        | .breaks .. =>
          if p.column < tabLimit ∧ c = '\t' then
            p.fault "found a tab character that violates indentation"
          else readGap tabLimit fuel p.skip gap
        | .spaces cs => readGap tabLimit fuel p.skip (.spaces (cs ++ [c]))
        | .none => readGap tabLimit fuel p.skip (.spaces [c])
      else if isBreak c then
        match gap with
        | .breaks first more =>
          readGap tabLimit fuel p.skipLine (.breaks first (more ++ p.lineBreak))
        | _ => readGap tabLimit fuel p.skipLine (.breaks p.lineBreak [])
      else .ok (gap, p)

/-! ## Plain scalars -/

def isFlowIndicator (c : Char) : Bool :=
  c = ',' || c = '[' || c = ']' || c = '{' || c = '}'

/-- Whether a plain scalar ends before the character at a place. -/
def endsPlain (inFlow : Bool) (p : Place) : Bool :=
  match p.head with
  | none => true
  | some c =>
    isSpace c || isBreak c || (c = ':' && endsWord (p.peek 1)) || (inFlow && isFlowIndicator c)

/-- The characters of a plain scalar up to the next blank or its end, in reverse. -/
def plainWord (inFlow : Bool) : Nat → Place → List Char → Except Fault (List Char × Place)
  | 0, p, held => .ok (held, p)
  | fuel + 1, p, held =>
    if endsPlain inFlow p then .ok (held, p)
    else match p.rest with
      | [] => .ok (held, p)
      | c :: rest =>
        let next := rest.head?
        if inFlow && c = ':' && (next = some '?' || (next.map isFlowIndicator).getD false) then
          p.fault "found unexpected ':'"
        else plainWord inFlow fuel p.skip (c :: held)

/-- A plain scalar: its text in reverse, the place after it, and whether a line break followed it.
Outside of flow collections its lines are indented by at least `indent`. -/
def plainFrom (inFlow : Bool) (indent : Nat) :
    Nat → Place → Gap → List Char → Except Fault (List Char × Place × Bool)
  | 0, p, gap, held => .ok (held, p, gap.hasBreak)
  | fuel + 1, p, gap, held => do
    if p.atMarker || p.is '#' then return (held, p, gap.hasBreak)
    let held' := gap.folded.reverse ++ held
    let (word, after) ← plainWord inFlow p.rest.length p []
    let (held, gap) := if word = [] then (held, gap) else (word ++ held', Gap.none)
    match after.head with
    | none => return (held, after, gap.hasBreak)
    | some c =>
      if !(isSpace c || isBreak c) then return (held, after, gap.hasBreak)
      let (gap, next) ← readGap indent after.rest.length after gap
      if !inFlow && next.column < indent then return (held, next, gap.hasBreak)
      plainFrom inFlow indent fuel next gap held

/-! ## Quoted scalars -/

/-- The characters that a backslash and a letter stand for. -/
def escaped? : Char → Option Char
  | '0' => some '\x00'
  | 'a' => some '\x07'
  | 'b' => some '\x08'
  | 't' => some '\t'
  | '\t' => some '\t'
  | 'n' => some '\n'
  | 'v' => some '\x0b'
  | 'f' => some '\x0c'
  | 'r' => some '\r'
  | 'e' => some '\x1b'
  | ' ' => some ' '
  | '"' => some '"'
  | '/' => some '/'
  | '\\' => some '\\'
  | 'N' => some '\u0085'
  | '_' => some '\u00a0'
  | 'L' => some '\u2028'
  | 'P' => some '\u2029'
  | _ => none

/-- How many hexadecimal digits follow a letter after a backslash. -/
def codeLength? : Char → Option Nat
  | 'x' => some 2
  | 'u' => some 4
  | 'U' => some 8
  | _ => none

def hexDigit? (c : Char) : Option Nat :=
  if '0' ≤ c ∧ c ≤ '9' then some (c.toNat - 48)
  else if 'a' ≤ c ∧ c ≤ 'f' then some (c.toNat - 87)
  else if 'A' ≤ c ∧ c ≤ 'F' then some (c.toNat - 55)
  else none

/-- The character of a code in hexadecimal digits; surrogates are none. -/
def codeChar? (digits : List Char) : Option Char := do
  let n ← digits.foldlM (fun n c => (hexDigit? c).map (16 * n + ·)) 0
  if (0xD800 ≤ n ∧ n ≤ 0xDFFF) ∨ 0x10FFFF < n then none else some (Char.ofNat n)

/-- One step inside a quoted word: a character and the place after it, the end of the word, or a
break that a backslash takes away. -/
inductive QuotedStep where
  | char (c : Char) (next : Place)
  | joined (next : Place)
  | stop

def quotedStep (single : Bool) (p : Place) : Except Fault QuotedStep :=
  match p.rest with
  | [] => .ok .stop
  | c :: rest =>
    if isSpace c || isBreak c then .ok .stop
    else if single then
      if c = '\'' then
        if rest.head? = some '\'' then .ok (.char '\'' (p.skipMany 2)) else .ok .stop
      else .ok (.char c p.skip)
    else if c = '"' then .ok .stop
    else if c = '\\' then
      match rest with
      | [] => p.fault "found unexpected end of stream"
      | d :: digits =>
        if isBreak d then .ok (.joined p.skip.skipLine)
        else match escaped? d, codeLength? d with
          | some c, _ => .ok (.char c (p.skipMany 2))
          | none, some n =>
            if (digits.take n).length < n then p.fault "did not find expected hexdecimal number"
            else match codeChar? (digits.take n) with
              | some c => .ok (.char c (p.skipMany (2 + n)))
              | none => p.fault "found invalid Unicode character escape code"
          | none, none => p.fault "found unknown escape character"
    else .ok (.char c p.skip)

/-- The characters of a quoted scalar up to a blank or its end, in reverse, and whether it stopped
at a break taken away by a backslash. -/
def quotedWord (single : Bool) : Nat → Place → List Char → Except Fault (List Char × Place × Bool)
  | 0, p, held => .ok (held, p, false)
  | fuel + 1, p, held => do
    match ← quotedStep single p with
    | .char c next => quotedWord single fuel next (c :: held)
    | .joined next => return (held, next, true)
    | .stop => return (held, p, false)

/-- The text of a quoted scalar in reverse, from behind its opening quote, and the place behind
its closing quote. -/
def quotedFrom (single : Bool) : Nat → Place → List Char → Except Fault (List Char × Place)
  | 0, p, _ => p.fault "found unexpected end of stream"
  | fuel + 1, p, held => do
    if p.atMarker then p.fault "found unexpected document indicator"
    let (held, after, joined) ← quotedWord single p.rest.length p held
    match after.head with
    | none => after.fault "found unexpected end of stream"
    | some c =>
      if !joined && c = (if single then '\'' else '"') then return (held, after.skip)
      let gap := if joined then Gap.breaks [] [] else Gap.none
      let (gap, next) ← readGap 0 after.rest.length after gap
      quotedFrom single fuel next (gap.folded.reverse ++ held)

/-! ## Block scalars -/

inductive Chomping where
  | strip
  | clip
  | keep
deriving DecidableEq

/-- The indicators after `|` or `>`: chomping and the depth of indentation, in either order. -/
def blockHeader (p : Place) : Except Fault (Chomping × Nat × Place) := do
  let chomp (p : Place) : Option Chomping :=
    match p.head with
    | some '+' => some .keep
    | some '-' => some .strip
    | _ => none
  let depth (p : Place) : Except Fault (Nat × Place) :=
    match p.head with
    | some c =>
      if c = '0' then p.fault "found an indentation indicator equal to 0"
      else if '1' ≤ c ∧ c ≤ '9' then .ok (c.toNat - 48, p.skip)
      else .ok (0, p)
    | none => .ok (0, p)
  match chomp p with
  | some c =>
    let (n, p) ← depth p.skip
    return (c, n, p)
  | none =>
    let (n, p) ← depth p
    if n = 0 then return (.clip, 0, p)
    match chomp p with
    | some c => return (c, n, p.skip)
    | none => return (.clip, n, p)

/-- Empty lines and the indentation of the next line. An indentation of zero is still to be found:
`deepest` is the deepest so far. -/
def blockBreaks (indent : Nat) :
    Nat → Place → Nat → List Char → Except Fault (List Char × Nat × Place)
  | 0, p, deepest, breaks => .ok (breaks, deepest, p)
  | fuel + 1, p, deepest, breaks =>
    let spaces := (p.rest.takeWhile (· = ' ')).length
    let p := p.skipMany (if indent = 0 then spaces else min spaces (indent - p.column))
    let deepest := max deepest p.column
    if (indent = 0 ∨ p.column < indent) ∧ p.is '\t' then
      p.fault "found a tab character where an indentation space is expected"
    else if (p.head.map isBreak).getD false then
      blockBreaks indent fuel p.skipLine deepest (breaks ++ p.lineBreak)
    else .ok (breaks, deepest, p)

/-- The lines of a block scalar: its text, the last break and the breaks after that. -/
def blockLines (literal : Bool) (indent : Nat) :
    Nat → Place → (text lead trail : List Char) → (wasBlank : Bool) →
      Except Fault (List Char × List Char × List Char × Place)
  | 0, p, text, lead, trail, _ => .ok (text, lead, trail, p)
  | fuel + 1, p, text, lead, trail, wasBlank => do
    if p.column ≠ indent ∨ p.head.isNone then return (text, lead, trail, p)
    let isBlank := (p.head.map isSpace).getD false
    let between :=
      if !literal && lead.head? = some '\n' && !wasBlank && !isBlank then
        (if trail = [] then [' '] else []) ++ trail
      else lead ++ trail
    let (line, after) := p.span (fun c => !isBreak c)
    let lead := after.lineBreak
    let (trail, _, next) ← blockBreaks indent (after.rest.length + 1) after.skipLine 0 []
    blockLines literal indent fuel next (text ++ between ++ line) lead trail isBlank

/-- A block scalar from its `|` or `>`, inside a block of the given indentation. -/
def blockScalar (literal : Bool) (outer : Int) (p : Place) : Except Fault (List Char × Place) := do
  let (chomping, depth, p) ← blockHeader p.skip
  let p := p.skipSpaces
  let p := if p.is '#' then (p.span (fun c => !isBreak c)).2 else p
  if !endsLine p.head then p.fault "did not find expected comment or line break"
  let p := p.skipLine
  let given : Nat := if depth = 0 then 0 else if 0 ≤ outer then outer.toNat + depth else depth
  let (trail, deepest, p) ← blockBreaks given (p.rest.length + 1) p 0 []
  let indent := if given = 0 then max deepest (max (outer + 1).toNat 1) else given
  let (text, lead, trail, p) ← blockLines literal indent (p.rest.length + 1) p [] [] trail false
  let text := if chomping = .strip then text else text ++ lead
  return (if chomping = .keep then text ++ trail else text, p)

end RowFlow.Yaml
