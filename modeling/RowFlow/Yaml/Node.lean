import RowFlow.Dict
import RowFlow.Yaml.Lexer

/-!
# YAML documents

The nodes of a document, every alias replaced by the node it stands for. A document is empty or has
one node at its root; a text holds one document.
-/

namespace RowFlow.Yaml

/-- A tag is given in full; `!local` tags keep their exclamation mark. -/
inductive Node where
  | scalar (text : String) (style : Style) (tag : Option String)
  | sequence (tag : Option String) (items : List Node)
  | mapping (tag : Option String) (entries : List (Node × Node))
deriving Repr, Inhabited

def Node.empty : Node := .scalar "" .plain none

/-- The anchors seen so far. An anchor whose node is still open has none. -/
abbrev Anchors := Dict (Option Node)

/-- What is left of the tokens, and what has been learnt on the way. -/
structure Reading where
  tokens : List Token
  anchors : Anchors := []
  /-- What the handles of tags stand for. -/
  handles : Dict String := [("!", "!"), ("!!", "tag:yaml.org,2002:")]

abbrev Reader := StateT Reading (Except Fault)

namespace Reader

def fail (problem : String) : Reader α := throw ⟨problem, 0⟩

def peek : Reader (Option Token) := do return (← get).tokens.head?

def skip : Reader Unit := modify fun r => { r with tokens := r.tokens.tail }

/-- Skips the given token if it is next. -/
def skipIf (token : Token) : Reader Bool := do
  if (← peek) = some token then
    skip
    return true
  else return false

def resolveTag (handle suffix : String) : Reader String := do
  if handle = "" then return suffix
  match (← get).handles.find? handle with
  | some lead => return lead ++ suffix
  | none => fail "found undefined tag handle"

/-- The anchor and the tag in front of a node, in either order. -/
def properties : Reader (Option String × Option String) := do
  let anchor? : Reader (Option String) := do
    match ← peek with
    | some (.anchor name) => skip; return some name
    | _ => return none
  let tag? : Reader (Option String) := do
    match ← peek with
    | some (.tag handle suffix) => skip; return some (← resolveTag handle suffix)
    | _ => return none
  match ← anchor? with
  | some name => return (some name, ← tag?)
  | none =>
    match ← tag? with
    | some tag => return (← anchor?, some tag)
    | none => return (none, none)

/-- Records what an anchor stands for. -/
def define (anchor : Option String) (node : Option Node) : Reader Unit := do
  match anchor with
  | some name => modify fun r => { r with anchors := r.anchors.insert name node }
  | none => return

def dealias (name : String) : Reader Node := do
  match (← get).anchors.find? name with
  | some (some node) => return node
  | some none => fail "recursion limit exceeded"
  | none => fail "unknown anchor"

/-- A lone exclamation mark is no tag of a scalar. -/
def scalarTag (tag : Option String) : Option String := if tag = some "!" then none else tag

/-- Whether a token can not start the node of an entry of a block collection. -/
def endsBlockEntry (indentless : Bool) : Option Token → Bool
  | some .key | some .value => indentless
  | some .blockEntry | some .blockEnd => true
  | none => true
  | _ => false

def endsMappingPart : Option Token → Bool
  | some .key | some .value | some .blockEnd | none => true
  | _ => false

def endsFlowPart (closing : Token) : Option Token → Bool
  | some .flowEntry | none => true
  | some token => token = closing

mutual

/-- A node. The flags say whether block collections may start here, and whether a sequence may
stand at the indentation of the mapping around it. The fuel bounds the tokens that are left. -/
def node : Nat → (inBlock indentless : Bool) → Reader Node
  | 0, _, _ => fail "recursion limit exceeded"
  | fuel + 1, inBlock, indentless => do
    match ← peek with
    | some (.alias name) => skip; dealias name
    | _ =>
      let (anchor, tag) ← properties
      define anchor none
      let content ← nodeContent fuel inBlock indentless tag (anchor.isSome || tag.isSome)
      define anchor (some content)
      return content

def nodeContent : Nat → (inBlock indentless : Bool) → Option String → Bool → Reader Node
  | 0, _, _, _, _ => fail "recursion limit exceeded"
  | fuel + 1, inBlock, indentless, tag, hasProperties => do
    let absent : Reader Node :=
      if hasProperties then return .scalar "" .plain tag
      else fail "did not find expected node content"
    match ← peek with
    | some (.scalar text style) => skip; return .scalar text style (scalarTag tag)
    | some .flowSequence => skip; return .sequence tag (← flowItems fuel true)
    | some .flowMapping => skip; return .mapping tag (← flowFields fuel true)
    | some .blockEntry =>
      if indentless then return .sequence tag (← blockItems fuel true) else absent
    | some .blockSequence =>
      if inBlock then
        skip
        return .sequence tag (← blockItems fuel false)
      else absent
    | some .blockMapping =>
      if inBlock then
        skip
        return .mapping tag (← blockFields fuel)
      else absent
    | _ => absent

def blockItems : Nat → (indentless : Bool) → Reader (List Node)
  | 0, _ => fail "recursion limit exceeded"
  | fuel + 1, indentless => do
    if ← skipIf .blockEntry then
      let item ← if endsBlockEntry indentless (← peek) then pure Node.empty
        else node fuel true false
      return item :: (← blockItems fuel indentless)
    else if indentless then return []
    else if ← skipIf .blockEnd then return []
    else fail "did not find expected '-' indicator"

def blockFields : Nat → Reader (List (Node × Node))
  | 0 => fail "recursion limit exceeded"
  | fuel + 1 => do
    if ← skipIf .key then
      let key ← if endsMappingPart (← peek) then pure Node.empty else node fuel true true
      let value ← if ← skipIf .value then
          if endsMappingPart (← peek) then pure Node.empty else node fuel true true
        else pure Node.empty
      return (key, value) :: (← blockFields fuel)
    else if ← skipIf .blockEnd then return []
    else fail "did not find expected key"

def flowItems : Nat → (first : Bool) → Reader (List Node)
  | 0, _ => fail "recursion limit exceeded"
  | fuel + 1, first => do
    if ← skipIf .flowSequenceEnd then return []
    if !first then
      if !(← skipIf .flowEntry) then fail "did not find expected ',' or ']'"
      if ← skipIf .flowSequenceEnd then return []
    let item ← if ← skipIf .key then flowPair fuel else node fuel false false
    return item :: (← flowItems fuel false)

/-- A single field written as an item of a flow sequence, after its key token. -/
def flowPair : Nat → Reader Node
  | 0 => fail "recursion limit exceeded"
  | fuel + 1 => do
    match ← peek with
    | some .value | some .flowEntry | some .flowSequenceEnd =>
      skip
      return .mapping none [(.empty, .empty)]
    | _ =>
      let key ← node fuel false false
      let value ← if ← skipIf .value then
          if endsFlowPart .flowSequenceEnd (← peek) then pure Node.empty else node fuel false false
        else pure Node.empty
      return .mapping none [(key, value)]

def flowFields : Nat → (first : Bool) → Reader (List (Node × Node))
  | 0, _ => fail "recursion limit exceeded"
  | fuel + 1, first => do
    if ← skipIf .flowMappingEnd then return []
    if !first then
      if !(← skipIf .flowEntry) then fail "did not find expected ',' or '\x7d'"
      if ← skipIf .flowMappingEnd then return []
    if ← skipIf .key then
      let key ← match ← peek with
        | some .value => pure Node.empty
        | next =>
          if endsFlowPart .flowMappingEnd next then pure Node.empty else node fuel false false
      let value ← if ← skipIf .value then
          if endsFlowPart .flowMappingEnd (← peek) then pure Node.empty else node fuel false false
        else pure Node.empty
      return (key, value) :: (← flowFields fuel false)
    else
      let key ← node fuel false false
      return (key, .empty) :: (← flowFields fuel false)

end

/-- The directives in front of a document; each handle is declared once, and the version is 1.1 or
1.2. -/
def directives : Nat → (versioned : Bool) → (declared : List String) → Reader Bool
  | 0, versioned, declared => return versioned || declared ≠ []
  | fuel + 1, versioned, declared => do
    match ← peek with
    | some (.versionDirective major minor) =>
      skip
      if versioned then fail "found duplicate %YAML directive"
      if major ≠ 1 ∨ (minor ≠ 1 ∧ minor ≠ 2) then fail "found incompatible YAML document"
      directives fuel true declared
    | some (.tagDirective handle lead) =>
      skip
      if handle ∈ declared then fail "found duplicate %TAG directive"
      modify fun r => { r with handles := r.handles.insert handle lead }
      directives fuel versioned (handle :: declared)
    | _ => return versioned || declared ≠ []

def skipDocumentEnds : Nat → Reader Unit
  | 0 => return
  | fuel + 1 => do if ← skipIf .documentEnd then skipDocumentEnds fuel

/-- Nesting beyond this depth is refused. -/
def deepest : Nat := 128

mutual

def depth : Node → Nat
  | .scalar .. => 0
  | .sequence _ items => 1 + depthItems items
  | .mapping _ entries => 1 + depthFields entries

def depthItems : List Node → Nat
  | [] => 0
  | n :: ns => max (depth n) (depthItems ns)

def depthFields : List (Node × Node) → Nat
  | [] => 0
  | (k, v) :: entries => max (max (depth k) (depth v)) (depthFields entries)

end

/-- The only document of a text: nothing if the text has no document. -/
def document : Reader (Option Node) := do
  let fuel := 8 * ((← get).tokens.length + 1)
  if (← peek).isNone then return none
  let directed ← directives fuel false []
  let started ← skipIf .documentStart
  if directed ∧ !started then fail "did not find expected <document start>"
  let root ← match ← peek with
    | none => pure Node.empty
    | some .documentEnd =>
      if started then pure Node.empty else fail "did not find expected node content"
    | _ => node fuel true false
  skipDocumentEnds fuel
  if (← peek).isSome then fail "found more than one document"
  if deepest < depth root then fail "recursion limit exceeded"
  return some root

end Reader

/-- The only document of a text: nothing if the text is empty but for blanks and comments. -/
def read (text : String) : Except Fault (Option Node) := do
  let tokens ← tokens text
  let (root, _) ← Reader.document.run { tokens }
  return root

end RowFlow.Yaml
