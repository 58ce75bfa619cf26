import RowFlow.Json.Reader
import RowFlow.Yaml.Resolve

/-!
# Reading typed data

A typed value is read from a YAML document, where a text field takes any scalar as it is written and
an empty place counts as an empty list or structure, or from JSON data, where every type is exact.
-/

namespace RowFlow

/-- What a typed value is read from. -/
inductive Source where
  /-- A YAML text without a document. -/
  | nothing
  | yaml (node : Yaml.Node)
  | json (value : Value)
deriving Inhabited

/-- Why a typed value can not be read. -/
inductive ReadError where
  | syntaxFault (message : String)
  | type (expected : String)
  | value (text expected : String)
  | free (error : Yaml.ResolveError)
  | variant (name : String)
  | missing (field : String)
  | duplicate (field : String)
  | length (expected : String)
deriving DecidableEq

/-- The text of an error, but for the place in the source. What stands here for a text that is no
JSON, `invalid JSON`, a parser would tell in more words (`Source.ofJson`). -/
def ReadError.message : ReadError → String
  | .syntaxFault message => message
  | .type expected => s!"invalid type: expected {expected}"
  | .value text expected => s!"invalid value: \"{text}\", expected {expected}"
  | .free error => error.message
  | .variant name => s!"unknown variant '{name}'"
  | .missing field => s!"missing field '{field}'"
  | .duplicate field => s!"duplicate field '{field}'"
  | .length expected => s!"invalid length: expected {expected}"

/-- A reader of one type. -/
abbrev Decoder (α : Type) := Source → Except ReadError α

namespace Source

def ofYaml (text : String) : Except ReadError Source :=
  match Yaml.read text with
  | .ok none => .ok .nothing
  | .ok (some node) => .ok (.yaml node)
  | .error fault => .error (.syntaxFault fault.message)

/-- JSON as it is written: the names of a structure's fields may not repeat. -/
def ofJson (text : String) : Except ReadError Source :=
  match Json.readRaw? text.toList with
  | some v => .ok (.json v)
  | none => .error (.syntaxFault "invalid JSON")

/-! ## Scalars -/

def text : Decoder String
  | .yaml (.scalar s _ _) => .ok s
  | .json (.text s) => .ok s
  | _ => .error (.type "a string")

/-- A plain scalar of a boolean or number field, or a block scalar with that type's tag. -/
def plainText? (tag : String) : Yaml.Node → Option String
  | .scalar s .plain _ => some s
  | .scalar s .block t => if t = some (Yaml.coreTag tag) then some s else none
  | _ => none

def bool : Decoder Bool
  | .yaml node =>
    match (plainText? "bool" node).bind Yaml.boolWord? with
    | some b => .ok b
    | none => .error (.type "a boolean")
  | .json (.bool b) => .ok b
  | _ => .error (.type "a boolean")

def int : Decoder Int
  | .yaml node =>
    match (plainText? "int" node).bind fun s =>
      Yaml.intIn? Yaml.leastInt Yaml.greatestInt s.toList with
    | some n => .ok n
    | none => .error (.type "i64")
  | .json (.number (.int n)) => if n ≤ Yaml.greatestInt then .ok n else .error (.type "i64")
  | _ => .error (.type "i64")

/-- An integer from 0 to `2 ^ 64 - 1`, without a minus sign even for zero. -/
def nat : Decoder Nat
  | .yaml node =>
    match (plainText? "int" node).bind fun s =>
      if s.toList.head? = some '-' then none else Yaml.intIn? 0 Yaml.greatestNat s.toList with
    | some n => .ok n.toNat
    | none => .error (.type "u64")
  | .json v =>
    match v.nat? with
    | some n => .ok n
    | none => .error (.type "u64")
  | _ => .error (.type "u64")

/-- Whether an optional field holds nothing. -/
def isAbsent : Source → Except ReadError Bool
  | .nothing => .ok true
  | .json v => .ok v.isNull
  | .yaml (.scalar s .plain none) => .ok (s = "" || Yaml.isNullWord s)
  | .yaml (.scalar s .plain (some tag)) =>
    if tag = Yaml.coreTag "null" then
      if Yaml.isNullWord s then .ok true else .error (.value s "null")
    else .ok false
  | .yaml _ => .ok false

def option (read : Decoder α) : Decoder (Option α) := fun source => do
  if ← source.isAbsent then return none else return some (← read source)

def unit : Decoder Unit := fun source =>
  match source with
  | .nothing => .ok ()
  | .yaml (.scalar s .plain tag) =>
    let isNull := match tag with
      | some tag => tag = Yaml.coreTag "null" && Yaml.isNullWord s
      | none => s = "" || Yaml.isNullWord s
    if isNull then .ok () else .error (.value s "null")
  | .json .null => .ok ()
  | _ => .error (.type "unit")

/-! ## Free data -/

def value : Decoder Value
  | .nothing => .ok .null
  | .json v => .ok v.normal
  | .yaml node => node.value.mapError .free

/-! ## Collections -/

def isEmptyPlace : Source → Bool
  | .nothing => true
  | .yaml (.scalar s .plain _) => s = ""
  | _ => false

def items : Decoder (List Source)
  | .json (.list vs) => .ok (vs.map .json)
  | .yaml (.sequence _ nodes) => .ok (nodes.map .yaml)
  | source => if source.isEmptyPlace then .ok [] else .error (.type "a sequence")

def list (read : Decoder α) : Decoder (List α) := fun source => do
  (← source.items).mapM read

/-- The fields of a mapping in the order they are written. -/
def entries : Decoder (List (String × Source))
  | .json (.object fields) => .ok (fields.map fun (k, v) => (k, .json v))
  | .yaml (.mapping _ fields) =>
    fields.mapM fun (k, v) => do return (← text (.yaml k), .yaml v)
  | source => if source.isEmptyPlace then .ok [] else .error (.type "a map")

/-- A mapping with keys of one's own; the last of several entries under a key wins. -/
def dict (read : Decoder α) : Decoder (Dict α) := fun source => do
  let fields ← (← source.entries).mapM fun (k, v) => do return (k, ← read v)
  return Dict.ofEntries fields

def row : Decoder Row := dict value

def rows : Decoder (List Row) := list row

/-! ## Structures -/

/-- The known fields of a structure by their main names. Unknown fields are ignored; a field given
twice, under one or two of its names, is an error. -/
def known (aliases : List (String × String)) (names : List String) :
    List (String × Source) → Except ReadError (Dict Source)
  | [] => .ok []
  | (written, source) :: rest => do
    let fields ← known aliases names rest
    let name := (aliases.lookup written).getD written
    if name ∉ names then return fields
    else if fields.contains name then throw (.duplicate name)
    else return fields.insert name source

/-- The fields of a structure. In JSON a structure may also be the list of its fields' values; then
no fewer than `listed` of them are given. -/
def fields (names : List String) (aliases : List (String × String)) (listed : Nat) :
    Decoder (Dict Source)
  | .json (.list vs) =>
    if listed ≤ vs.length ∧ vs.length ≤ names.length then
      .ok (Dict.ofEntries (names.zip (vs.map .json)))
    else .error (.length s!"{names.length} elements")
  | source => do known aliases names (← source.entries)

end Source

namespace Dict

/-- A field that has to be given. -/
def required (fields : Dict Source) (name : String) (read : Decoder α) : Except ReadError α :=
  match fields.find? name with
  | some source => read source
  | none => .error (.missing name)

def withDefault (fields : Dict Source) (name : String) (read : Decoder α) (value : α) :
    Except ReadError α :=
  match fields.find? name with
  | some source => read source
  | none => .ok value

/-- A field that may be left out or be null. -/
def optional (fields : Dict Source) (name : String) (read : Decoder α) :
    Except ReadError (Option α) :=
  match fields.find? name with
  | some source => Source.option read source
  | none => .ok none

end Dict

namespace Source

/-! ## Alternatives -/

/-- One of several named alternatives. In YAML the name may also be a tag on an empty scalar. -/
def variant (named : String → Option α) : Decoder α := fun source =>
  let find (name : String) : Except ReadError α :=
    match named name with
    | some a => .ok a
    | none => .error (.variant name)
  match source with
  | .yaml (.scalar s style tag) =>
    if Yaml.isLocalTag tag then do
      let a ← find (String.ofList ((tag.getD "").toList.drop 1))
      if style = .plain ∧ (s = "" ∨ Yaml.isNullWord s) then return a
      else throw (.value s "null")
    else find s
  | .json (.text s) => find s
  | .json (.object [(name, .null)]) => find name
  | _ => .error (.type "an enum")

end Source

end RowFlow
