/-!
# File paths

Paths are texts with slashes between their components. Joining is textual: nothing is looked up and
no component is taken away.
-/

namespace RowFlow.Path

def isAbsolute (path : String) : Bool := path.startsWith "/"

/-- A path below a base; an absolute path stays as it is. -/
def join (base path : String) : String :=
  if isAbsolute path || base = "" then path
  else if base.endsWith "/" then base ++ path
  else base ++ "/" ++ path

/-- The components between slashes, without empty ones and without dots that stand for the same
directory, except a leading one. -/
def components (path : String) : List String :=
  let parts := path.splitOn "/"
  match parts with
  | [] => []
  | first :: rest =>
    let rest := rest.filter fun part => part ≠ "" && part ≠ "."
    if first = "" then rest else first :: rest

/-- The last component, unless it leads upwards. -/
def fileName? (path : String) : Option String :=
  match (components path).getLast? with
  | some "." | some ".." => none
  | name => name

/-- Drops what leads nowhere from the end of the parts between slashes, given in reverse. The first
part always stays. -/
def dropIdle : List String → List String
  | part :: before :: above =>
    if part = "" ∨ part = "." then dropIdle (before :: above) else part :: before :: above
  | parts => parts

/-- The path without its last component, and otherwise as it is written; the empty path and the
root have none. -/
def parent? (path : String) : Option String :=
  match dropIdle (path.splitOn "/").reverse with
  | [] | [""] => none
  | _ :: above =>
    match dropIdle above with
    | [""] => some "/"
    | above => some ("/".intercalate above.reverse)

/-- The file name without its extension. A dot at the start of the name starts no extension. -/
def stem? (path : String) : Option String := do
  let name ← fileName? path
  let parts := name.splitOn "."
  match parts.reverse with
  | _ :: before =>
    let stem := ".".intercalate before.reverse
    return if stem = "" then name else stem
  | [] => return name

end RowFlow.Path
