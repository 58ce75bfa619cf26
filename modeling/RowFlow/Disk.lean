import RowFlow.Dict
import RowFlow.Path

/-!
# The file system

Texts by absolute path, and the folders that exist. A file can be made only in a folder that
exists. A disk keeps account of the places that are looked up, so that whoever has a real file
system can supply what is missing and start again.
-/

namespace RowFlow

structure Disk where
  /-- The folder that relative paths start from. -/
  current : String := "/"
  files : Dict String := []
  folders : List String := ["/"]
  /-- The places that have been looked up, newest first. -/
  asked : List String := []
deriving Repr, Inhabited

namespace Disk

/-- Follows one component of a path from a folder, given as components in reverse. -/
def follow (above : List String) (component : String) : List String :=
  if component = "" ∨ component = "." then above
  else if component = ".." then above.tail
  else component :: above

/-- The absolute path that a path names, without dots. -/
def locate (d : Disk) (path : String) : String :=
  "/" ++ "/".intercalate (((Path.join d.current path).splitOn "/").foldl follow []).reverse

def isFolder (d : Disk) (place : String) : Bool := d.folders.contains place

/-- A path that ends with a slash, or is empty, can only name a folder. -/
def namesFile (path : String) : Bool :=
  path ≠ "" && !path.endsWith "/" && !path.toList.contains '\x00'

def read? (d : Disk) (path : String) : Option String :=
  if namesFile path then d.files.find? (d.locate path) else none

/-- Why a path can not be read. -/
def problem (d : Disk) (path : String) : String :=
  let place := d.locate path
  if path.toList.contains '\x00' then "file name contained an unexpected NUL byte"
  else if path = "" then "No such file or directory (os error 2)"
  else if d.isFolder place then "Is a directory (os error 21)"
  else if d.files.contains place then "Not a directory (os error 20)"
  else "No such file or directory (os error 2)"

def parentOf (place : String) : String := (Path.parent? place).getD "/"

/-- A disk with a folder and the folders above it; the fuel bounds their number. -/
def addFolders : Nat → Disk → String → Disk
  | 0, d, _ => d
  | fuel + 1, d, place =>
    if d.isFolder place then d
    else addFolders fuel { d with folders := place :: d.folders } (parentOf place)

/-- Makes the folder of a path and the ones above it. -/
def makeFolder (d : Disk) (path : String) : Disk :=
  let place := d.locate path
  addFolders (place.length + 1) d place

/-- Writes a file and makes the folders above it. -/
def write (d : Disk) (path text : String) : Disk :=
  let place := d.locate path
  let d := addFolders (place.length + 1) d (parentOf place)
  { d with files := d.files.insert place text }

/-- Notes that a path is looked up. -/
def noting (d : Disk) (path : String) : Disk := { d with asked := d.locate path :: d.asked }

/-- The text of a file, or why it can not be read. -/
def load (path : String) : StateM Disk (Except String String) := fun d =>
  let answer := match d.read? path with
    | some text => .ok text
    | none => .error (d.problem path)
  (answer, d.noting path)

/-- Appends to a file, which is made if it is missing, or tells why it can not. -/
def append (path text : String) : StateM Disk (Except String Unit) := fun d =>
  let place := d.locate path
  let d := d.noting path
  if namesFile path && d.isFolder (parentOf place) && !d.isFolder place then
    (.ok (), { d with files := d.files.insert place ((d.files.find? place).getD "" ++ text) })
  else (.error (d.problem path), d)

end Disk

end RowFlow
