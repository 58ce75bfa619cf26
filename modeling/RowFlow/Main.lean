import RowFlow.CommandLine.Program
import RowFlow.History.RunId
import Std.Time.DateTime.Timestamp

/-!
# The executable

The program is run on what is known of the file system. The places that it looks up are then read,
and it is run again until it looks up nothing new; what the last run has written is stored.
-/

namespace RowFlow.CommandLine

/-- A disk with what the operating system has at a place. -/
def learn (disk : Disk) (place : String) : IO Disk := do
  let root ← IO.currentDir
  if ← (root / place).isDir then
    return disk.makeFolder place
  let above := Disk.parentOf place
  let disk := if ← (root / above).isDir then disk.makeFolder above else disk
  try
    let text ← IO.FS.readFile (root / place)
    return { disk with files := disk.files.insert place text }
  catch _ => return disk

/-- A machine that knows all places which the program looks up. -/
partial def explore (machine : Machine) (args known : List String) : IO Machine := do
  let asked := (perform machine args).disk.asked.eraseDups
  let new := asked.filter (!known.contains ·)
  if new.isEmpty then
    return machine
  let disk ← new.foldlM learn machine.disk
  explore { machine with disk } args (new ++ known)

/-- Stores the files that differ from what was known. -/
def store (before after : Disk) : IO Unit := do
  let root ← IO.currentDir
  for (place, text) in after.files do
    if before.files.find? place ≠ some text then
      IO.FS.createDirAll (root / Disk.parentOf place)
      IO.FS.writeFile (root / place) text

/-- The folder for the data of programs. -/
def dataHome : IO String := do
  match ← IO.getEnv "XDG_DATA_HOME", ← IO.getEnv "HOME" with
  | some folder, home =>
    return if Path.isAbsolute folder then folder else (home.map (· ++ "/.local/share")).getD "."
  | none, some home => return home ++ "/.local/share"
  | none, none => return "."

/-- Colours are for terminals, unless they are refused. -/
def wantsColour : IO Bool := do
  if (← IO.getEnv "NO_COLOR").isSome || (← IO.getEnv "TERM") = some "dumb" then
    return false
  (← IO.getStdout).isTty

def newMachine : IO Machine := do
  let bytes ← IO.getRandomBytes 16
  let nanos := (← Std.Time.Timestamp.now).toNanosecondsSinceUnixEpoch.val
  return {
    disk := { current := (← IO.currentDir).toString }
    dataFolder := Path.join (← dataHome) programName
    now := (⟨0, 0⟩ : Time).later nanos.toNat
    runId := RunId.ofBytes (bytes.toList.map UInt8.toNat)
    coloured := ← wantsColour }

/-- Runs the program, and measures how long a run takes. -/
def conclude (machine : Machine) (args : List String) : IO Ending := do
  match start machine args with
  | .error ending => return ending
  | .ok session =>
    let before ← IO.monoNanosNow
    let session ← IO.lazyPure fun _ => session.execute
    let after ← IO.monoNanosNow
    return session.finish (after - before)

end RowFlow.CommandLine

open RowFlow.CommandLine in
def main (args : List String) : IO UInt32 := do
  let machine ← explore (← newMachine) args []
  let ending ← conclude machine args
  store machine.disk ending.disk
  (← IO.getStdout).putStr ending.output
  (← IO.getStderr).putStr ending.errors
  return ending.exit.toUInt32
