import ExpenseLedger.CommandLine.Parse
import ExpenseLedger.Commands.Run
import ExpenseLedger.Home.DatabaseText
import Std.Time.DateTime.Timestamp

/-!
# The program

Reads the home directory, runs one command on it, writes back what has changed, and prints what
the command prints. Other machines cannot be reached, so that the service for exchange rates is
a peer that does not listen.
-/

namespace ExpenseLedger
namespace Main

def readFile? (path : String) : IO (Option String) := do
  try
    return some (← IO.FS.readFile path)
  catch _ =>
    return none

/-- The absolute path of a file or directory, if it is there. -/
def realPath? (path : String) : IO (Option String) := do
  try
    return some (toString (← IO.FS.realPath path))
  catch _ =>
    return none

/-- Reads what is at the path of a database. -/
def readDatabase (path : String) : IO DatabaseEntry := do
  match ← readFile? path with
  | some text => return .file (DatabaseFile.ofText text)
  | none => return if (← realPath? path).isSome then .directory else .missing

def readHome (path : String) : IO Home := do
  match ← realPath? path with
  | none => return { path }
  | some path =>
    let home : Home := { path, isPresent := true }
    let config ← readFile? (home.pathOf Home.configName)
    let database ← readDatabase (home.pathOf Home.databaseName)
    return { home with config, database }

def writeHome (home : Home) : IO Unit := do
  if home.isPresent then
    IO.FS.createDirAll home.path
    if let some text := home.config then
      IO.FS.writeFile (home.pathOf Home.configName) text
    if let .file content := home.database then
      IO.FS.writeFile (home.pathOf Home.databaseName) content.toText

/-- A number that no other process has. -/
def processNumber : IO Nat := do
  let bytes ← IO.getRandomBytes 15
  return bytes.toList.foldl (fun n byte => 256 * n + byte.toNat) 0

def machine (homePath : String) : IO Machine := do
  let home ← readHome homePath
  let now := (← Std.Time.Timestamp.now).toMillisecondsSinceUnixEpoch.val
  return { home, now, service := { responses := [] }, started := ← processNumber }

/-- Where the home directory is unless the command line says so. -/
def defaultHome : IO String := do
  match ← IO.getEnv "SPENDBOOK_HOME", ← IO.getEnv "HOME" with
  | some path, _ => return path
  | none, some path => return path ++ "/spendbook"
  | none, none => return "spendbook"

/-- What a level of logging shows of a result. -/
def report (level : LogLevel) (result : Outcome Output) : IO Unit := do
  let everyLevel := LogLevel.everyLevel
  let shows (needed : LogLevel) : Bool := everyLevel.idxOf needed ≤ everyLevel.idxOf level
  match result with
  | .ok output =>
    if shows .info then IO.eprintln output.message
    if shows .debug then
      if let some value := output.value then
        IO.eprintln ("Command output:\n\n" ++ value.toLines ++ "\n\n")
  | .error e => if shows .error then IO.eprintln ("Exiting with error: " ++ e.message)

def run (words : List String) : IO UInt32 := do
  match CommandLine.read (← defaultHome) words with
  | .error .help => return 0
  | .error _ => return 2
  | .ok invocation =>
    let (result, after) := (← machine invocation.home).run invocation.command 0
    writeHome after.home
    report invocation.logLevel result
    return if result.toBool then 0 else 1

end Main
end ExpenseLedger

def main (words : List String) : IO UInt32 :=
  ExpenseLedger.Main.run words
