import ExpenseLedger.Store.Tables

/-!
# Database files

A database file holds the version of its tables, and the tables once they have been made. The
version is the greatest of those that are recorded. A file of an older version is brought up to
date step by step, if there is a step for every version; one of a newer version is left alone.
-/

namespace ExpenseLedger

/-- What a database file holds: the versions that are recorded in it, unless it has no place for
them, and its tables. -/
structure DatabaseFile where
  versions : Option (List Int)
  tables : Option Store
  deriving DecidableEq

/-- What is found at the path of a database. -/
inductive DatabaseEntry where
  | missing
  | directory
  | file (content : DatabaseFile)
  deriving DecidableEq

namespace DatabaseFile

/-- The version of the tables that the library knows. -/
def currentVersion : Int := 1

/-- The version that the first step leads to. -/
def firstVersion : Int := 1

def everyTable : List Table :=
  [.currencies, .users, .categories, .expenses, .requests, .cachedReports]

/-- The tables; those that have not been made cannot be reached. -/
def store (file : DatabaseFile) : Store :=
  file.tables.getD { outOfReach := everyTable }

/-- The file with its tables changed, if they have been made. -/
def withStore (file : DatabaseFile) (store : Store) : DatabaseFile :=
  { file with tables := file.tables.map fun _ => store }

def greatest (first : Int) (rest : List Int) : Int :=
  rest.foldl max first

/-- The version of the file, which has to fit 32 bits. -/
def version (file : DatabaseFile) : Except DatabaseFault Int :=
  match file.versions with
  | none => .error .unreadableVersion
  | some [] => .error .noVersion
  | some (first :: rest) =>
    let version := greatest first rest
    if -0x80000000 ≤ version ∧ version < 0x80000000 then .ok version else .error .unreadableVersion

/-- The step to the first version makes the tables. -/
def makeTables (file : DatabaseFile) : Except DatabaseFault DatabaseFile :=
  match file.tables with
  | some _ => .error .failedMigration
  | none => .ok
    { versions := file.versions.map fun versions => versions.map fun _ => firstVersion
      tables := some {} }

/-- Brings a file of some version up to date. -/
def migrate (file : DatabaseFile) (version : Int) : Except DatabaseFault DatabaseFile :=
  if currentVersion < version then .error (.newerVersion version currentVersion)
  else if version = currentVersion then .ok file
  else if version + 1 < firstVersion then
    .error (.missingMigration (version + 1) version currentVersion)
  else file.makeTables

end DatabaseFile

namespace DatabaseEntry

/-- There is something at the path. -/
def isPresent : DatabaseEntry → Bool
  | .missing => false
  | _ => true

/-- Opens the file at a path, if that does not take too long, and brings it up to date. -/
def load (path : String) (entry : DatabaseEntry) (inTime : Bool := true) :
    Except DatabaseFault DatabaseFile :=
  match entry with
  | .file content =>
    if inTime then do
      let version ← content.version
      content.migrate version
    else .error (.cannotOpen path)
  | _ => .error (.missingFile path)

def create (path : String) (entry : DatabaseEntry) (inTime : Bool := true) :
    Except DatabaseFault DatabaseFile :=
  match entry with
  | .missing =>
    if inTime then DatabaseFile.migrate { versions := some [0], tables := none } 0
    else .error (.cannotOpen path)
  | _ => .error (.existingFile path)

end DatabaseEntry
end ExpenseLedger
