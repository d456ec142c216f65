import ExpenseLedger.Home.ConfigFile
import ExpenseLedger.Home.Database
import ExpenseLedger.Store.Currencies

/-!
# The home directory

All that outlives a run of the program is in one directory: the configuration and the database.
Making a home writes a configuration and fills the currency table from it; loading one reads the
configuration, opens the database and adds the currencies that are configured but not known yet.
Whatever has been done before a failure stays done. A process does not wait forever until a database
is open: `inTime` says whether it is open by then.
-/

namespace ExpenseLedger

/-- The home directory as it is found: nothing at all, or a directory that may lack either
file. -/
structure Home where
  path : String
  isPresent : Bool := false
  config : Option String := none
  database : DatabaseEntry := .missing
  deriving DecidableEq

namespace Home

def configName : String := "config.json"

def databaseName : String := "spendbook.sqlite"

def pathOf (home : Home) (name : String) : String :=
  home.path ++ "/" ++ name

/-- The names of the files in the home, in ascending order. -/
def files (home : Home) : List String :=
  (if home.config.isSome then [configName] else []) ++
    (if home.database.isPresent then [databaseName] else [])

def store (home : Home) : Store :=
  match home.database with
  | .file content => content.store
  | _ => {}

def withStore (home : Home) (store : Store) : Home :=
  match home.database with
  | .file content => { home with database := .file (content.withStore store) }
  | _ => home

def withConfig (home : Home) (text : Option String) : Home :=
  { home with isPresent := true, config := text }

/-- The result of an operation on the database, and what it has made of the home. -/
def onDatabase {α : Type} (home : Home) (result : Outcome (α × Store)) : Outcome α × Home :=
  match result with
  | .ok (a, store) => (.ok a, home.withStore store)
  | .error e => (.error e, home)

def create (file : ConfigFile) (home : Home) (inTime : Bool := true) :
    Outcome Configuration × Home :=
  let home := { home with isPresent := true }
  match file.check with
  | .error fault => (.error (.config fault), home)
  | .ok configuration =>
    if home.database.isPresent then (.error (.config (.initialized home.path)), home)
    else
      let home := home.withConfig (some file.toText)
      match home.database.create (home.pathOf databaseName) inTime with
      | .error fault => (.error (.database fault), home)
      | .ok content =>
        let home := { home with database := .file content }
        home.onDatabase ((home.store.storeRates file.seed).map fun store => (configuration, store))

def configuration (home : Home) : Except ConfigFault Configuration :=
  if !home.isPresent then .error (.missingHome home.path)
  else
    let path := home.pathOf configName
    match home.config with
    | none => .error (.missingFile path)
    | some text => do
      let file ← ConfigFile.ofText path text
      file.check

/-- The configured currencies that the table does not know. -/
def newCurrencies (file : ConfigFile) (known : List Currency) : List Currency :=
  file.seed.filter fun currency => !known.any fun row => row.id = currency.id

/-- Adds the configured currencies that the table does not know. -/
def addCurrencies (file : ConfigFile) (store : Store) : Outcome Store := do
  let known ← store.listCurrencies
  store.storeRates (newCurrencies file known)

def load (home : Home) (inTime : Bool := true) : Outcome Configuration × Home :=
  match home.configuration with
  | .error fault => (.error (.config fault), home)
  | .ok configuration =>
    match home.database.load (home.pathOf databaseName) inTime with
    | .error fault => (.error (.database fault), home)
    | .ok content =>
      let home := { home with database := .file content }
      let result := addCurrencies configuration.file home.store
      home.onDatabase (result.map fun store => (configuration, store))

end Home
end ExpenseLedger
