import ExpenseLedger.Home.Directory
import ExpenseLedger.Proofs.Cache
import ExpenseLedger.Proofs.Store.Rates

/-!
# Opening a home

A home is opened by every command. Opening brings the tables up to date and adds the configured
currencies that they lack; whatever came of it, opening the home again comes to the same and changes
nothing more. A home that could be opened is `Home.Opened`, and stays so while its tables keep the
currencies that they know.
-/

namespace ExpenseLedger

/-- The same users have the same categories, expenses and cached reports. -/
structure Store.SameHoldings (store after : Store) : Prop where
  users : after.users = store.users
  categories : after.categories = store.categories
  expenses : after.expenses = store.expenses
  cachedReports : after.cachedReports = store.cachedReports

/-! ## Database files -/

namespace DatabaseFile

theorem greatest_map_const (version : Int) (versions : List Int) :
    greatest version (versions.map fun _ => version) = version := by
  induction versions with
  | nil => rfl
  | cons first rest ih =>
    show greatest (max version version) _ = version
    rw [Int.max_self]
    exact ih

/-- A file is up to date, or it gets its first tables. -/
theorem migrate_eq_ok {file content : DatabaseFile} {version : Int}
    (h : file.migrate version = .ok content) :
    (version = currentVersion ∧ content = file) ∨
      (file.tables = none ∧
        content.versions = file.versions.map (fun versions => versions.map fun _ => firstVersion) ∧
        content.tables = some {}) := by
  unfold migrate at h
  split at h
  · cases h
  · split at h
    · next same =>
      cases h
      exact Or.inl ⟨same, rfl⟩
    · split at h
      · cases h
      · unfold makeTables at h
        cases tables : file.tables with
        | some store =>
          rw [tables] at h
          cases h
        | none =>
          rw [tables] at h
          cases h
          exact Or.inr ⟨rfl, rfl, rfl⟩

/-- What has been brought up to date has the current version. -/
theorem version_of_migrate {file content : DatabaseFile} {version : Int}
    (read : file.version = .ok version) (h : file.migrate version = .ok content) :
    content.version = .ok currentVersion := by
  rcases migrate_eq_ok h with ⟨rfl, rfl⟩ | ⟨-, recorded, -⟩
  · exact read
  · unfold DatabaseFile.version at read ⊢
    rw [recorded]
    cases versions : file.versions with
    | none =>
      rw [versions] at read
      cases read
    | some recorded =>
      cases recorded with
      | nil =>
        rw [versions] at read
        cases read
      | cons first rest =>
        simp only [Option.map_some, List.map_cons, greatest_map_const]
        rfl

/-- Tables are made where there are none, and otherwise stay as they are. -/
theorem sameHoldings_of_migrate {file content : DatabaseFile} {version : Int}
    (h : file.migrate version = .ok content) : Store.SameHoldings file.store content.store := by
  rcases migrate_eq_ok h with ⟨-, rfl⟩ | ⟨none, -, made⟩
  · exact ⟨rfl, rfl, rfl, rfl⟩
  · unfold store
    rw [none, made]
    exact ⟨rfl, rfl, rfl, rfl⟩

theorem store_of_migrate {file content : DatabaseFile} {version : Int}
    (h : file.migrate version = .ok content) (reached : file.store.outOfReach = []) :
    content.store = file.store := by
  rcases migrate_eq_ok h with ⟨-, rfl⟩ | ⟨none, -, -⟩
  · rfl
  · unfold store at reached
    rw [none] at reached
    cases reached

/-- Tables of which the currencies can be reached have been made. -/
theorem tables_of_reaches {file : DatabaseFile}
    (reached : file.store.reaches [.currencies] = true) : file.tables = some file.store := by
  unfold store at reached ⊢
  cases tables : file.tables with
  | some store => rfl
  | none =>
    rw [tables] at reached
    cases reached

theorem store_withStore {file : DatabaseFile} {old : Store} (tables : file.tables = some old)
    (store : Store) : (file.withStore store).store = store := by
  simp only [DatabaseFile.withStore, DatabaseFile.store, tables, Option.map_some,
    Option.getD_some]

theorem migrate_of_current (file : DatabaseFile) : file.migrate currentVersion = .ok file := by
  unfold migrate
  rw [if_neg (Int.lt_irrefl _), if_pos rfl]

end DatabaseFile

namespace DatabaseEntry

variable {entry : DatabaseEntry} {path : String} {content : DatabaseFile}

/-- What is opened is a file, brought up to date. -/
theorem load_eq_ok (h : entry.load path = .ok content) :
    ∃ file version, entry = .file file ∧ file.version = .ok version ∧
      file.migrate version = .ok content := by
  cases entry with
  | file file =>
    cases read : file.version with
    | error fault => simp [load, read, bind, Except.bind] at h
    | ok version =>
      simp only [load, read, bind, Except.bind] at h
      exact ⟨file, version, rfl, read, h⟩
  | _ => cases h

theorem version_of_load (h : entry.load path = .ok content) :
    content.version = .ok DatabaseFile.currentVersion := by
  obtain ⟨file, version, -, read, migrated⟩ := load_eq_ok h
  exact DatabaseFile.version_of_migrate read migrated

theorem sameHoldings_of_load {home : Home} (h : home.database.load path = .ok content) :
    Store.SameHoldings home.store content.store := by
  obtain ⟨file, version, found, -, migrated⟩ := load_eq_ok h
  unfold Home.store
  rw [found]
  exact DatabaseFile.sameHoldings_of_migrate migrated

/-- Tables that can be reached are not made anew. -/
theorem store_of_load {home : Home} (h : home.database.load path = .ok content)
    (reached : home.store.outOfReach = []) : content.store = home.store := by
  obtain ⟨file, version, found, -, migrated⟩ := load_eq_ok h
  unfold Home.store at reached ⊢
  rw [found] at reached ⊢
  exact DatabaseFile.store_of_migrate migrated reached

theorem load_of_current (current : content.version = .ok DatabaseFile.currentVersion) :
    load path (.file content) = .ok content := by
  simp only [load, if_true, current, bind, Except.bind, DatabaseFile.migrate_of_current]

/-- What is created is a file with tables that are empty. -/
theorem create_eq_ok {inTime : Bool} (h : entry.create path inTime = .ok content) :
    inTime = true ∧ content = { versions := some [1], tables := some {} } := by
  cases entry with
  | missing =>
    cases inTime with
    | true =>
      cases h
      exact ⟨rfl, rfl⟩
    | false => cases h
  | _ => cases h

end DatabaseEntry

/-! ## Configurations -/

/-- A configuration that has been checked has positive settings. -/
theorem ConfigFile.check_eq_ok {file : ConfigFile} {configuration : Configuration}
    (h : file.check = .ok configuration) :
    configuration.file = file ∧ ∀ setting ∈ file.positiveSettings, 0 < setting.2 := by
  unfold check at h
  cases currencies : file.checkCurrencies with
  | error fault => simp [currencies, bind, Except.bind] at h
  | ok u =>
    simp only [currencies, bind, Except.bind] at h
    split at h
    · cases h
    · next notFound =>
      split at h
      · cases h
      · cases h
      · cases h
        refine ⟨rfl, fun setting member => Int.not_le.1 fun notPositive => ?_⟩
        cases found : file.positiveSettings.find? fun setting => decide (setting.2 ≤ 0) with
        | some first => exact notFound first.1 first.2 found
        | none => simpa using List.find?_eq_none.1 found setting member (decide_eq_true notPositive)

/-! ## Currencies -/

namespace Store

variable {store after : Store} {batch : List Currency} {id : Int}

/-- Storing rates forgets no currency, and knows those that were stored. -/
theorem isSome_currency?_storeRates (h : store.storeRates batch = .ok after)
    (known : (store.currency? id).isSome = true ∨ ∃ currency ∈ batch, currency.id = id) :
    (after.currency? id).isSome = true := by
  induction batch generalizing store with
  | nil =>
    cases h
    rcases known with known | ⟨currency, member, -⟩
    · exact known
    · cases member
  | cons first rest ih =>
    obtain ⟨-, h⟩ := storeRates_cons.1 h
    refine ih h ?_
    rw [currency?_putCurrency]
    rcases known with known | ⟨currency, member, same⟩
    · left
      split
      · rfl
      · exact known
    · rcases List.mem_cons.1 member with rfl | later
      · left
        rw [if_pos same]
        rfl
      · exact Or.inr ⟨currency, later, same⟩

end Store

namespace Home

/-- The tables know every configured currency. -/
def Knows (file : ConfigFile) (store : Store) : Prop :=
  ∀ currency ∈ file.seed, (store.currency? currency.id).isSome = true

theorem isSome_currency? (store : Store) (id : Int) :
    (store.currency? id).isSome = store.currencies.any fun row => row.id = id := by
  rw [Bool.eq_iff_iff]
  simp [Store.currency?, Rows.get?]

theorem newCurrencies_eq_nil {file : ConfigFile} {store : Store} (knows : Knows file store) :
    newCurrencies file store.currencies = [] := by
  refine List.filter_eq_nil_iff.2 fun currency member => ?_
  rw [← isSome_currency?, knows currency member]
  simp

theorem addCurrencies_of_knows {file : ConfigFile} {store : Store}
    (reached : store.outOfReach = []) (knows : Knows file store) :
    addCurrencies file store = .ok store := by
  unfold addCurrencies Store.listCurrencies
  rw [Store.reach_of_outOfReach reached]
  simp only [bind, Except.bind, newCurrencies_eq_nil knows]
  rfl

/-- Currencies that are added are the only change. -/
theorem addCurrencies_eq_ok {file : ConfigFile} {store after : Store}
    (h : addCurrencies file store = .ok after) :
    store.reaches [.currencies] = true ∧ Knows file after ∧
      ∃ currencies, after = { store with currencies } := by
  obtain ⟨known, listed, h⟩ := Outcome.bind_eq_ok.1 h
  obtain ⟨u, reached, listed⟩ := Outcome.bind_eq_ok.1 listed
  cases listed
  refine ⟨Store.reach_eq_ok.1 reached, fun currency member => ?_, Store.storeRates_eq_ok h⟩
  refine Store.isSome_currency?_storeRates h ?_
  cases found : (store.currency? currency.id).isSome with
  | true => exact Or.inl rfl
  | false =>
    refine Or.inr ⟨currency, List.mem_filter.2 ⟨member, ?_⟩, rfl⟩
    rw [← isSome_currency?, found]
    rfl

/-! ## Homes -/

variable {home after : Home} {configuration : Configuration}

theorem reportTimeout_pos (h : home.configuration = .ok configuration) :
    0 < configuration.file.reportTimeout := by
  unfold Home.configuration at h
  split at h
  · cases h
  · split at h
    · cases h
    · next text _ =>
      cases read : ConfigFile.ofText (home.pathOf configName) text with
      | error fault => simp [read, bind, Except.bind] at h
      | ok file =>
        simp only [read, bind, Except.bind] at h
        obtain ⟨rfl, positive⟩ := ConfigFile.check_eq_ok h
        have := positive ("report_timeout_secs", configuration.file.reportTimeout)
          (by simp [ConfigFile.positiveSettings])
        exact Int.natCast_pos.1 this

/-- The home can be opened, and opening it changes nothing. -/
structure Opened (configuration : Configuration) (home : Home) : Prop where
  configured : home.configuration = .ok configuration
  current : ∃ file store, home.database = .file file ∧
    file.version = .ok DatabaseFile.currentVersion ∧ file.tables = some store
  knows : Knows configuration.file home.store

/-- Of two sets of tables that are put into a home one after the other the second stays. -/
theorem withStore_withStore (home : Home) (first second : Store) :
    (home.withStore first).withStore second = home.withStore second := by
  obtain ⟨path, isPresent, config, database⟩ := home
  cases database with
  | file file =>
    obtain ⟨versions, tables⟩ := file
    cases tables <;> rfl
  | _ => rfl

namespace Opened

variable (opened : home.Opened configuration)

include opened

/-- The tables of the home are those that are put into it. -/
theorem store_withStore (store : Store) : (home.withStore store).store = store := by
  obtain ⟨file, old, isFile, -, tables⟩ := opened.current
  simp only [Home.withStore, Home.store, isFile, DatabaseFile.withStore, DatabaseFile.store, tables,
    Option.map_some, Option.getD_some]

theorem withStore_store : home.withStore home.store = home := by
  obtain ⟨file, old, isFile, -, tables⟩ := opened.current
  obtain ⟨path, isPresent, config, database⟩ := home
  cases isFile
  simp only [Home.withStore, Home.store, DatabaseFile.withStore, DatabaseFile.store, tables,
    Option.map_some, Option.getD_some]
  rw [← tables]

/-- Tables that know the configured currencies leave the home open. -/
theorem withStore {store : Store} (knows : Knows configuration.file store) :
    (home.withStore store).Opened configuration := by
  have isStore := opened.store_withStore store
  obtain ⟨file, old, isFile, current, tables⟩ := opened.current
  have changed : home.withStore store =
      { home with database := .file (file.withStore store) } := by
    simp only [Home.withStore, isFile]
  have configured := opened.configured
  refine ⟨?_, ⟨file.withStore store, store, by rw [changed], current, ?_⟩, ?_⟩
  · rw [changed]
    exact configured
  · simp only [DatabaseFile.withStore, tables, Option.map_some]
  · rw [isStore]
    exact knows

theorem load (reached : home.store.outOfReach = []) :
    home.load = (.ok configuration, home) := by
  obtain ⟨file, store, isFile, current, -⟩ := opened.current
  have entry : home.database.load (home.pathOf databaseName) = .ok file := by
    rw [isFile]
    exact DatabaseEntry.load_of_current current
  have same : { home with database := .file file } = home := by
    rw [← isFile]
  unfold Home.load
  simp only [opened.configured, entry, same, addCurrencies_of_knows reached opened.knows]
  exact congrArg (Prod.mk _) opened.withStore_store

end Opened

/-- What becomes of a home when it is opened: nothing, or its tables are brought up to date and the
configured currencies are added, perhaps in vain. -/
theorem load_cases (home : Home) :
    (∃ e, home.load = (.error e, home)) ∨
    ∃ configuration file, home.configuration = .ok configuration ∧
      home.database.load (home.pathOf databaseName) = .ok file ∧
      ((∃ e, addCurrencies configuration.file file.store = .error e ∧
        home.load = (.error e, { home with database := .file file })) ∨
      ∃ store, addCurrencies configuration.file file.store = .ok store ∧
        home.load =
          (.ok configuration, { home with database := .file (file.withStore store) })) := by
  unfold load
  cases configured : home.configuration with
  | error fault => exact Or.inl ⟨_, rfl⟩
  | ok configuration =>
    cases entry : home.database.load (home.pathOf databaseName) with
    | error fault => exact Or.inl ⟨_, rfl⟩
    | ok file =>
      refine Or.inr ⟨configuration, file, rfl, rfl, ?_⟩
      cases added : addCurrencies configuration.file file.store with
      | error e =>
        refine Or.inl ⟨e, rfl, ?_⟩
        simp only [show (Home.store { home with database := .file file }) = file.store from rfl,
          added]
        rfl
      | ok store =>
        refine Or.inr ⟨store, rfl, ?_⟩
        simp only [show (Home.store { home with database := .file file }) = file.store from rfl,
          added]
        rfl

theorem opened_of_load (h : home.load = (.ok configuration, after)) :
    after.Opened configuration := by
  rcases home.load_cases with ⟨e, failed⟩ | ⟨configuration', file, configured, entry,
    ⟨e, -, failed⟩ | ⟨store, added, opened⟩⟩
  · rw [failed] at h
    cases h
  · rw [failed] at h
    cases h
  · rw [opened] at h
    cases h
    obtain ⟨reached, knows, -⟩ := addCurrencies_eq_ok added
    have tables := DatabaseFile.tables_of_reaches reached
    have current : file.version = .ok DatabaseFile.currentVersion :=
      DatabaseEntry.version_of_load entry
    refine ⟨configured, ⟨file.withStore store, store, rfl, current, ?_⟩, ?_⟩
    · simp only [DatabaseFile.withStore, tables, Option.map_some]
    · show Knows _ (file.withStore store).store
      rw [DatabaseFile.store_withStore tables]
      exact knows

/-- Opening a home again fails in the same way, and changes nothing more. -/
theorem load_of_error {e : Error} (h : home.load = (.error e, after)) :
    after.load = (.error e, after) := by
  rcases home.load_cases with ⟨e', failed⟩ | ⟨configuration, file, configured, entry,
    ⟨e', refused, failed⟩ | ⟨store, -, opened⟩⟩
  · rw [failed] at h
    cases h
    exact failed
  · rw [failed] at h
    cases h
    have again : DatabaseEntry.load (home.pathOf databaseName) (.file file) = .ok file :=
      DatabaseEntry.load_of_current (DatabaseEntry.version_of_load entry)
    have configured' : Home.configuration { home with database := .file file } =
      .ok configuration := configured
    unfold load
    simp only [configured']
    rw [show (Home.pathOf { home with database := .file file } databaseName) =
      home.pathOf databaseName from rfl, again]
    simp only [show (Home.store { home with database := .file file }) = file.store from rfl,
      refused]
    rfl
  · rw [opened] at h
    cases h

/-- Opening a home changes nothing that users have in it. -/
theorem sameHoldings_load (home : Home) : Store.SameHoldings home.store home.load.2.store := by
  rcases home.load_cases with ⟨e, failed⟩ | ⟨configuration, file, -, entry,
    ⟨e, -, failed⟩ | ⟨store, added, opened⟩⟩
  · rw [failed]
    exact ⟨rfl, rfl, rfl, rfl⟩
  · rw [failed]
    exact DatabaseEntry.sameHoldings_of_load entry
  · obtain ⟨reached, -, currencies, rfl⟩ := addCurrencies_eq_ok added
    have tables := DatabaseFile.tables_of_reaches reached
    have same : Store.SameHoldings home.store file.store := DatabaseEntry.sameHoldings_of_load entry
    rw [opened]
    show Store.SameHoldings home.store (file.withStore _).store
    rw [DatabaseFile.store_withStore tables]
    exact ⟨same.users, same.categories, same.expenses, same.cachedReports⟩

/-- Where the tables can be reached, opening the home may add currencies to them. -/
theorem exists_currencies_load (reached : home.store.outOfReach = []) :
    ∃ currencies, home.load.2.store = { home.store with currencies } := by
  rcases home.load_cases with ⟨e, failed⟩ | ⟨configuration, file, -, entry,
    ⟨e, -, failed⟩ | ⟨store, added, opened⟩⟩
  · rw [failed]
    exact ⟨_, rfl⟩
  · rw [failed]
    exact ⟨_, DatabaseEntry.store_of_load entry reached⟩
  · obtain ⟨reaches, -, currencies, rfl⟩ := addCurrencies_eq_ok added
    rw [opened, ← DatabaseEntry.store_of_load entry reached]
    exact ⟨currencies, DatabaseFile.store_withStore (DatabaseFile.tables_of_reaches reaches) _⟩

/-- A home of which the database is not open in time is left as it is. -/
theorem load_late (home : Home) : ∃ e, home.load false = (.error e, home) := by
  unfold load
  cases home.configuration with
  | error fault => exact ⟨_, rfl⟩
  | ok configuration => cases found : home.database <;> exact ⟨_, rfl⟩

/-- Which error that is does not depend on what is in the database. -/
theorem load_late_file {file : DatabaseFile} (found : home.database = .file file)
    (content : DatabaseFile) :
    (load { home with database := .file content } false).1 = (home.load false).1 := by
  have same : Home.configuration { home with database := .file content } = home.configuration := rfl
  unfold load
  simp only [same, found]
  cases home.configuration <;> rfl

theorem load_late_withStore (home : Home) (store : Store) :
    ((home.withStore store).load false).1 = (home.load false).1 := by
  unfold withStore
  split
  · next found => exact load_late_file found _
  · rfl

theorem load_late_load (home : Home) : (home.load.2.load false).1 = (home.load false).1 := by
  rcases home.load_cases with ⟨e, failed⟩ | ⟨configuration, file, -, entry, loaded⟩
  · rw [failed]
  · obtain ⟨_, -, found, -, -⟩ := DatabaseEntry.load_eq_ok entry
    rcases loaded with ⟨e, -, failed⟩ | ⟨store, -, opened⟩
    · rw [failed]
      exact load_late_file found _
    · rw [opened]
      exact load_late_file found _

/-- A home that is made is made in time, and has a new database with the configured currencies in its
tables. -/
theorem create_eq_ok {file : ConfigFile} {inTime : Bool}
    (h : home.create file inTime = (.ok configuration, after)) :
    inTime = true ∧ after.isPresent = true ∧ ∃ store, Store.storeRates {} file.seed = .ok store ∧
      after.database = .file { versions := some [1], tables := some store } := by
  unfold create at h
  cases checked : file.check with
  | error fault =>
    rw [checked] at h
    cases h
  | ok configuration' =>
    simp only [checked] at h
    split at h
    · cases h
    · split at h
      · cases h
      · next content made =>
        obtain ⟨inTime, rfl⟩ := DatabaseEntry.create_eq_ok made
        have fresh : Home.store { home with
            isPresent := true, config := some file.toText
            database := .file { versions := some [1], tables := some {} } } = {} := rfl
        simp only [withConfig, fresh] at h
        cases stored : Store.storeRates {} file.seed with
        | error e =>
          rw [stored] at h
          cases h
        | ok store =>
          rw [stored] at h
          cases h
          exact ⟨inTime, rfl, store, rfl, rfl⟩

/-- A home that is made has no more in its tables than currencies. -/
theorem store_of_create {file : ConfigFile} {inTime : Bool}
    (h : home.create file inTime = (.ok configuration, after)) :
    ∃ currencies, after.store = { currencies } := by
  obtain ⟨-, -, store, stored, made⟩ := create_eq_ok h
  unfold Home.store
  rw [made]
  exact Store.storeRates_eq_ok stored

end Home
end ExpenseLedger
