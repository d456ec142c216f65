import ExpenseLedger.Proofs.Home.Opening
import ExpenseLedger.Proofs.Report.Upkeep

/-!
# The life of a home

A home is made from a configuration. From then on its configuration is edited, it is opened, rates are
stored, and its tables are used for much else that leaves the currencies alone; processes do nothing else
to it (`Machine.lived_run`). All along its tables are at hand, ids and codes belong to one currency
each, and every rate has passed the test that it has to pass to be stored (`Home.Lived.intact`).
-/

namespace ExpenseLedger

/-- The rate can be stored. -/
def Currency.Storable (currency : Currency) : Prop :=
  currency.rate.isFinite = true ∧ currency.rate.isPositive = true

namespace Store

/-- The currencies are the same in both, and so is what is out of reach. -/
structure SameCurrencies (store after : Store) : Prop where
  currencies : after.currencies = store.currencies
  outOfReach : after.outOfReach = store.outOfReach

/-- The currency table is at hand, ids and codes belong to one currency each, and all rates can be
stored. -/
structure CurrenciesIntact (store : Store) : Prop where
  reached : store.outOfReach = []
  distinct : store.DistinctCurrencies
  storable : ∀ currency ∈ store.currencies, currency.Storable

namespace CurrenciesIntact

variable {store after : Store} (intact : store.CurrenciesIntact)

include intact

theorem of_same (same : store.SameCurrencies after) : after.CurrenciesIntact where
  reached := same.outOfReach.trans intact.reached
  distinct :=
    { ids := same.currencies ▸ intact.distinct.ids
      codes := same.currencies ▸ intact.distinct.codes }
  storable := same.currencies ▸ intact.storable

theorem putCurrency {currency : Currency} (admits : store.Admits currency) :
    (store.putCurrency currency).CurrenciesIntact where
  reached := intact.reached
  distinct := intact.distinct.putCurrency admits.free
  storable := by
    intro row member
    rcases Rows.mem_put member with rfl | old
    · exact ⟨admits.finite, admits.positive⟩
    · exact intact.storable row old

theorem storeRates {batch : List Currency} (h : store.storeRates batch = .ok after) :
    after.CurrenciesIntact := by
  induction batch generalizing store with
  | nil =>
    cases h
    exact intact
  | cons first rest ih =>
    obtain ⟨admits, h⟩ := storeRates_cons.1 h
    exact ih (intact.putCurrency admits) h

end CurrenciesIntact

theorem currenciesIntact_of_empty {store : Store} (reached : store.outOfReach = [])
    (none : store.currencies = []) : store.CurrenciesIntact where
  reached := reached
  distinct :=
    { ids := none ▸ List.Pairwise.nil
      codes := by simp [none] }
  storable := by simp [none]

end Store

namespace Home

/-- A home at some time of its life, by what has been done to it since it was made. -/
inductive Lived : Home → Prop
  | made {home after : Home} {file : ConfigFile} {configuration : Configuration}
      (h : home.create file = (.ok configuration, after)) : Lived after
  | edited {home : Home} (lived : Lived home) (text : Option String) :
      Lived (home.withConfig text)
  | opened {home : Home} (lived : Lived home) : Lived home.load.2
  | stored {home : Home} {batch : List Currency} {store : Store} (lived : Lived home)
      (h : home.store.storeRates batch = .ok store) : Lived (home.withStore store)
  | used {home : Home} {store : Store} (lived : Lived home)
      (same : home.store.SameCurrencies store) : Lived (home.withStore store)

/-- The home is there and has tables, and their currencies are intact. -/
structure Intact (home : Home) : Prop where
  present : home.isPresent = true
  tables : ∃ file store, home.database = .file file ∧ file.tables = some store
  currencies : home.store.CurrenciesIntact

variable {home after : Home} {configuration : Configuration}

theorem Intact.store_withStore (intact : home.Intact) (store : Store) :
    (home.withStore store).store = store := by
  obtain ⟨file, old, isFile, tables⟩ := intact.tables
  have changed : home.withStore store = { home with database := .file (file.withStore store) } := by
    simp only [Home.withStore, isFile]
  rw [changed]
  exact DatabaseFile.store_withStore tables store

/-- Tables of which the currencies are intact go into the place of the old ones. -/
theorem Intact.withStore (intact : home.Intact) {store : Store}
    (currencies : store.CurrenciesIntact) : (home.withStore store).Intact := by
  obtain ⟨file, old, isFile, tables⟩ := intact.tables
  have currencies : (home.withStore store).store.CurrenciesIntact :=
    (intact.store_withStore store).symm ▸ currencies
  refine ⟨?_, ⟨file.withStore store, store, ?_, ?_⟩, currencies⟩
  · simp only [Home.withStore, isFile, intact.present]
  · simp only [Home.withStore, isFile]
  · simp only [DatabaseFile.withStore, tables, Option.map_some]

theorem Intact.withDatabase (intact : home.Intact) {path : String} {file : DatabaseFile}
    (entry : home.database.load path = .ok file) :
    Intact { home with database := .file file } := by
  have same : file.store = home.store :=
    DatabaseEntry.store_of_load entry intact.currencies.reached
  have currencies : file.store.CurrenciesIntact := same ▸ intact.currencies
  have tables := DatabaseFile.tables_of_reaches
    (Store.reaches_of_outOfReach currencies.reached [.currencies])
  exact ⟨intact.present, ⟨file, file.store, rfl, tables⟩, currencies⟩

theorem addCurrencies_storeRates {file : ConfigFile} {store after : Store}
    (h : addCurrencies file store = .ok after) :
    store.storeRates (newCurrencies file store.currencies) = .ok after := by
  obtain ⟨known, listed, stored⟩ := Outcome.bind_eq_ok.1 h
  obtain ⟨-, -, listed⟩ := Outcome.bind_eq_ok.1 listed
  cases listed
  exact stored

/-- Opening a home that is intact leaves its tables as they are, or adds currencies to them. -/
theorem Intact.load_cases (intact : home.Intact) :
    (∃ e, home.load.1 = .error e ∧ home.load.2.store = home.store ∧ home.load.2.Intact) ∨
      ∃ configuration, home.configuration = .ok configuration ∧
        home.load.1 = .ok configuration ∧
        addCurrencies configuration.file home.store = .ok home.load.2.store ∧
        home.load.2.Intact := by
  rcases home.load_cases with ⟨e, failed⟩ | ⟨configuration, file, configured, entry,
    ⟨e, -, failed⟩ | ⟨store, added, opened⟩⟩
  · rw [failed]
    exact Or.inl ⟨e, rfl, rfl, intact⟩
  · rw [failed]
    have same := DatabaseEntry.store_of_load entry intact.currencies.reached
    exact Or.inl ⟨e, rfl, same, intact.withDatabase entry⟩
  · rw [opened]
    have upToDate := intact.withDatabase entry
    have currencies := upToDate.currencies.storeRates (addCurrencies_storeRates added)
    have after := upToDate.withStore currencies
    refine Or.inr ⟨configuration, configured, rfl, ?_, after⟩
    obtain ⟨reached, -⟩ := addCurrencies_eq_ok added
    show addCurrencies configuration.file home.store = .ok (file.withStore store).store
    rw [DatabaseFile.store_withStore (DatabaseFile.tables_of_reaches reached),
      ← DatabaseEntry.store_of_load entry intact.currencies.reached]
    exact added

theorem Intact.load (intact : home.Intact) : home.load.2.Intact := by
  rcases intact.load_cases with ⟨e, -, -, after⟩ | ⟨configuration, -, -, -, after⟩ <;> exact after

theorem Lived.intact (lived : home.Lived) : home.Intact := by
  induction lived with
  | made h =>
    obtain ⟨-, present, store, stored, made⟩ := create_eq_ok h
    refine ⟨present, ⟨_, store, made, rfl⟩, ?_⟩
    unfold Home.store
    rw [made]
    exact (Store.currenciesIntact_of_empty rfl rfl).storeRates stored
  | edited lived text ih => exact ⟨rfl, ih.tables, ih.currencies⟩
  | opened lived ih => exact ih.load
  | stored lived h ih => exact ih.withStore (ih.currencies.storeRates h)
  | used lived same ih => exact ih.withStore (ih.currencies.of_same same)

theorem Lived.refreshed (lived : home.Lived) {url : Url} {codes : List String} {peer : Http.Peer}
    {count : Nat} {store : Store}
    (h : (ExchangeRates.refresh url codes peer home.store).1 = .ok (count, store)) :
    (home.withStore store).Lived := by
  obtain ⟨batch, stored⟩ := ExchangeRates.exists_batch h
  exact .stored lived stored

/-- A home that is made with the standard configuration. -/
def standard : Home :=
  (Home.create {} { path := "home" }).2

theorem lived_standard : standard.Lived := by
  have made : (Home.create {} { path := "home" }).1.isOk = true := by decide +kernel
  unfold standard
  cases created : Home.create {} { path := "home" } with
  | mk result after =>
    rw [created] at made
    cases result with
    | ok configuration => exact .made created
    | error e => cases made

end Home
end ExpenseLedger
