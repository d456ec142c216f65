import ExpenseLedger.Proofs.Home.Lived

/-!
# Currencies of a home

The currencies of a home come from its configuration and from the exchange rate service. Opening the
home goes by ids: a configured currency is added under the place of its code, and where that id is
taken the row stays, whatever its code is. So the table agrees with the configuration exactly if no id
was taken by a currency of another code (`opening_fills_free_places`), and a configured code is left
out if its place was taken and the table did not have it anyway.
-/

namespace ExpenseLedger

/-! ## The currencies of a configuration -/

namespace ConfigFile

variable {file : ConfigFile} {configuration : Configuration}

theorem mem_seed {row : Currency} :
    row ∈ file.seed ↔ ∃ place : Nat, file.currencies[place]? = some row.code ∧ row.id = place ∧
      row.rate = Binary64.one := by
  unfold seed
  rw [List.mem_map]
  constructor
  · rintro ⟨⟨code, place⟩, member, rfl⟩
    exact ⟨place, List.mem_zipIdx_iff_getElem?.1 member, rfl, rfl⟩
  · rintro ⟨place, atPlace, id, rate⟩
    refine ⟨(row.code, place), List.mem_zipIdx_iff_getElem?.2 atPlace, ?_⟩
    cases row
    cases id
    cases rate
    rfl

theorem pairwise_seed (file : ConfigFile) : file.seed.Pairwise fun a b => a.id ≠ b.id := by
  unfold seed
  rw [List.pairwise_map]
  refine (List.pairwise_iff_getElem.2 fun i j hi hj less => ?_)
  rw [List.getElem_zipIdx, List.getElem_zipIdx]
  simp only
  omega

theorem firstRepeated?_eq_none {seen codes : List String} (h : firstRepeated? seen codes = none) :
    codes.Nodup ∧ ∀ code ∈ codes, code ∉ seen := by
  induction codes generalizing seen with
  | nil => exact ⟨List.nodup_nil, nofun⟩
  | cons code codes ih =>
    unfold firstRepeated? at h
    split at h
    · cases h
    · next new =>
      obtain ⟨distinct, unseen⟩ := ih h
      have first : code ∉ seen := fun member => new (List.contains_iff_mem.2 member)
      refine ⟨List.nodup_cons.2 ⟨fun again => ?_, distinct⟩, ?_⟩
      · exact unseen code again List.mem_cons_self
      · intro other member
        rcases List.mem_cons.1 member with rfl | later
        · exact first
        · exact fun inSeen => unseen other later (List.mem_cons_of_mem _ inSeen)

/-- Configured codes are there once. -/
theorem nodup_of_check (h : file.check = .ok configuration) : file.currencies.Nodup := by
  obtain ⟨u, checked, -⟩ := except_bind_eq_ok.1 h
  unfold checkCurrencies at checked
  split at checked
  · cases checked
  · next first rest listed =>
    split at checked
    · cases checked
    · next distinct =>
      rw [listed] at distinct ⊢
      exact (firstRepeated?_eq_none distinct).1

end ConfigFile

theorem Home.nodup_currencies {home : Home} {configuration : Configuration}
    (h : home.configuration = .ok configuration) : configuration.file.currencies.Nodup := by
  unfold Home.configuration at h
  split at h
  · cases h
  · split at h
    · cases h
    · obtain ⟨file, -, checked⟩ := except_bind_eq_ok.1 h
      obtain ⟨rfl, -⟩ := ConfigFile.check_eq_ok checked
      exact ConfigFile.nodup_of_check checked

/-! ## Adding currencies -/

/-- The rows that were there have stayed, each free place of the list has got its code at rate 1, and
no other id has a row. -/
structure Store.FilledFrom (codes : List String) (store after : Store) : Prop where
  kept : ∀ (id : Int) (row : Currency), store.currency? id = some row →
    after.currency? id = some row
  added : ∀ (place : Nat) (code : String), codes[place]? = some code →
    store.currency? place = none → after.currency? place = some ⟨place, code, Binary64.one⟩
  others : ∀ id : Int, store.currency? id = none →
    (∀ place : Nat, place < codes.length → id ≠ place) → after.currency? id = none
  elsewhere : after = { store with currencies := after.currencies }
  distinct : after.DistinctCurrencies

namespace Home

variable {file : ConfigFile} {store after : Store}

theorem mem_newCurrencies {row : Currency} : row ∈ newCurrencies file store.currencies ↔
    row ∈ file.seed ∧ store.currency? row.id = none := by
  unfold newCurrencies
  rw [List.mem_filter, ← isSome_currency?]
  simp

theorem filledFrom_addCurrencies (distinct : store.DistinctCurrencies)
    (h : addCurrencies file store = .ok after) : store.FilledFrom file.currencies after := by
  have stored := addCurrencies_storeRates h
  have apart : (newCurrencies file store.currencies).Pairwise fun a b => a.id ≠ b.id :=
    file.pairwise_seed.filter _
  have untouched {id : Int} (none : ∀ row ∈ newCurrencies file store.currencies, row.id ≠ id) :=
    Store.currency?_storeRates_of_notMem stored none
  constructor
  case kept =>
    intro id row found
    refine (untouched fun other new same => ?_).trans found
    rw [← same, (mem_newCurrencies.1 new).2] at found
    cases found
  case added =>
    intro place code atPlace free
    have member : (⟨place, code, Binary64.one⟩ : Currency) ∈
        newCurrencies file store.currencies :=
      mem_newCurrencies.2 ⟨ConfigFile.mem_seed.2 ⟨place, atPlace, rfl, rfl⟩, free⟩
    exact Store.currency?_storeRates_of_mem stored apart member
  case others =>
    intro id free notPlace
    refine (untouched fun other new same => ?_).trans free
    obtain ⟨place, atPlace, isPlace, -⟩ := ConfigFile.mem_seed.1 (mem_newCurrencies.1 new).1
    obtain ⟨less, -⟩ := List.getElem?_eq_some_iff.1 atPlace
    exact notPlace place less (same.symm.trans isPlace)
  case elsewhere =>
    obtain ⟨currencies, rfl⟩ := Store.storeRates_eq_ok stored
    rfl
  case distinct => exact distinct.storeRates stored

end Home

namespace Store.FilledFrom

variable {codes : List String} {store after : Store} (filled : store.FilledFrom codes after)

include filled

/-- The row of a place has the code of the place unless the place was taken by another code. -/
theorem exists_place {place : Nat} {code : String} (atPlace : codes[place]? = some code) :
    ∃ row, after.currency? place = some row ∧
      (row.code = code ↔ ∀ old, store.currency? place = some old → old.code = code) := by
  cases found : store.currency? (place : Int) with
  | none =>
    refine ⟨_, filled.added place code atPlace found, iff_of_true rfl fun old isOld => ?_⟩
    cases isOld
  | some old =>
    refine ⟨old, filled.kept place old found, fun same old' isOld => ?_, fun same => same old rfl⟩
    cases isOld
    exact same

/-- A code of the list is in the table if its place was free, or if it was there before. -/
theorem exists_code_iff (before : store.DistinctCurrencies) (distinct : codes.Nodup) {place : Nat}
    {code : String} (atPlace : codes[place]? = some code) :
    (∃ row ∈ after.currencies, row.code = code) ↔
      store.currency? place = none ∨ ∃ old ∈ store.currencies, old.code = code := by
  constructor
  · rintro ⟨row, member, same⟩
    have inTable : after.currency? row.id = some row := filled.distinct.ids.get?_of_mem member
    cases found : store.currency? row.id with
    | some old =>
      obtain rfl : old = row := Option.some.inj ((filled.kept row.id old found).symm.trans inTable)
      exact Or.inr ⟨old, (Rows.get?_eq_some found).1, same⟩
    | none =>
      -- A row that was not there is in a place of the list, and no other place has its code.
      by_cases isPlace : ∃ place' : Nat, place' < codes.length ∧ row.id = place'
      · obtain ⟨place', less, id⟩ := isPlace
        have atPlace' := List.getElem?_eq_getElem less
        rw [id] at found inTable
        have added := (filled.added place' codes[place'] atPlace' found).symm.trans inTable
        obtain rfl := Option.some.inj added
        rw [← same] at atPlace
        rw [(List.getElem?_inj less distinct).1 (atPlace'.trans atPlace.symm)] at found
        exact Or.inl found
      · have none := filled.others row.id found fun place' less same' => isPlace ⟨place', less, same'⟩
        rw [inTable] at none
        cases none
  · rintro (free | ⟨old, member, same⟩)
    · obtain ⟨member, -⟩ := Rows.get?_eq_some (filled.added place code atPlace free)
      exact ⟨_, member, rfl⟩
    · have stays := filled.kept old.id old (before.ids.get?_of_mem member)
      exact ⟨old, (Rows.get?_eq_some stays).1, same⟩

end Store.FilledFrom

/-! ## Choosing a configured currency -/

/-- A user can choose each code that is in the table, and no other. -/
theorem Books.exists_changeCurrency_iff {books : Books} {user : Int} {row : User}
    (reached : books.store.outOfReach = []) (found : books.store.user? user = some row)
    (code : String) :
    (∃ currency after, books.changeCurrency user code = .ok (currency, after) ∧
        currency.code = code) ↔ ∃ currency ∈ books.store.currencies, currency.code = code := by
  have reach := Store.reach_of_outOfReach reached
  constructor
  · rintro ⟨currency, after, h, same⟩
    obtain ⟨currency', read, h⟩ := Outcome.bind_eq_ok.1 h
    obtain ⟨changed, -, h⟩ := Outcome.bind_eq_ok.1 h
    cases h
    unfold Store.currencyOfCode at read
    simp only [reach, bind, Except.bind] at read
    split at read
    · next found =>
      cases read
      exact ⟨currency, List.mem_of_find?_eq_some found, same⟩
    · cases read
  · rintro ⟨other, member, same⟩
    have isSome : (books.store.currencies.find? fun row => row.code = code).isSome = true :=
      List.find?_isSome.2 ⟨other, member, decide_eq_true same⟩
    obtain ⟨currency, first⟩ := Option.isSome_iff_exists.1 isSome
    have held : (books.store.currency? currency.id).isSome = true := by
      rw [Home.isSome_currency?, List.any_eq_true]
      exact ⟨currency, List.mem_of_find?_eq_some first, decide_eq_true rfl⟩
    obtain ⟨target, held⟩ := Option.isSome_iff_exists.1 held
    have read : books.store.currencyOfCode code = .ok currency := by
      unfold Store.currencyOfCode
      simp only [reach, bind, Except.bind, first]
    have set : books.store.setCurrency user currency.id =
        .ok (books.store.putUser { row with currency := currency.id }) := by
      unfold Store.setCurrency Store.changeUser
      simp only [reach, bind, Except.bind, found, held]
    have hasCode : currency.code = code := by simpa using List.find?_some first
    have changed : books.changeCurrency user code = .ok (currency, Books.invalidate { books with
        store := books.store.putUser { row with currency := currency.id } } user) := by
      unfold Books.changeCurrency Books.withStore
      simp only [read, set, bind, Except.bind]
    exact ⟨currency, _, changed, hasCode⟩

/-- Opening a home fills the free places of the configured codes and leaves every row as it was. So the
row of a place has the code of the place exactly if no other code had taken it, and a configured code can
be chosen exactly if its place was free or the table had it anyway. -/
theorem opening_fills_free_places {home after : Home} {configuration : Configuration}
    (lived : home.Lived) (h : home.load = (.ok configuration, after)) :
    let codes := configuration.file.currencies
    home.store.FilledFrom codes after.store ∧
      ∀ (place : Nat) (code : String), codes[place]? = some code →
        (∃ row, after.store.currency? place = some row ∧
          (row.code = code ↔ ∀ old, home.store.currency? place = some old → old.code = code)) ∧
        ∀ (books : Books) (user : Int) (row : User), books.store = after.store →
          books.store.user? user = some row →
          ((∃ currency changed, books.changeCurrency user code = .ok (currency, changed) ∧
              currency.code = code) ↔
            home.store.currency? place = none ∨ ∃ old ∈ home.store.currencies, old.code = code) := by
  intro codes
  obtain ⟨e, failed, -⟩ | ⟨configuration', configured, opened, added, intact⟩ :=
    lived.intact.load_cases
  · rw [h] at failed
    cases failed
  · rw [h] at opened added intact
    cases opened
    have filled := Home.filledFrom_addCurrencies lived.intact.currencies.distinct added
    refine ⟨filled, fun place code atPlace => ⟨filled.exists_place atPlace, ?_⟩⟩
    intro books user row same found
    rw [Books.exists_changeCurrency_iff (same ▸ intact.currencies.reached) found, same]
    exact filled.exists_code_iff lived.intact.currencies.distinct
      (Home.nodup_currencies configured) atPlace

/-- A home with the standard configuration, which then gets other currencies. -/
def editedHome (codes : String) : Home :=
  Home.standard.withConfig (some
    ("\x7b\"app_name\":\"spendbook\",\"config_version\":1,\"currencies\":[" ++ codes ++ "]\x7d"))

theorem lived_editedHome (codes : String) : (editedHome codes).Lived :=
  .edited Home.lived_standard _

/-- A code that is put behind the others is added, and the others keep their places. -/
theorem opening_fills_free_places_appended :
    let home := editedHome "\"RUB\",\"USD\",\"EUR\",\"CNY\",\"GBP\""
    home.Lived ∧ ∃ configuration after, home.load = (.ok configuration, after) ∧
      configuration.file.currencies[4]? = some "GBP" ∧
      home.store.FilledFrom configuration.file.currencies after.store ∧
      after.store.currency? 4 = some ⟨4, "GBP", Binary64.one⟩ := by
  intro home
  have lived := lived_editedHome "\"RUB\",\"USD\",\"EUR\",\"CNY\",\"GBP\""
  have loads : home.load.1.toOption.map (fun configuration => configuration.file.currencies[4]?) =
      some (some "GBP") := by decide +kernel
  have free : home.store.currency? 4 = none := by decide +kernel
  refine ⟨lived, ?_⟩
  cases loaded : home.load with
  | mk result after =>
    rw [loaded] at loads
    cases result with
    | error e => cases loads
    | ok configuration =>
      have atPlace : configuration.file.currencies[4]? = some "GBP" := Option.some.inj loads
      obtain ⟨filled, -⟩ := opening_fills_free_places lived loaded
      exact ⟨configuration, after, rfl, atPlace, filled, filled.added 4 "GBP" atPlace free⟩

/-- A code that is put into the place of another is left out, and nobody can choose it. -/
theorem opening_leaves_renamed :
    let home := (editedHome "\"RUB\",\"GBP\"").load
    let books : Books :=
      { store := { home.2.store with users := [⟨1, 0, 1000000, 1000000⟩] }, cache := .shared }
    home.1.toOption.map (fun configuration => configuration.file.currencies) = some ["RUB", "GBP"] ∧
      home.2.store.currencies.map Currency.code = ["RUB", "USD", "EUR", "CNY"] ∧
      (books.changeCurrency 1 "GBP").toOption = none := by
  decide +kernel

end ExpenseLedger
