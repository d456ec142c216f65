import ExpenseLedger.Home.Directory
import ExpenseLedger.Proofs.Rows
import ExpenseLedger.Proofs.Store.Statements

/-!
# Batches of rates

A batch of currencies is stored row by row. `Store.Admits` says when the table takes the next row,
`storeRate_iff` what becomes of the table, and `storeRates_cons` follows the batch from there: a row that is
not admitted undoes all that came before it, and a batch that was stored once is in the table and can be
stored again.
-/

namespace ExpenseLedger
namespace Store

/-- Ids and codes belong to one currency each. -/
structure DistinctCurrencies (store : Store) : Prop where
  ids : Rows.Ascending Currency.id store.currencies
  codes : ∀ a ∈ store.currencies, ∀ b ∈ store.currencies, a.code = b.code → a.id = b.id

/-- The table takes a row: its rate is one to reckon with, and no other currency has its code. -/
structure Admits (store : Store) (currency : Currency) : Prop where
  finite : currency.rate.isFinite = true
  positive : currency.rate.isPositive = true
  reached : store.reaches [.currencies] = true
  free : ∀ other ∈ store.currencies, other.code = currency.code → other.id = currency.id

/-- The store with a row of a currency put in its place. -/
def putCurrency (store : Store) (currency : Currency) : Store :=
  { store with currencies := Rows.put Currency.id currency store.currencies }

variable {store after : Store} {currency : Currency} {batch : List Currency} {id : Int}

/-! ## One row -/

theorem codeTaken_eq_false : store.codeTaken currency = false ↔
    ∀ other ∈ store.currencies, other.code = currency.code → other.id = currency.id := by
  unfold codeTaken
  simp

/-- A row is stored exactly if the table takes it, and then it is put in its place. -/
theorem storeRate_iff :
    store.storeRate currency = .ok after ↔
      store.Admits currency ∧ after = store.putCurrency currency := by
  unfold storeRate
  by_cases usable : currency.rate.isFinite = true ∧ currency.rate.isPositive = true
  · rw [if_neg (not_not_intro usable), Outcome.bind_eq_ok]
    simp only [reach_eq_ok, exists_const]
    cases taken : store.codeTaken currency with
    | true =>
      have notFree : ¬store.Admits currency := fun admits => by
        rw [codeTaken_eq_false.2 admits.free] at taken
        cases taken
      simp [notFree]
    | false =>
      have free := codeTaken_eq_false.1 taken
      constructor
      · rintro ⟨reached, h⟩
        exact ⟨⟨usable.1, usable.2, reached, free⟩, (Except.ok.inj h).symm⟩
      · rintro ⟨admits, rfl⟩
        exact ⟨admits.reached, rfl⟩
  · have refused : ¬store.Admits currency := fun admits => usable ⟨admits.finite, admits.positive⟩
    rw [if_pos usable]
    simp [refused]

theorem currency?_putCurrency :
    (store.putCurrency currency).currency? id =
      if currency.id = id then some currency else store.currency? id :=
  Rows.get?_put

namespace DistinctCurrencies

variable (distinct : store.DistinctCurrencies)

include distinct

/-- A currency whose code no other one has takes the place of its id. -/
theorem putCurrency (free : ∀ other ∈ store.currencies, other.code = currency.code →
    other.id = currency.id) : (store.putCurrency currency).DistinctCurrencies where
  ids := distinct.ids.put Int.lt_trans fun different notLess => by omega
  codes := by
    intro a memberA b memberB same
    rcases Rows.mem_put memberA with rfl | oldA
    · rcases Rows.mem_put memberB with rfl | oldB
      · rfl
      · exact (free b oldB same.symm).symm
    · rcases Rows.mem_put memberB with rfl | oldB
      · exact free a oldA same
      · exact distinct.codes a oldA b oldB same

/-- Ids and codes stay distinct exactly if no other currency has the code. -/
theorem putCurrency_iff : (store.putCurrency currency).DistinctCurrencies ↔
    ∀ other ∈ store.currencies, other.code = currency.code → other.id = currency.id := by
  refine ⟨fun kept other member same => Decidable.byContradiction fun different => ?_,
    distinct.putCurrency⟩
  have isPut : (store.putCurrency currency).currency? currency.id = some currency :=
    currency?_putCurrency.trans (if_pos rfl)
  have stays : (store.putCurrency currency).currency? other.id = some other := by
    rw [currency?_putCurrency, if_neg fun equal => different equal.symm]
    exact distinct.ids.get?_of_mem member
  exact different (kept.codes other (Rows.get?_eq_some stays).1 currency
    (Rows.get?_eq_some isPut).1 same)

/-- A row that is in the table already is not put there anew. -/
theorem putCurrency_of_held (held : store.currency? currency.id = some currency) :
    store.putCurrency currency = store := by
  obtain ⟨member, -⟩ := Rows.get?_eq_some held
  have unchanged : Rows.put Currency.id currency store.currencies = store.currencies := by
    rw [distinct.ids.put_eq_map ⟨currency, member, rfl⟩]
    refine (List.map_congr_left fun old inTable => ?_).trans (List.map_id _)
    split
    · next same => exact (distinct.ids.eq_of_key_eq inTable member same).symm
    · rfl
  unfold Store.putCurrency
  rw [unchanged]

theorem admits_of_held (held : store.currency? currency.id = some currency)
    (reached : store.reaches [.currencies] = true) (finite : currency.rate.isFinite = true)
    (positive : currency.rate.isPositive = true) : store.Admits currency := by
  obtain ⟨member, -⟩ := Rows.get?_eq_some held
  exact ⟨finite, positive, reached, fun other inTable same =>
    distinct.codes other inTable currency member same⟩

end DistinctCurrencies

/-! ## A batch -/

theorem storeRates_cons {rest : List Currency} :
    store.storeRates (currency :: rest) = .ok after ↔
      store.Admits currency ∧ (store.putCurrency currency).storeRates rest = .ok after := by
  show (store.storeRate currency >>= fun middle => middle.storeRates rest) = .ok after ↔ _
  rw [Outcome.bind_eq_ok]
  simp only [storeRate_iff]
  constructor
  · rintro ⟨middle, ⟨admits, rfl⟩, h⟩
    exact ⟨admits, h⟩
  · rintro ⟨admits, h⟩
    exact ⟨_, ⟨admits, rfl⟩, h⟩

/-- Rates are stored in the currency table and nowhere else. -/
theorem storeRates_eq_ok (h : store.storeRates batch = .ok after) :
    ∃ currencies, after = { store with currencies } := by
  induction batch generalizing store with
  | nil =>
    cases h
    exact ⟨_, rfl⟩
  | cons currency rest ih =>
    obtain ⟨-, h⟩ := storeRates_cons.1 h
    obtain ⟨currencies, rfl⟩ := ih h
    exact ⟨currencies, rfl⟩

/-- The rows of a batch that was stored have rates to reckon with, and the table was at hand. -/
theorem usable_of_storeRates (h : store.storeRates batch = .ok after) :
    ∀ currency ∈ batch, currency.rate.isFinite = true ∧ currency.rate.isPositive = true ∧
      store.reaches [.currencies] = true := by
  induction batch generalizing store with
  | nil =>
    intro currency member
    cases member
  | cons first rest ih =>
    obtain ⟨admits, h⟩ := storeRates_cons.1 h
    intro currency member
    rcases List.mem_cons.1 member with rfl | later
    · exact ⟨admits.finite, admits.positive, admits.reached⟩
    · exact ih h currency later

theorem DistinctCurrencies.storeRates (distinct : store.DistinctCurrencies)
    (h : store.storeRates batch = .ok after) : after.DistinctCurrencies := by
  induction batch generalizing store with
  | nil =>
    cases h
    exact distinct
  | cons first rest ih =>
    obtain ⟨admits, h⟩ := storeRates_cons.1 h
    exact ih (distinct.putCurrency admits.free) h

theorem currency?_storeRates_of_notMem (h : store.storeRates batch = .ok after)
    (notIn : ∀ currency ∈ batch, currency.id ≠ id) : after.currency? id = store.currency? id := by
  induction batch generalizing store with
  | nil =>
    cases h
    rfl
  | cons first rest ih =>
    obtain ⟨-, h⟩ := storeRates_cons.1 h
    have other := notIn first List.mem_cons_self
    rw [ih h fun currency member => notIn currency (List.mem_cons_of_mem _ member),
      currency?_putCurrency, if_neg other]

/-- A row of the batch is found in the table: no later row of the batch takes its place. -/
theorem currency?_storeRates_of_mem (h : store.storeRates batch = .ok after)
    (apart : batch.Pairwise fun a b => a.id ≠ b.id) (member : currency ∈ batch) :
    after.currency? currency.id = some currency := by
  induction batch generalizing store with
  | nil => cases member
  | cons first rest ih =>
    obtain ⟨-, h⟩ := storeRates_cons.1 h
    obtain ⟨differ, apart⟩ := List.pairwise_cons.1 apart
    rcases List.mem_cons.1 member with rfl | later
    · rw [currency?_storeRates_of_notMem h fun other inRest => (differ other inRest).symm,
        currency?_putCurrency, if_pos rfl]
    · exact ih h apart later

/-- A batch whose rows are in the table changes nothing. -/
theorem DistinctCurrencies.storeRates_of_held (distinct : store.DistinctCurrencies)
    (held : ∀ currency ∈ batch, store.Admits currency ∧
      store.currency? currency.id = some currency) : store.storeRates batch = .ok store := by
  induction batch with
  | nil => rfl
  | cons first rest ih =>
    obtain ⟨admits, inTable⟩ := held first List.mem_cons_self
    refine storeRates_cons.2 ⟨admits, ?_⟩
    rw [distinct.putCurrency_of_held inTable]
    exact ih fun currency member => held currency (List.mem_cons_of_mem _ member)

theorem DistinctCurrencies.storeRates_again (distinct : store.DistinctCurrencies)
    (apart : batch.Pairwise fun a b => a.id ≠ b.id) (h : store.storeRates batch = .ok after) :
    after.storeRates batch = .ok after := by
  have distinctAfter := distinct.storeRates h
  refine distinctAfter.storeRates_of_held fun currency member => ?_
  have held := currency?_storeRates_of_mem h apart member
  obtain ⟨finite, positive, reached⟩ := usable_of_storeRates h currency member
  obtain ⟨currencies, rfl⟩ := storeRates_eq_ok h
  exact ⟨distinctAfter.admits_of_held held reached finite positive, held⟩

/-- A batch fails at the first row that the table does not take once it has taken all before. -/
theorem storeRates_eq_error_iff :
    (∃ e, store.storeRates batch = .error e) ↔
      ∃ written refused rest middle, batch = written ++ refused :: rest ∧
        store.storeRates written = .ok middle ∧ ¬middle.Admits refused := by
  induction batch generalizing store with
  | nil =>
    constructor
    · rintro ⟨e, h⟩
      cases h
    · rintro ⟨written, refused, rest, middle, isEmpty, -⟩
      cases written <;> cases isEmpty
  | cons first rest ih =>
    have unfolded : store.storeRates (first :: rest) =
        store.storeRate first >>= fun middle => middle.storeRates rest := rfl
    by_cases admits : store.Admits first
    · rw [unfolded, storeRate_iff.2 ⟨admits, rfl⟩]
      refine Iff.trans ih ⟨?_, ?_⟩
      · rintro ⟨written, refused, last, middle, rfl, stored, notAdmitted⟩
        exact ⟨first :: written, refused, last, middle, rfl,
          storeRates_cons.2 ⟨admits, stored⟩, notAdmitted⟩
      · rintro ⟨written, refused, last, middle, split, stored, notAdmitted⟩
        cases written with
        | nil =>
          cases split
          cases stored
          exact absurd admits notAdmitted
        | cons second written =>
          cases split
          exact ⟨written, refused, last, middle, rfl, (storeRates_cons.1 stored).2, notAdmitted⟩
    · refine iff_of_true ?_ ⟨[], first, rest, store, rfl, rfl, admits⟩
      cases outcome : store.storeRates (first :: rest) with
      | ok after => exact absurd (storeRates_cons.1 outcome).1 admits
      | error e => exact ⟨e, rfl⟩

/-- All rows of a batch are in the table, no other row has changed, and the same batch finds nothing
left to do. -/
structure Stored (store : Store) (batch : List Currency) (after : Store) : Prop where
  held : ∀ currency ∈ batch, after.currency? currency.id = some currency
  others : ∀ id, (∀ currency ∈ batch, currency.id ≠ id) → after.currency? id = store.currency? id
  elsewhere : after = { store with currencies := after.currencies }
  distinct : after.DistinctCurrencies
  again : after.storeRates batch = .ok after

theorem DistinctCurrencies.stored (distinct : store.DistinctCurrencies)
    (apart : batch.Pairwise fun a b => a.id ≠ b.id) (h : store.storeRates batch = .ok after) :
    store.Stored batch after where
  held := fun _ member => currency?_storeRates_of_mem h apart member
  others := fun _ notIn => currency?_storeRates_of_notMem h notIn
  elsewhere := by
    obtain ⟨currencies, rfl⟩ := storeRates_eq_ok h
    rfl
  distinct := distinct.storeRates h
  again := distinct.storeRates_again apart h

/-- A row is refused for its rate, because the table is out of reach, or because two currencies would have
one code. -/
theorem DistinctCurrencies.not_admits_iff (distinct : store.DistinctCurrencies) :
    ¬store.Admits currency ↔
      ¬(currency.rate.isFinite = true ∧ currency.rate.isPositive = true) ∨
        ¬store.reaches [.currencies] = true ∨
        ¬(store.putCurrency currency).DistinctCurrencies := by
  have parts : store.Admits currency ↔
      (currency.rate.isFinite = true ∧ currency.rate.isPositive = true) ∧
        store.reaches [.currencies] = true ∧ (store.putCurrency currency).DistinctCurrencies := by
    rw [distinct.putCurrency_iff]
    exact ⟨fun admits => ⟨⟨admits.finite, admits.positive⟩, admits.reached, admits.free⟩,
      fun ⟨⟨finite, positive⟩, reached, free⟩ => ⟨finite, positive, reached, free⟩⟩
  rw [parts, Classical.not_and_iff_not_or_not]
  exact or_congr_right Classical.not_and_iff_not_or_not

end Store

/-- A batch of rates is stored as a whole, and then nothing is left to do for it, or it fails and the home
is as it was. It fails at the first row that cannot follow those before it: for its rate, because the
table is out of reach, or because two currencies would have one code. -/
theorem rate_batches_atomic (store : Store) (distinct : store.DistinctCurrencies)
    (batch : List Currency) (apart : batch.Pairwise fun a b => a.id ≠ b.id) :
    ((∃ e, store.storeRates batch = .error e ∧ ∀ home : Home,
        home.onDatabase ((store.storeRates batch).map fun after => ((), after)) = (.error e, home)) ∨
      ∃ after, store.storeRates batch = .ok after ∧ store.Stored batch after) ∧
    ((∃ currency ∈ batch, ¬(currency.rate.isFinite = true ∧ currency.rate.isPositive = true)) →
      ∃ e, store.storeRates batch = .error e) ∧
    ((∃ e, store.storeRates batch = .error e) ↔
      ∃ written refused rest middle, batch = written ++ refused :: rest ∧
        store.storeRates written = .ok middle ∧
        (¬(refused.rate.isFinite = true ∧ refused.rate.isPositive = true) ∨
          ¬middle.reaches [.currencies] = true ∨
          ¬(middle.putCurrency refused).DistinctCurrencies)) := by
  refine ⟨?_, ?_, ?_⟩
  · cases stored : store.storeRates batch with
    | ok after => exact Or.inr ⟨after, rfl, distinct.stored apart stored⟩
    | error e => exact Or.inl ⟨e, rfl, fun home => rfl⟩
  · rintro ⟨currency, member, unusable⟩
    cases stored : store.storeRates batch with
    | ok after =>
      obtain ⟨finite, positive, -⟩ := Store.usable_of_storeRates stored currency member
      exact absurd ⟨finite, positive⟩ unusable
    | error e => exact ⟨e, rfl⟩
  · rw [Store.storeRates_eq_error_iff]
    constructor
    · rintro ⟨written, refused, rest, middle, split, stored, notAdmitted⟩
      exact ⟨written, refused, rest, middle, split, stored,
        (distinct.storeRates stored).not_admits_iff.1 notAdmitted⟩
    · rintro ⟨written, refused, rest, middle, split, stored, reason⟩
      exact ⟨written, refused, rest, middle, split, stored,
        (distinct.storeRates stored).not_admits_iff.2 reason⟩

/-- A batch that brings a currency in and changes a rate is stored; one that exchanges the codes of two
currencies fails at the second row, whose code is still that of the other currency. -/
theorem rate_batches_atomic_exchangedCodes :
    let store : Store := { currencies := [⟨1, "USD", Binary64.one⟩, ⟨2, "EUR", Binary64.one⟩] }
    let fresh : List Currency := [⟨2, "EUR", Binary64.ofInt 2⟩, ⟨3, "GBP", Binary64.ofInt 3⟩]
    let exchanged : List Currency :=
      [⟨3, "GBP", Binary64.one⟩, ⟨1, "EUR", Binary64.one⟩, ⟨2, "USD", Binary64.one⟩]
    store.DistinctCurrencies ∧ (fresh.Pairwise fun a b => a.id ≠ b.id) ∧
      (exchanged.Pairwise fun a b => a.id ≠ b.id) ∧
      (∃ after, store.storeRates fresh = .ok after ∧ store.Stored fresh after) ∧
      ∃ e, store.storeRates exchanged = .error e := by
  intro store fresh exchanged
  have distinct : store.DistinctCurrencies := ⟨by unfold Rows.Ascending; decide, by decide⟩
  have apart : fresh.Pairwise fun a b => a.id ≠ b.id := by decide
  have apart' : exchanged.Pairwise fun a b => a.id ≠ b.id := by decide
  refine ⟨distinct, apart, apart', ?_, ?_⟩
  · rcases (rate_batches_atomic store distinct fresh apart).1 with ⟨e, failed, -⟩ | stored
    · have isOk : (store.storeRates fresh).isOk = true := by decide +kernel
      rw [failed] at isOk
      cases isOk
    · exact stored
  · let middle := store.putCurrency ⟨3, "GBP", Binary64.one⟩
    have sameCode : ¬(middle.putCurrency ⟨1, "EUR", Binary64.one⟩).DistinctCurrencies := fun kept =>
      absurd (kept.codes ⟨1, "EUR", Binary64.one⟩ (by decide) ⟨2, "EUR", Binary64.one⟩ (by decide) rfl)
        (by decide)
    exact (rate_batches_atomic store distinct exchanged apart').2.2.2
      ⟨[⟨3, "GBP", Binary64.one⟩], ⟨1, "EUR", Binary64.one⟩, [⟨2, "USD", Binary64.one⟩], middle, rfl,
        rfl, Or.inr (Or.inr sameCode)⟩

end ExpenseLedger
