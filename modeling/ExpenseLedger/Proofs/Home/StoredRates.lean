import ExpenseLedger.Proofs.ExchangeRates
import ExpenseLedger.Proofs.Home.Processes
import ExpenseLedger.Proofs.Numeric.Doubles

/-!
# Stored rates

A rate is tested twice. To be stored it has to be a double above zero (`Store.storeRate_alone_iff`); to be
used it has to be one of which a decimal above zero is left (`Rate.exists_ofBinary64_iff`), and some that
pass the first test do not pass the second. A table can hold such a rate, and then every conversion of its
currency fails (`Store.inconvertible_iff_of_rate`). The first test is all that the rates of a refresh have
passed, so the refresh breaks a rate that has worked exactly if the service quotes one of those.
-/

namespace ExpenseLedger

theorem Binary64.toRat_pos_iff {raw : Binary64} :
    0 < raw.toRat ↔ raw.isFinite = true ∧ raw.isPositive = true := by
  cases raw with
  | nan => simp [toRat, isFinite]
  | infinite negative => simp [toRat, isFinite]
  | finite negative significand exponent canonical =>
    have power : (0 : ℚ) < 2 ^ exponent := zpow_pos (by norm_num) exponent
    cases negative with
    | true =>
      have magnitude : (0 : ℚ) ≤ significand * 2 ^ exponent :=
        mul_nonneg (Nat.cast_nonneg _) power.le
      simpa [toRat, isFinite, isPositive] using magnitude
    | false =>
      simp [toRat, isFinite, isPositive, mul_pos_iff_of_pos_right power, Nat.pos_iff_ne_zero]

/-- With a rate at hand a conversion can only run out of range. -/
theorem Error.ofConversion_ne_unusableRate {α : Type} {result : Except Conversion.Overflow α}
    {fault : Rate.Fault} :
    Error.ofConversion result ≠ .error (.conversionFailure (.unusableRate fault)) := by
  cases result <;> simp [Error.ofConversion]

/-- A double is in the range of usable rates: above the largest number that vanishes among the places of a
decimal, and below the first that has no room in one. -/
def Rate.InRange (raw : Binary64) : Prop :=
  85 / (9 * 10 ^ 29) < raw.toRat ∧ raw.toRat < 2 ^ 96

theorem Rate.exists_ofBinary64_iff {raw : Binary64} :
    (∃ rate, Rate.ofBinary64 raw = .ok rate) ↔ Rate.InRange raw := by
  refine Iff.trans ?_ (Decimal.exists_positive_ofBinary64?_iff raw)
  unfold Rate.ofBinary64
  cases Decimal.ofBinary64? raw with
  | none => simp
  | some decimal => by_cases positive : decimal.negative = false ∧ 0 < decimal.mantissa <;> simp [positive]

namespace Store

variable {store after : Store} {id : Int} {row : Currency} {raw : Binary64}

theorem rate_of_currency? (reached : store.reaches [.currencies] = true)
    (found : store.currency? id = some row) :
    store.rate id = Error.ofRate (Rate.ofBinary64 row.rate) := by
  have read : store.currency id = .ok row := currency_eq_ok.2 ⟨reached, found⟩
  unfold Store.rate
  simp only [read, bind, Except.bind]

theorem rate_congr (reached : store.outOfReach = after.outOfReach)
    (same : after.currency? id = store.currency? id) : after.rate id = store.rate id := by
  unfold Store.rate currency reach reaches
  rw [same, reached]

theorem exists_rate_iff (h : store.rate id = Error.ofRate (Rate.ofBinary64 raw)) :
    (∃ rate, store.rate id = .ok rate) ↔ Rate.InRange raw := by
  rw [h, ← Rate.exists_ofBinary64_iff]
  cases Rate.ofBinary64 raw <;> simp [Error.ofRate]

/-- Every conversion of the currency fails, since its rate cannot be used. -/
def Inconvertible (store : Store) (id : Int) : Prop :=
  ∃ fault, ∀ amount : Int,
    store.toBase amount id = .error (.conversionFailure (.unusableRate fault)) ∧
      store.fromBase amount id = .error (.conversionFailure (.unusableRate fault))

theorem rate_eq_error_of_toBase {amount : Int} {fault : Rate.Fault}
    (h : store.toBase amount id = .error (.conversionFailure (.unusableRate fault))) :
    store.rate id = .error (.conversionFailure (.unusableRate fault)) := by
  rcases Outcome.bind_eq_error.1 h with failed | ⟨rate, -, failed⟩
  · exact failed
  · exact absurd failed Error.ofConversion_ne_unusableRate

theorem inconvertible_iff : store.Inconvertible id ↔
    ∃ fault, store.rate id = .error (.conversionFailure (.unusableRate fault)) := by
  constructor
  · rintro ⟨fault, failed⟩
    exact ⟨fault, rate_eq_error_of_toBase (failed 0).1⟩
  · rintro ⟨fault, failed⟩
    refine ⟨fault, fun amount => ?_⟩
    unfold toBase fromBase
    rw [failed]
    exact ⟨rfl, rfl⟩

theorem inconvertible_iff_of_rate (h : store.rate id = Error.ofRate (Rate.ofBinary64 raw)) :
    store.Inconvertible id ↔ ¬Rate.InRange raw := by
  rw [inconvertible_iff, h, ← Rate.exists_ofBinary64_iff]
  cases Rate.ofBinary64 raw <;> simp [Error.ofRate]

theorem not_inconvertible_of_rate {rate : Rate} (h : store.rate id = .ok rate) :
    ¬store.Inconvertible id := by
  rw [inconvertible_iff, h]
  rintro ⟨fault, failed⟩
  cases failed

/-- A table without currencies takes every one with a rate above zero. -/
theorem storeRate_alone_iff (reached : store.reaches [.currencies] = true)
    (empty : store.currencies = []) {code : String} :
    (∃ after, store.storeRates [⟨id, code, raw⟩] = .ok after) ↔ 0 < raw.toRat := by
  rw [Binary64.toRat_pos_iff]
  constructor
  · rintro ⟨after, stored⟩
    obtain ⟨admits, -⟩ := storeRates_cons.1 stored
    exact ⟨admits.finite, admits.positive⟩
  · rintro ⟨finite, positive⟩
    have free : ∀ other ∈ store.currencies, other.code = code → other.id = id := by simp [empty]
    exact ⟨_, storeRates_cons.2 ⟨⟨finite, positive, reached, free⟩, rfl⟩⟩

end Store

namespace ExchangeRates

variable {answer : RatesAnswer} {reference : String} {others : List String} {store after : Store}
  {id : Int}

/-- The service quotes a rate for the currency with the id. -/
def QuotesAt (rates : List (String × Binary64)) (others : List String) (id : Int)
    (raw : Binary64) : Prop :=
  ∃ (place : Nat) (code : String), others[place]? = some code ∧ Quotes rates code raw ∧ id = place + 1

theorem QuotesAt.mem_batch {raw : Binary64} (quotes : QuotesAt answer.rates others id raw)
    (reference : String) :
    ∃ row ∈ batch answer.rates reference others, row.id = id ∧ row.rate = raw := by
  obtain ⟨place, code, atPlace, quotes, rfl⟩ := quotes
  have member : (⟨place + 1, code, raw⟩ : Currency) ∈ otherRows answer.rates 1 others :=
    mem_otherRows.2 ⟨place, atPlace, by simp only; omega, quotes⟩
  exact ⟨_, List.mem_cons_of_mem _ member, rfl, rfl⟩

/-- It quotes one rate. -/
theorem QuotesAt.unique {rates : List (String × Binary64)} {raw raw' : Binary64}
    (quotes : QuotesAt rates others id raw) (quotes' : QuotesAt rates others id raw') :
    raw = raw' := by
  obtain ⟨place, code, atPlace, ⟨first, -⟩, rfl⟩ := quotes
  obtain ⟨place', code', atPlace', ⟨second, -⟩, same⟩ := quotes'
  obtain rfl : place = place' := by omega
  obtain rfl : code = code' := Option.some.inj (atPlace.symm.trans atPlace')
  exact Option.some.inj (first.symm.trans second)

/-- The rate of a currency after a refresh comes from the service if that quotes it; else it is the old
one, and that of the reference currency is 1. -/
theorem rate_storeRates_cases
    (stored : store.storeRates (batch answer.rates reference others) = .ok after) (id : Int) :
    (id = 0 ∧ after.rate id = .ok .one) ∨
      (∃ raw, QuotesAt answer.rates others id raw ∧
        after.rate id = Error.ofRate (Rate.ofBinary64 raw)) ∨
      ((∀ raw, ¬QuotesAt answer.rates others id raw) ∧ after.rate id = store.rate id) := by
  obtain ⟨-, -, reached⟩ := Store.usable_of_storeRates stored _ List.mem_cons_self
  obtain ⟨currencies, isAfter⟩ := Store.storeRates_eq_ok stored
  have sameReach : store.outOfReach = after.outOfReach := isAfter ▸ rfl
  have reached : after.reaches [.currencies] = true := isAfter ▸ reached
  have rate_of_mem {row : Currency} (member : row ∈ batch answer.rates reference others) :
      after.rate row.id = Error.ofRate (Rate.ofBinary64 row.rate) :=
    Store.rate_of_currency? reached
      (Store.currency?_storeRates_of_mem stored pairwise_batch member)
  by_cases isReference : id = 0
  · subst isReference
    have one : Error.ofRate (Rate.ofBinary64 Binary64.one) = .ok .one := by decide +kernel
    exact Or.inl ⟨rfl, (rate_of_mem List.mem_cons_self).trans one⟩
  · by_cases quoted : ∃ raw, QuotesAt answer.rates others id raw
    · obtain ⟨raw, quotes⟩ := quoted
      obtain ⟨row, member, rfl, rfl⟩ := quotes.mem_batch reference
      exact Or.inr (Or.inl ⟨row.rate, quotes, rate_of_mem member⟩)
    · refine Or.inr (Or.inr ⟨fun raw quotes => quoted ⟨raw, quotes⟩, Store.rate_congr sameReach ?_⟩)
      refine Store.currency?_storeRates_of_notMem stored fun row member same => ?_
      rcases List.mem_cons.1 member with rfl | later
      · exact isReference same.symm
      · obtain ⟨place, atPlace, isPlace, quotes⟩ := mem_otherRows.1 later
        exact quoted ⟨row.rate, place, row.code, atPlace, quotes, by omega⟩

/-- A refresh breaks a rate that has worked exactly if the service quotes one out of range. -/
theorem inconvertible_storeRates_iff {rate : Rate} (working : store.rate id = .ok rate)
    (stored : store.storeRates (batch answer.rates reference others) = .ok after) :
    after.Inconvertible id ↔ ∃ raw, QuotesAt answer.rates others id raw ∧ ¬Rate.InRange raw := by
  obtain ⟨rfl, one⟩ | ⟨raw, quotes, fresh⟩ | ⟨notQuoted, kept⟩ := rate_storeRates_cases stored id
  · refine iff_of_false (Store.not_inconvertible_of_rate one) ?_
    rintro ⟨raw, ⟨place, -, -, -, isPlace⟩, -⟩
    omega
  · rw [Store.inconvertible_iff_of_rate fresh]
    refine ⟨fun unusable => ⟨raw, quotes, unusable⟩, ?_⟩
    rintro ⟨raw', quotes', unusable⟩
    rwa [quotes.unique quotes']
  · refine iff_of_false (Store.not_inconvertible_of_rate (kept.trans working)) ?_
    rintro ⟨raw, quotes, -⟩
    exact notQuoted raw quotes

end ExchangeRates

/-- The test that a rate has to pass to be stored is weaker than the one it has to pass to be used: a double
above zero is stored, and used if it is in range. So all rates of a home are above zero, those in range
can be used, and with any other every conversion of its currency fails. A refresh brings this about for
a currency that could be converted exactly if the service quotes a rate above zero that is out of range.
All this stays so, whatever processes are run. -/
theorem stored_rates_usable_in_range {machine : Machine} (lived : machine.home.Lived) :
    (∀ (store : Store) (id : Int) (code : String) (raw : Binary64),
      store.reaches [.currencies] = true → store.currencies = [] →
        ((∃ after, store.storeRates [⟨id, code, raw⟩] = .ok after) ↔ 0 < raw.toRat) ∧
          ((∃ rate, Rate.ofBinary64 raw = .ok rate) ↔ Rate.InRange raw)) ∧
      (∀ row ∈ machine.home.store.currencies, 0 < row.rate.toRat ∧
        ((∃ rate, machine.home.store.rate row.id = .ok rate) ↔ Rate.InRange row.rate) ∧
        (machine.home.store.Inconvertible row.id ↔ ¬Rate.InRange row.rate)) ∧
      (∀ (url : Url) (reference : String) (others : List String) (peer : Http.Peer) (count : Nat)
        (after : Store), (ExchangeRates.refresh url (reference :: others) peer
          machine.home.store).1 = .ok (count, after) →
          ∃ answer, ExchangeRates.Answers url reference others peer answer ∧
            ∀ (id : Int) (rate : Rate), machine.home.store.rate id = .ok rate →
              (after.Inconvertible id ↔
                ∃ raw, ExchangeRates.QuotesAt answer.rates others id raw ∧ ¬Rate.InRange raw)) ∧
      (∀ (command : Command) (millis : Nat), (machine.run command millis).2.home.Lived) ∧
      ∀ (duties : WorkerDuties) (command : Option Command) (millis : Nat),
        (machine.runBeside duties command millis).2.2.home.Lived := by
  have intact := lived.intact.currencies
  have reached := Store.reaches_of_outOfReach intact.reached [.currencies]
  refine ⟨?_, ?_, ?_, ?_, ?_⟩
  · intro store id code raw reached empty
    exact ⟨Store.storeRate_alone_iff reached empty, Rate.exists_ofBinary64_iff⟩
  · intro row member
    have rated := Store.rate_of_currency? reached (intact.distinct.ids.get?_of_mem member)
    exact ⟨Binary64.toRat_pos_iff.2 (intact.storable row member), Store.exists_rate_iff rated,
      Store.inconvertible_iff_of_rate rated⟩
  · intro url reference others peer count after refreshed
    obtain ⟨answer, answers, stored, -⟩ := ExchangeRates.refresh_iff.1 refreshed
    exact ⟨answer, answers, fun id rate working =>
      ExchangeRates.inconvertible_storeRates_iff working stored⟩
  · exact fun command millis => Machine.lived_run command millis lived
  · exact fun duties command millis => Machine.lived_runBeside duties command millis lived

/-- The service quotes two dollars and, for the euro, a number that vanishes among the places of a decimal:
the dollar can be converted afterwards, and the euro, which could be converted, no longer. -/
theorem stored_rates_usable_in_range_vanishingEuro :
    let url : Url := { scheme := "http".toList, path := .segments ["latest".toList] }
    let others := ["USD", "EUR", "CNY"]
    let peer : Http.Peer := { responses := [{
      status := ⟨200⟩
      body := "\x7b\"success\":true,\"rates\":\x7b\"USD\":2,\"EUR\":1e-30\x7d\x7d" }] }
    let machine : Machine := { home := Home.standard, now := 0, service := peer }
    machine.home.Lived ∧ machine.home.store.rate 2 = .ok .one ∧
      (machine.run .currencyRefresh 0).2.home.Lived ∧
      ∃ count after answer,
        (ExchangeRates.refresh url ("RUB" :: others) peer machine.home.store).1 =
          .ok (count, after) ∧
        ExchangeRates.Answers url "RUB" others peer answer ∧
        (∃ rate, after.rate 1 = .ok rate) ∧ after.Inconvertible 2 ∧
        ∃ raw, ExchangeRates.QuotesAt answer.rates others 2 raw ∧ ¬Rate.InRange raw ∧
          ∃ alone, ({} : Store).storeRates [⟨2, "EUR", raw⟩] = .ok alone := by
  intro url others peer machine
  have lived : machine.home.Lived := Home.lived_standard
  have working : machine.home.store.rate 2 = .ok .one := by decide +kernel
  have refreshes : ((ExchangeRates.refresh url ("RUB" :: others) peer
      machine.home.store).1.toOption.map fun refreshed =>
        (refreshed.2.currencies.any fun row => row.id = 2, (refreshed.2.rate 1).isOk,
          (refreshed.2.rate 2).isOk)) = some (true, true, false) := by decide +kernel
  obtain ⟨stores_iff, -, refreshed_breaks, runs, -⟩ := stored_rates_usable_in_range lived
  refine ⟨lived, working, runs .currencyRefresh 0, ?_⟩
  cases refreshed : (ExchangeRates.refresh url ("RUB" :: others) peer machine.home.store).1 with
  | error e =>
    rw [refreshed] at refreshes
    cases refreshes
  | ok result =>
    obtain ⟨count, after⟩ := result
    rw [refreshed] at refreshes
    obtain ⟨inTable, rates⟩ := Prod.mk.inj (Option.some.inj refreshes)
    obtain ⟨dollar, euro⟩ := Prod.mk.inj rates
    have same : (machine.withStore after).home.store = after := lived.intact.store_withStore after
    obtain ⟨row, member, isEuro⟩ := List.any_eq_true.1 inTable
    have livedAfter : (machine.withStore after).home.Lived := lived.refreshed refreshed
    obtain ⟨-, usable_iff, unusable_iff⟩ :=
      (stored_rates_usable_in_range livedAfter).2.1 row (same.symm ▸ member)
    rw [same, of_decide_eq_true isEuro] at usable_iff unusable_iff
    have unusable : after.Inconvertible 2 := by
      refine unusable_iff.2 fun inRange => ?_
      obtain ⟨rate, works⟩ := usable_iff.2 inRange
      rw [works] at euro
      cases euro
    obtain ⟨answer, answers, breaks_iff⟩ :=
      refreshed_breaks url "RUB" others peer count after refreshed
    obtain ⟨raw, quotes, outside⟩ := (breaks_iff 2 .one working).1 unusable
    have ⟨_, _, _, ⟨_, finite, positive⟩, _⟩ := quotes
    have alone := (stores_iff {} 2 "EUR" raw rfl rfl).1.2
      (Binary64.toRat_pos_iff.2 ⟨finite, positive⟩)
    have dollars : ∃ rate, after.rate 1 = .ok rate := by
      cases works : after.rate 1 with
      | ok rate => exact ⟨rate, rfl⟩
      | error e =>
        rw [works] at dollar
        cases dollar
    exact ⟨count, after, answer, rfl, answers, dollars, unusable, raw, quotes, outside, alone⟩

/-- A tiny rate and a huge one are stored into an empty table, and cannot be used. -/
theorem stored_rates_unusable :
    let stored (raw : Binary64) := ({} : Store).storeRates [⟨1, "USD", raw⟩]
    let tiny := Binary64.ofDecimal false 1 (-30)
    let huge := Binary64.ofDecimal false 1 29
    (stored tiny).isOk = true ∧ (Rate.ofBinary64 tiny).isOk = false ∧
      ((stored tiny).toOption.map fun after => (after.rate 1).isOk) = some false ∧
      (stored huge).isOk = true ∧ (Rate.ofBinary64 huge).isOk = false ∧
      ((stored huge).toOption.map fun after => (after.rate 1).isOk) = some false := by
  decide +kernel

end ExpenseLedger
