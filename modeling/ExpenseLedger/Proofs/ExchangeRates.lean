import ExpenseLedger.Commands.Machine
import ExpenseLedger.Proofs.Store.Rates

/-!
# Fresh exchange rates

The rows that an answer of the service brings are those of the configured codes, each at its place in the
list. A table that `Follows` the list takes all of them, and follows it afterwards; so a refresh fails
only for what the service does or because the table is out of reach, and then it changes nothing.
-/

namespace ExpenseLedger

/-! ## Tables that follow a list of codes -/

/-- A currency whose id is a place in the list has the code of that place, and no other currency has a
code of the list. -/
structure Store.Follows (store : Store) (codes : List String) : Prop where
  ids : Rows.Ascending Currency.id store.currencies
  placed : ∀ row ∈ store.currencies, ∀ (place : Nat) (code : String),
    codes[place]? = some code → row.id = place → row.code = code
  others : ∀ row ∈ store.currencies, row.code ∈ codes →
    ∃ place : Nat, row.id = place ∧ place < codes.length

/-- The id of a currency is the place of its code in the list. -/
def Currency.Placed (currency : Currency) (codes : List String) : Prop :=
  ∃ place : Nat, currency.id = place ∧ codes[place]? = some currency.code

namespace Store.Follows

variable {store : Store} {codes : List String} {currency : Currency} {batch : List Currency}
  (follows : store.Follows codes)

include follows

/-- No other currency has the code of one that is in its place. -/
theorem free (distinct : codes.Nodup) (isPlaced : currency.Placed codes) :
    ∀ other ∈ store.currencies, other.code = currency.code → other.id = currency.id := by
  obtain ⟨place, id, atPlace⟩ := isPlaced
  intro other member same
  have inList : other.code ∈ codes := by
    rw [same]
    exact List.mem_of_getElem? atPlace
  obtain ⟨place', id', lt⟩ := follows.others other member inList
  have atPlace' := follows.placed other member place' codes[place'] (List.getElem?_eq_getElem lt) id'
  have equal : codes[place']? = codes[place]? := by
    rw [List.getElem?_eq_getElem lt, atPlace, ← atPlace', same]
  rw [id, id', (List.getElem?_inj lt distinct).1 equal]

theorem putCurrency (isPlaced : currency.Placed codes) :
    (store.putCurrency currency).Follows codes where
  ids := follows.ids.put Int.lt_trans fun different notLess => by omega
  placed := by
    intro row member place code atPlace id
    rcases Rows.mem_put member with rfl | old
    · obtain ⟨place', id', atPlace'⟩ := isPlaced
      have same : place = place' := by omega
      subst same
      exact Option.some.inj (atPlace'.symm.trans atPlace)
    · exact follows.placed row old place code atPlace id
  others := by
    intro row member inList
    rcases Rows.mem_put member with rfl | old
    · obtain ⟨place, id, atPlace⟩ := isPlaced
      exact ⟨place, id, (List.getElem?_eq_some_iff.1 atPlace).1⟩
    · exact follows.others row old inList

/-- A table at hand takes all currencies that are in their places and have usable rates. -/
theorem storeRates (distinct : codes.Nodup) (reached : store.reaches [.currencies] = true)
    (usable : ∀ row ∈ batch, row.Placed codes ∧ row.rate.isFinite = true ∧
      row.rate.isPositive = true) :
    ∃ after, store.storeRates batch = .ok after ∧ after.Follows codes := by
  induction batch generalizing store with
  | nil => exact ⟨store, rfl, follows⟩
  | cons first rest ih =>
    obtain ⟨isPlaced, finite, positive⟩ := usable first List.mem_cons_self
    have admits : store.Admits first :=
      ⟨finite, positive, reached, follows.free distinct isPlaced⟩
    obtain ⟨after, stored, followsAfter⟩ := ih (follows.putCurrency isPlaced) reached
      fun row member => usable row (List.mem_cons_of_mem _ member)
    exact ⟨after, Store.storeRates_cons.2 ⟨admits, stored⟩, followsAfter⟩

end Store.Follows

/-! ## What an answer brings -/

namespace ExchangeRates

variable {rates : List (String × Binary64)} {code reference : String} {rate : Binary64}
  {codes others : List String}

/-- The service has answered: the status is none of an error, and the body is read as an answer that
tells of no failure. -/
structure Answered (response : Http.Response) (answer : RatesAnswer) : Prop where
  noError : ¬(response.status.isClientError = true ∨ response.status.isServerError = true)
  readable : Json.Reader.whole RatesAnswer.fromJson response.body = .ok answer
  success : answer.success = true

theorem ratesOf_eq_ok {response : Http.Response} :
    ratesOf response = .ok rates ↔ ∃ answer, Answered response answer ∧ answer.rates = rates := by
  unfold ratesOf
  split
  · next isError =>
    constructor
    · intro h
      cases h
    · rintro ⟨answer, answered, -⟩
      exact absurd isError answered.noError
  · next noError =>
    cases readable : Json.Reader.whole RatesAnswer.fromJson response.body with
    | error fault =>
      constructor
      · intro h
        cases h
      · rintro ⟨answer, answered, -⟩
        cases readable.symm.trans answered.readable
    | ok answer =>
      cases success : answer.success with
      | true =>
        constructor
        · intro h
          exact ⟨answer, ⟨noError, readable, success⟩, Except.ok.inj ((if_pos success).symm.trans h)⟩
        · rintro ⟨answer', answered, rfl⟩
          cases readable.symm.trans answered.readable
          exact if_pos success
      | false =>
        constructor
        · intro h
          cases (if_neg (Bool.eq_false_iff.1 success)).symm.trans h
        · rintro ⟨answer', answered, -⟩
          cases readable.symm.trans answered.readable
          cases success.symm.trans answered.success

/-- A rate that the service has for a code and that can be stored. -/
def Quotes (rates : List (String × Binary64)) (code : String) (rate : Binary64) : Prop :=
  rates.lookup code = some rate ∧ rate.isFinite = true ∧ rate.isPositive = true

theorem usable?_eq_some : usable? rates code = some rate ↔ Quotes rates code rate := by
  unfold usable? Quotes
  simp only [Option.filter_eq_some_iff, decide_eq_true_eq]

/-- The rows behind the reference currency: one for each code that has a rate. -/
theorem mem_otherRows {start : Nat} {row : Currency} :
    row ∈ otherRows rates start codes ↔
      ∃ place, codes[place]? = some row.code ∧ row.id = (start + place : Nat) ∧
        Quotes rates row.code row.rate := by
  induction codes generalizing start with
  | nil => simp [otherRows]
  | cons first rest ih =>
    have later : (∃ place, (first :: rest)[place]? = some row.code ∧
        row.id = (start + place : Nat) ∧ Quotes rates row.code row.rate) ↔
        (first = row.code ∧ row.id = start ∧ Quotes rates row.code row.rate) ∨
          row ∈ otherRows rates (start + 1) rest := by
      rw [ih]
      constructor
      · rintro ⟨_ | place, atPlace, id, quotes⟩
        · exact Or.inl ⟨Option.some.inj atPlace, id, quotes⟩
        · exact Or.inr ⟨place, atPlace, by omega, quotes⟩
      · rintro (⟨rfl, id, quotes⟩ | ⟨place, atPlace, id, quotes⟩)
        · exact ⟨0, rfl, id, quotes⟩
        · exact ⟨place + 1, atPlace, by omega, quotes⟩
    rw [later, otherRows]
    cases found : usable? rates first with
    | none =>
      refine ⟨Or.inr, ?_⟩
      rintro (⟨rfl, -, quotes⟩ | later)
      · rw [usable?_eq_some.2 quotes] at found
        cases found
      · exact later
    | some rate =>
      have quotes := usable?_eq_some.1 found
      refine List.mem_cons.trans (or_congr_left ⟨?_, ?_⟩)
      · rintro rfl
        exact ⟨rfl, rfl, quotes⟩
      · rintro ⟨rfl, id, quotes'⟩
        have same := quotes.1.symm.trans quotes'.1
        cases row
        cases same
        cases id
        rfl

theorem length_otherRows (start : Nat) :
    (otherRows rates start codes).length =
      codes.countP fun code => (usable? rates code).isSome := by
  induction codes generalizing start with
  | nil => rfl
  | cons first rest ih =>
    unfold otherRows
    cases found : usable? rates first with
    | none => rw [List.countP_cons_of_neg (by simp [found]), ih]
    | some rate => rw [List.countP_cons_of_pos (by simp [found]), List.length_cons, ih]

theorem pairwise_otherRows (start : Nat) :
    (otherRows rates start codes).Pairwise fun a b => a.id ≠ b.id := by
  induction codes generalizing start with
  | nil => exact List.Pairwise.nil
  | cons first rest ih =>
    unfold otherRows
    cases found : usable? rates first with
    | none => exact ih (start + 1)
    | some rate =>
      refine List.pairwise_cons.2 ⟨fun row member => ?_, ih (start + 1)⟩
      obtain ⟨place, -, id, -⟩ := mem_otherRows.1 member
      rw [id]
      simp only
      omega

theorem pairwise_batch : (batch rates reference others).Pairwise fun a b => a.id ≠ b.id := by
  refine List.pairwise_cons.2 ⟨fun row member => ?_, pairwise_otherRows 1⟩
  obtain ⟨place, -, id, -⟩ := mem_otherRows.1 member
  rw [id]
  simp only
  omega

/-- All rows that an answer brings are in their places, and their rates can be stored. -/
theorem usable_batch : ∀ row ∈ batch rates reference others,
    row.Placed (reference :: others) ∧ row.rate.isFinite = true ∧ row.rate.isPositive = true := by
  intro row member
  rcases List.mem_cons.1 member with rfl | later
  · exact ⟨⟨0, rfl, rfl⟩, rfl, rfl⟩
  · obtain ⟨place, atPlace, id, -, finite, positive⟩ := mem_otherRows.1 later
    exact ⟨⟨place + 1, by omega, atPlace⟩, finite, positive⟩

/-! ## A refresh -/

/-- What the service answers when it is asked for the rates of the other currencies. -/
def Answers (url : Url) (reference : String) (others : List String) (peer : Http.Peer)
    (answer : RatesAnswer) : Prop :=
  ∃ response, (Http.Peer.send (request url reference others) peer).1 = some response ∧
    Answered response answer

section Refresh

variable {url : Url} {peer : Http.Peer} {store after : Store} {count : Nat}

theorem refresh_peer : (refresh url (reference :: others) peer store).2 =
    (Http.Peer.send (request url reference others) peer).2 := by
  simp only [refresh]
  cases Http.Peer.send (request url reference others) peer with
  | mk response peer => cases response <;> rfl

/-- A refresh stores what an answer brings. -/
theorem refresh_iff : (refresh url (reference :: others) peer store).1 = .ok (count, after) ↔
    ∃ answer, Answers url reference others peer answer ∧
      store.storeRates (batch answer.rates reference others) = .ok after ∧
      count = 1 + others.countP fun code => (usable? answer.rates code).isSome := by
  simp only [refresh, Answers]
  cases Http.Peer.send (request url reference others) peer with
  | mk response peer =>
    cases response with
    | none =>
      constructor
      · intro h
        cases h
      · rintro ⟨answer, ⟨response, none, -⟩, -⟩
        cases none
    | some response =>
      have length (rates : List (String × Binary64)) : (batch rates reference others).length =
          1 + others.countP fun code => (usable? rates code).isSome := by
        rw [batch, List.length_cons, length_otherRows, Nat.add_comm]
      simp only [Outcome.bind_eq_ok, ratesOf_eq_ok]
      constructor
      · rintro ⟨rates, ⟨answer, answered, rfl⟩, stored, storing, h⟩
        cases h
        exact ⟨answer, ⟨response, rfl, answered⟩, storing, length _⟩
      · rintro ⟨answer, ⟨response', same, answered⟩, storing, rfl⟩
        cases same
        exact ⟨_, ⟨answer, answered, rfl⟩, after, storing, by rw [length]⟩

end Refresh

/-- The reference currency is in the table at rate 1, and every other one for which there is a rate at that
rate; nothing else has changed. -/
structure Refreshed (rates : List (String × Binary64)) (reference : String) (others : List String)
    (store after : Store) : Prop where
  base : after.currency? 0 = some ⟨0, reference, Binary64.one⟩
  quoted : ∀ (place : Nat) (code : String) (rate : Binary64), others[place]? = some code →
    Quotes rates code rate → after.currency? (place + 1) = some ⟨place + 1, code, rate⟩
  untouched : ∀ id : Int, id ≠ 0 → (∀ (place : Nat) (code : String) (rate : Binary64),
    others[place]? = some code → Quotes rates code rate → id ≠ place + 1) →
    after.currency? id = store.currency? id
  elsewhere : after = { store with currencies := after.currencies }
  follows : after.Follows (reference :: others)

theorem Refreshed.of_storeRates {store after : Store} (follows : store.Follows (reference :: others))
    (distinct : (reference :: others).Nodup) (reached : store.reaches [.currencies] = true)
    (h : store.storeRates (batch rates reference others) = .ok after) :
    Refreshed rates reference others store after where
  base := Store.currency?_storeRates_of_mem h pairwise_batch List.mem_cons_self
  quoted := by
    intro place code rate atPlace quotes
    have member : (⟨place + 1, code, rate⟩ : Currency) ∈ otherRows rates 1 others :=
      mem_otherRows.2 ⟨place, atPlace, by simp only; omega, quotes⟩
    exact Store.currency?_storeRates_of_mem h pairwise_batch (List.mem_cons_of_mem _ member)
  untouched := by
    intro id notReference notQuoted
    refine Store.currency?_storeRates_of_notMem h fun row member => ?_
    rcases List.mem_cons.1 member with rfl | later
    · exact notReference.symm
    · obtain ⟨place, atPlace, isPlace, quotes⟩ := mem_otherRows.1 later
      have different := notQuoted place row.code row.rate atPlace quotes
      omega
  elsewhere := by
    obtain ⟨currencies, rfl⟩ := Store.storeRates_eq_ok h
    rfl
  follows := by
    obtain ⟨after', stored, followsAfter⟩ := follows.storeRates distinct reached usable_batch
    cases h.symm.trans stored
    exact followsAfter

end ExchangeRates

theorem Machine.refresh_eq {configuration : Configuration} {reference : String}
    {others : List String} (configured : configuration.file.currencies = reference :: others)
    (machine : Machine) :
    let asked : Machine := { machine with
      service := (Http.Peer.send (ExchangeRates.request configuration.ratesUrl reference others)
        machine.service).2 }
    machine.refresh configuration =
      match (ExchangeRates.refresh configuration.ratesUrl (reference :: others) machine.service
        machine.home.store).1 with
      | .ok (count, store) => (.ok count, asked.withStore store)
      | .error e => (.error e, asked) := by
  intro asked
  have service : (ExchangeRates.refresh configuration.ratesUrl (reference :: others)
      machine.service machine.home.store).2 = asked.service := ExchangeRates.refresh_peer
  unfold Machine.refresh
  rw [configured]
  cases refreshed : ExchangeRates.refresh configuration.ratesUrl (reference :: others)
      machine.service machine.home.store with
  | mk result peer =>
    rw [refreshed] at service
    obtain rfl : peer = asked.service := service
    cases result <;> rfl

/-- The rates of the configured currencies are refreshed as a whole. A refresh succeeds if the service
answers and the table is at hand, whatever the rates are: those that can be stored replace the old ones,
the reference currency stays at rate 1, and all others keep what they had. Else it fails, and nothing has
changed but what the service has been asked. -/
theorem rates_refreshed_as_a_whole {configuration : Configuration} {reference : String}
    {others : List String} (configured : configuration.file.currencies = reference :: others)
    (distinct : (reference :: others).Nodup) (machine : Machine)
    (follows : machine.home.store.Follows (reference :: others)) :
    let url := configuration.ratesUrl
    let asked : Machine := { machine with
      service := (Http.Peer.send (ExchangeRates.request url reference others) machine.service).2 }
    ((∃ e, machine.refresh configuration = (.error e, asked)) ∨
      ∃ answer after, ExchangeRates.Answers url reference others machine.service answer ∧
        machine.refresh configuration =
          (.ok (1 + others.countP fun code => (answer.rates.lookup code).any fun rate =>
            rate.isFinite && rate.isPositive), asked.withStore after) ∧
        ExchangeRates.Refreshed answer.rates reference others machine.home.store after) ∧
    ((∃ count, (machine.refresh configuration).1 = .ok count) ↔
      machine.home.store.reaches [.currencies] = true ∧
        ∃ answer, ExchangeRates.Answers url reference others machine.service answer) := by
  intro url asked
  have refresh : machine.refresh configuration = _ := Machine.refresh_eq configured machine
  cases result : (ExchangeRates.refresh url (reference :: others) machine.service
      machine.home.store).1 with
  | error e =>
    rw [result] at refresh
    rw [refresh]
    refine ⟨Or.inl ⟨e, rfl⟩, iff_of_false (fun ⟨count, ok⟩ => by cases ok) ?_⟩
    rintro ⟨reached, answer, answers⟩
    have usable := @ExchangeRates.usable_batch answer.rates reference others
    obtain ⟨after, stored, -⟩ := follows.storeRates distinct reached usable
    cases result.symm.trans (ExchangeRates.refresh_iff.2 ⟨answer, answers, stored, rfl⟩)
  | ok refreshed =>
    obtain ⟨count, after⟩ := refreshed
    rw [result] at refresh
    rw [refresh]
    obtain ⟨answer, answers, stored, rfl⟩ := ExchangeRates.refresh_iff.1 result
    obtain ⟨-, -, reached⟩ := Store.usable_of_storeRates stored _ List.mem_cons_self
    have same (code : String) : (ExchangeRates.usable? answer.rates code).isSome =
        (answer.rates.lookup code).any fun rate => rate.isFinite && rate.isPositive := by
      unfold ExchangeRates.usable?
      rw [Option.isSome_filter]
      simp only [Bool.decide_and, Bool.decide_eq_true]
    simp only [same]
    exact ⟨Or.inr ⟨answer, after, answers, rfl, .of_storeRates follows distinct reached stored⟩,
      iff_of_true ⟨_, rfl⟩ ⟨reached, answer, answers⟩⟩

/-- Of four rates two are of use: that of the reference currency is passed over, and so is the one that is
not positive. A currency that is not configured keeps its rate. -/
theorem rates_refreshed_as_a_whole_fourRates :
    let configuration : Configuration :=
      { file := { currencies := ["RUB", "USD", "EUR", "CNY"] }
        callbackAddress := .v4 ⟨127, 0, 0, 1⟩ 50051
        ratesUrl := { scheme := "http".toList, path := .segments ["latest".toList] } }
    let store : Store := { currencies := [⟨1, "USD", Binary64.one⟩, ⟨7, "GBP", Binary64.one⟩] }
    let machine : Machine :=
      { home := { path := "home", database := .file { versions := some [1], tables := some store } }
        now := 0
        service := { responses := [{
          status := ⟨200⟩
          body := "\x7b\"success\":true,\"rates\":\x7b\"RUB\":5,\"USD\":2,\"EUR\":-1,\"CNY\":3\x7d\x7d" }] } }
    configuration.file.currencies = "RUB" :: ["USD", "EUR", "CNY"] ∧
      ("RUB" :: ["USD", "EUR", "CNY"]).Nodup ∧
      machine.home.store.Follows ("RUB" :: ["USD", "EUR", "CNY"]) ∧
      (∃ (answer : RatesAnswer) (after : Store),
        (machine.refresh configuration).2.home = machine.home.withStore after ∧
        ExchangeRates.Refreshed answer.rates "RUB" ["USD", "EUR", "CNY"] store after) ∧
      (machine.refresh configuration).2.home.store.currencies =
        [⟨0, "RUB", Binary64.one⟩, ⟨1, "USD", Binary64.ofInt 2⟩, ⟨3, "CNY", Binary64.ofInt 3⟩,
          ⟨7, "GBP", Binary64.one⟩] := by
  intro configuration store machine
  have distinct : ("RUB" :: ["USD", "EUR", "CNY"]).Nodup := by decide
  have configured : configuration.file.currencies = "RUB" :: ["USD", "EUR", "CNY"] := rfl
  have follows : machine.home.store.Follows ("RUB" :: ["USD", "EUR", "CNY"]) := by
    refine ⟨by unfold Rows.Ascending; decide, ?_, ?_⟩
    · intro row member place code atPlace id
      rcases List.mem_cons.1 member with rfl | member
      · obtain rfl : place = 1 := Int.ofNat.inj id.symm
        exact Option.some.inj atPlace
      · cases List.mem_singleton.1 member
        obtain rfl : place = 7 := Int.ofNat.inj id.symm
        cases atPlace
    · intro row member inList
      rcases List.mem_cons.1 member with rfl | member
      · exact ⟨1, rfl, by decide⟩
      · cases List.mem_singleton.1 member
        exact absurd inList (by decide)
  refine ⟨configured, distinct, follows, ?_, by decide +kernel⟩
  rcases (rates_refreshed_as_a_whole configured distinct machine follows).1 with ⟨e, failed⟩ | stored
  · have isOk : (machine.refresh configuration).1.isOk = true := by decide +kernel
    rw [failed] at isOk
    cases isOk
  · obtain ⟨answer, after, -, refreshed, holds⟩ := stored
    exact ⟨answer, after, congrArg (fun result => result.2.home) refreshed, holds⟩

end ExpenseLedger
