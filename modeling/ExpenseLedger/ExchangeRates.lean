import ExpenseLedger.Http.Peer
import ExpenseLedger.Json.Record
import ExpenseLedger.Store.Currencies
import ExpenseLedger.Url.Form

/-!
# Exchange rates

A service is asked for the units of every currency that make one of the reference currency, which
is the first of a list of codes; the place of a code in the list is the id of the currency. The
answer is stored as one batch: the reference currency at rate 1, the others at the rates that
the service has for them. A rate that is missing, not finite or not positive is passed over, and
after any failure nothing has changed.
-/

namespace ExpenseLedger

/-- What the service answers; of two rates for one code the later counts. -/
structure RatesAnswer where
  success : Bool
  rates : List (String × Binary64)
  deriving DecidableEq

namespace RatesAnswer

def fromJson : Json.Reader RatesAnswer :=
  let rates := Json.Reader.map Json.Reader.double [] fun rates code rate => (code, rate) :: rates
  let fields :=
    .field "success" Json.Reader.boolean none <|
    .field "rates" rates (some []) .done
  Json.Reader.record fields fun (success, rates, _) => { success, rates }

end RatesAnswer

namespace ExchangeRates

/-- The path and the query of a request for the rates of a reference currency and others. -/
def request (url : Url) (reference : String) (others : List String) : Http.Request :=
  let asked := (url.addPair "base" reference).addPair "symbols" (String.intercalate "," others)
  { path := String.ofList asked.target }

/-- The rates that a response brings. -/
def ratesOf (response : Http.Response) : Outcome (List (String × Binary64)) :=
  if response.status.isClientError ∨ response.status.isServerError then
    .error (.transportUnavailable .ratesStatus)
  else
    match Json.Reader.whole RatesAnswer.fromJson response.body with
    | .error _ => .error (.transportUnavailable .ratesBody)
    | .ok answer =>
      if answer.success then .ok answer.rates else .error (.conversionFailure .serviceFailure)

/-- A rate that can be stored. -/
def usable? (rates : List (String × Binary64)) (code : String) : Option Binary64 :=
  (rates.lookup code).filter fun rate => rate.isFinite ∧ rate.isPositive

/-- The rows of the currencies behind the reference currency, from an id on, as far as there are
rates. -/
def otherRows (rates : List (String × Binary64)) (id : Nat) : List String → List Currency
  | [] => []
  | code :: codes =>
    match usable? rates code with
    | some rate => { id, code, rate } :: otherRows rates (id + 1) codes
    | none => otherRows rates (id + 1) codes

def batch (rates : List (String × Binary64)) (reference : String) (others : List String) :
    List Currency :=
  { id := 0, code := reference, rate := Binary64.one } :: otherRows rates 1 others

/-- Asks the service once and stores what it answers; tells how many rates were stored. -/
def refresh (url : Url) (codes : List String) (peer : Http.Peer) (store : Store) :
    Outcome (Nat × Store) × Http.Peer :=
  match codes with
  | [] => (.error (.config .nothingToFetch), peer)
  | reference :: others =>
    match Http.Peer.send (request url reference others) peer with
    | (none, peer) => (.error (.transportUnavailable .ratesRequest), peer)
    | (some response, peer) =>
      let result := do
        let rates ← ratesOf response
        let rows := batch rates reference others
        let store ← store.storeRates rows
        .ok (rows.length, store)
      (result, peer)

end ExchangeRates
end ExpenseLedger
