import ExpenseLedger.Money.Conversion
import ExpenseLedger.Store.Tables

/-!
# The currency table

Currencies are found by id or by code, and their rates are stored in batches: a batch with any
unusable row is refused as a whole. The rate of a currency is whatever was stored last, checked
once more when it is used.
-/

namespace ExpenseLedger
namespace Store

def currency (store : Store) (id : Int) : Outcome Currency := do
  store.reach .queryCurrency [.currencies]
  match store.currency? id with
  | some currency => .ok currency
  | none => .error (.currencyNotFound (integerText id))

def currencyOfCode (store : Store) (code : String) : Outcome Currency := do
  store.reach .queryCurrency [.currencies]
  match store.currencies.find? fun currency => currency.code = code with
  | some currency => .ok currency
  | none => .error (.currencyNotFound code)

def listCurrencies (store : Store) : Outcome (List Currency) := do
  store.reach .listCurrencies [.currencies]
  .ok store.currencies

def codeTaken (store : Store) (currency : Currency) : Bool :=
  store.currencies.any fun other => other.code = currency.code ∧ other.id ≠ currency.id

/-- Stores one currency under its id. -/
def storeRate (store : Store) (currency : Currency) : Outcome Store := do
  if ¬(currency.rate.isFinite ∧ currency.rate.isPositive) then
    .error (.database (.refusedRate currency.rate currency.code))
  else
    store.reach .storeRates [.currencies]
    if store.codeTaken currency then
      .error (.database (.failed .storeRates))
    else
      .ok { store with currencies := Rows.put Currency.id currency store.currencies }

/-- Stores a batch of currencies in order, all of them or none. -/
def storeRates (store : Store) (batch : List Currency) : Outcome Store :=
  batch.foldlM storeRate store

/-- The usable rate of a currency. -/
def rate (store : Store) (id : Int) : Outcome Rate := do
  let currency ← store.currency id
  Error.ofRate (Rate.ofBinary64 currency.rate)

def toBase (store : Store) (amount id : Int) : Outcome Int := do
  let rate ← store.rate id
  Error.ofConversion (Conversion.toBase amount rate)

def fromBase (store : Store) (amount id : Int) : Outcome Int := do
  let rate ← store.rate id
  Error.ofConversion (Conversion.fromBase amount rate)

end Store
end ExpenseLedger
