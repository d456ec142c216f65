import ExpenseLedger.Error
import ExpenseLedger.Json.Codec
import ExpenseLedger.Url.Reading

/-!
# The configuration

A configuration file has the name of the application, a version, and settings that have defaults.
Settings that reading alone cannot check are checked in a fixed order, and the first fault is
told. What has been checked holds the address and the URL in their own forms.
-/

namespace ExpenseLedger

/-- A configuration as it is written. Times are in seconds, the limit of new users is in minor
units of the reference currency. -/
structure ConfigFile where
  application : String := "spendbook"
  version : Nat := 1
  reference : String := "RUB"
  currencies : List String := ["RUB", "USD", "EUR", "CNY"]
  ratesUrl : String := "https://api.exchangerate.host/latest"
  ratesRefresh : Nat := 3600
  requestTimeout : Nat := 10
  callbackAddress : String := "127.0.0.1:50051"
  reportTimeout : Nat := 30
  cacheLifetime : Nat := 600
  monthLimit : Int := 1000000
  deriving DecidableEq, Repr

/-- A configuration that has been checked. -/
structure Configuration where
  file : ConfigFile
  callbackAddress : Net.SocketAddress
  ratesUrl : Url
  deriving DecidableEq

namespace ConfigFile

def toJson (file : ConfigFile) : Json :=
  .object [("app_name", .text file.application), ("config_version", .integer file.version),
    ("reference_currency", .text file.reference),
    ("currencies", .array (file.currencies.map Json.text)), ("rates_url", .text file.ratesUrl),
    ("rates_refresh_secs", .integer file.ratesRefresh),
    ("request_timeout_secs", .integer file.requestTimeout),
    ("callback_addr", .text file.callbackAddress),
    ("report_timeout_secs", .integer file.reportTimeout),
    ("cache_ttl_secs", .integer file.cacheLifetime),
    ("default_month_limit", .integer file.monthLimit)]

def fromJson : Json.Reader ConfigFile :=
  let standard : ConfigFile := {}
  let text := Json.Reader.string
  let seconds := Json.Reader.natBelow 0x10000000000000000
  let fields :=
    .field "app_name" text none <|
    .field "config_version" (Json.Reader.natBelow 0x100) none <|
    .field "reference_currency" text (some standard.reference) <|
    .field "currencies" (Json.Reader.array text) (some standard.currencies) <|
    .field "rates_url" text (some standard.ratesUrl) <|
    .field "rates_refresh_secs" seconds (some standard.ratesRefresh) <|
    .field "request_timeout_secs" seconds (some standard.requestTimeout) <|
    .field "callback_addr" text (some standard.callbackAddress) <|
    .field "report_timeout_secs" seconds (some standard.reportTimeout) <|
    .field "cache_ttl_secs" seconds (some standard.cacheLifetime) <|
    .field "default_month_limit" Json.Reader.int64 (some standard.monthLimit) .done
  Json.Reader.record fields fun (application, version, reference, currencies, ratesUrl,
      ratesRefresh, requestTimeout, callbackAddress, reportTimeout, cacheLifetime, monthLimit, _) =>
    { application, version, reference, currencies, ratesUrl, ratesRefresh, requestTimeout
      callbackAddress, reportTimeout, cacheLifetime, monthLimit }

def toText (file : ConfigFile) : String :=
  file.toJson.toLines

/-- Reads the configuration of this application, at a path. -/
def ofText (path text : String) : Except ConfigFault ConfigFile :=
  match Json.Reader.whole fromJson text with
  | .error _ => .error (.unparsableFile path)
  | .ok file =>
    if file.application = ({} : ConfigFile).application then .ok file
    else .error (.foreignFile file.application)

/-- The first item of a list that is there a second time. -/
def firstRepeated? (seen : List String) : List String → Option String
  | [] => none
  | code :: codes => if seen.contains code then some code else firstRepeated? (code :: seen) codes

/-- The settings that have to be positive, in the order in which they are checked. -/
def positiveSettings (file : ConfigFile) : List (String × Int) :=
  [("cache_ttl_secs", file.cacheLifetime), ("rates_refresh_secs", file.ratesRefresh),
    ("request_timeout_secs", file.requestTimeout), ("report_timeout_secs", file.reportTimeout),
    ("default_month_limit", file.monthLimit)]

/-- Checks the currencies: there are some, none twice, the reference currency first. -/
def checkCurrencies (file : ConfigFile) : Except ConfigFault Unit :=
  match file.currencies with
  | [] => .error .noCurrency
  | first :: _ =>
    match firstRepeated? [] file.currencies with
    | some code => .error (.repeatedCurrency code)
    | none =>
      if first = file.reference then .ok () else .error (.referenceNotFirst file.reference first)

def check (file : ConfigFile) : Except ConfigFault Configuration := do
  file.checkCurrencies
  if let some (name, _) := file.positiveSettings.find? fun (_, value) => value ≤ 0 then
    .error (.notPositive name)
  else
    match Net.SocketAddress.ofText? file.callbackAddress, Url.ofText? file.ratesUrl with
    | none, _ => .error (.invalidAddress file.callbackAddress)
    | _, none => .error (.invalidUrl file.ratesUrl)
    | some callbackAddress, some ratesUrl => .ok { file, callbackAddress, ratesUrl }

/-- A currency for each code at rate 1; its id is the place of the code. -/
def seed (file : ConfigFile) : List Currency :=
  file.currencies.zipIdx.map fun (code, id) => { id, code, rate := Binary64.one }

end ConfigFile
end ExpenseLedger
