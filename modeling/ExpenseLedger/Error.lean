import ExpenseLedger.Http.Status
import ExpenseLedger.Money.Amount
import ExpenseLedger.Money.Conversion

/-!
# Errors

Every way an operation can fail, as a cause, and the wording of each in one place. Conditions of
the domain have constructors of their own; failures of the infrastructure are grouped by the
layer they come from. A `described` cause carries the words of a collaborator that is not part
of the library.
-/

namespace ExpenseLedger

/-- Pieces of a chain of contexts, the outermost first. -/
def joinChain (links : List String) : String :=
  String.intercalate ": " links

/-- Why an amount is refused. -/
inductive AmountFault where
  | notPositive (amount : Amount)
  | tooSmallToRecord (amount : Amount)
  | limitBelowOneUnit (amount : Amount)
  | limitTooSmall (amount : Amount)
  | described (text : String)
  deriving DecidableEq

def AmountFault.message : AmountFault → String
  | .notPositive amount => amount.toText ++ " is not positive"
  | .tooSmallToRecord amount => amount.toText ++ " is too small to record"
  | .limitBelowOneUnit amount => "limit " ++ amount.toText ++ " must be at least 0.01"
  | .limitTooSmall amount => "limit " ++ amount.toText ++ " is too small"
  | .described text => text

/-- Why a conversion, or a sum of converted amounts, fails. -/
inductive ConversionFault where
  | unusableRate (fault : Rate.Fault)
  | overflow (fault : Conversion.Overflow)
  | categoryTotal (name : String)
  | reportTotal
  | serviceFailure
  | described (text : String)
  deriving DecidableEq

def ConversionFault.message : ConversionFault → String
  | .unusableRate fault => fault.message
  | .overflow fault => fault.message
  | .categoryTotal name => "total of '" ++ name ++ "' overflows"
  | .reportTotal => "report total is out of range"
  | .serviceFailure => "exchange rate service reported failure"
  | .described text => text

inductive QueueTask where
  | count
  | enqueue
  | claim
  | acknowledge
  deriving DecidableEq, Repr

def QueueTask.message : QueueTask → String
  | .count => "Failed to count queued report requests"
  | .enqueue => "Failed to enqueue report request"
  | .claim => "Failed to claim report request"
  | .acknowledge => "Failed to acknowledge report request"

/-- Why a message, a callback or a fetch does not get through. -/
inductive TransportFault where
  | queue (task : QueueTask)
  | unreachable (url : String)
  | callbackStatus (status : Status)
  | callbackResponse
  | cannotBind (address : String)
  | ratesRequest
  | ratesStatus
  | ratesBody
  | exhausted (what : String) (attempts : Nat) (last : TransportFault)
  | described (text : String)
  deriving DecidableEq

/-- What the wording of every transport fault begins with. -/
def TransportFault.label : String := "transport unavailable: "

/-- The wording of a transport fault, without its label. -/
def TransportFault.message : TransportFault → String
  | .queue task => task.message
  | .unreachable url => "Unable to reach " ++ url
  | .callbackStatus status => "callback returned " ++ status.toText
  | .callbackResponse => "Invalid callback response"
  | .cannotBind address => "Unable to bind report callback server to " ++ address
  | .ratesRequest => "Exchange rate request failed"
  | .ratesStatus => "Exchange rate service returned an error"
  | .ratesBody => "Invalid exchange rate response"
  | .exhausted what attempts last =>
    what ++ " failed after " ++ integerText attempts ++ " attempts: " ++ label ++ last.message
  | .described text => text

inductive Statement where
  | queryCurrency
  | listCurrencies
  | storeRates
  | insertUser
  | queryUser
  | deleteUser
  | changeCurrency
  | changeLimit
  | resetLimit
  | resetAllLimits
  | queryCategory
  | insertCategory
  | chargeLimit
  | insertExpense
  | queryExpenses
  | readCache
  | writeCache
  | clearCache
  deriving DecidableEq, Repr

def Statement.message : Statement → String
  | .queryCurrency => "Failed to query currency"
  | .listCurrencies => "Failed to list currencies"
  | .storeRates => "Failed to upsert currency rates"
  | .insertUser => "Failed to insert user"
  | .queryUser => "Failed to query user"
  | .deleteUser => "Failed to delete user"
  | .changeCurrency => "Failed to update user currency"
  | .changeLimit => "Failed to update user limit"
  | .resetLimit => "Failed to reset user limit"
  | .resetAllLimits => "Failed to reset limits"
  | .queryCategory => "Failed to query category"
  | .insertCategory => "Failed to insert category"
  | .chargeLimit => "Failed to decrement monthly limit"
  | .insertExpense => "Failed to insert expense"
  | .queryExpenses => "Failed to query expenses"
  | .readCache => "Failed to read report cache"
  | .writeCache => "Failed to write report cache"
  | .clearCache => "Failed to invalidate report cache"

inductive DatabaseFault where
  | failed (statement : Statement)
  | refusedRate (rate : Binary64) (code : String)
  | missingFile (path : String)
  | existingFile (path : String)
  | cannotOpen (path : String)
  | unreadableVersion
  | noVersion
  | newerVersion (version supported : Int)
  | missingMigration (version current target : Int)
  | failedMigration
  | described (chain : List String)
  deriving DecidableEq

def DatabaseFault.chain : DatabaseFault → List String
  | .failed statement => [statement.message]
  | .refusedRate rate code =>
    [Statement.storeRates.message, "Refusing to store rate " ++ rate.toText ++ " for " ++ code]
  | .missingFile path => ["Database file " ++ path ++ " does not exist"]
  | .existingFile path => ["Database file " ++ path ++ " already exists"]
  | .cannotOpen path => ["Unable to open database " ++ path]
  | .unreadableVersion => ["Failed to query schema version"]
  | .noVersion => ["The schema_version table is empty"]
  | .newerVersion version supported =>
    ["Database schema version " ++ integerText version ++ " is newer than supported version " ++
      integerText supported]
  | .missingMigration version current target =>
    ["Migration " ++ integerText version ++ " is required to go from version " ++
      integerText current ++ " to " ++ integerText target ++ " but is missing"]
  | .failedMigration => ["Failed to execute migration SQL"]
  | .described chain => chain

/-- What is wrong with a home directory or its configuration. -/
inductive ConfigFault where
  | cannotMakeHome (path : String)
  | missingHome (path : String)
  | missingFile (path : String)
  | unreadableFile (path : String)
  | unwritableFile (path : String)
  | unparsableFile (path : String)
  | foreignFile (application : String)
  | initialized (root : String)
  | noCurrency
  | repeatedCurrency (code : String)
  | referenceNotFirst (reference first : String)
  | notPositive (setting : String)
  | invalidAddress (text : String)
  | invalidUrl (text : String)
  | nothingToFetch
  | described (chain : List String)
  deriving DecidableEq

def ConfigFault.chain : ConfigFault → List String
  | .cannotMakeHome path =>
    ["Unable to create the spendbook home directory", "Unable to create directory " ++ path]
  | .missingHome path => ["Spendbook home is missing", "Unable to resolve path " ++ path]
  | .missingFile path => ["The config file is missing '" ++ path ++ "'"]
  | .unreadableFile path => ["Failed to read file at " ++ path]
  | .unwritableFile path => ["Unable to write config file", "Unable to write to " ++ path]
  | .unparsableFile path => ["Failed to parse config file at " ++ path]
  | .foreignFile application =>
    ["Invalid app_name in config file: expected 'spendbook', got '" ++ application ++ "'"]
  | .initialized root => ["'" ++ root ++ "' is already initialized"]
  | .noCurrency => ["At least one currency must be configured"]
  | .repeatedCurrency code => ["Currency '" ++ code ++ "' is configured twice"]
  | .referenceNotFirst reference first =>
    ["The reference currency '" ++ reference ++
      "' must be the first configured currency, found '" ++ first ++ "'"]
  | .notPositive setting => [setting ++ " must be greater than zero"]
  | .invalidAddress text => ["Invalid callback_addr '" ++ text ++ "'"]
  | .invalidUrl text => ["Invalid rates_url '" ++ text ++ "'"]
  | .nothingToFetch => ["No currencies configured"]
  | .described chain => chain

/-- Failures that no other group takes in. -/
inductive InternalFault where
  | malformedId (raw : String)
  | malformedKey (raw : String) (fault : IntegerFault)
  | malformedValue (raw : String) (fault : IntegerFault)
  | windowOutOfRange (seconds : Int)
  | unreadableCache
  | rejectedReport (status : Status) (body : String)
  | described (chain : List String)
  deriving DecidableEq

def InternalFault.chain : InternalFault → List String
  | .malformedId raw => ["malformed message correlation id '" ++ raw ++ "'"]
  | .malformedKey raw fault => ["malformed message key '" ++ raw ++ "': " ++ fault.message]
  | .malformedValue raw fault => ["malformed message value '" ++ raw ++ "': " ++ fault.message]
  | .windowOutOfRange seconds =>
    ["window-start " ++ integerText seconds ++ " is out of range"]
  | .unreadableCache => ["Cached report is not valid JSON"]
  | .rejectedReport status body =>
    ["callback rejected the report with " ++ status.toText ++ ": " ++ body]
  | .described chain => chain

inductive Error where
  | limitExceeded
  | categoryNotFound (name : String)
  | currencyNotFound (currency : String)
  | userNotFound (user : Int)
  | invalidAmount (fault : AmountFault)
  | conversionFailure (fault : ConversionFault)
  | transportUnavailable (fault : TransportFault)
  | cancelled
  | database (fault : DatabaseFault)
  | config (fault : ConfigFault)
  | internal (fault : InternalFault)
  deriving DecidableEq

namespace Error

def message : Error → String
  | .limitExceeded => "monthly limit exceeded"
  | .categoryNotFound name => "category '" ++ name ++ "' not found"
  | .currencyNotFound currency => "currency '" ++ currency ++ "' not found"
  | .userNotFound user => "user " ++ integerText user ++ " not found"
  | .invalidAmount fault => "invalid amount: " ++ fault.message
  | .conversionFailure fault => "currency conversion failed: " ++ fault.message
  | .transportUnavailable fault => TransportFault.label ++ fault.message
  | .cancelled => "report request cancelled"
  | .database fault => "database error: " ++ joinChain fault.chain
  | .config fault => "configuration error: " ++ joinChain fault.chain
  | .internal fault => joinChain fault.chain

/-- Trying again later may help. -/
def isTransient : Error → Bool
  | .transportUnavailable _ => true
  | .cancelled => true
  | _ => false

/-- The number that is no rate, as an error. -/
def ofRate {α : Type} : Except Rate.Fault α → Except Error α
  | .ok a => .ok a
  | .error fault => .error (.conversionFailure (.unusableRate fault))

/-- The result that is out of range, as an error. -/
def ofConversion {α : Type} : Except Conversion.Overflow α → Except Error α
  | .ok a => .ok a
  | .error fault => .error (.conversionFailure (.overflow fault))

end Error

abbrev Outcome (α : Type) := Except Error α

end ExpenseLedger
