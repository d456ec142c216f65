import ExpenseLedger.Calendar.Instant
import ExpenseLedger.Numeric.IntegerText

/-!
# Keys of cached reports

A report is cached under its user and the start of its window in whole seconds. The colon after
the user keeps the keys of different users apart, and all keys of one user between its prefix
and the same prefix with a semicolon, the next character, for the colon.
-/

namespace ExpenseLedger
namespace CacheKey

/-- What the keys of a user begin with. -/
def userPrefix (user : Int) : String :=
  String.ofList (integerDigits user ++ [':'])

def key (user : Int) (since : Instant) : String :=
  userPrefix user ++ integerText since.seconds

/-- The least text above all keys of a user. -/
def userEnd (user : Int) : String :=
  String.ofList (integerDigits user ++ [';'])

/-- The key lies in the range of a user's keys. -/
def inRangeOf (user : Int) (key : String) : Bool :=
  decide (userPrefix user ≤ key) && decide (key < userEnd user)

def startsWithUser (user : Int) (key : String) : Bool :=
  (userPrefix user).toList.isPrefixOf key.toList

end CacheKey
end ExpenseLedger
