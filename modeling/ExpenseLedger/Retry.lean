import ExpenseLedger.Error
import ExpenseLedger.Numeric.Power

/-!
# Bounded retries

An operation that fails because the transport is unavailable is tried again, up to a budget;
every other outcome is final. The delay between attempts doubles up to a limit.
-/

namespace ExpenseLedger

/-- How often and how fast an operation is tried again. Delays are in milliseconds. -/
structure RetryPolicy where
  maxRetries : Nat := 3
  baseDelay : Nat := 200
  maxDelay : Nat := 5000
  deriving DecidableEq, Repr

namespace RetryPolicy

/-- The largest factor by which a delay grows. -/
def maxFactor : Nat := 0xffffffff

/-- The factor by which the delay before a retry has grown; retries are counted from zero. -/
def growth (attempt : Nat) : Nat :=
  if attempt < 32 then twoTo attempt else maxFactor

/-- The delay before a retry. -/
def delay (policy : RetryPolicy) (attempt : Nat) : Nat :=
  min (policy.baseDelay * growth attempt) policy.maxDelay

end RetryPolicy

/-- Runs an operation on a state after `spent` failed attempts, with `budget` retries left. -/
def retryFrom {σ α : Type} (what : String) (op : σ → Outcome α × σ) (spent : Nat) :
    Nat → σ → Outcome α × σ
  | 0, state =>
    match op state with
    | (.error (.transportUnavailable fault), state) =>
      (.error (.transportUnavailable (.exhausted what (spent + 1) fault)), state)
    | result => result
  | budget + 1, state =>
    match op state with
    | (.error (.transportUnavailable _), state) => retryFrom what op (spent + 1) budget state
    | result => result

/-- Runs an operation on a state until its outcome is final or the retries are used up. -/
def retry {σ α : Type} (budget : Nat) (what : String) (op : σ → Outcome α × σ) (state : σ) :
    Outcome α × σ :=
  retryFrom what op 0 budget state

/-- Changes a state if the change is not refused; tells whether it was. -/
def tentatively {σ : Type} (change : σ → Outcome σ) (state : σ) : Outcome Unit × σ :=
  match change state with
  | .ok state => (.ok (), state)
  | .error e => (.error e, state)

end ExpenseLedger
