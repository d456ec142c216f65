import ExpenseLedger.Report.Aggregate
import ExpenseLedger.Report.Desk
import ExpenseLedger.Store.Currencies
import ExpenseLedger.Store.Users

/-!
# Report calls

A report is answered from the cache, or else worked out by a worker: the call looks the report
up, reads the user and the rate, begins to wait, sends a request out, waits for the reply,
aggregates it and caches the result. Between any two of these steps other calls, writers,
workers and deliveries may act. A call that ends for any reason no longer waits.

The cache is a convenience: if it fails, the call goes on as if it had missed, or had stored.
-/

namespace ExpenseLedger

/-- How reports are made. Times are in milliseconds. -/
structure ReportSettings where
  publisher : Publisher
  cacheTtl : Nat := 600000
  timeout : Nat := 30000
  deriving DecidableEq

/-- How far a report call has come. -/
inductive CallStage where
  | begun
  | missed
  | userRead (currency : Int)
  | rated (rate : Rate)
  | registered (rate : Rate)
  | waiting (rate : Rate) (deadline : Int)
  | answered (rate : Rate) (rows : List ExpenseRow)
  | aggregated (report : Report)
  | finished (result : Outcome Report)

/-- A call for the report of a user since an instant. No two calls have one id. -/
structure ReportCall where
  id : Uuid
  user : Int
  since : Instant
  stage : CallStage := .begun

namespace ReportCall

def request (call : ReportCall) : ReportRequest :=
  { id := call.id, user := call.user, since := call.since }

def toStage (call : ReportCall) (stage : CallStage) : ReportCall :=
  { call with stage }

/-- The call ends, and no longer waits. -/
def finish (call : ReportCall) (result : Outcome Report) (desk : Desk) : ReportCall × Desk :=
  (call.toStage (.finished result), desk.leave call.id)

/-- The result of a call that has ended. -/
def result? (call : ReportCall) : Option (Outcome Report) :=
  match call.stage with
  | .finished result => some result
  | _ => none

/-- The next step of a call. One that waits in vain before its deadline stays where it is. -/
def step (settings : ReportSettings) (now : Int) (call : ReportCall) (desk : Desk) :
    ReportCall × Desk :=
  match call.stage with
  | .begun =>
    match desk.books.cachedReport now call.user call.since with
    | .ok (some report, books) => call.finish (.ok report) { desk with books }
    | .ok (none, books) => (call.toStage .missed, { desk with books })
    | .error _ => (call.toStage .missed, desk)
  | .missed =>
    match desk.books.store.user call.user with
    | .ok user => (call.toStage (.userRead user.currency), desk)
    | .error e => call.finish (.error e) desk
  | .userRead currency =>
    match desk.books.store.rate currency with
    | .ok rate => (call.toStage (.rated rate), desk)
    | .error e => call.finish (.error e) desk
  | .rated rate =>
    (call.toStage (.registered rate), desk.register { id := call.id, user := call.user })
  | .registered rate =>
    match desk.publish settings.publisher now call.request with
    | (.ok (), desk) => (call.toStage (.waiting rate (now + settings.timeout)), desk)
    | (.error e, desk) => call.finish (.error e) desk
  | .waiting rate deadline =>
    match desk.mailFor? call.id with
    | some reply => (call.toStage (.answered rate reply.expenses), desk.leave call.id)
    | none => if deadline ≤ now then call.finish (.error .cancelled) desk else (call, desk)
  | .answered rate rows =>
    match Report.aggregate rows rate with
    | .ok report => (call.toStage (.aggregated report), desk)
    | .error e => call.finish (.error e) desk
  | .aggregated report =>
    match desk.books.cacheReport now settings.cacheTtl call.user call.since report with
    | .ok books => call.finish (.ok report) { desk with books }
    | .error _ => call.finish (.ok report) desk
  | .finished _ => (call, desk)

/-- The caller of a call that waits gives up. -/
def cancel (call : ReportCall) (desk : Desk) : ReportCall × Desk :=
  match call.stage with
  | .waiting _ _ => call.finish (.error .cancelled) desk
  | _ => (call, desk)

/-- A number of steps of a call without anybody in between. -/
def steps (settings : ReportSettings) (now : Int) : Nat → ReportCall → Desk → ReportCall × Desk
  | 0, call, desk => (call, desk)
  | count + 1, call, desk =>
    let (call, desk) := call.step settings now desk
    steps settings now count call desk

/-- How many steps there are from the first stage to the last. -/
def stepCount : Nat := 8

def run (settings : ReportSettings) (now : Int) (call : ReportCall) (desk : Desk) :
    ReportCall × Desk :=
  steps settings now stepCount call desk

end ReportCall
end ExpenseLedger
