import ExpenseLedger.Callback.Endpoint
import ExpenseLedger.Retry

/-!
# The callback client

A worker posts a reply to the endpoint. An endpoint that cannot be reached, that fails or that
gives an answer nobody understands is tried again; any other refusal is final.
-/

namespace ExpenseLedger
namespace Callback

/-- What a response to a reply means. -/
def acknowledgement (response : Http.Response) : Outcome Ack :=
  if response.status.isServerError then
    .error (.transportUnavailable (.callbackStatus response.status))
  else if ¬response.status.isSuccess then
    .error (.internal (.rejectedReport response.status response.body))
  else
    match Json.Reader.whole Ack.fromResponse response.body with
    | .ok ack => .ok ack
    | .error _ => .error (.transportUnavailable .callbackResponse)

def url (address : String) : String :=
  "http://" ++ address ++ reportPath

/-- Posts a reply once to an address, by a way of sending requests. -/
def post {σ : Type} (send : Http.Request → σ → Option Http.Response × σ) (address : String)
    (reply : Reply) (state : σ) : Outcome Ack × σ :=
  match send { path := reportPath, body := reply.toJson.toText } state with
  | (some response, state) => (acknowledgement response, state)
  | (none, state) => (.error (.transportUnavailable (.unreachable (url address))), state)

/-- Posts a reply to an address, with retries. -/
def sendReport {σ : Type} (maxRetries : Nat) (send : Http.Request → σ → Option Http.Response × σ)
    (address : String) (reply : Reply) (state : σ) : Outcome Ack × σ :=
  retry maxRetries "report callback" (post send address reply) state

end Callback
end ExpenseLedger
