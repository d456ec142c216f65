import ExpenseLedger.Error
import ExpenseLedger.Http.MediaType
import ExpenseLedger.Http.Peer
import ExpenseLedger.Json.Codec

/-!
# The callback endpoint

Where workers push replies: `POST /report` with a reply as JSON. Whoever serves the endpoint
hands the reply on and tells the worker at once whether anybody was waiting for it. A request is
judged by its path first, then by its method, its media type and its body.
-/

namespace ExpenseLedger
namespace Callback

def reportPath : String := "/report"

/-- A request to the endpoint; the target is a path with an optional query. -/
structure Post where
  method : String
  target : String
  contentType : Option String
  body : String
  deriving DecidableEq, Repr

namespace Post

def path (post : Post) : String :=
  String.ofList (post.target.toList.takeWhile fun c => c != '?')

/-- The body is said to be JSON. -/
def saysJson (post : Post) : Bool :=
  match post.contentType.bind Http.MediaType.ofText? with
  | some mediaType => mediaType.isJson
  | none => false

/-- The reply in the body, or the status that refuses the request. -/
def reply (post : Post) : Except Status Reply :=
  if post.path ≠ reportPath then .error ⟨404⟩
  else if post.method ≠ "POST" then .error ⟨405⟩
  else if ¬post.saysJson then .error ⟨415⟩
  else
    match Json.Reader.whole Reply.fromJson post.body with
    | .ok reply => .ok reply
    | .error .malformed => .error ⟨400⟩
    | .error .mismatch => .error ⟨422⟩

end Post

/-- What the endpoint answers once the reply has been handed on. -/
inductive Receipt where
  | refused (status : Status)
  | accepted (reply : Reply) (ack : Ack)
  | failed (reply : Reply) (error : Error)
  deriving DecidableEq

namespace Receipt

/-- The answer as a response. A refusal has no body that matters. -/
def toResponse : Receipt → Http.Response
  | .refused status => { status, body := "" }
  | .accepted _ ack => { status := ⟨200⟩, body := ack.toResponse.toText }
  | .failed _ error => { status := ⟨500⟩, body := error.message }

end Receipt

/-- Serves one request with a sink that takes replies. -/
def serve {σ : Type} (sink : Reply → σ → Outcome Ack × σ) (post : Post) (state : σ) :
    Receipt × σ :=
  match post.reply with
  | .error status => (.refused status, state)
  | .ok reply =>
    match sink reply state with
    | (.ok ack, state) => (.accepted reply ack, state)
    | (.error e, state) => (.failed reply e, state)

end Callback
end ExpenseLedger
