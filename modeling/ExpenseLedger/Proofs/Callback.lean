import ExpenseLedger.Commands.Working
import ExpenseLedger.Proofs.Json.Codec

/-!
# Replies through the callback endpoint

A worker that posts a reply to an endpoint that listens does the same as one that hands the reply
to the desk itself.
-/

namespace ExpenseLedger

variable {reply : Reply}

/-- The endpoint finds the reply in what a worker posts. -/
theorem Callback.Post.reply_toText (fits : reply.Fits) :
    Post.reply { method := "POST", target := reportPath, contentType := some "application/json"
                 body := reply.toJson.toText } = .ok reply := by
  have path (method body : String) (contentType : Option String) :
      Post.path { method, target := reportPath, contentType, body } = reportPath := by
    have plain : (reportPath.toList.takeWhile fun c => c != '?') = reportPath.toList := by decide
    unfold Post.path
    rw [plain, String.ofList_toList]
  have json (method target body : String) :
      Post.saysJson { method, target, contentType := some "application/json", body } = true := by
    have isJson : ((some "application/json").bind Http.MediaType.ofText?).map
        Http.MediaType.isJson = some true := by decide +kernel
    obtain ⟨mediaType, found, json⟩ := Option.map_eq_some_iff.1 isJson
    unfold Post.saysJson
    rw [found]
    exact json
  unfold Post.reply
  simp only [path, json, Reply.whole_toText fits, ne_eq, not_true_eq_false, if_false]

/-- What the endpoint answers once the reply has been handed on is understood. -/
theorem Callback.acknowledgement_toResponse (reply : Reply) (ack : Ack) :
    acknowledgement (Receipt.accepted reply ack).toResponse = .ok ack := by
  have success : Status.isServerError ⟨200⟩ = false ∧ Status.isSuccess ⟨200⟩ = true := by decide
  unfold acknowledgement Receipt.toResponse
  simp only [success, Ack.whole_toResponse, Bool.false_eq_true, not_true_eq_false, if_false]

section Post

variable {σ : Type} {sink : Reply → σ → Outcome Ack × σ}
  {send : Http.Request → σ → Option Http.Response × σ} {state : σ}

/-- What is posted arrives at an endpoint with this sink, and its answer comes back. A server that refuses a
body for its size alone does not carry it. -/
def Callback.Carries (send : Http.Request → σ → Option Http.Response × σ)
    (sink : Reply → σ → Outcome Ack × σ) (reply : Reply) (state : σ) : Prop :=
  let request : Http.Request := { path := reportPath, body := reply.toJson.toText }
  let served := serve sink
    { method := "POST", target := request.path, contentType := some "application/json"
      body := request.body } state
  send request state = (some served.1.toResponse, served.2)

/-- The sink gets the reply that was posted, and what it acknowledges is understood. -/
theorem Callback.post_of_carries (fits : reply.Fits) (carries : Carries send sink reply state)
    (address : String) :
    (post send address reply state).2 = (sink reply state).2 ∧
      ∀ ack, (sink reply state).1 = .ok ack → (post send address reply state).1 = .ok ack := by
  unfold Carries at carries
  unfold post
  rw [carries]
  simp only [serve, Post.reply_toText fits]
  cases handed : sink reply state with
  | mk result state =>
    cases result with
    | error e => exact ⟨rfl, nofun⟩
    | ok ack =>
      refine ⟨rfl, fun ack' same => ?_⟩
      cases same
      exact acknowledgement_toResponse reply ack

end Post

theorem retry_of_ok {σ α : Type} {budget : Nat} {what : String} {op : σ → Outcome α × σ}
    {state after : σ} {a : α} (h : op state = (.ok a, after)) :
    retry budget what op state = (.ok a, after) := by
  unfold retry
  cases budget <;> simp only [retryFrom, h]

theorem Machine.callbackTo_eq_toDesk (address : Net.SocketAddress) (fits : reply.Fits)
    (desk : Desk) : callbackTo address true reply desk = Callback.toDesk reply desk := by
  have handed : Callback.toDesk reply desk = (.ok (desk.deliver reply).1, (desk.deliver reply).2) :=
    rfl
  rw [handed]
  apply retry_of_ok
  have acknowledged : (Callback.toDesk reply desk).1 = .ok (desk.deliver reply).1 := rfl
  refine Prod.ext ((Callback.post_of_carries fits ?carries address.toText).2 _ acknowledged)
    (Callback.post_of_carries fits ?carries address.toText).1
  rfl

end ExpenseLedger
