import ExpenseLedger.Error
import ExpenseLedger.Request.Basic

/-!
# Requests on the wire

A request travels as three texts: its id, the user as the key, and the start of the window in
whole seconds as the value. A message that is not of this form can never be answered.
-/

namespace ExpenseLedger

structure Message where
  id : String
  key : String
  value : String
  deriving DecidableEq, Repr, Inhabited

namespace Message

/-- The message of a request. The fraction of its window start is dropped. -/
def encode (request : ReportRequest) : Message where
  id := request.id.toText
  key := integerText request.user
  value := integerText request.since.seconds

/-- The request of a message. Id, key and value are checked in this order. -/
def decode (message : Message) : Outcome ReportRequest :=
  match Uuid.ofText? message.id with
  | none => .error (.internal (.malformedId message.id))
  | some id =>
    match readInt64 message.key.toList with
    | .error fault => .error (.internal (.malformedKey message.key fault))
    | .ok user =>
      match readInt64 message.value.toList with
      | .error fault => .error (.internal (.malformedValue message.value fault))
      | .ok seconds =>
        match Instant.ofSeconds? seconds with
        | none => .error (.internal (.windowOutOfRange seconds))
        | some since => .ok { id, user, since }

end Message
end ExpenseLedger
