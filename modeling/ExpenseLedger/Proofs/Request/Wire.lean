import ExpenseLedger.Proofs.Numeric.IntegerText
import ExpenseLedger.Proofs.Uuid
import ExpenseLedger.Request.Message

/-!
# Requests across the wire

A request arrives as it was sent, but for the fraction of its window start; and whatever a message
of a request is read as has its id, its user and its window. Messages can be spelled in more ways than
they are written, and what is read of any of them is written in one: `wire_format_canonical`.
-/

namespace ExpenseLedger
namespace Message

variable {request request' : ReportRequest}

theorem fitsInt64_of_representable {t : Instant} (shown : t.Representable) :
    FitsInt64 t.seconds := by
  obtain ⟨low, high⟩ := shown
  unfold Instant.minSeconds at low
  unfold Instant.maxSeconds at high
  constructor
  · unfold minInt64
    omega
  · unfold maxInt64
    omega

theorem decode_encode (fits : FitsInt64 request.user) (shown : request.since.Representable) :
    (encode request).decode = .ok { request with since := request.since.floor } := by
  have seconds := fitsInt64_of_representable shown
  have since : Instant.ofSeconds? request.since.seconds = some request.since.floor :=
    if_pos shown
  unfold decode encode
  simp only [integerText, String.toList_ofList, Uuid.ofText?_toText,
    readInt64_integerDigits fits, readInt64_integerDigits seconds, since]

theorem decode_encode_eq_ok (h : (encode request).decode = .ok request') :
    request'.id = request.id ∧ request'.user = request.user ∧
      request'.since.seconds = request.since.seconds := by
  unfold decode encode at h
  simp only [integerText, String.toList_ofList, Uuid.ofText?_toText] at h
  cases user : readInt64 (integerDigits request.user) with
  | error fault =>
    simp only [user] at h
    cases h
  | ok id =>
    cases start : readInt64 (integerDigits request.since.seconds) with
    | error fault =>
      simp only [user, start] at h
      cases h
    | ok seconds =>
      simp only [user, start] at h
      unfold Instant.ofSeconds? at h
      split at h
      · cases h
      · next since read =>
        cases h
        split at read
        · cases read
          exact ⟨rfl, eq_of_readInt64_integerDigits user, eq_of_readInt64_integerDigits start⟩
        · cases read

/-- Whether the message of a request can be read back does not depend on its id. -/
theorem isOk_decode_encode (request : ReportRequest) (id : Uuid) :
    (encode { request with id }).decode.isOk = (encode request).decode.isOk := by
  unfold decode encode
  simp only [integerText, String.toList_ofList, Uuid.ofText?_toText]
  cases readInt64 (integerDigits request.user) with
  | error fault => rfl
  | ok user =>
    cases readInt64 (integerDigits request.since.seconds) with
    | error fault => rfl
    | ok seconds =>
      simp only
      cases Instant.ofSeconds? seconds <;> rfl

/-! ## The canonical form -/

/-- The request as it arrives, with a window that begins at a whole second. -/
def arriving (request : ReportRequest) : ReportRequest :=
  { request with since := request.since.floor }

/-- What is read of a message is in range and arrives as it is. -/
theorem of_decode_eq_ok {message : Message} (h : message.decode = .ok request) :
    FitsInt64 request.user ∧ request.since.Representable ∧ arriving request = request := by
  unfold decode at h
  split at h
  · cases h
  · split at h
    · cases h
    · next user read =>
      split at h
      · cases h
      · split at h
        · cases h
        · next since found =>
          cases h
          unfold Instant.ofSeconds? at found
          split at found
          · next shown =>
            cases found
            exact ⟨fits_of_readInt64 read, shown, rfl⟩
          · cases found

/-- A message that cannot be read is refused as an internal error. -/
theorem exists_internal_of_decode {message : Message} {error : Error}
    (h : message.decode = .error error) : ∃ fault, error = .internal fault := by
  unfold decode at h
  repeat' split at h
  all_goals cases h
  all_goals exact ⟨_, rfl⟩

/-- A request in range is read back from its message as it arrives. Any message is refused as an internal
error, or else it is read as a request that is read back from its own message. Reading the message of a
request and writing what was read changes nothing, and requests with one message arrive as one. -/
theorem wire_format_canonical :
    (∀ request : ReportRequest, FitsInt64 request.user → request.since.Representable →
      (encode request).decode = .ok (arriving request) ∧
        encode (arriving request) = encode request) ∧
      (∀ message : Message, (∃ fault, message.decode = .error (.internal fault)) ∨
        ∃ request, message.decode = .ok request ∧ (encode request).decode = .ok request) ∧
      ∀ request request' : ReportRequest, encode request = encode request' →
        arriving request = arriving request' := by
  refine ⟨fun request fits shown => ⟨decode_encode fits shown, rfl⟩, fun message => ?_,
    fun request request' same => ?_⟩
  · cases read : message.decode with
    | error error =>
      obtain ⟨fault, rfl⟩ := exists_internal_of_decode read
      exact .inl ⟨fault, rfl⟩
    | ok request =>
      obtain ⟨fits, shown, whole⟩ := of_decode_eq_ok read
      refine .inr ⟨request, rfl, ?_⟩
      rw [decode_encode fits shown]
      exact congrArg _ whole
  · obtain ⟨ids, users, windows⟩ := Message.mk.inj same
    have id : request.id = request'.id := by
      have read := Uuid.ofText?_toText request.id
      rw [ids, Uuid.ofText?_toText] at read
      exact (Option.some.inj read).symm
    have user : request.user = request'.user := integerDigits_injective (String.ofList_injective users)
    have seconds : request.since.seconds = request'.since.seconds :=
      integerDigits_injective (String.ofList_injective windows)
    unfold arriving Instant.floor
    rw [id, user, seconds]

/-- A request of the least user, for a window that begins half a second before 1970. -/
def earlyRequest : ReportRequest where
  id := { value := 0x0123456789abcdeffedcba9876543210 }
  user := minInt64
  since := { seconds := -1, nanos := 500000000 }

theorem wire_format_canonical_early :
    FitsInt64 earlyRequest.user ∧ earlyRequest.since.Representable ∧
      (encode earlyRequest).decode = .ok { earlyRequest with since := .ofSeconds (-1) } := by
  have fits : FitsInt64 earlyRequest.user := by decide
  have shown : earlyRequest.since.Representable := by decide
  exact ⟨fits, shown, (wire_format_canonical.1 earlyRequest fits shown).1⟩

end Message
end ExpenseLedger
