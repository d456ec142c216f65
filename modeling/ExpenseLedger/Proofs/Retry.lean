import ExpenseLedger.Proofs.Json.Codec
import ExpenseLedger.Callback.Client
import Mathlib.Algebra.Order.Group.Nat
import Mathlib.Data.Nat.Find
import Mathlib.Logic.Function.Iterate

/-!
# How often an operation is called

Retrying calls an operation until an outcome is final or the budget is spent: a call that finds the
transport unavailable is the only one that leads to another. `retry_of_firstFinal` and
`retry_of_exhausted` say what becomes of any operation on any state. A script of outcomes, answered
one for each call, is one such operation; a reply that is posted to a peer is another, whose calls
are the posts that have been sent.
-/

namespace ExpenseLedger

/-- The transport was unavailable: the one kind of outcome that is not final. -/
def Outcome.Unavailable {α : Type} (outcome : Outcome α) : Prop :=
  ∃ fault, outcome = .error (.transportUnavailable fault)

/-- What holds at each place of a row before this one, and here no longer. -/
structure LastsUntil (p : ℕ → Prop) (k : ℕ) : Prop where
  ends : ¬p k
  before : ∀ i < k, p i

/-- Up to any place, what holds so far goes on or ends at some place. -/
theorem forall_or_exists_lastsUntil (p : ℕ → Prop) (n : ℕ) :
    (∀ i ≤ n, p i) ∨ ∃ k, LastsUntil p k := by
  classical
  by_cases ends : ∃ k, ¬p k
  · refine Or.inr ⟨Nat.find ends, Nat.find_spec ends, fun i below => ?_⟩
    exact not_not.1 (Nat.find_min ends below)
  · exact Or.inl fun i _ => not_exists_not.1 ends i

/-- The first outcome that is final. -/
def FirstFinal {α : Type} (outcomes : ℕ → Outcome α) (k : ℕ) : Prop :=
  LastsUntil (fun call => (outcomes call).Unavailable) k

section Calls

variable {σ α : Type} {what : String} {op : σ → Outcome α × σ} {start : σ} {budget k : ℕ}

/-- The state to which so many calls of an operation lead. -/
def stateAfter (op : σ → Outcome α × σ) (start : σ) (calls : ℕ) : σ :=
  (fun state => (op state).2)^[calls] start

/-- The outcomes of the calls of an operation, one after another. -/
def outcomesOf (op : σ → Outcome α × σ) (start : σ) (call : ℕ) : Outcome α :=
  (op (stateAfter op start call)).1

theorem FirstFinal.of_succ (first : FirstFinal (outcomesOf op start) (k + 1)) :
    FirstFinal (outcomesOf op (op start).2) k where
  ends := first.ends
  before := fun i below => first.before (i + 1) (Nat.succ_lt_succ below)

/-! ## One call -/

theorem retryFrom_of_final (final : ¬(op start).1.Unavailable) (spent budget : ℕ) :
    retryFrom what op spent budget start = op start := by
  cases called : op start with
  | mk outcome after =>
    rw [called] at final
    cases budget with
    | zero =>
      unfold retryFrom
      rw [called]
      split
      · next failed =>
        cases failed
        exact absurd ⟨_, rfl⟩ final
      · rfl
    | succ budget =>
      unfold retryFrom
      rw [called]
      split
      · next failed =>
        cases failed
        exact absurd ⟨_, rfl⟩ final
      · rfl

theorem retryFrom_zero_of_unavailable {fault : TransportFault}
    (failed : (op start).1 = .error (.transportUnavailable fault)) (spent : ℕ) :
    retryFrom what op spent 0 start =
      (.error (.transportUnavailable (.exhausted what (spent + 1) fault)), (op start).2) := by
  cases called : op start with
  | mk outcome after =>
    rw [called] at failed
    cases failed
    simp only [retryFrom, called]

theorem retryFrom_succ_of_unavailable (failed : (op start).1.Unavailable) (spent budget : ℕ) :
    retryFrom what op spent (budget + 1) start =
      retryFrom what op (spent + 1) budget (op start).2 := by
  obtain ⟨fault, failed⟩ := failed
  cases called : op start with
  | mk outcome after =>
    rw [called] at failed
    cases failed
    simp only [retryFrom, called]

/-! ## All calls -/

/-- The first final outcome, if the budget reaches it, is the result. -/
theorem retryFrom_of_firstFinal (spent : ℕ) (first : FirstFinal (outcomesOf op start) k)
    (within : k ≤ budget) : retryFrom what op spent budget start =
      (outcomesOf op start k, stateAfter op start (k + 1)) := by
  -- Each call that fails uses up one retry and one place before the first final outcome.
  induction k generalizing start spent budget with
  | zero => exact retryFrom_of_final first.ends spent budget
  | succ k ih =>
    cases budget with
    | zero => exact absurd within (Nat.not_succ_le_zero k)
    | succ budget =>
      have failed : (op start).1.Unavailable := first.before 0 k.succ_pos
      rw [retryFrom_succ_of_unavailable failed,
        ih (spent + 1) first.of_succ (Nat.le_of_succ_le_succ within)]
      rfl

/-- Where every call within the budget fails, the last failure and the number of calls are told. -/
theorem retryFrom_of_exhausted (what : String) (spent : ℕ)
    (failing : ∀ i ≤ budget, (outcomesOf op start i).Unavailable) :
    ∃ last, outcomesOf op start budget = .error (.transportUnavailable last) ∧
      retryFrom what op spent budget start =
        (.error (.transportUnavailable (.exhausted what (spent + budget + 1) last)),
          stateAfter op start (budget + 1)) := by
  induction budget generalizing start spent with
  | zero =>
    obtain ⟨last, failed⟩ := failing 0 (Nat.le_refl 0)
    exact ⟨last, failed, retryFrom_zero_of_unavailable failed spent⟩
  | succ budget ih =>
    have now : (op start).1.Unavailable := failing 0 (Nat.zero_le _)
    have later : ∀ i ≤ budget, (outcomesOf op (op start).2 i).Unavailable :=
      fun i le => failing (i + 1) (Nat.succ_le_succ le)
    obtain ⟨last, failed, rest⟩ := ih (spent + 1) later
    refine ⟨last, failed, ?_⟩
    rw [retryFrom_succ_of_unavailable now, rest, Nat.add_right_comm spent 1 budget]
    rfl

theorem retry_of_firstFinal (what : String) (first : FirstFinal (outcomesOf op start) k)
    (within : k ≤ budget) :
    retry budget what op start = (outcomesOf op start k, stateAfter op start (k + 1)) :=
  retryFrom_of_firstFinal 0 first within

theorem retry_of_exhausted (what : String)
    (failing : ∀ i ≤ budget, (outcomesOf op start i).Unavailable) :
    ∃ last, outcomesOf op start budget = .error (.transportUnavailable last) ∧
      retry budget what op start =
        (.error (.transportUnavailable (.exhausted what (budget + 1) last)),
          stateAfter op start (budget + 1)) := by
  obtain ⟨last, failed, told⟩ := retryFrom_of_exhausted what 0 failing
  rw [Nat.zero_add] at told
  exact ⟨last, failed, told⟩

/-- The calls end with the first final outcome or with the budget, whichever comes first. -/
theorem state_retry (what : String) (first : FirstFinal (outcomesOf op start) k) :
    (retry budget what op start).2 = stateAfter op start (min k budget + 1) := by
  rcases Nat.le_total k budget with within | beyond
  · rw [retry_of_firstFinal what first within, Nat.min_eq_left within]
  · rcases Nat.eq_or_lt_of_le beyond with rfl | beyond
    · rw [retry_of_firstFinal what first (Nat.le_refl _), Nat.min_self]
    · obtain ⟨last, -, told⟩ :=
        retry_of_exhausted what fun i le => first.before i (Nat.lt_of_le_of_lt le beyond)
      rw [told, Nat.min_eq_right (Nat.le_of_lt beyond)]

end Calls

/-! ## Scripts -/

section Scripts

variable {α : Type} {budget k : ℕ}

/-- Answers each call with the next outcome of a script, and counts the calls. -/
def answerNext (script : ℕ → Outcome α) (calls : ℕ) : Outcome α × ℕ :=
  (script calls, calls + 1)

@[simp] theorem stateAfter_answerNext (script : ℕ → Outcome α) (start calls : ℕ) :
    stateAfter (answerNext script) start calls = start + calls := by
  induction calls generalizing start with
  | zero => rfl
  | succ calls ih => exact (ih (start + 1)).trans (Nat.succ_add_eq_add_succ start calls)

@[simp] theorem outcomesOf_answerNext (script : ℕ → Outcome α) :
    outcomesOf (answerNext script) 0 = script := by
  funext call
  show script (stateAfter (answerNext script) 0 call) = script call
  rw [stateAfter_answerNext, Nat.zero_add]

/-- The result tells how many calls were made in vain, and what the last of them came to. -/
def Outcome.TellsOf (result : Outcome α) (what : String) (calls : ℕ) (last : Outcome α) : Prop :=
  ∃ fault told, last = .error (.transportUnavailable fault) ∧
    result = .error (.transportUnavailable told) ∧ told = .exhausted what calls fault ∧
    told.message = what ++ " failed after " ++ integerText calls ++ " attempts: " ++
      (Error.transportUnavailable fault).message

theorem message_exhausted (what : String) (calls : ℕ) (fault : TransportFault) :
    (TransportFault.exhausted what calls fault).message =
      what ++ " failed after " ++ integerText calls ++ " attempts: " ++
        (Error.transportUnavailable fault).message :=
  String.append_assoc

theorem tellsOf_retry {σ : Type} {op : σ → Outcome α × σ} {start : σ} (what : String)
    (failing : ∀ i ≤ budget, (outcomesOf op start i).Unavailable) :
    (retry budget what op start).2 = stateAfter op start (budget + 1) ∧
      (retry budget what op start).1.TellsOf what (budget + 1) (outcomesOf op start budget) := by
  obtain ⟨last, failed, told⟩ := retry_of_exhausted what failing
  rw [told]
  exact ⟨rfl, last, .exhausted what (budget + 1) last, failed, rfl, rfl,
    message_exhausted what (budget + 1) last⟩

theorem retry_answerNext_of_firstFinal (what : String) {script : ℕ → Outcome α}
    (first : FirstFinal script k) :
    (retry budget what (answerNext script) 0).2 = min k budget + 1 ∧
      (k ≤ budget → (retry budget what (answerNext script) 0).1 = script k) := by
  have answered := outcomesOf_answerNext script
  rw [← answered] at first
  refine ⟨?_, fun within => ?_⟩
  · rw [state_retry what first, stateAfter_answerNext, Nat.zero_add]
  · rw [retry_of_firstFinal what first within, answered]

theorem retry_answerNext_of_unavailable (what : String) {script : ℕ → Outcome α}
    (failing : ∀ call ≤ budget, (script call).Unavailable) :
    (retry budget what (answerNext script) 0).2 = budget + 1 ∧
      (retry budget what (answerNext script) 0).1.TellsOf what (budget + 1) (script budget) := by
  have answered := outcomesOf_answerNext script
  rw [← answered] at failing
  have told := tellsOf_retry what failing
  rwa [stateAfter_answerNext, Nat.zero_add, answered] at told

end Scripts

/-! ## Replies -/

namespace Status

variable {status : Status}

theorem isSuccess_iff : status.isSuccess = true ↔ 200 ≤ status.code ∧ status.code < 300 := by
  unfold isSuccess
  rw [beq_iff_eq]
  omega

theorem isServerError_iff :
    status.isServerError = true ↔ 500 ≤ status.code ∧ status.code < 600 := by
  unfold isServerError
  rw [beq_iff_eq]
  omega

end Status

namespace Callback

/-- The answers after which a reply is posted again: none at all, the failure of a server, and a
success that says nothing that can be understood. -/
inductive Transient : Option Http.Response → Prop
  | unreachable : Transient none
  | serverError {response : Http.Response}
      (status : 500 ≤ response.status.code ∧ response.status.code < 600) :
      Transient (some response)
  | unreadable {response : Http.Response}
      (status : 200 ≤ response.status.code ∧ response.status.code < 300)
      (body : ∀ ack, Json.Reader.whole Ack.fromResponse response.body ≠ .ok ack) :
      Transient (some response)

/-- What any other answer settles. -/
inductive Settles : Option Http.Response → Outcome Ack → Prop
  | acknowledged {response : Http.Response} {ack : Ack}
      (status : 200 ≤ response.status.code ∧ response.status.code < 300)
      (body : Json.Reader.whole Ack.fromResponse response.body = .ok ack) :
      Settles (some response) (.ok ack)
  | rejected {response : Http.Response}
      (noSuccess : ¬(200 ≤ response.status.code ∧ response.status.code < 300))
      (noServerError : ¬(500 ≤ response.status.code ∧ response.status.code < 600)) :
      Settles (some response)
        (.error (.internal (.rejectedReport response.status response.body)))

theorem acknowledgement_cases (response : Http.Response) :
    (Transient (some response) ∧ (acknowledgement response).Unavailable) ∨
      Settles (some response) (acknowledgement response) := by
  unfold acknowledgement
  by_cases serverError : response.status.isServerError = true
  · rw [if_pos serverError]
    exact Or.inl ⟨.serverError (Status.isServerError_iff.1 serverError), _, rfl⟩
  · rw [if_neg serverError]
    rw [Status.isServerError_iff] at serverError
    by_cases success : response.status.isSuccess = true
    · rw [if_neg (not_not.2 success)]
      rw [Status.isSuccess_iff] at success
      cases body : Json.Reader.whole Ack.fromResponse response.body with
      | ok ack => exact Or.inr (.acknowledged success body)
      | error fault =>
        refine Or.inl ⟨.unreadable success fun ack read => ?_, _, rfl⟩
        rw [body] at read
        cases read
    · rw [if_pos success]
      rw [Status.isSuccess_iff] at success
      exact Or.inr (.rejected success serverError)

theorem Settles.not_transient {answer : Option Http.Response} {result : Outcome Ack}
    (settles : Settles answer result) : ¬Transient answer := by
  intro again
  cases settles with
  | acknowledged status body =>
    cases again with
    | serverError status' => omega
    | unreadable _ unreadable => exact unreadable _ body
  | rejected noSuccess noServerError =>
    cases again with
    | serverError status => exact noServerError status
    | unreadable status _ => exact noSuccess status

/-- An answer settles one thing. -/
theorem Settles.unique {answer : Option Http.Response} {result result' : Outcome Ack}
    (settles : Settles answer result) (settles' : Settles answer result') : result = result' := by
  cases settles with
  | acknowledged status body =>
    cases settles' with
    | acknowledged _ body' =>
      rw [body] at body'
      cases body'
      rfl
    | rejected noSuccess _ => exact absurd status noSuccess
  | rejected noSuccess _ =>
    cases settles' with
    | acknowledged status _ => exact absurd status noSuccess
    | rejected _ _ => rfl

/-- Whatever a settled post comes to, the transport was there. -/
theorem Settles.not_unavailable {answer : Option Http.Response} {result : Outcome Ack}
    (settles : Settles answer result) : ¬result.Unavailable := by
  rintro ⟨fault, failed⟩
  cases settles <;> cases failed

/-- The peer gives an answer, or none, to each request in turn; what has been sent is on record. -/
def answering (answers : ℕ → Option Http.Response) (request : Http.Request)
    (sent : List Http.Request) : Option Http.Response × List Http.Request :=
  (answers sent.length, sent ++ [request])

/-- The request that posts a reply. -/
def request (reply : Reply) : Http.Request :=
  { path := reportPath, body := reply.toJson.toText }

variable (answers : ℕ → Option Http.Response) (address : String) (reply : Reply)

theorem post_answering_snd (sent : List Http.Request) :
    (post (answering answers) address reply sent).2 = sent ++ [request reply] := by
  unfold post answering
  cases answers sent.length <;> rfl

theorem post_answering_cases (sent : List Http.Request) :
    (Transient (answers sent.length) ∧
        (post (answering answers) address reply sent).1.Unavailable) ∨
      Settles (answers sent.length) (post (answering answers) address reply sent).1 := by
  unfold post answering
  cases answer : answers sent.length with
  | none => exact Or.inl ⟨.unreachable, _, rfl⟩
  | some response => exact acknowledgement_cases response

/-- The posts of one reply are the same request over and over. -/
theorem stateAfter_post (posts : ℕ) :
    stateAfter (post (answering answers) address reply) [] posts =
      List.replicate posts (request reply) := by
  induction posts with
  | zero => rfl
  | succ posts ih =>
    show (fun sent => (post (answering answers) address reply sent).2)^[posts + 1] [] = _
    rw [Function.iterate_succ_apply', ← stateAfter, ih, post_answering_snd,
      List.replicate_succ']

theorem outcomesOf_post_cases (call : ℕ) :
    (Transient (answers call) ∧
        (outcomesOf (post (answering answers) address reply) [] call).Unavailable) ∨
      Settles (answers call) (outcomesOf (post (answering answers) address reply) [] call) := by
  have met := post_answering_cases answers address reply (List.replicate call (request reply))
  rw [List.length_replicate, ← stateAfter_post answers address reply call] at met
  exact met

theorem unavailable_post_iff (call : ℕ) :
    (outcomesOf (post (answering answers) address reply) [] call).Unavailable ↔
      Transient (answers call) := by
  rcases outcomesOf_post_cases answers address reply call with ⟨again, failed⟩ | settles
  · exact ⟨fun _ => again, fun _ => failed⟩
  · exact ⟨fun failed => absurd failed settles.not_unavailable,
      fun again => absurd again settles.not_transient⟩

/-- A reply is posted until the first answer that is not transient. -/
theorem firstFinal_post_iff {k : ℕ} :
    FirstFinal (outcomesOf (post (answering answers) address reply) []) k ↔
      LastsUntil (fun call => Transient (answers call)) k := by
  simp only [FirstFinal, unavailable_post_iff]

theorem sendReport_of_lastsUntil {k budget : ℕ}
    (lasts : LastsUntil (fun call => Transient (answers call)) k) :
    (sendReport budget (answering answers) address reply []).2 =
        List.replicate (min k budget + 1) (request reply) ∧
      (k ≤ budget →
        Settles (answers k) (sendReport budget (answering answers) address reply []).1) := by
  have first := (firstFinal_post_iff answers address reply).2 lasts
  refine ⟨(state_retry "report callback" first).trans (stateAfter_post answers address reply _),
    fun within => ?_⟩
  unfold sendReport
  rw [retry_of_firstFinal "report callback" first within]
  exact (outcomesOf_post_cases answers address reply k).resolve_left
    fun again => first.ends again.2

theorem sendReport_of_transient {budget : ℕ}
    (failing : ∀ call ≤ budget, Transient (answers call)) :
    (sendReport budget (answering answers) address reply []).2 =
        List.replicate (budget + 1) (request reply) ∧
      (sendReport budget (answering answers) address reply []).1.TellsOf "report callback"
        (budget + 1) (outcomesOf (post (answering answers) address reply) [] budget) := by
  have told := tellsOf_retry "report callback" fun call within =>
    (unavailable_post_iff answers address reply call).2 (failing call within)
  rwa [stateAfter_post] at told

theorem length_sendReport_le (budget : ℕ) :
    (sendReport budget (answering answers) address reply []).2.length ≤ budget + 1 := by
  rcases forall_or_exists_lastsUntil (fun call => Transient (answers call)) budget with
    failing | ⟨k, lasts⟩
  · rw [(sendReport_of_transient answers address reply failing).1, List.length_replicate]
  · rw [(sendReport_of_lastsUntil answers address reply lasts).1, List.length_replicate]
    exact Nat.succ_le_succ (Nat.min_le_right k budget)

end Callback

/-- An operation is called until the first outcome other than an unavailable transport, or until the
budget is spent, and then the last failure and the number of calls are told. For a reply that is
posted to a peer, that is the first answer other than none, the failure of a server and a success
that cannot be understood; the posts are the same request each time. -/
theorem retries_bounded (budget : ℕ) :
    (∀ {α : Type} (what : String) (script : ℕ → Outcome α),
      (∀ k, FirstFinal script k →
        (retry budget what (answerNext script) 0).2 = min k budget + 1 ∧
        (k ≤ budget → (retry budget what (answerNext script) 0).1 = script k)) ∧
      ((∀ call, (script call).Unavailable) →
        (retry budget what (answerNext script) 0).2 = budget + 1) ∧
      ((∀ call ≤ budget, (script call).Unavailable) →
        (retry budget what (answerNext script) 0).1.TellsOf what (budget + 1) (script budget))) ∧
    ∀ (address : String) (reply : Reply) (answers : ℕ → Option Http.Response),
      let sending := Callback.sendReport budget (Callback.answering answers) address reply []
      (∀ k, LastsUntil (fun call => Callback.Transient (answers call)) k →
        sending.2 = List.replicate (min k budget + 1) (Callback.request reply) ∧
        (k ≤ budget → Callback.Settles (answers k) sending.1)) ∧
      ((∀ call ≤ budget, Callback.Transient (answers call)) →
        sending.2 = List.replicate (budget + 1) (Callback.request reply) ∧
        sending.1.TellsOf "report callback" (budget + 1)
          (outcomesOf (Callback.post (Callback.answering answers) address reply) [] budget)) ∧
      sending.2.length ≤ budget + 1 := by
  constructor
  · intro α what script
    exact ⟨fun k first => retry_answerNext_of_firstFinal what first,
      fun failing => (retry_answerNext_of_unavailable what fun call _ => failing call).1,
      fun failing => (retry_answerNext_of_unavailable what failing).2⟩
  · intro address reply answers sending
    exact ⟨fun k lasts => Callback.sendReport_of_lastsUntil answers address reply lasts,
      Callback.sendReport_of_transient answers address reply,
      Callback.length_sendReport_le answers address reply budget⟩

/-- A script that fails twice, and a peer of whose answers the third is the first to be understood:
with three retries both come to an end at the third call, and with one retry neither does. -/
theorem retries_bounded_third :
    let script : ℕ → Outcome ℕ := fun call =>
      if call < 2 then .error (.transportUnavailable .ratesRequest) else .ok call
    let answers : ℕ → Option Http.Response := fun call =>
      if call = 0 then none
      else if call = 1 then some ⟨⟨503⟩, "later"⟩
      else some ⟨⟨200⟩, Ack.delivered.toResponse.toText⟩
    let sending budget :=
      Callback.sendReport budget (Callback.answering answers) "127.0.0.1:9300" ⟨default, 1, []⟩ []
    FirstFinal script 2 ∧ retry 3 "sampling" (answerNext script) 0 = (.ok 2, 3) ∧
      (∀ call ≤ 1, (script call).Unavailable) ∧
      (retry 1 "sampling" (answerNext script) 0).1.TellsOf "sampling" 2 (script 1) ∧
      LastsUntil (fun call => Callback.Transient (answers call)) 2 ∧
      (sending 3).1 = .ok .delivered ∧ (sending 3).2.length = 3 ∧ (sending 1).2.length = 2 := by
  intro script answers sending
  have failing : ∀ call ≤ 1, (script call).Unavailable := fun call within =>
    ⟨.ratesRequest, if_pos (Nat.lt_succ_of_le within)⟩
  have first : FirstFinal script 2 := by
    refine ⟨fun failed => ?_, fun call below => failing call (Nat.le_of_lt_succ below)⟩
    obtain ⟨fault, failed⟩ := failed
    cases failed
  have transient : ∀ call ≤ 1, Callback.Transient (answers call)
    | 0, _ => .unreachable
    | 1, _ => .serverError (by decide)
  have settles : Callback.Settles (answers 2) (.ok .delivered) :=
    .acknowledged (by decide) (Ack.whole_toResponse .delivered)
  have lasts : LastsUntil (fun call => Callback.Transient (answers call)) 2 :=
    ⟨settles.not_transient, fun call below => transient call (Nat.le_of_lt_succ below)⟩
  have scripted := ((retries_bounded 3).1 "sampling" script).1 2 first
  have posted := ((retries_bounded 3).2 "127.0.0.1:9300" ⟨default, 1, []⟩ answers).1 2 lasts
  have spent := ((retries_bounded 1).2 "127.0.0.1:9300" ⟨default, 1, []⟩ answers).2.1 transient
  refine ⟨first, Prod.ext (scripted.2 (by decide)) scripted.1, failing,
    ((retries_bounded 1).1 "sampling" script).2.2 failing, lasts,
    (posted.2 (by decide)).unique settles, congrArg List.length posted.1,
    congrArg List.length spent.1⟩

end ExpenseLedger
