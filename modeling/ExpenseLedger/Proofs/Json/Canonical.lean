import ExpenseLedger.Proofs.Cache
import ExpenseLedger.Proofs.Callback
import ExpenseLedger.Proofs.Json.Yields
import ExpenseLedger.Proofs.Rows

/-!
# Reports and replies in their canonical form

A report or a reply can be spelled in many ways. Whatever is read of one of them has numbers of 64 bits, so
that it is read back from the text in which it is written, and writing it anew leaves that text as it is. So
the endpoint hands on what a worker has posted, and a report comes out of the shared cache as it was put in.
-/

namespace ExpenseLedger

open Json Json.Reader

/-! ## Writing anew what was read -/

/-- The text in which a value is written that is read of a text. -/
def Json.rewrite {α : Type} (read : Reader α) (write : α → Json) (text : String) :
    Except Fault String :=
  (whole read text).map fun a => (write a).toText

section Rewrite

variable {α : Type} {read : Reader α} {write : α → Json} {P : α → Prop}

/-- If what is read is read back from its text, then that text is not changed by writing it anew. -/
theorem Json.rewrite_rewrite (yields : Yields read P)
    (back : ∀ a, P a → whole read (write a).toText = .ok a) {text text' : String}
    (h : rewrite read write text = .ok text') : rewrite read write text' = .ok text' := by
  unfold rewrite at h ⊢
  cases taken : whole read text with
  | error fault =>
    rw [taken] at h
    cases h
  | ok a =>
    rw [taken] at h
    cases h
    rw [back a (yields.whole taken)]
    rfl

end Rewrite

theorem Report.yields_fromJson : Yields Report.fromJson Report.Fits := by
  refine yields_map_of_insert yields_int64 (fun entry member => by cases member) ?_
  intro report name total fits isFit entry member
  rcases Rows.mem_put member with rfl | old
  · exact isFit
  · exact fits entry old

theorem ExpenseRow.yields_fromJson : Yields ExpenseRow.fromJson ExpenseRow.Fits :=
  yields_record
    (.field yields_int64 nofun <| .field (yields_any string) nofun <| .field yields_int64 nofun <|
      .field yields_int64 nofun .done)
    fun _ ⟨categoryId, _, time, amount, _⟩ => ⟨categoryId, time, amount⟩

theorem Reply.yields_fromJson : Yields Reply.fromJson Reply.Fits :=
  yields_record
    (.field (yields_any Uuid.fromJson) nofun <| .field yields_int64 nofun <|
      .field (yields_array ExpenseRow.yields_fromJson) nofun .done)
    fun _ ⟨_, user, expenses, _⟩ => ⟨user, expenses⟩

/-! ## Through the shared cache -/

namespace Store

variable {store : Store} {user : Int} {since : Instant} {report : Report}

/-- What the row of a key says is found until the row expires. -/
theorem cachedReport_of_get? (reached : store.reaches [.cachedReports] = true) {row : CachedReport}
    (found : Rows.get? CachedReport.key store.cachedReports (CacheKey.key user since) = some row)
    {now : Int} (live : now < row.expiresAt) (body : whole Report.fromJson row.body = .ok report) :
    store.cachedReport now user since = .ok (some report) := by
  have reach : store.reach .readCache [.cachedReports] = .ok () := reach_eq_ok.2 reached
  unfold cachedReport
  rw [reach]
  simp only [bind, Except.bind, found, if_pos live, body]

/-- A report that is kept is found until it expires. -/
theorem cachedReport_of_kept (reached : store.reaches [.cachedReports] = true) (fits : report.Fits)
    (now : Int) (ttl : Nat) (user : Int) (since : Instant) :
    ∃ after, store.cacheReport now ttl user since report = .ok after ∧
      ∀ later, later < min (now + min (ttl : Int) maxInt64) maxInt64 →
        after.cachedReport later user since = .ok (some report) := by
  let after : Store := { store with
    cachedReports := Rows.put CachedReport.key (store.cacheRow now ttl user since report)
      (store.cachedReports.filter fun row => now < row.expiresAt) }
  have kept : store.cacheReport now ttl user since report = .ok after := by
    have reach : store.reach .writeCache [.cachedReports] = .ok () := reach_eq_ok.2 reached
    unfold cacheReport
    rw [reach]
    rfl
  have reachedAfter : after.reaches [.cachedReports] = true := reached
  have found : Rows.get? CachedReport.key after.cachedReports (CacheKey.key user since) =
      some (store.cacheRow now ttl user since report) := Rows.get?_put_self
  exact ⟨after, kept, fun later live =>
    cachedReport_of_get? reachedAfter found live (Report.whole_toText fits)⟩

end Store

/-- Reports and replies are read back from their texts. Whatever text one is read of, the text in which it
is written is not changed by reading and writing it once more. So a sink gets a reply as it was posted, if
the post is carried to it, and a report that is kept in the tables is found as it was until it expires. -/
theorem json_reads_back (reply : Reply) (fits : reply.Fits) (report : Report)
    (fits' : report.Fits) :
    whole Reply.fromJson reply.toJson.toText = .ok reply ∧
    whole Report.fromJson report.toJson.toText = .ok report ∧
    (∀ text text', rewrite Reply.fromJson Reply.toJson text = .ok text' →
      rewrite Reply.fromJson Reply.toJson text' = .ok text') ∧
    (∀ text text', rewrite Report.fromJson Report.toJson text = .ok text' →
      rewrite Report.fromJson Report.toJson text' = .ok text') ∧
    (∀ (σ : Type) (sink : Reply → σ → Outcome Ack × σ)
      (send : Http.Request → σ → Option Http.Response × σ) (address : String) (state : σ),
      Callback.Carries send sink reply state →
        (Callback.post send address reply state).2 = (sink reply state).2 ∧
          ∀ ack, (sink reply state).1 = .ok ack →
            (Callback.post send address reply state).1 = .ok ack) ∧
    ∀ (store : Store) (now : Int) (ttl : Nat) (user : Int) (since : Instant),
      store.reaches [.cachedReports] = true →
        ∃ after, store.cacheReport now ttl user since report = .ok after ∧
          ∀ later, later < min (now + min (ttl : Int) maxInt64) maxInt64 →
            after.cachedReport later user since = .ok (some report) := by
  refine ⟨Reply.whole_toText fits, Report.whole_toText fits', ?_, ?_, ?_, ?_⟩
  · exact fun text text' => rewrite_rewrite Reply.yields_fromJson fun _ => Reply.whole_toText
  · exact fun text text' => rewrite_rewrite Report.yields_fromJson fun _ => Report.whole_toText
  · exact fun σ sink send address state carries => Callback.post_of_carries fits carries address
  · exact fun store now ttl user since reached =>
      Store.cachedReport_of_kept reached fits' now ttl user since

/-- A name with a quotation mark, a backslash, a control character and one beyond 16 bits, and the least
and the greatest of the totals. -/
theorem json_reads_back_awkwardNames :
    let name := "\"\\\x01𝄞"
    let reply : Reply := ⟨⟨1, by decide⟩, minInt64, [⟨1, name, 0, maxInt64⟩, ⟨2, "", -1, 0⟩]⟩
    let report := Report.ofList [(name, minInt64), ("", maxInt64)]
    let sink (reply : Reply) (seen : List Reply) : Outcome Ack × List Reply :=
      (.ok .noWaiter, seen ++ [reply])
    let send (request : Http.Request) (seen : List Reply) : Option Http.Response × List Reply :=
      let served := Callback.serve sink
        { method := "POST", target := request.path, contentType := some "application/json"
          body := request.body } seen
      (some served.1.toResponse, served.2)
    reply.Fits ∧ report.Fits ∧
      report.toJson.toText =
        "\x7b\"\":9223372036854775807,\"\\\"\\\\\\u0001𝄞\":-9223372036854775808\x7d" ∧
      whole Report.fromJson report.toJson.toText = .ok report ∧
      Callback.post send "127.0.0.1:50051" reply [] = (.ok .noWaiter, [reply]) ∧
      ∃ after, Store.cacheReport {} 0 1000 1 .epoch report = .ok after ∧
        after.cachedReport 999 1 .epoch = .ok (some report) := by
  intro name reply report sink send
  have fits : reply.Fits := by
    refine ⟨by decide, fun row member => ?_⟩
    rcases List.mem_cons.1 member with rfl | member
    · exact ⟨by decide, by decide, by decide⟩
    · cases List.mem_singleton.1 member
      exact ⟨by decide, by decide, by decide⟩
  have fits' : report.Fits := by
    unfold Report.Fits
    decide +kernel
  obtain ⟨-, back, -, -, posted, cached⟩ := json_reads_back reply fits report fits'
  obtain ⟨handed, acknowledged⟩ := posted _ sink send "127.0.0.1:50051" [] rfl
  obtain ⟨after, kept, found⟩ := cached {} 0 1000 1 .epoch rfl
  exact ⟨fits, fits', by decide +kernel, back, Prod.ext (acknowledged _ rfl) handed, after, kept,
    found 999 (by decide)⟩

end ExpenseLedger
