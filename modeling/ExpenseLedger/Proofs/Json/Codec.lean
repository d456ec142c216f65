import ExpenseLedger.Json.Codec
import ExpenseLedger.Proofs.Json.Reading
import ExpenseLedger.Proofs.Report.Entries

/-!
# Reports and replies written and read back

What the cache and the callback write as JSON is read as what was written, as long as its numbers
fit 64 bits.
-/

namespace ExpenseLedger

open Json Json.Reader

namespace Report

/-- All totals fit 64 bits. -/
def Fits (report : Report) : Prop :=
  ∀ entry ∈ report.entries, FitsInt64 entry.2

theorem takes_entries {entries : List (String × Int)} (fits : ∀ entry ∈ entries, FitsInt64 entry.2)
    (report : Report) :
    Takes (fun report key => .value fun text => do
      let (total, rest) ← int64 text
      .ok (report.insert key total, rest)) report
      (entries.map fun (name, total) => (name, integerDigits total))
      (entries.foldl (fun report entry => report.insert entry.1 entry.2) report) := by
  induction entries generalizing report with
  | nil => exact .done report
  | cons entry entries ih =>
    have head := reads_int64 (fits entry List.mem_cons_self)
    have tail := ih (fun entry member => fits entry (List.mem_cons_of_mem _ member))
      (report.insert entry.1 entry.2)
    exact .next rfl (reads_map (report.insert entry.1) head) tail

theorem reads_toJson {report : Report} (fits : report.Fits) :
    Reads fromJson (compact report.toJson) report := by
  have takes := takes_entries fits empty
  have back : report.entries.foldl (fun report entry => report.insert entry.1 entry.2) empty =
      report := ofList_entries report
  unfold toJson
  rw [compact_object, List.map_map]
  rw [back] at takes
  exact reads_map_of_takes takes

/-- A report is read back from its text. -/
theorem whole_toText {report : Report} (fits : report.Fits) :
    whole fromJson report.toJson.toText = .ok report :=
  whole_of_reads (reads_toJson fits)

end Report

namespace ExpenseRow

/-- The numbers of the row fit 64 bits. -/
structure Fits (row : ExpenseRow) : Prop where
  categoryId : FitsInt64 row.categoryId
  time : FitsInt64 row.time
  amount : FitsInt64 row.amount

theorem reads_toJson {row : ExpenseRow} (fits : row.Fits) :
    Reads fromJson (compact row.toJson) row := by
  unfold toJson
  rw [compact_object]
  refine reads_record
    (some row.categoryId, some row.categoryName, some row.time, some row.amount, ())
    (row.categoryId, row.categoryName, row.time, row.amount, ()) ?_ rfl
  refine .next rfl (reads_map (fun id => (some id, none, none, none, ()))
    (reads_int64 fits.categoryId)) ?_
  refine .next rfl (reads_map _ (reads_map (fun name => (some name, none, none, ()))
    (reads_string row.categoryName))) ?_
  refine .next rfl (reads_map _ (reads_map _ (reads_map (fun time => (some time, none, ()))
    (reads_int64 fits.time)))) ?_
  refine .next rfl (reads_map _ (reads_map _ (reads_map _ (reads_map (fun amount => (some amount, ()))
    (reads_int64 fits.amount))))) ?_
  exact .done _

end ExpenseRow

namespace Reply

/-- The numbers of the reply fit 64 bits. -/
structure Fits (reply : Reply) : Prop where
  user : FitsInt64 reply.user
  expenses : ∀ row ∈ reply.expenses, row.Fits

theorem reads_id (id : Uuid) : Reads Uuid.fromJson (compact id.toJson) id :=
  reads_refine (reads_string id.toText) (Uuid.ofText?_toText id)

theorem reads_toJson {reply : Reply} (fits : reply.Fits) :
    Reads fromJson (compact reply.toJson) reply := by
  have expenses := reads_array fun row member => ExpenseRow.reads_toJson (fits.expenses row member)
  unfold toJson
  rw [compact_object]
  refine reads_record (some reply.id, some reply.user, some reply.expenses, ())
    (reply.id, reply.user, reply.expenses, ()) ?_ rfl
  refine .next rfl (reads_map (fun id => (some id, none, none, ())) (reads_id reply.id)) ?_
  refine .next rfl (reads_map _ (reads_map (fun user => (some user, none, ()))
    (reads_int64 fits.user))) ?_
  refine .next rfl (reads_map _ (reads_map _ (reads_map (fun rows => (some rows, ())) ?_))) (.done _)
  rw [compact_array, List.map_map]
  exact expenses

/-- A reply is read back from its text. -/
theorem whole_toText {reply : Reply} (fits : reply.Fits) :
    whole fromJson reply.toJson.toText = .ok reply :=
  whole_of_reads (reads_toJson fits)

end Reply

namespace Ack

/-- An acknowledgement is read back from the answer to a callback. -/
theorem whole_toResponse (ack : Ack) : whole fromResponse ack.toResponse.toText = .ok ack := by
  cases ack <;> decide +kernel

end Ack
end ExpenseLedger
