import ExpenseLedger.Proofs.Rows
import ExpenseLedger.Report.Basic

/-!
# The entries of reports

What a report says about a name, and that this is all there is to a report.
-/

namespace ExpenseLedger
namespace Report

variable {report other : Report} {name : String} {total : Int}

@[simp] theorem get?_empty (name : String) : empty.get? name = none := rfl

theorem get?_insert (report : Report) (name other : String) (total : Int) :
    (report.insert name total).get? other =
      if name = other then some total else report.get? other := by
  unfold get? insert
  rw [Rows.get?_put]
  split <;> rfl

theorem get?_eq_some : report.get? name = some total ↔ (name, total) ∈ report.entries := by
  unfold get?
  constructor
  · intro h
    obtain ⟨⟨name', total'⟩, found, same⟩ := Option.map_eq_some_iff.1 h
    obtain ⟨member, rfl⟩ := Rows.get?_eq_some found
    cases same
    exact member
  · intro member
    rw [report.ascending.get?_of_mem member]
    rfl

/-- Two reports that say the same about every name are one. -/
theorem eq_of_get? (h : ∀ name, report.get? name = other.get? name) : report = other := by
  have same : ∀ entry, entry ∈ report.entries ↔ entry ∈ other.entries := by
    intro ⟨name, total⟩
    rw [← get?_eq_some, ← get?_eq_some, h]
  have distinct (report : Report) : report.entries.Nodup :=
    report.ascending.imp fun less equal => by
      rw [equal] at less
      exact String.lt_irrefl _ less
  have perm : report.entries.Perm other.entries :=
    (List.perm_ext_iff_of_nodup (distinct report) (distinct other)).2 same
  have entries : report.entries = other.entries :=
    perm.eq_of_pairwise (fun a b _ _ less more => absurd more (String.lt_asymm less))
      report.ascending other.ascending
  cases report
  cases other
  cases entries
  rfl

/-- Entries in the order of their names stay as they are. -/
theorem entries_foldl_insert (report : Report) {entries : List (String × Int)}
    (ascending : Rows.Ascending Prod.fst (report.entries ++ entries)) :
    (entries.foldl (fun report entry => report.insert entry.1 entry.2) report).entries =
      report.entries ++ entries := by
  induction entries generalizing report with
  | nil => rw [List.foldl_nil, List.append_nil]
  | cons entry entries ih =>
    have beyond : ∀ x ∈ report.entries, x.1 < entry.1 := fun x member =>
      (List.pairwise_append.1 ascending).2.2 x member entry List.mem_cons_self
    have put : (report.insert entry.1 entry.2).entries = report.entries ++ [entry] :=
      Rows.put_of_lt beyond
    rw [List.foldl_cons, ih, put, List.append_assoc, List.singleton_append]
    rw [put, List.append_assoc]
    exact ascending

theorem entries_ofList {entries : List (String × Int)}
    (ascending : Rows.Ascending Prod.fst entries) : (ofList entries).entries = entries :=
  entries_foldl_insert empty ascending

theorem ofList_entries (report : Report) : ofList report.entries = report := by
  apply eq_of_get?
  intro name
  unfold get?
  rw [entries_ofList report.ascending]

end Report
end ExpenseLedger
