import ExpenseLedger.Proofs.Store.Frame

/-!
# Expenses in the order of their booking

`Store.bookedRows` are all expenses of a user with the names of their categories, the oldest booking
first. What is read back for a report is a part of them in the order of time, and what belongs to
one second stays in the order of booking (`Store.expenseRows_inOrder`). Beside that stand the
changes of the tables with what they do to the booked rows of each user.
-/

namespace ExpenseLedger

/-! ## A part of a list, sorted by time -/

theorem filter_filterMap_of_same {α β : Type} {make : α → Option β} {keep : α → Bool}
    {keep' : β → Bool} {rows : List α}
    (same : ∀ row made, make row = some made → keep' made = keep row) :
    (rows.filterMap make).filter keep' = (rows.filter keep).filterMap make := by
  rw [List.filterMap_filter, List.filter_filterMap]
  congr 1
  funext row
  cases found : make row with
  | none => simp
  | some made => simp [Option.filter_some, same row made found]

/-- The second list is what the first one has from a second on, in the order of time; what belongs
to one second is in the order of the first list. -/
structure InOrder {α : Type} (time : α → Int) (since : Int) (all rows : List α) : Prop where
  complete : rows.Perm (all.filter fun row => since ≤ time row)
  sorted : rows.Pairwise fun a b => time a ≤ time b
  ties : ∀ second, since ≤ second →
    (rows.filter fun row => time row = second) = all.filter fun row => time row = second

namespace InOrder

variable {α β : Type} {time : α → Int} {since : Int} {all rows : List α}

theorem since_le (inOrder : InOrder time since all rows) {row : α} (member : row ∈ rows) :
    since ≤ time row := by
  have chosen := inOrder.complete.mem_iff.1 member
  exact of_decide_eq_true (List.mem_filter.1 chosen).2

/-- Sorting keeps the order within each second. -/
theorem mergeSort (time : α → Int) (since : Int) (all : List α) :
    InOrder time since all ((all.filter fun row => since ≤ time row).mergeSort
      fun a b => decide (time a ≤ time b)) where
  complete := List.mergeSort_perm _ _
  sorted := by
    refine (List.pairwise_mergeSort (fun a b c => ?_) (fun a b => ?_) _).imp of_decide_eq_true
    · simpa using Int.le_trans
    · simpa using Int.le_total (time a) (time b)
  ties := by
    intro second late
    -- What belongs to the second is sorted already, so it is a part of the result in its order.
    have chosen : ((all.filter fun row => since ≤ time row).filter fun row => time row = second) =
        all.filter fun row => time row = second := by
      rw [List.filter_filter]
      apply List.filter_congr
      intro row _
      by_cases same : time row = second
      · simp [same, late]
      · simp [same]
    have level : (all.filter fun row => time row = second).Pairwise
        fun a b => decide (time a ≤ time b) = true := by
      refine List.pairwise_of_forall_mem_list ?_
      intro a inLevel b inLevel'
      have a' := of_decide_eq_true (List.mem_filter.1 inLevel).2
      have b' := of_decide_eq_true (List.mem_filter.1 inLevel').2
      exact decide_eq_true (by omega)
    have part := List.sublist_mergeSort (fun a b c => by simpa using Int.le_trans)
      (fun a b => by simpa using Int.le_total (time a) (time b)) level
      (chosen ▸ List.filter_sublist)
    have within := part.filter fun row => decide (time row = second)
    rw [List.filter_filter] at within
    simp only [Bool.and_self] at within
    refine (within.eq_of_length ?_).symm
    rw [← chosen]
    exact ((List.mergeSort_perm _ _).filter _).length_eq.symm

/-- What is made of the rows is in the order of their times as well. -/
theorem filterMap {time' : β → Int} {make : α → Option β} (inOrder : InOrder time since all rows)
    (same : ∀ row made, make row = some made → time' made = time row) :
    InOrder time' since (all.filterMap make) (rows.filterMap make) where
  complete := by
    rw [filter_filterMap_of_same fun row made found => by rw [same row made found]]
    exact inOrder.complete.filterMap make
  sorted := inOrder.sorted.filterMap make fun a b le a' made b' made' => by
    rw [same a a' made, same b b' made']
    exact le
  ties := by
    intro second late
    rw [filter_filterMap_of_same fun row made found => by rw [same row made found],
      filter_filterMap_of_same fun row made found => by rw [same row made found],
      inOrder.ties second late]

theorem map {time' : β → Int} {make : α → β} (inOrder : InOrder time since all rows)
    (same : ∀ row, time' (make row) = time row) :
    InOrder time' since (all.map make) (rows.map make) := by
  have made : InOrder time' since (all.filterMap (some ∘ make)) (rows.filterMap (some ∘ make)) :=
    inOrder.filterMap fun row made h => Option.some.inj h ▸ same row
  rwa [List.filterMap_eq_map] at made

end InOrder

theorem filter_time_eq_nil {α : Type} {time : α → Int} {rows : List α} {second : Int}
    (beyond : ∀ row ∈ rows, second < time row) : (rows.filter fun row => time row = second) = [] :=
  List.filter_eq_nil_iff.2 fun row member same =>
    absurd (of_decide_eq_true same) (Int.ne_of_gt (beyond row member))

/-- Of two lists in the order of time, the first is a part of the second if it is so within each
second. -/
theorem sublist_of_sorted {α : Type} {time : α → Int} {rows later : List α}
    (sorted : rows.Pairwise fun a b => time a ≤ time b)
    (sorted' : later.Pairwise fun a b => time a ≤ time b)
    (parts : ∀ second, (rows.filter fun row => time row = second).Sublist
      (later.filter fun row => time row = second)) : rows.Sublist later := by
  induction later generalizing rows with
  | nil =>
    have none : rows = [] := by
      refine List.eq_nil_iff_forall_not_mem.2 fun row member => ?_
      have inLater := (parts (time row)).subset
        (List.mem_filter.2 ⟨member, decide_eq_true rfl⟩)
      cases inLater
    rw [none]
  | cons first later ih =>
    obtain ⟨least, tail⟩ := List.pairwise_cons.1 sorted'
    -- The first row of the second list is not needed for seconds other than its own.
    have skip (own : (rows.filter fun row => time row = time first).Sublist
        (later.filter fun row => time row = time first)) : rows.Sublist (first :: later) := by
      refine (ih sorted tail fun second => ?_).cons first
      by_cases same : time first = second
      · exact same ▸ own
      · have part := parts second
        rwa [List.filter_cons_of_neg (by simpa using same)] at part
    cases rows with
    | nil => exact List.nil_sublist _
    | cons row rows =>
      obtain ⟨beyond, sortedTail⟩ := List.pairwise_cons.1 sorted
      by_cases same : time row = time first
      · have own := parts (time first)
        rw [List.filter_cons_of_pos (a := first) (by simp),
          List.filter_cons_of_pos (a := row) (by simp [same])] at own
        cases own with
        | cons _ part => exact skip (by rwa [List.filter_cons_of_pos (by simp [same])])
        | cons_cons _ part =>
          refine (ih sortedTail tail fun second => ?_).cons_cons first
          by_cases here : time first = second
          · rw [← here]
            exact part
          · have part := parts second
            rwa [List.filter_cons_of_neg (by simpa using here),
              List.filter_cons_of_neg (by simpa using here)] at part
      · -- All rows are later than the first row of the second list.
        have inLater := (parts (time row)).subset
          (List.mem_filter.2 ⟨List.mem_cons_self, decide_eq_true rfl⟩)
        have less : time first < time row := by
          rcases List.mem_cons.1 (List.mem_filter.1 inLater).1 with rfl | member
          · exact absurd rfl same
          · have := least row member
            omega
        refine skip ?_
        rw [filter_time_eq_nil fun other member => ?_]
        · exact List.nil_sublist _
        · rcases List.mem_cons.1 member with rfl | inRows
          · exact less
          · exact Int.lt_of_lt_of_le less (beyond other inRows)

/-- What is read of more rows contains what is read of fewer. -/
theorem InOrder.sublist {α : Type} {time : α → Int} {since : Int} {all rows all' rows' : List α}
    (inOrder : InOrder time since all rows) (inOrder' : InOrder time since all' rows')
    (part : all.Sublist all') : rows.Sublist rows' := by
  refine sublist_of_sorted inOrder.sorted inOrder'.sorted fun second => ?_
  by_cases late : since ≤ second
  · rw [inOrder.ties second late, inOrder'.ties second late]
    exact part.filter _
  · rw [filter_time_eq_nil fun row member =>
      Int.lt_of_lt_of_le (Int.not_le.1 late) (inOrder.since_le member)]
    exact List.nil_sublist _

/-! ## The rows of a user -/

namespace Store

/-- All expenses of a user with the names of their categories, as they were booked. -/
def bookedRows (store : Store) (user : Int) : List ExpenseRow :=
  (store.expenses.filter fun expense => expense.user = user).filterMap store.expenseRow?

variable {store after : Store} {user : Int}

/-- What is read is the booked rows from a second on, by time and then by booking. -/
theorem expenseRows_inOrder (store : Store) (user since : Int) :
    InOrder ExpenseRow.time since (store.bookedRows user) (store.expenseRows user since) := by
  have chosen : (store.expenses.filter fun expense => expense.user = user ∧ since ≤ expense.time) =
      (store.expenses.filter fun expense => expense.user = user).filter
        fun expense => since ≤ expense.time := by
    rw [List.filter_filter]
    apply List.filter_congr
    intro expense _
    rw [Bool.decide_and, Bool.and_comm]
  unfold expenseRows
  rw [chosen]
  refine (InOrder.mergeSort Expense.time since _).filterMap fun expense row made => ?_
  obtain ⟨category, -, rfl⟩ := Option.map_eq_some_iff.1 made
  rfl

/-! ## What changes do to the booked rows -/

theorem bookedRows_congr
    (expenses : (after.expenses.filter fun expense => expense.user = user) =
      store.expenses.filter fun expense => expense.user = user)
    (named : ∀ expense ∈ store.expenses, expense.user = user →
      after.category? expense.category = store.category? expense.category) :
    after.bookedRows user = store.bookedRows user := by
  unfold bookedRows
  rw [expenses]
  apply List.filterMap_congr
  intro expense member
  obtain ⟨inTable, own⟩ := List.mem_filter.1 member
  unfold expenseRow?
  rw [named expense inTable (of_decide_eq_true own)]

theorem SameEntries.bookedRows (same : SameEntries store after) (user : Int) :
    after.bookedRows user = store.bookedRows user := by
  refine bookedRows_congr ?_ fun expense _ _ => ?_
  · rw [same.expenses]
  · unfold category?
    rw [same.categories]

theorem bookedRows_withoutUser_self (sound : store.Sound) (user : Int) :
    (store.withoutUser user).bookedRows user = [] := by
  unfold bookedRows
  rw [sound.expenses_withoutUser, List.filter_filter]
  simp

theorem bookedRows_withoutUser_of_ne (sound : store.Sound) {gone : Int} (different : user ≠ gone) :
    (store.withoutUser gone).bookedRows user = store.bookedRows user := by
  refine bookedRows_congr ?_ fun expense member own => ?_
  · rw [sound.expenses_withoutUser, List.filter_filter]
    apply List.filter_congr
    intro expense _
    by_cases own : expense.user = user
    · simp [own, different]
    · simp [own]
  · exact sound.category?_withoutUser_of_ne member (own.trans_ne different)

theorem bookedRows_withCategory (sound : store.Sound) {row : Category} :
    (store.withCategory row).bookedRows user = store.bookedRows user :=
  bookedRows_congr rfl fun _ member _ => sound.category?_withCategory member

theorem bookedRows_withExpense_self {expense : Expense} {row : ExpenseRow}
    (made : store.expenseRow? expense = some row) :
    (store.withExpense expense).bookedRows expense.user =
      store.bookedRows expense.user ++ [row] := by
  unfold bookedRows
  show ((store.expenses ++ [expense]).filter _).filterMap store.expenseRow? = _
  rw [List.filter_append, List.filterMap_append, List.filter_cons_of_pos (by simp),
    List.filter_nil, List.filterMap_cons_some made, List.filterMap_nil]

theorem bookedRows_withExpense_of_ne {expense : Expense} (different : expense.user ≠ user) :
    (store.withExpense expense).bookedRows user = store.bookedRows user := by
  refine bookedRows_congr ?_ fun _ _ _ => rfl
  show (store.expenses ++ [expense]).filter _ = _
  rw [List.filter_append, List.filter_cons_of_neg (by simpa using different), List.filter_nil,
    List.append_nil]

end Store
end ExpenseLedger
