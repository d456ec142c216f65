import ExpenseLedger.Rows

/-!
# Looking up rows

What `Rows.get?` finds after a row has been put in its place, after rows have been dropped, and
after all rows have been changed under their keys. In the order of the keys a key belongs to one
row.
-/

namespace ExpenseLedger
namespace Rows

variable {α κ : Type} [DecidableEq κ] {key : α → κ} {rows : List α} {row : α} {k : κ}

theorem get?_eq_some (h : get? key rows k = some row) : row ∈ rows ∧ key row = k :=
  ⟨List.mem_of_find?_eq_some h, by simpa using List.find?_some h⟩

theorem get?_eq_none : get? key rows k = none ↔ ∀ row ∈ rows, key row ≠ k := by
  simp [get?]

theorem get?_map {change : α → α} (same : ∀ row ∈ rows, key (change row) = key row) :
    get? key (rows.map change) k = (get? key rows k).map change := by
  induction rows with
  | nil => rfl
  | cons first rest ih =>
    have tail := ih fun row h => same row (List.mem_cons_of_mem _ h)
    have head := same first List.mem_cons_self
    unfold get? at tail ⊢
    by_cases found : key first = k
    · simp [found, head]
    · simp [found, head, tail]

theorem get?_filter {keep : α → Bool} (kept : ∀ row ∈ rows, key row = k → keep row = true) :
    get? key (rows.filter keep) k = get? key rows k := by
  induction rows with
  | nil => rfl
  | cons first rest ih =>
    have tail := ih fun row h => kept row (List.mem_cons_of_mem _ h)
    have head := kept first List.mem_cons_self
    unfold get? at tail ⊢
    by_cases found : key first = k
    · simp [found, head found]
    · cases keeps : keep first <;> simp [found, keeps, tail]

section Order

variable [LT κ] [Std.Irrefl (α := κ) (· < ·)]

omit [DecidableEq κ] in
/-- In the order of the keys a key belongs to one row. -/
theorem Ascending.eq_of_key_eq (h : Ascending key rows) {a b : α} (ha : a ∈ rows) (hb : b ∈ rows)
    (same : key a = key b) : a = b := by
  induction rows with
  | nil => cases ha
  | cons first rest ih =>
    obtain ⟨below, tail⟩ := List.pairwise_cons.1 h
    rcases List.mem_cons.1 ha with rfl | ha'
    · rcases List.mem_cons.1 hb with rfl | hb'
      · rfl
      · have less := below b hb'
        rw [same] at less
        exact absurd less (Std.Irrefl.irrefl _)
    · rcases List.mem_cons.1 hb with rfl | hb'
      · have less := below a ha'
        rw [same] at less
        exact absurd less (Std.Irrefl.irrefl _)
      · exact ih tail ha' hb'

theorem Ascending.get?_of_mem (h : Ascending key rows) (member : row ∈ rows) :
    get? key rows (key row) = some row := by
  cases found : get? key rows (key row) with
  | none => exact absurd rfl (get?_eq_none.1 found row member)
  | some other =>
    obtain ⟨inRows, same⟩ := get?_eq_some found
    rw [h.eq_of_key_eq inRows member same]

/-- What is found among the rows that a test passes is what is found among all, if it passes. -/
theorem Ascending.get?_filter (h : Ascending key rows) (keep : α → Bool) (k : κ) :
    get? key (rows.filter keep) k = (get? key rows k).filter keep := by
  cases found : get? key rows k with
  | none =>
    refine get?_eq_none.2 fun row member => ?_
    exact get?_eq_none.1 found row (List.mem_filter.1 member).1
  | some row =>
    obtain ⟨member, rfl⟩ := get?_eq_some found
    have only : ∀ other ∈ rows, key other = key row → other = row := fun other inRows same =>
      h.eq_of_key_eq inRows member same
    cases kept : keep row with
    | true =>
      rw [Option.filter_some_pos kept]
      refine (Rows.get?_filter fun other inRows same => ?_).trans found
      rw [only other inRows same, kept]
    | false =>
      rw [Option.filter_some_neg (by simp [kept])]
      refine get?_eq_none.2 fun other inFilter same => ?_
      obtain ⟨inRows, passes⟩ := List.mem_filter.1 inFilter
      rw [only other inRows same, kept] at passes
      cases passes

omit [DecidableEq κ] in
/-- A list in the order of the keys has one row that a test is true of only for one row. -/
theorem Ascending.filter_eq_singleton {test : α → Bool} (h : Ascending key rows)
    (member : row ∈ rows) (only : ∀ other ∈ rows, test other = true ↔ other = row) :
    rows.filter test = [row] := by
  obtain ⟨before, after, rfl⟩ := List.append_of_mem member
  obtain ⟨-, tail, across⟩ := List.pairwise_append.1 h
  have noneBefore : before.filter test = [] := by
    apply List.filter_eq_nil_iff.2
    intro other inBefore passes
    have same := (only other (List.mem_append_left _ inBefore)).1 passes
    have less := across other inBefore row List.mem_cons_self
    rw [same] at less
    exact Std.Irrefl.irrefl _ less
  have noneAfter : after.filter test = [] := by
    apply List.filter_eq_nil_iff.2
    intro other inAfter passes
    have same := (only other (List.mem_append_right _ (List.mem_cons_of_mem _ inAfter))).1 passes
    have less := (List.pairwise_cons.1 tail).1 other inAfter
    rw [same] at less
    exact Std.Irrefl.irrefl _ less
  rw [List.filter_append, List.filter_cons_of_pos ((only row member).2 rfl), noneBefore, noneAfter,
    List.nil_append]

end Order

section Put

variable [LT κ] [DecidableLT κ]

theorem get?_put_self : get? key (put key row rows) (key row) = some row := by
  induction rows with
  | nil => simp [get?, put]
  | cons first rest ih =>
    unfold put
    split
    · simp [get?]
    · next different =>
      split
      · simp [get?]
      · unfold get? at ih ⊢
        simp [Ne.symm different, ih]

theorem get?_put_of_ne (different : key row ≠ k) :
    get? key (put key row rows) k = get? key rows k := by
  induction rows with
  | nil => simp [get?, put, different]
  | cons first rest ih =>
    unfold put
    split
    · next same => simp [get?, different, ← same]
    · split
      · simp [get?, different]
      · unfold get? at ih ⊢
        by_cases found : key first = k <;> simp [found, ih]

theorem get?_put : get? key (put key row rows) k = if key row = k then some row else get? key rows k := by
  split
  · next same =>
    subst same
    exact get?_put_self
  · next different => exact get?_put_of_ne different

/-- A row whose key is beyond all others goes to the end. -/
theorem put_of_lt [Std.Asymm (α := κ) (· < ·)] (beyond : ∀ x ∈ rows, key x < key row) :
    put key row rows = rows ++ [row] := by
  induction rows with
  | nil => rfl
  | cons first rest ih =>
    have less := beyond first List.mem_cons_self
    have notSame : key row ≠ key first := by
      intro same
      rw [same] at less
      exact Std.Asymm.asymm _ _ less less
    unfold put
    rw [if_neg notSame, if_neg (Std.Asymm.asymm _ _ less),
      ih fun x member => beyond x (List.mem_cons_of_mem _ member), List.cons_append]

/-- A row that a test fails is put in the place of such a row, if of any. -/
theorem filter_put_of_not {test : α → Bool} (fails : test row = false)
    (replaced : ∀ other ∈ rows, key other = key row → test other = false) :
    (put key row rows).filter test = rows.filter test := by
  induction rows with
  | nil => simp [put, fails]
  | cons first rest ih =>
    have tail := ih fun other member => replaced other (List.mem_cons_of_mem _ member)
    unfold put
    split
    · next same => simp [fails, replaced first List.mem_cons_self same.symm]
    · split
      · simp [fails]
      · simp [List.filter_cons, tail]

/-- A row is put behind the rows below it and before those above it, for keys of which two are
equal or one is less. -/
theorem Ascending.put_eq [Std.Asymm (α := κ) (· < ·)]
    (trans : ∀ {a b c : κ}, a < b → b < c → a < c)
    (connected : ∀ {a b : κ}, a ≠ b → ¬a < b → b < a) (h : Ascending key rows) :
    Rows.put key row rows = (rows.filter fun other => decide (key other < key row)) ++
      row :: rows.filter fun other => decide (key row < key other) := by
  induction rows with
  | nil => rfl
  | cons first rest ih =>
    obtain ⟨beyond, tail⟩ := List.pairwise_cons.1 h
    -- Once the row is not above the first one, all that come after it are above the row.
    have split (less : ∀ other ∈ rest, key row < key other) :
        (rest.filter fun other => decide (key other < key row)) = [] ∧
          (rest.filter fun other => decide (key row < key other)) = rest :=
      ⟨List.filter_eq_nil_iff.2 fun other member below =>
          Std.Asymm.asymm _ _ (less other member) (of_decide_eq_true below),
        List.filter_eq_self.2 fun other member => decide_eq_true (less other member)⟩
    unfold Rows.put
    by_cases same : key row = key first
    · obtain ⟨low, high⟩ := split fun other member => same ▸ beyond other member
      have irrefl : ¬key row < key row := fun less => Std.Asymm.asymm _ _ less less
      rw [if_pos same, List.filter_cons_of_neg (by simpa [← same] using irrefl),
        List.filter_cons_of_neg (by simpa [← same] using irrefl), low, high, List.nil_append]
    · rw [if_neg same]
      by_cases less : key row < key first
      · obtain ⟨low, high⟩ := split fun other member => trans less (beyond other member)
        rw [if_pos less, List.filter_cons_of_neg (by simpa using Std.Asymm.asymm _ _ less),
          List.filter_cons_of_pos (by simpa using less), low, high, List.nil_append]
      · rw [if_neg less, List.filter_cons_of_pos (by simpa using connected same less),
          List.filter_cons_of_neg (by simpa using less), ih tail, List.cons_append]

/-- A row that takes the place of another changes nothing else. -/
theorem Ascending.put_eq_map [Std.Asymm (α := κ) (· < ·)] (h : Ascending key rows)
    (present : ∃ old ∈ rows, key old = key row) :
    Rows.put key row rows = rows.map fun old => if key old = key row then row else old := by
  have irrefl (k : κ) : ¬k < k := fun less => Std.Asymm.asymm _ _ less less
  induction rows with
  | nil =>
    obtain ⟨old, member, -⟩ := present
    cases member
  | cons first rest ih =>
    obtain ⟨beyond, tail⟩ := List.pairwise_cons.1 h
    obtain ⟨old, member, own⟩ := present
    unfold Rows.put
    rw [List.map_cons]
    by_cases same : key row = key first
    · have others : (rest.map fun old => if key old = key row then row else old) = rest := by
        refine (List.map_congr_left fun other inRest => if_neg fun equal => ?_).trans (List.map_id _)
        have less := beyond other inRest
        rw [equal, same] at less
        exact irrefl _ less
      rw [if_pos same, if_pos same.symm, others]
    · have inRest : old ∈ rest := by
        rcases List.mem_cons.1 member with rfl | inRest
        · exact absurd own.symm same
        · exact inRest
      have notLess : ¬key row < key first := fun less =>
        Std.Asymm.asymm _ _ less (own ▸ beyond old inRest)
      rw [if_neg same, if_neg notLess, if_neg (Ne.symm same), ih tail ⟨old, inRest, own⟩]

end Put

end Rows
end ExpenseLedger
