import ExpenseLedger.Proofs.Money.Conversion
import ExpenseLedger.Proofs.Report.Totals

/-!
# Aggregation as grouping

Aggregation goes through the rows one by one and checks every sum on its way. With amounts that are not
negative a sum that fits in the end has fitted all along, so the sums of the categories alone tell
whether aggregation succeeds, and what it yields: `Report.aggregate_eq_ok_iff`. Neither depends on the
order of the rows.
-/

namespace ExpenseLedger

/-- What a row adds to a report, and to which name. -/
def ExpenseRow.share (row : ExpenseRow) : String × Int :=
  (row.categoryName, row.amount)

namespace Report

variable {rows rows' : List ExpenseRow} {sums report : Report} {rate : Rate} {name : String}

/-! ## The amounts of a name -/

theorem amountsOf_eq (rows : List ExpenseRow) (name : String) :
    amountsOf rows name =
      ((rows.map ExpenseRow.share).filter fun share => share.1 = name).map Prod.snd := by
  unfold amountsOf
  rw [List.filter_map, List.map_map]
  rfl

theorem amountsOf_perm (perm : (rows.map ExpenseRow.share).Perm (rows'.map ExpenseRow.share))
    (name : String) : (amountsOf rows name).Perm (amountsOf rows' name) := by
  rw [amountsOf_eq, amountsOf_eq]
  exact (perm.filter _).map Prod.snd

theorem amountsOf_ne_nil : amountsOf rows name ≠ [] ↔ ∃ row ∈ rows, row.categoryName = name := by
  unfold amountsOf
  rw [Ne, List.map_eq_nil_iff, List.filter_eq_nil_iff]
  simp

theorem amountsOf_cons (row : ExpenseRow) (rows : List ExpenseRow) (name : String) :
    amountsOf (row :: rows) name =
      if row.categoryName = name then row.amount :: amountsOf rows name else amountsOf rows name := by
  unfold amountsOf
  by_cases same : row.categoryName = name <;> simp [same]

theorem sum_amountsOf_nonneg (nonneg : ∀ row ∈ rows, 0 ≤ row.amount) (name : String) :
    0 ≤ (amountsOf rows name).sum := by
  refine List.sum_nonneg fun amount member => ?_
  obtain ⟨row, chosen, rfl⟩ := List.mem_map.1 member
  exact nonneg row (List.mem_filter.1 chosen).1

/-! ## When the sums fit -/

/-- What has been summed up of a name. -/
def sumOf (report : Report) (name : String) : Int :=
  (report.get? name).getD 0

theorem sumOf_insert (report : Report) (name other : String) (total : Int) :
    (report.insert name total).sumOf other = if name = other then total else report.sumOf other := by
  unfold sumOf
  rw [get?_insert]
  split <;> rfl

theorem exists_addRow_iff {row : ExpenseRow} :
    (∃ sums, addRow report row = .ok sums) ↔ FitsInt64 (report.sumOf row.categoryName + row.amount) := by
  unfold addRow sumOf
  dsimp only
  split
  · next fits => exact ⟨fun _ => fits, fun _ => ⟨_, rfl⟩⟩
  · next fits => exact ⟨nofun, fun fits' => absurd fits' fits⟩

/-- After a row the sums are as far on as they were before it with the row still to come. -/
theorem sumOf_insert_add (report : Report) (row : ExpenseRow) (rows : List ExpenseRow)
    (name : String) :
    (report.insert row.categoryName (report.sumOf row.categoryName + row.amount)).sumOf name +
        (amountsOf rows name).sum =
      report.sumOf name + (amountsOf (row :: rows) name).sum := by
  rw [sumOf_insert, amountsOf_cons]
  by_cases same : row.categoryName = name
  · rw [if_pos same, if_pos same, List.sum_cons, same, add_assoc]
  · rw [if_neg same, if_neg same]

/-- A sum in range that has not come down from where it began has been in range all along. -/
theorem fits_of_le {low sum : Int} (nonneg : 0 ≤ low) (le : low ≤ sum) (fits : FitsInt64 sum) :
    FitsInt64 low := by
  unfold FitsInt64 minInt64 at *
  omega

/-- As long as amounts are not negative, the sums go through if all of them fit in the end. -/
theorem exists_foldlM_iff (started : ∀ name, 0 ≤ report.sumOf name ∧ FitsInt64 (report.sumOf name))
    (nonneg : ∀ row ∈ rows, 0 ≤ row.amount) :
    (∃ sums, rows.foldlM addRow report = .ok sums) ↔
      ∀ name, FitsInt64 (report.sumOf name + (amountsOf rows name).sum) := by
  induction rows generalizing report with
  | nil =>
    refine ⟨fun _ name => ?_, fun _ => ⟨report, rfl⟩⟩
    show FitsInt64 (report.sumOf name + 0)
    rw [add_zero]
    exact (started name).2
  | cons row rows ih =>
    obtain ⟨amount_nonneg, tail_nonneg⟩ := List.forall_mem_cons.1 nonneg
    let middle := report.insert row.categoryName (report.sumOf row.categoryName + row.amount)
    have next (fits : FitsInt64 (report.sumOf row.categoryName + row.amount)) (name : String) :
        0 ≤ middle.sumOf name ∧ FitsInt64 (middle.sumOf name) := by
      have first := (started row.categoryName).1
      rw [sumOf_insert]
      split
      · exact ⟨by omega, fits⟩
      · exact started name
    constructor
    · rintro ⟨sums, h⟩ name
      rw [List.foldlM_cons] at h
      obtain ⟨after, added, h⟩ := Outcome.bind_eq_ok.1 h
      obtain rfl : after = middle := addRow_eq_ok added
      rw [← sumOf_insert_add]
      exact (ih (next (exists_addRow_iff.1 ⟨_, added⟩)) tail_nonneg).1 ⟨sums, h⟩ name
    · intro fits
      have first := (started row.categoryName).1
      have total := fits row.categoryName
      have rest := sum_amountsOf_nonneg tail_nonneg row.categoryName
      rw [amountsOf_cons, if_pos rfl, List.sum_cons] at total
      have now : FitsInt64 (report.sumOf row.categoryName + row.amount) :=
        fits_of_le (by omega) (by omega) total
      obtain ⟨after, added⟩ := exists_addRow_iff.2 now
      obtain rfl : after = middle := addRow_eq_ok added
      obtain ⟨sums, h⟩ := (ih (next now) tail_nonneg).2 fun name =>
        (sumOf_insert_add report row rows name).symm ▸ fits name
      refine ⟨sums, ?_⟩
      rw [List.foldlM_cons]
      exact Outcome.bind_eq_ok.2 ⟨middle, added, h⟩

theorem exists_totals_iff (nonneg : ∀ row ∈ rows, 0 ≤ row.amount) :
    (∃ sums, totals rows = .ok sums) ↔
      ∀ row ∈ rows, FitsInt64 (amountsOf rows row.categoryName).sum := by
  have zero (name : String) : empty.sumOf name = 0 := rfl
  have fits_zero : FitsInt64 0 := by decide
  have started (name : String) : 0 ≤ empty.sumOf name ∧ FitsInt64 (empty.sumOf name) :=
    ⟨Int.le_refl 0, fits_zero⟩
  unfold totals
  rw [exists_foldlM_iff started nonneg]
  simp only [zero, zero_add]
  refine ⟨fun fits row _ => fits row.categoryName, fun fits name => ?_⟩
  by_cases occurs : amountsOf rows name = []
  · rw [occurs]
    exact fits_zero
  · obtain ⟨row, member, rfl⟩ := amountsOf_ne_nil.1 occurs
    exact fits row member

/-! ## When the sums can be converted -/

theorem exists_mapM_iff {entries : List (String × Int)} :
    (∃ converted, entries.mapM (convertEntry rate) = .ok converted) ↔
      ∀ entry ∈ entries, ∃ total, Conversion.fromBase entry.2 rate = .ok total := by
  constructor
  · rintro ⟨converted, h⟩ entry member
    obtain ⟨other, -, converts⟩ := exists_converts_of_mem (forall₂_of_mapM h) member
    exact ⟨other.2, converts.total⟩
  · intro each
    induction entries with
    | nil => exact ⟨[], rfl⟩
    | cons entry entries ih =>
      obtain ⟨⟨total, given⟩, rest⟩ := List.forall_mem_cons.1 each
      obtain ⟨converted, tail⟩ := ih rest
      refine ⟨(entry.1, total) :: converted, ?_⟩
      have head : convertEntry rate entry = .ok (entry.1, total) :=
        Outcome.bind_eq_ok.2 ⟨total, Error.ofConversion_eq_ok.2 given, rfl⟩
      rw [List.mapM_cons]
      exact Outcome.bind_eq_ok.2 ⟨_, head, Outcome.bind_eq_ok.2 ⟨converted, tail, rfl⟩⟩

/-! ## What aggregation yields -/

/-- The report groups the rows by name: a name with rows has the sum of their amounts, converted once,
and a name without rows is absent. -/
structure Groups (rows : List ExpenseRow) (rate : Rate) (report : Report) : Prop where
  absent : ∀ name, amountsOf rows name = [] → report.get? name = none
  present : ∀ name, amountsOf rows name ≠ [] →
    ∃ total, Conversion.fromBase (amountsOf rows name).sum rate = .ok total ∧
      report.get? name = some total

theorem Groups.unique {other : Report} (groups : Groups rows rate report)
    (groups' : Groups rows rate other) : report = other := by
  apply eq_of_get?
  intro name
  by_cases none : amountsOf rows name = []
  · rw [groups.absent name none, groups'.absent name none]
  · obtain ⟨total, given, found⟩ := groups.present name none
    obtain ⟨total', given', found'⟩ := groups'.present name none
    rw [given] at given'
    cases given'
    rw [found, found']

theorem Groups.perm (groups : Groups rows rate report)
    (perm : (rows.map ExpenseRow.share).Perm (rows'.map ExpenseRow.share)) :
    Groups rows' rate report where
  absent := fun name none => groups.absent name (none ▸ amountsOf_perm perm name).eq_nil
  present := fun name some => by
    have same := amountsOf_perm perm name
    rw [← same.sum_eq]
    exact groups.present name fun none => some (none ▸ same.symm).eq_nil

theorem groups_of_aggregate (h : aggregate rows rate = .ok report) : Groups rows rate report where
  absent := fun _ none => get?_aggregate_of_none h none
  present := fun _ some => get?_aggregate_of_some h some

theorem Groups.mem_entries_iff (groups : Groups rows rate report) {total : Int} :
    (name, total) ∈ report.entries ↔ (∃ row ∈ rows, row.categoryName = name) ∧
      Conversion.fromBase (amountsOf rows name).sum rate = .ok total := by
  rw [← get?_eq_some, ← amountsOf_ne_nil]
  by_cases none : amountsOf rows name = []
  · simp [groups.absent name none, none]
  · obtain ⟨total', given, found⟩ := groups.present name none
    simp [given, found, none]

theorem exists_aggregate_iff (nonneg : ∀ row ∈ rows, 0 ≤ row.amount) :
    (∃ report, aggregate rows rate = .ok report) ↔
      ∀ row ∈ rows, FitsInt64 (amountsOf rows row.categoryName).sum ∧
        ∃ total, Conversion.fromBase (amountsOf rows row.categoryName).sum rate = .ok total := by
  constructor
  · rintro ⟨report, h⟩ row member
    obtain ⟨sums, summed, -⟩ := Outcome.bind_eq_ok.1 h
    obtain ⟨total, given, -⟩ :=
      get?_aggregate_of_some h (amountsOf_ne_nil.2 ⟨row, member, rfl⟩)
    exact ⟨(exists_totals_iff nonneg).1 ⟨sums, summed⟩ row member, total, given⟩
  · intro each
    obtain ⟨sums, summed⟩ := (exists_totals_iff nonneg).2 fun row member => (each row member).1
    have converts : ∀ entry ∈ sums.entries, ∃ total, Conversion.fromBase entry.2 rate = .ok total := by
      intro entry member
      have sum := get?_totals summed entry.1
      rw [get?_eq_some.2 member] at sum
      split at sum
      · cases sum
      · next occurs =>
        obtain ⟨row, inRows, same⟩ := amountsOf_ne_nil.1 occurs
        rw [Option.some.inj sum, ← same]
        exact (each row inRows).2
    obtain ⟨converted, conversion⟩ := exists_mapM_iff.2 converts
    exact ⟨_, Outcome.bind_eq_ok.2 ⟨sums, summed, Outcome.bind_eq_ok.2 ⟨converted, conversion, rfl⟩⟩⟩

/-- Aggregation yields a report exactly if the sums fit and the report groups the rows. -/
theorem aggregate_eq_ok_iff (nonneg : ∀ row ∈ rows, 0 ≤ row.amount) :
    aggregate rows rate = .ok report ↔
      (∀ row ∈ rows, FitsInt64 (amountsOf rows row.categoryName).sum) ∧ Groups rows rate report := by
  constructor
  · intro h
    exact ⟨fun row member => ((exists_aggregate_iff nonneg).1 ⟨report, h⟩ row member).1,
      groups_of_aggregate h⟩
  · rintro ⟨fits, groups⟩
    obtain ⟨other, h⟩ : ∃ other, aggregate rows rate = .ok other := by
      refine (exists_aggregate_iff nonneg).2 fun row member => ⟨fits row member, ?_⟩
      obtain ⟨total, given, -⟩ := groups.present _ (amountsOf_ne_nil.2 ⟨row, member, rfl⟩)
      exact ⟨total, given⟩
    rw [h, groups.unique (groups_of_aggregate h)]

/-- Rows with the same shares have one another's amounts. -/
theorem nonneg_of_perm (nonneg : ∀ row ∈ rows, 0 ≤ row.amount)
    (perm : (rows.map ExpenseRow.share).Perm (rows'.map ExpenseRow.share)) :
    ∀ row ∈ rows', 0 ≤ row.amount := by
  intro row' member
  obtain ⟨row, inRows, same⟩ := List.mem_map.1 (perm.mem_iff.2 (List.mem_map_of_mem member))
  rw [← (Prod.mk.inj same).2]
  exact nonneg row inRows

/-- What is aggregated depends neither on the order of the rows, nor on the numbers of their categories,
nor on their times. -/
theorem aggregate_perm (nonneg : ∀ row ∈ rows, 0 ≤ row.amount)
    (perm : (rows.map ExpenseRow.share).Perm (rows'.map ExpenseRow.share))
    (h : aggregate rows rate = .ok report) : aggregate rows' rate = .ok report := by
  obtain ⟨fits, groups⟩ := (aggregate_eq_ok_iff nonneg).1 h
  refine (aggregate_eq_ok_iff (nonneg_of_perm nonneg perm)).2
    ⟨fun row' member => ?_, groups.perm perm⟩
  obtain ⟨row, inRows, same⟩ := List.mem_map.1 (perm.mem_iff.2 (List.mem_map_of_mem member))
  rw [← (Prod.mk.inj same).1, ← (amountsOf_perm perm row.categoryName).sum_eq]
  exact fits row inRows

/-! ## Failures -/

theorem totals_error {e : Error} (h : rows.foldlM addRow report = .error e) :
    ∃ fault, e = .conversionFailure fault := by
  induction rows generalizing report with
  | nil => cases h
  | cons row rows ih =>
    rw [List.foldlM_cons] at h
    rcases Outcome.bind_eq_error.1 h with failed | ⟨middle, -, h⟩
    · unfold addRow at failed
      dsimp only at failed
      split at failed
      · cases failed
      · cases failed
        exact ⟨_, rfl⟩
    · exact ih h

theorem convertEntry_error {entry : String × Int} {e : Error} (h : convertEntry rate entry = .error e) :
    ∃ fault, e = .conversionFailure fault := by
  rcases Outcome.bind_eq_error.1 h with failed | ⟨total, -, h⟩
  · unfold Error.ofConversion at failed
    split at failed
    · cases failed
    · cases failed
      exact ⟨_, rfl⟩
  · cases h

theorem mapM_error {entries : List (String × Int)} {e : Error}
    (h : entries.mapM (convertEntry rate) = .error e) : ∃ fault, e = .conversionFailure fault := by
  induction entries with
  | nil => cases h
  | cons entry entries ih =>
    rw [List.mapM_cons] at h
    rcases Outcome.bind_eq_error.1 h with failed | ⟨head, -, h⟩
    · exact convertEntry_error failed
    · rcases Outcome.bind_eq_error.1 h with failed | ⟨tail, -, h⟩
      · exact ih failed
      · cases h

/-- Aggregation fails with nothing but a failed conversion. -/
theorem aggregate_error {e : Error} (h : aggregate rows rate = .error e) :
    ∃ fault, e = .conversionFailure fault := by
  rcases Outcome.bind_eq_error.1 h with failed | ⟨sums, -, h⟩
  · exact totals_error failed
  · rcases Outcome.bind_eq_error.1 h with failed | ⟨converted, -, h⟩
    · exact mapM_error failed
    · cases h

/-- Rows with amounts that are not negative are aggregated exactly if the sum of each name fits and can
be converted. The report then has these names and no others, each with its sum converted once; otherwise
the conversion is what has failed. The order of the rows, the numbers of their categories and their times
make no difference. -/
theorem aggregate_groups {rows : List ExpenseRow} (nonneg : ∀ row ∈ rows, 0 ≤ row.amount)
    (rate : Rate) :
    ((∃ report, aggregate rows rate = .ok report) ↔
      ∀ row ∈ rows, FitsInt64 (amountsOf rows row.categoryName).sum ∧
        ∃ total, Conversion.fromBase (amountsOf rows row.categoryName).sum rate = .ok total) ∧
    (∀ report, aggregate rows rate = .ok report → ∀ name total,
      (name, total) ∈ report.entries ↔ (∃ row ∈ rows, row.categoryName = name) ∧
        Conversion.fromBase (amountsOf rows name).sum rate = .ok total) ∧
    (∀ e, aggregate rows rate = .error e → ∃ fault, e = .conversionFailure fault) ∧
    ∀ rows', (rows'.map ExpenseRow.share).Perm (rows.map ExpenseRow.share) → ∀ report,
      aggregate rows' rate = .ok report ↔ aggregate rows rate = .ok report := by
  refine ⟨exists_aggregate_iff nonneg,
    fun report h name total => (groups_of_aggregate h).mem_entries_iff,
    fun e h => aggregate_error h, fun rows' perm report => ?_⟩
  exact ⟨aggregate_perm (nonneg_of_perm nonneg perm.symm) perm, aggregate_perm nonneg perm.symm⟩

/-- Two rows of one name among three. -/
def threeRows : List ExpenseRow :=
  [⟨1, "food", 0, 1⟩, ⟨2, "rent", 0, 10⟩, ⟨1, "food", 5, 2⟩]

/-- The rows the other way around, in categories of other numbers, make the same report. -/
theorem aggregate_groups_threeRows :
    (∀ row ∈ threeRows, 0 ≤ row.amount) ∧
      ∃ report, aggregate threeRows .one = .ok report ∧ ("food", 3) ∈ report.entries ∧
        aggregate [⟨7, "food", 9, 2⟩, ⟨8, "rent", 1, 10⟩, ⟨9, "food", 4, 1⟩] .one = .ok report := by
  have nonneg : ∀ row ∈ threeRows, 0 ≤ row.amount := by decide
  obtain ⟨succeeds, entries, -, same⟩ := aggregate_groups nonneg .one
  obtain ⟨report, h⟩ := succeeds.2 <| by
    have food : FitsInt64 (amountsOf threeRows "food").sum ∧
        ∃ total, Conversion.fromBase (amountsOf threeRows "food").sum .one = .ok total :=
      ⟨by decide, 3, by decide⟩
    have rent : FitsInt64 (amountsOf threeRows "rent").sum ∧
        ∃ total, Conversion.fromBase (amountsOf threeRows "rent").sum .one = .ok total :=
      ⟨by decide, 10, by decide⟩
    exact List.forall_mem_cons.2 ⟨food, List.forall_mem_cons.2 ⟨rent, List.forall_mem_singleton.2 food⟩⟩
  exact ⟨nonneg, report, h, (entries report h "food" 3).2 ⟨by decide, by decide⟩,
    (same _ (by decide) report).2 h⟩

end Report
end ExpenseLedger
