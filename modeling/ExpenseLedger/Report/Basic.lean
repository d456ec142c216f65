import ExpenseLedger.Rows

/-!
# Reports

A report maps the names of categories to totals in minor units. It is a list of entries in
strictly ascending order of the names, so equal reports have equal entries.
-/

namespace ExpenseLedger

/-- Totals by category name. -/
structure Report where
  entries : List (String × Int)
  ascending : Rows.Ascending Prod.fst entries
  deriving DecidableEq

namespace Report

def empty : Report :=
  { entries := [], ascending := List.Pairwise.nil }

instance : Inhabited Report := ⟨empty⟩

def get? (report : Report) (name : String) : Option Int :=
  (Rows.get? Prod.fst report.entries name).map Prod.snd

def insert (report : Report) (name : String) (total : Int) : Report where
  entries := Rows.put Prod.fst (name, total) report.entries
  ascending := Rows.Ascending.put String.lt_trans
    (fun different notLess => Decidable.byContradiction fun notGreater =>
      different (String.le_antisymm (String.not_lt.1 notGreater) (String.not_lt.1 notLess)))
    report.ascending

/-- The report of a list of totals; of two totals of one name the later counts. -/
def ofList (entries : List (String × Int)) : Report :=
  entries.foldl (fun report entry => report.insert entry.1 entry.2) empty

end Report
end ExpenseLedger
