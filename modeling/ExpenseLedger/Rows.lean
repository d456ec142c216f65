/-!
# Rows in key order

A table is a list of rows in strictly ascending order of a key. Putting a row replaces the one
with its key or goes where the order asks for it.
-/

namespace ExpenseLedger
namespace Rows

variable {α κ : Type} [DecidableEq κ] [LT κ] [DecidableLT κ]

/-- The rows are in strictly ascending order of their keys; so no two have one key. -/
def Ascending (key : α → κ) (rows : List α) : Prop :=
  rows.Pairwise fun a b => key a < key b

/-- The row of a key. -/
def get? (key : α → κ) (rows : List α) (k : κ) : Option α :=
  rows.find? fun row => key row = k

/-- Puts a row in the place of its key. -/
def put (key : α → κ) (row : α) : List α → List α
  | [] => [row]
  | first :: rest =>
    if key row = key first then row :: rest
    else if key row < key first then row :: first :: rest
    else first :: put key row rest

/-- The row that was put is there, and no other row is new. -/
theorem mem_put {key : α → κ} {row x : α} :
    ∀ {rows : List α}, x ∈ put key row rows → x = row ∨ x ∈ rows
  | [], h => by simpa [put] using h
  | first :: rest, h => by
    unfold put at h
    split at h
    · rcases List.mem_cons.1 h with h | h
      · exact Or.inl h
      · exact Or.inr (List.mem_cons_of_mem _ h)
    · split at h
      · rcases List.mem_cons.1 h with h | h
        · exact Or.inl h
        · exact Or.inr h
      · rcases List.mem_cons.1 h with h | h
        · exact Or.inr (h ▸ List.mem_cons_self)
        · exact (mem_put h).imp_right (List.mem_cons_of_mem _)

/-- Putting a row keeps the order, for keys of which two are equal or one is less. -/
theorem Ascending.put {key : α → κ} {row : α}
    (trans : ∀ {a b c : κ}, a < b → b < c → a < c)
    (connected : ∀ {a b : κ}, a ≠ b → ¬a < b → b < a) :
    ∀ {rows : List α}, Ascending key rows → Ascending key (Rows.put key row rows)
  | [], _ => by simp [Ascending, Rows.put]
  | first :: rest, h => by
    obtain ⟨below, tail⟩ := List.pairwise_cons.1 h
    unfold Rows.put
    split
    · next same => exact List.pairwise_cons.2 ⟨fun x hx => same ▸ below x hx, tail⟩
    · next different =>
      split
      · next less =>
        refine List.pairwise_cons.2 ⟨fun x hx => ?_, h⟩
        rcases List.mem_cons.1 hx with hx | hx
        · exact hx ▸ less
        · exact trans less (below x hx)
      · next notLess =>
        refine List.pairwise_cons.2 ⟨fun x hx => ?_, Ascending.put trans connected tail⟩
        rcases mem_put hx with hx | hx
        · exact hx ▸ connected different notLess
        · exact below x hx

end Rows
end ExpenseLedger
