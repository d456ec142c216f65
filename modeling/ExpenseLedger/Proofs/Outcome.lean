import ExpenseLedger.Store.Tables

/-!
# Chains of outcomes

A chain succeeds exactly if each of its links does. The guards with which statements begin, reach
and the 64 bits of a new number, succeed under a condition on the tables alone.
-/

namespace ExpenseLedger

theorem except_bind_eq_ok {ε α β : Type} {first : Except ε α} {next : α → Except ε β} {b : β} :
    (first >>= next) = .ok b ↔ ∃ a, first = .ok a ∧ next a = .ok b := by
  cases first with
  | ok a =>
    constructor
    · intro h
      exact ⟨a, rfl, h⟩
    · rintro ⟨a', ha, h⟩
      cases ha
      exact h
  | error e =>
    constructor
    · intro h
      cases h
    · rintro ⟨a', ha, -⟩
      cases ha

namespace Outcome

theorem bind_eq_ok {α β : Type} {first : Outcome α} {next : α → Outcome β} {b : β} :
    (first >>= next) = .ok b ↔ ∃ a, first = .ok a ∧ next a = .ok b :=
  except_bind_eq_ok

/-- A chain fails if its first link does, or the rest after it. -/
theorem bind_eq_error {α β : Type} {first : Outcome α} {next : α → Outcome β} {e : Error} :
    (first >>= next) = .error e ↔ first = .error e ∨ ∃ a, first = .ok a ∧ next a = .error e := by
  cases first with
  | ok a =>
    constructor
    · exact fun h => Or.inr ⟨a, rfl, h⟩
    · rintro (failed | ⟨a', same, h⟩)
      · cases failed
      · cases same
        exact h
  | error e' =>
    constructor
    · intro h
      cases h
      exact Or.inl rfl
    · rintro (failed | ⟨a, same, -⟩)
      · cases failed
        rfl
      · cases same

/-- Two outcomes are the same error, or results that are related. -/
inductive Agree {α β : Type} (R : α → β → Prop) : Outcome α → Outcome β → Prop
  | ok {a : α} {b : β} (h : R a b) : Agree R (.ok a) (.ok b)
  | error (e : Error) : Agree R (.error e) (.error e)

namespace Agree

variable {α β γ δ : Type} {R : α → β → Prop} {Q : γ → δ → Prop} {x : Outcome α} {y : Outcome β}

theorem bind {f : α → Outcome γ} {g : β → Outcome δ} (h : Agree R x y)
    (next : ∀ a b, R a b → Agree Q (f a) (g b)) : Agree Q (x >>= f) (y >>= g) := by
  cases h with
  | ok related => exact next _ _ related
  | error e => exact .error e

theorem map {f : α → γ} {g : β → δ} (h : Agree R x y) (related : ∀ a b, R a b → Q (f a) (g b)) :
    Agree Q (x.map f) (y.map g) := by
  cases h with
  | ok held => exact .ok (related _ _ held)
  | error e => exact .error e

theorem imp {Q : α → β → Prop} (h : Agree R x y) (weaker : ∀ a b, R a b → Q a b) :
    Agree Q x y := by
  cases h with
  | ok held => exact .ok (weaker _ _ held)
  | error e => exact .error e

/-- Outcomes that are equal go on in the same way. -/
theorem bind_of_eq {x y : Outcome α} {f : α → Outcome γ} {g : α → Outcome δ} (same : x = y)
    (next : ∀ a, Agree Q (f a) (g a)) : Agree Q (x >>= f) (y >>= g) := by
  subst same
  cases x with
  | ok a => exact next a
  | error e => exact .error e

end Agree

end Outcome

namespace Store

theorem reach_eq_ok {store : Store} {statement : Statement} {tables : List Table} {u : Unit} :
    store.reach statement tables = .ok u ↔ store.reaches tables = true := by
  unfold reach
  cases store.reaches tables <;> simp

theorem reachQueue_eq_ok {store : Store} {task : QueueTask} {u : Unit} :
    store.reachQueue task = .ok u ↔ store.reaches [.requests] = true := by
  unfold reachQueue
  cases store.reaches [.requests] <;> simp

theorem grant_eq_ok {statement : Statement} {number : Int} {u : Unit} :
    grant statement number = .ok u ↔ FitsInt64 number := by
  unfold grant
  split <;> simp_all

theorem grant_of_fits {number : Int} (fits : FitsInt64 number) (statement : Statement) :
    grant statement number = .ok () :=
  grant_eq_ok.2 fits

end Store
end ExpenseLedger
