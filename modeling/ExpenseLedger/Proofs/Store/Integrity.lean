import ExpenseLedger.Proofs.Store.Rates
import ExpenseLedger.Proofs.Store.Sound
import ExpenseLedger.Text.Blank

/-!
# Rows that refer to each other

Users have a currency, categories a user, expenses a user and one of its categories; currencies and
the categories of a user have names of their own: `Store.Integral`. `Store.Revises` lists the
changes that statements make to the tables, each under the condition that its statement checks, and
all of them keep the tables integral. Numbers of categories are given once, so that one which has
gone never comes back: `Store.Spent`.
-/

namespace ExpenseLedger

/-! ## Trimmed texts -/

/-- The text neither begins nor ends with a blank. -/
def IsTrimmed (text : String) : Prop :=
  ∀ c, text.toList.head? = some c ∨ text.toList.getLast? = some c → isBlank c = false

theorem not_isBlank_of_head?_dropWhile {text : List Char} {c : Char}
    (h : (text.dropWhile isBlank).head? = some c) : isBlank c = false := by
  have first := List.head?_dropWhile_not isBlank text
  rw [h] at first
  exact first

theorem isTrimmed_trim (text : String) : IsTrimmed (trim text) := by
  intro c ends
  unfold trim trimChars trimEnd at ends
  rw [String.toList_ofList] at ends
  rcases ends with first | last
  · -- What is dropped at the end leaves a beginning of the text, which has lost its blanks.
    have split := List.takeWhile_append_dropWhile (p := isBlank)
      (l := (text.toList.dropWhile isBlank).reverse)
    have whole := congrArg List.reverse split
    rw [List.reverse_append, List.reverse_reverse] at whole
    have still : (text.toList.dropWhile isBlank).head? = some c := by
      rw [← whole, List.head?_append, first, Option.some_or]
    exact not_isBlank_of_head?_dropWhile still
  · rw [List.getLast?_reverse] at last
    exact not_isBlank_of_head?_dropWhile last

namespace Store

/-! ## What the rows refer to -/

/-- Tables that fit together, in which all that a row refers to exists, and what has to be unique
is. -/
structure Integral (store : Store) : Prop extends Sound store where
  currencyIds : Rows.Ascending Currency.id store.currencies
  codes : ∀ a ∈ store.currencies, ∀ b ∈ store.currencies, a.code = b.code → a.id = b.id
  users : ∀ row ∈ store.users, (store.currency? row.currency).isSome
  categories : ∀ row ∈ store.categories, (store.user? row.user).isSome
  trimmed : ∀ row ∈ store.categories, IsTrimmed row.name
  named : store.categories.Pairwise fun a b => ¬(a.user = b.user ∧ a.name = b.name)

/-- The number was given to a category that exists no more. -/
def Spent (store : Store) (category : Int) : Prop :=
  category < store.nextCategory ∧ ∀ row ∈ store.categories, row.id ≠ category

section Lookups

variable {store : Store}

theorem isSome_user?_iff {id : Int} :
    (store.user? id).isSome ↔ ∃ row ∈ store.users, row.id = id := by
  unfold user? Rows.get?
  simp

theorem isSome_currency?_iff {id : Int} :
    (store.currency? id).isSome ↔ ∃ row ∈ store.currencies, row.id = id := by
  unfold currency? Rows.get?
  simp

/-- A number that would file under any user is one that files nothing. -/
theorem spent_iff {category : Int} :
    store.Spent category ↔ ∀ user, store.Files user category := by
  constructor
  · rintro ⟨given, gone⟩ user
    exact ⟨given, fun row member same => absurd same (gone row member)⟩
  · intro files
    refine ⟨(files 0).1, fun row member same => ?_⟩
    have owner := (files row.user).2 row member same
    have other := (files (row.user + 1)).2 row member same
    omega

/-- The category of a user who is gone is gone. -/
theorem Integral.spent_of_absent (integral : store.Integral) {user category : Int}
    (files : store.Files user category) (absent : store.user? user = none) :
    store.Spent category := by
  refine ⟨files.1, fun row member same => ?_⟩
  have owned := integral.categories row member
  rw [files.2 row member same, absent] at owned
  cases owned

end Lookups

/-! ## What statements change -/

/-- A change that statements make, with what they have made sure of. -/
inductive Revises : Store → Store → Prop
  | nothing {store : Store} : Revises store store
  | userPut {store : Store} (row : User)
      (priced : (∃ old ∈ store.users, old.currency = row.currency) ∨
        (store.currency? row.currency).isSome) : Revises store (store.putUser row)
  | limitsRestored {store : Store} : Revises store store.withLimitsRestored
  | userErased {store : Store} (user : Int) : Revises store (store.withoutUser user)
  | numberSpent {store : Store} : Revises store store.withoutNextCategory
  | categoryMade {store : Store} (user : Int) (name : String)
      (trimmed : IsTrimmed name) (absent : store.categoryNamed? user name = none)
      (owner : (store.user? user).isSome) :
      Revises store (store.withCategory (store.nextCategoryRow user name))
  | rateStored {store : Store} (currency : Currency) (free : store.codeTaken currency = false) :
      Revises store
        { store with currencies := Rows.put Currency.id currency store.currencies }
  | expenseBooked {store : Store} (row : Expense) (new : row.id = store.nextExpense)
      (filed : ∃ category ∈ store.categories,
        category.id = row.category ∧ category.user = row.user) :
      Revises store (store.withExpense row)
  | elsewhere {store after : Store} (same : SameRows store after)
      (currencies : after.currencies = store.currencies) : Revises store after
  | trans {store middle after : Store} (first : Revises store middle)
      (second : Revises middle after) : Revises store after

namespace Integral

variable {store after : Store} (integral : store.Integral)

include integral

/-- Nothing has changed that the rows are about. -/
theorem of_same (same : SameEntries store after) (users : after.users = store.users)
    (currencies : after.currencies = store.currencies) : after.Integral where
  toSound := integral.toSound.of_same same
  currencyIds := currencies ▸ integral.currencyIds
  codes := currencies ▸ integral.codes
  users := by
    unfold currency?
    rw [users, currencies]
    exact integral.users
  categories := by
    unfold user?
    rw [users, same.categories]
    exact integral.categories
  trimmed := same.categories ▸ integral.trimmed
  named := same.categories ▸ integral.named

theorem putUser {row : User} (priced : (∃ old ∈ store.users, old.currency = row.currency) ∨
    (store.currency? row.currency).isSome) : (store.putUser row).Integral :=
  { integral with
    toSound := integral.toSound.of_same (sameEntries_putUser store row)
    users := by
      intro other member
      rcases Rows.mem_put member with rfl | before
      · rcases priced with ⟨old, inTable, same⟩ | known
        · rw [← same]
          exact integral.users old inTable
        · exact known
      · exact integral.users other before
    categories := by
      intro category member
      have owned := integral.categories category member
      by_cases same : row.id = category.user
      · rw [← same, user?_putUser_self]
        rfl
      · rw [user?_putUser_of_ne same]
        exact owned }

theorem withLimitsRestored : store.withLimitsRestored.Integral :=
  { integral with
    toSound := integral.toSound.of_same (sameEntries_withLimitsRestored store)
    users := by
      intro row member
      obtain ⟨old, inTable, rfl⟩ := List.mem_map.1 member
      exact integral.users old inTable
    categories := by
      intro category member
      rw [user?_withLimitsRestored, Option.isSome_map]
      exact integral.categories category member }

/-- Whoever goes takes along its categories, and only those. -/
theorem withoutUser (user : Int) : (store.withoutUser user).Integral where
  toSound := integral.toSound.withoutUser user
  currencyIds := integral.currencyIds
  codes := integral.codes
  users := fun row member => integral.users row (List.mem_filter.1 member).1
  categories := by
    intro category member
    obtain ⟨inTable, stays⟩ := List.mem_filter.1 member
    rw [user?_withoutUser_of_ne (of_decide_eq_true stays)]
    exact integral.categories category inTable
  trimmed := fun category member => integral.trimmed category (List.mem_filter.1 member).1
  named := integral.named.filter _

theorem withCategory {user : Int} {name : String} (trimmed : IsTrimmed name)
    (absent : store.categoryNamed? user name = none) (owner : (store.user? user).isSome) :
    (store.withCategory (store.nextCategoryRow user name)).Integral where
  toSound := integral.toSound.withCategory
  currencyIds := integral.currencyIds
  codes := integral.codes
  users := integral.users
  categories := by
    intro category member
    rcases List.mem_append.1 member with old | new
    · exact integral.categories category old
    · rw [List.mem_singleton.1 new]
      exact owner
  trimmed := by
    intro category member
    rcases List.mem_append.1 member with old | new
    · exact integral.trimmed category old
    · rw [List.mem_singleton.1 new]
      exact trimmed
  named := by
    refine List.pairwise_append.2 ⟨integral.named, List.pairwise_singleton _ _, ?_⟩
    intro category member new inLast
    rw [List.mem_singleton.1 inLast]
    have other := List.find?_eq_none.1 absent category member
    exact fun same => other (decide_eq_true same)

theorem distinctCurrencies : store.DistinctCurrencies :=
  ⟨integral.currencyIds, integral.codes⟩

/-- A currency whose code nobody else has takes the place of its id. -/
theorem withCurrency {currency : Currency} (free : store.codeTaken currency = false) :
    Integral { store with currencies := Rows.put Currency.id currency store.currencies } where
  toSound := integral.toSound.of_same ⟨rfl, rfl, rfl, rfl⟩
  currencyIds := (integral.distinctCurrencies.putCurrency (codeTaken_eq_false.1 free)).ids
  codes := (integral.distinctCurrencies.putCurrency (codeTaken_eq_false.1 free)).codes
  users := by
    intro row member
    have known := integral.users row member
    unfold currency? at known ⊢
    rw [Rows.get?_put]
    split
    · rfl
    · exact known
  categories := integral.categories
  trimmed := integral.trimmed
  named := integral.named

end Integral

namespace Revises

variable {store after : Store}

theorem integral (revises : Revises store after) (before : store.Integral) : after.Integral := by
  induction revises with
  | nothing => exact before
  | userPut row priced => exact before.putUser priced
  | limitsRestored => exact before.withLimitsRestored
  | userErased user => exact before.withoutUser user
  | numberSpent => exact { before with toSound := before.toSound.withoutNextCategory }
  | categoryMade user name trimmed absent owner => exact before.withCategory trimmed absent owner
  | rateStored currency free => exact before.withCurrency free
  | expenseBooked row new filed =>
    exact { before with toSound := before.toSound.withExpense new filed }
  | elsewhere same currencies => exact before.of_same same.toSameEntries same.users currencies
  | trans _ _ ih ih' => exact ih' (ih before)

/-- A number that has been given to a category of a user is not given to another one. -/
theorem files (revises : Revises store after) {user category : Int}
    (files : store.Files user category) : after.Files user category := by
  induction revises with
  | nothing => exact files
  | userPut row priced => exact files.of_same (sameEntries_putUser _ row)
  | limitsRestored => exact files.of_same (sameEntries_withLimitsRestored _)
  | userErased gone => exact files.withoutUser gone
  | numberSpent => exact files.withoutNextCategory
  | categoryMade _ name _ _ _ => exact files.withCategory
  | rateStored currency free => exact files.of_same ⟨rfl, rfl, rfl, rfl⟩
  | expenseBooked row new filed => exact files.withExpense
  | elsewhere same currencies => exact files.of_same same.toSameEntries
  | trans _ _ ih ih' => exact ih' (ih files)

theorem spent (revises : Revises store after) {category : Int} (h : store.Spent category) :
    after.Spent category :=
  spent_iff.2 fun user => revises.files (spent_iff.1 h user)

end Revises

/-! ## What the tables say of themselves -/

/-- All that a row refers to exists, an expense is in a category of its own user, names of
categories are trimmed and belong to one category of a user, and ids and codes of currencies to one
currency. -/
structure Referential (store : Store) : Prop where
  users : ∀ user ∈ store.users, ∃ currency ∈ store.currencies, currency.id = user.currency
  categories : ∀ category ∈ store.categories, ∃ user ∈ store.users, user.id = category.user
  expenses : ∀ expense ∈ store.expenses,
    (∃ user ∈ store.users, user.id = expense.user) ∧
      ∃ category ∈ store.categories,
        category.id = expense.category ∧ category.user = expense.user
  trimmed : ∀ category ∈ store.categories, IsTrimmed category.name
  named : store.categories.Pairwise fun a b => ¬(a.user = b.user ∧ a.name = b.name)
  currencies : store.currencies.Pairwise fun a b => a.id ≠ b.id ∧ a.code ≠ b.code

theorem Integral.referential {store : Store} (integral : store.Integral) : store.Referential where
  users := fun user member => isSome_currency?_iff.1 (integral.users user member)
  categories := fun category member => isSome_user?_iff.1 (integral.categories category member)
  expenses := by
    intro expense member
    obtain ⟨category, inTable, same, owner⟩ := integral.filed expense member
    have user := isSome_user?_iff.1 (integral.categories category inTable)
    rw [owner] at user
    exact ⟨user, category, inTable, same, owner⟩
  trimmed := integral.trimmed
  named := integral.named
  currencies := by
    refine integral.currencyIds.imp_of_mem fun inTable inTable' less => ?_
    have different := Int.ne_of_lt less
    exact ⟨different, fun same => different (integral.codes _ inTable _ inTable' same)⟩

end Store
end ExpenseLedger
