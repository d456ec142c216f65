import ExpenseLedger.Books
import ExpenseLedger.Json.Value

/-!
# What commands print

A command prints a message and may have a value besides. One that works on the books leaves them
changed even if it fails later on, so that its result and the books that it leaves are told
apart.
-/

namespace ExpenseLedger

structure Output where
  message : String
  value : Option Json := none

/-- A command on the books: its result, and the books that it leaves. -/
abbrev BookCommand := Books → Outcome Output × Books

namespace BookCommand

/-- Changes the books, and then tells about it from the books as they are. -/
def after {α : Type} (change : Books → Outcome (α × Books))
    (tell : α → Books → Outcome Output) : BookCommand := fun books =>
  match change books with
  | .ok (a, books) => (tell a books, books)
  | .error e => (.error e, books)

/-- Changes the books by a change that yields nothing, and then tells about it. -/
def afterChange (change : Books → Outcome Books) (tell : Books → Outcome Output) : BookCommand :=
  after (fun books => (change books).map ((), ·)) fun _ => tell

def looking (tell : Books → Outcome Output) : BookCommand := fun books =>
  (tell books, books)

end BookCommand
end ExpenseLedger
