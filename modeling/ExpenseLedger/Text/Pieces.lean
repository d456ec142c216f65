/-!
# Pieces of a text

A text is divided at every place where a separator stands. There is always one piece more than
there are separators, so that no separator is lost.
-/

namespace ExpenseLedger

/-- The pieces between the separators. -/
def piecesAt (separator : Char) : List Char → List (List Char)
  | [] => [[]]
  | c :: rest =>
    if c = separator then [] :: piecesAt separator rest
    else
      match piecesAt separator rest with
      | piece :: pieces => (c :: piece) :: pieces
      | [] => [[c]]

/-- The pieces with the separator between them. -/
def joinPieces (separator : Char) (pieces : List (List Char)) : List Char :=
  [separator].intercalate pieces

/-- Divides a text before the first character of a kind. -/
def divideAt (mark : Char → Bool) (text : List Char) : List Char × List Char :=
  text.span fun c => !mark c

end ExpenseLedger
