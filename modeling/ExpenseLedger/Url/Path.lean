import ExpenseLedger.Text.Pieces
import ExpenseLedger.Url.Encoding

/-!
# Paths

The path of a URL is a list of segments. A segment of one dot is dropped and one of two dots
takes the segment before it along, also where dots are encoded; as the last segment both leave
an empty one behind. In files a drive letter stays where it is, and there are no empty segments
in front.
-/

namespace ExpenseLedger
namespace Url

/-- Takes a dot off a text, also an encoded one. -/
def dot? : List Char → Option (List Char)
  | '.' :: rest => some rest
  | '%' :: '2' :: 'e' :: rest | '%' :: '2' :: 'E' :: rest => some rest
  | _ => none

/-- The segment stands for the place itself. -/
def isHere (segment : List Char) : Bool :=
  dot? segment == some []

/-- The segment stands for the place above. -/
def isAbove (segment : List Char) : Bool :=
  ((dot? segment).bind dot?) == some []

/-- A letter and a colon or a bar, which name a drive. -/
def isDrive : List Char → Bool
  | [letter, mark] => letter.isAlpha && (mark == ':' || mark == '|')
  | _ => false

inductive PathKind where
  | file
  | wellKnown
  | other
  deriving DecidableEq, Repr

def PathKind.divides (kind : PathKind) (c : Char) : Bool :=
  c == '/' || (c == '\\' && kind != .other)

/-- The segments before the place above, nearest first. The drive of a file is never left. -/
def PathKind.leave (kind : PathKind) : List (List Char) → List (List Char)
  | [only] => if kind = .file ∧ isDrive only then [only] else []
  | segments => segments.drop 1

def PathKind.segment (kind : PathKind) (before : List (List Char)) (piece : List Char) :
    List Char :=
  if kind = .file ∧ before.isEmpty ∧ isDrive piece then piece.take 1 ++ [':']
  else encode .path piece

/-- Walks along pieces of a path, with the segments so far nearest first. -/
def PathKind.walk (kind : PathKind) (segments : List (List Char)) :
    List (List Char) → List (List Char)
  | [] => segments.reverse
  | piece :: rest =>
    let segments :=
      if isAbove piece then
        (if rest.isEmpty then [[]] else []) ++ kind.leave segments
      else if isHere piece then
        (if rest.isEmpty then [[]] else []) ++ segments
      else kind.segment segments piece :: segments
    kind.walk segments rest

/-- A list of segments without the empty ones in front, except for the last. -/
def dropEmpty : List (List Char) → List (List Char)
  | [] :: next :: rest => dropEmpty (next :: rest)
  | segments => segments

/-- The segments of a path, from behind its first slash. -/
def PathKind.segments (kind : PathKind) (text : List Char) : List (List Char) :=
  let slashes := text.map fun c => if kind.divides c then '/' else c
  let segments := kind.walk [] (piecesAt '/' slashes)
  if kind = .file then dropEmpty segments else segments

end Url
end ExpenseLedger
