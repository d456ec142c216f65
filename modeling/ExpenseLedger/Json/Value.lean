import ExpenseLedger.Numeric.Binary64.Shortest
import ExpenseLedger.Numeric.IntegerText

/-!
# JSON values and how they are written

A value keeps the members of an object in the order in which they are written. Texts are written
with the fewest escapes: quotes, backslashes and control characters, all else as it is.
-/

namespace ExpenseLedger

inductive Json where
  | null
  | bool (value : Bool)
  | integer (value : Int)
  | number (value : Binary64)
  | text (value : String)
  | array (items : List Json)
  | object (members : List (String × Json))

namespace Json

def hexDigit (n : Nat) : Char :=
  Nat.digitChar (n % 16)

/-- How one character of a text is written. -/
def escapeChar (c : Char) : List Char :=
  if c = '"' then ['\\', '"']
  else if c = '\\' then ['\\', '\\']
  else if c = '\x08' then ['\\', 'b']
  else if c = '\t' then ['\\', 't']
  else if c = '\n' then ['\\', 'n']
  else if c = '\x0c' then ['\\', 'f']
  else if c = '\r' then ['\\', 'r']
  else if c.toNat < 0x20 then
    ['\\', 'u', '0', '0', hexDigit (c.toNat / 16), hexDigit c.toNat]
  else [c]

def quote (text : String) : List Char :=
  '"' :: text.toList.flatMap escapeChar ++ ['"']

def separated (separator : List Char) : List (List Char) → List Char
  | [] => []
  | [piece] => piece
  | piece :: rest => piece ++ separator ++ separated separator rest

mutual

/-- The value without any blanks. -/
def compact : Json → List Char
  | .null => ['n', 'u', 'l', 'l']
  | .bool true => ['t', 'r', 'u', 'e']
  | .bool false => ['f', 'a', 'l', 's', 'e']
  | .integer n => integerDigits n
  | .number x => x.toText.toList
  | .text s => quote s
  | .array items => '[' :: separated [','] (compactItems items) ++ [']']
  | .object members => '{' :: separated [','] (compactMembers members) ++ ['}']

def compactItems : List Json → List (List Char)
  | [] => []
  | item :: rest => compact item :: compactItems rest

def compactMembers : List (String × Json) → List (List Char)
  | [] => []
  | (key, value) :: rest => (quote key ++ ':' :: compact value) :: compactMembers rest

end

/-- A new line that is indented by so many steps of two spaces. -/
def newLine (depth : Nat) : List Char :=
  '\n' :: List.replicate (2 * depth) ' '

/-- Pieces on lines of their own between two brackets; none leave the brackets empty. -/
def block (depth : Nat) (opening closing : Char) (pieces : List (List Char)) : List Char :=
  if pieces.isEmpty then
    [opening, closing]
  else
    let line := newLine (depth + 1)
    opening :: line ++ separated (',' :: line) pieces ++ newLine depth ++ [closing]

mutual

/-- The value with every item and member on a line of its own. -/
def pretty (depth : Nat) : Json → List Char
  | .null => ['n', 'u', 'l', 'l']
  | .bool true => ['t', 'r', 'u', 'e']
  | .bool false => ['f', 'a', 'l', 's', 'e']
  | .integer n => integerDigits n
  | .number x => x.toText.toList
  | .text s => quote s
  | .array items => block depth '[' ']' (prettyItems (depth + 1) items)
  | .object members => block depth '{' '}' (prettyMembers (depth + 1) members)

def prettyItems (depth : Nat) : List Json → List (List Char)
  | [] => []
  | item :: rest => pretty depth item :: prettyItems depth rest

def prettyMembers (depth : Nat) : List (String × Json) → List (List Char)
  | [] => []
  | (key, value) :: rest =>
    (quote key ++ [':', ' '] ++ pretty depth value) :: prettyMembers depth rest

end

/-- The value as compact text. -/
def toText (value : Json) : String :=
  String.ofList value.compact

/-- The value as text on several lines. -/
def toLines (value : Json) : String :=
  String.ofList (value.pretty 0)

end Json
end ExpenseLedger
