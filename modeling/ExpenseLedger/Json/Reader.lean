import ExpenseLedger.Json.Number
import ExpenseLedger.Json.Text

/-!
# Reading typed JSON

A reader takes a value of one shape off the front of a text. Readers go from left to right and
stop at the first fault, so that a text which is of the wrong shape early and broken late counts
as being of the wrong shape.
-/

namespace ExpenseLedger
namespace Json

/-- Takes a value off the front of a text. -/
abbrev Reader (α : Type) := List Char → Except Fault (α × List Char)

namespace Reader

def isSpace (c : Char) : Bool :=
  c == ' ' || c == '\n' || c == '\t' || c == '\r'

/-- The text without the blanks in front. -/
def skipSpace (text : List Char) : List Char :=
  text.dropWhile isSpace

/-- One character, with blanks allowed in front of it. -/
def expect (c : Char) (text : List Char) : Except Fault (List Char) :=
  match skipSpace text with
  | d :: rest => if d = c then .ok rest else .error .malformed
  | [] => .error .malformed

/-- A number as it is written: an integer where the notation has neither fraction nor exponent
and 64 bits hold it, a double otherwise. -/
inductive Numeral where
  | integer (value : Int)
  | double (value : Binary64)
  deriving DecidableEq

/-- The digits before the point; only a lone zero may begin with zero. -/
def readWhole (text : List Char) : Except Fault (List Char × List Char) :=
  let (digits, rest) := Binary64.spanDigits text
  match digits with
  | [] => .error .malformed
  | '0' :: _ :: _ => .error .malformed
  | digits => .ok (digits, rest)

/-- The digits after a point, of which there is at least one; none where there is no point. -/
def readPart (text : List Char) : Except Fault (List Char × List Char) :=
  match text with
  | '.' :: rest =>
    let (digits, rest) := Binary64.spanDigits rest
    if digits.isEmpty then .error .malformed else .ok (digits, rest)
  | text => .ok ([], text)

/-- The power of ten after the letter e, with an optional sign; none where there is no such
letter. -/
def readPower (text : List Char) : Except Fault (Option Int × List Char) :=
  match text with
  | [] => .ok (none, [])
  | c :: rest =>
    if c = 'e' ∨ c = 'E' then
      let (negative, rest) :=
        match rest with
        | '-' :: rest => (true, rest)
        | '+' :: rest => (false, rest)
        | rest => (false, rest)
      let (digits, rest) := Binary64.spanDigits rest
      if digits.isEmpty then
        .error .malformed
      else
        let magnitude : Int := Binary64.digitsToNat digits
        .ok (some (if negative then -magnitude else magnitude), rest)
    else
      .ok (none, text)

/-- The numeral of a sign and digits alone. A negative zero is a double, and so is a negative number
that 64 bits with a sign do not hold. -/
def wholeNumeral (negative : Bool) (magnitude : Nat) : Numeral :=
  if negative then
    if magnitude = 0 ∨ 0x8000000000000000 < magnitude then
      .double (Binary64.ofInt magnitude).negate
    else
      .integer (-magnitude)
  else
    .integer magnitude

/-- Reads a number without its sign. Digits before the point that 64 bits do not hold make it larger
by a place each, and those behind the point are passed over. A double past the largest one is no
JSON number here. -/
def readUnsigned (negative : Bool) (text : List Char) : Except Fault (Numeral × List Char) := do
  let (whole, rest) ← readWhole text
  let (part, rest) ← readPart rest
  let (power, rest) ← readPower rest
  let (significand, dropped) := gather 0 whole
  if part.isEmpty && power.isNone && dropped.isEmpty then
    .ok (wholeNumeral negative significand, rest)
  else
    let (significand, ignored) := gather significand part
    let exponent := (dropped.length : Int) - (part.length - ignored.length) + power.getD 0
    match double? negative significand exponent with
    | some x => .ok (.double x, rest)
    | none => .error .malformed

def readNumeral : List Char → Except Fault (Numeral × List Char)
  | '-' :: rest => readUnsigned true rest
  | text => readUnsigned false text

/-- The text begins a number. -/
def startsNumeral : List Char → Bool
  | [] => false
  | c :: _ => c == '-' || c.isDigit

/-- The fault of a value that is not of the shape that is asked for: the wrong shape, unless the
value is broken itself. Of an array or object only the bracket is looked at. -/
def wrongShape (text : List Char) : Fault :=
  let word (rest expected : List Char) : Fault :=
    if expected.isPrefixOf rest then .mismatch else .malformed
  match text with
  | [] => .malformed
  | c :: rest =>
    if c = '[' ∨ c = '{' then .mismatch
    else if c = 'n' then word rest ['u', 'l', 'l']
    else if c = 't' then word rest ['r', 'u', 'e']
    else if c = 'f' then word rest ['a', 'l', 's', 'e']
    else if c = '"' then
      match readChars .outside rest with
      | .ok _ => .mismatch
      | .error fault => fault
    else if startsNumeral text then
      match readNumeral text with
      | .ok _ => .mismatch
      | .error fault => fault
    else .malformed

/-- Reads an integer between two bounds. -/
def integer (low high : Int) : Reader Int := fun text => do
  let text := skipSpace text
  if startsNumeral text then
    let (numeral, rest) ← readNumeral text
    match numeral with
    | .integer n => if low ≤ n ∧ n ≤ high then .ok (n, rest) else .error .mismatch
    | .double _ => .error .mismatch
  else
    .error (wrongShape text)

def int64 : Reader Int :=
  integer minInt64 maxInt64

def int32 : Reader Int :=
  integer (-0x80000000) 0x7fffffff

/-- Reads a natural number below a bound. -/
def natBelow (bound : Nat) : Reader Nat := fun text => do
  let (n, rest) ← integer 0 ((bound : Int) - 1) text
  .ok (n.toNat, rest)

/-- Reads a double; an integer stands for the nearest one. -/
def double : Reader Binary64 := fun text => do
  let text := skipSpace text
  if startsNumeral text then
    let (numeral, rest) ← readNumeral text
    match numeral with
    | .integer n => .ok (Binary64.ofInt n, rest)
    | .double x => .ok (x, rest)
  else
    .error (wrongShape text)

def string : Reader String := fun text => do
  let text := skipSpace text
  match text with
  | '"' :: rest =>
    let (chars, rest) ← readChars .outside rest
    .ok (String.ofList chars, rest)
  | text => .error (wrongShape text)

def boolean : Reader Bool := fun text => do
  let text := skipSpace text
  match text with
  | 't' :: 'r' :: 'u' :: 'e' :: rest => .ok (true, rest)
  | 'f' :: 'a' :: 'l' :: 's' :: 'e' :: rest => .ok (false, rest)
  | 't' :: _ | 'f' :: _ => .error .malformed
  | text => .error (wrongShape text)

def nothing : Reader Unit := fun text => do
  let text := skipSpace text
  match text with
  | 'n' :: 'u' :: 'l' :: 'l' :: rest => .ok ((), rest)
  | 'n' :: _ => .error .malformed
  | text => .error (wrongShape text)

/-- Reads a value and turns it into another, a value that cannot be turned being of the wrong
shape. -/
def refine {α β : Type} (read : Reader α) (f : α → Option β) : Reader β := fun text => do
  let (a, rest) ← read text
  match f a with
  | some b => .ok (b, rest)
  | none => .error .mismatch

/-- Goes to the next item of an array: nothing at its end, whose bracket is left in place. -/
def nextItem (first : Bool) (text : List Char) : Except Fault (Option (List Char)) :=
  match skipSpace text with
  | ']' :: _ => .ok none
  | ',' :: rest =>
    if first then
      .ok (some (',' :: rest))
    else
      match skipSpace rest with
      | [] | ']' :: _ => .error .malformed
      | rest => .ok (some rest)
  | [] => .error .malformed
  | rest => if first then .ok (some rest) else .error .malformed

/-- Reads the items of an array up to its end; `fuel` bounds their number. -/
def readItems {α : Type} (read : Reader α) : Nat → Bool → Reader (List α)
  | 0, _, _ => .error .malformed
  | fuel + 1, first, text => do
    match ← nextItem first text with
    | none =>
      let rest ← expect ']' text
      .ok ([], rest)
    | some text =>
      let (item, rest) ← read text
      let (items, rest) ← readItems read fuel false rest
      .ok (item :: items, rest)

/-- Reads an array of values of one shape. Every item takes up at least one character. -/
def array {α : Type} (read : Reader α) : Reader (List α) := fun text =>
  match skipSpace text with
  | '[' :: rest => readItems read (rest.length + 1) true rest
  | text => .error (wrongShape text)

/-- What an object makes of a member. -/
inductive Member (σ : Type) where
  | unknown
  | repeated
  | value (read : Reader σ)

/-- Goes to the key of the next member of an object, behind its opening quote: nothing at the
end of the object, whose bracket is left in place. -/
def nextKey (first : Bool) (text : List Char) : Except Fault (Option (List Char)) :=
  let key (text : List Char) : Except Fault (Option (List Char)) :=
    match text with
    | '"' :: rest => .ok (some rest)
    | _ => .error .malformed
  match skipSpace text with
  | '}' :: _ => .ok none
  | ',' :: rest => if first then .error .malformed else key (skipSpace rest)
  | text => if first then key text else .error .malformed

mutual

def skipValue : Nat → List Char → Except Fault (List Char)
  | 0, _ => .error .malformed
  | fuel + 1, text =>
    match skipSpace text with
    | [] => .error .malformed
    | c :: rest =>
      if c = '"' then skipChars .outside rest
      else if c = '[' then skipItems fuel true rest
      else if c = '{' then skipMembers fuel true rest
      else if c = 'n' then skipWord ['u', 'l', 'l'] rest
      else if c = 't' then skipWord ['r', 'u', 'e'] rest
      else if c = 'f' then skipWord ['a', 'l', 's', 'e'] rest
      else if startsNumeral (c :: rest) then skipNumeral (c :: rest)
      else .error .malformed
where
  /-- Passes over the rest of a word. -/
  skipWord (word text : List Char) : Except Fault (List Char) :=
    if word.isPrefixOf text then .ok (text.drop word.length) else .error .malformed
  /-- Passes over a number of any size. -/
  skipNumeral (text : List Char) : Except Fault (List Char) := do
    let text := match text with
      | '-' :: rest => rest
      | text => text
    let (_, rest) ← readWhole text
    let (_, rest) ← readPart rest
    let (_, rest) ← readPower rest
    .ok rest

/-- Passes over the items of an array and its end. -/
def skipItems : Nat → Bool → List Char → Except Fault (List Char)
  | 0, _, _ => .error .malformed
  | fuel + 1, first, text => do
    match ← nextItem first text with
    | none => expect ']' text
    | some text =>
      let rest ← skipValue fuel text
      skipItems fuel false rest

/-- Passes over the members of an object and its end. -/
def skipMembers : Nat → Bool → List Char → Except Fault (List Char)
  | 0, _, _ => .error .malformed
  | fuel + 1, first, text => do
    match ← nextKey first text with
    | none => expect '}' text
    | some text =>
      let rest ← skipChars .outside text
      let rest ← expect ':' rest
      let rest ← skipValue fuel rest
      skipMembers fuel false rest

end

/-- Reads the members of an object up to its end, each changing a state; `fuel` bounds their
number. -/
def readMembers {σ : Type} (member : σ → String → Member σ) : Nat → Bool → σ → Reader σ
  | 0, _, _, _ => .error .malformed
  | fuel + 1, first, state, text => do
    match ← nextKey first text with
    | none =>
      let rest ← expect '}' text
      .ok (state, rest)
    | some text =>
      let (key, rest) ← readChars .outside text
      match member state (String.ofList key) with
      | .repeated => .error .mismatch
      | .unknown =>
        let rest ← expect ':' rest
        let rest ← skipValue (rest.length + 1) rest
        readMembers member fuel false state rest
      | .value read =>
        let rest ← expect ':' rest
        let (state, rest) ← read rest
        readMembers member fuel false state rest

/-- Reads an object as a map whose values have one shape; of two members with one key the later
wins. -/
def map {α σ : Type} (read : Reader α) (empty : σ) (insert : σ → String → α → σ) : Reader σ :=
  fun text =>
    match skipSpace text with
    | '{' :: rest =>
      let member (state : σ) (key : String) : Member σ :=
        .value fun text => do
          let (a, rest) ← read text
          .ok (insert state key a, rest)
      readMembers member (rest.length + 1) true empty rest
    | text => .error (wrongShape text)

/-- Reads one of a few names: as a text, or as an object whose only member has the name for its
key and null for its value. -/
def choice {α : Type} (ofName? : String → Option α) : Reader α := fun text => do
  match skipSpace text with
  | '{' :: rest =>
    let (a, rest) ← refine string ofName? rest
    let rest ← expect ':' rest
    let (_, rest) ← nothing rest
    let rest ← expect '}' rest
    .ok (a, rest)
  | '"' :: rest => refine string ofName? ('"' :: rest)
  | _ => .error .malformed

/-- Reads a whole text: after the value there are only blanks. -/
def whole {α : Type} (read : Reader α) (text : String) : Except Fault α := do
  let (a, rest) ← read text.toList
  if (skipSpace rest).isEmpty then .ok a else .error .malformed

end Reader
end Json
end ExpenseLedger
