import ExpenseLedger.Calendar.Instant
import ExpenseLedger.Numeric.IntegerText
import ExpenseLedger.Numeric.Power
import ExpenseLedger.Text.Blank

/-!
# Timestamps as text

An expense is dated either by a plain date, which means its midnight in UTC, or by a full
timestamp in the format of RFC 3339. A text that is neither is blamed on the second format.
Dates and instants are written back in the same forms.
-/

namespace ExpenseLedger

namespace Date

/-- Reads at most `limit` digits onto `value`; the rest is returned. -/
def readDigits : Nat → Nat → List Char → Nat × List Char
  | 0, value, text => (value, text)
  | _ + 1, value, [] => (value, [])
  | limit + 1, value, c :: rest =>
    if c.isDigit then readDigits limit (10 * value + digitValue c) rest else (value, c :: rest)

/-- Reads a number of one to `limit` digits. -/
def readNumber? (limit : Nat) (text : List Char) : Option (Nat × List Char) :=
  match text with
  | [] => none
  | c :: _ => if c.isDigit then some (readDigits limit 0 text) else none

/-- Reads a year: up to four digits, or a sign and any number of them. -/
def readYear? : List Char → Option (Int × List Char)
  | '-' :: rest => (readNumber? rest.length rest).map fun (n, rest) => (-(n : Int), rest)
  | '+' :: rest => (readNumber? rest.length rest).map fun (n, rest) => ((n : Int), rest)
  | text => (readNumber? 4 text).map fun (n, rest) => ((n : Int), rest)

def readHyphen? : List Char → Option (List Char)
  | '-' :: rest => some rest
  | _ => none

/-- Reads a date written as year, month and day with hyphens between. Blanks are skipped in
front of each number; nothing may follow the day. -/
def read? (text : List Char) : Option Date := do
  let (year, rest) ← readYear? (text.dropWhile isBlank)
  let rest ← readHyphen? rest
  let (month, rest) ← readNumber? 2 (rest.dropWhile isBlank)
  let rest ← readHyphen? rest
  let (day, rest) ← readNumber? 2 (rest.dropWhile isBlank)
  let date : Date := { year, month, day }
  if rest.isEmpty ∧ date.Exists then some date else none

/-- The date as year, month and day with hyphens between. Years outside 0000 to 9999 carry
their sign. -/
def toChars (date : Date) : List Char :=
  let year := atLeastDigits 4 date.year.natAbs
  let sign := if date.year < 0 then ['-'] else if 9999 < date.year then ['+'] else []
  sign ++ year ++ '-' :: paddedDigits 2 date.month ++ '-' :: paddedDigits 2 date.day

/-- The date as year, month and day with hyphens between. -/
def toText (date : Date) : String :=
  String.ofList date.toChars

end Date

namespace Timestamp

/-- What is wrong with a timestamp. -/
inductive Fault where
  | tooShort
  | invalid
  | outOfRange
  | trailing
  deriving DecidableEq, Repr

def Fault.message : Fault → String
  | .tooShort => "premature end of input"
  | .invalid => "input contains invalid characters"
  | .outOfRange => "input is out of range"
  | .trailing => "trailing input"

/-- Reads exactly `count` digits onto `value`. -/
def fixedDigits : Nat → Nat → List Char → Except Fault (Nat × List Char)
  | 0, value, text => .ok (value, text)
  | _ + 1, _, [] => .error .tooShort
  | count + 1, value, c :: rest =>
    if c.isDigit then fixedDigits count (10 * value + digitValue c) rest else .error .invalid

def oneOf (choices : List Char) : List Char → Except Fault (List Char)
  | [] => .error .tooShort
  | c :: rest => if choices.contains c then .ok rest else .error .invalid

/-- Reads a fraction of a second: at least one digit, of which the first nine count. -/
def readNanos (text : List Char) : Except Fault (Nat × List Char) :=
  match text with
  | [] => .error .tooShort
  | c :: _ =>
    if c.isDigit then
      let digits := (text.takeWhile Char.isDigit).take 9
      let value := Nat.ofDigitChars 10 digits 0 * tenTo (9 - digits.length)
      .ok (value, text.dropWhile Char.isDigit)
    else
      .error .invalid

def isCut : List Char → Bool
  | [] => true
  | [c] => c.utf8Size < 2
  | _ => false

/-- Reads two digits, a text too short for them being cut. -/
def twoDigits (text : List Char) : Except Fault (Nat × List Char) :=
  if isCut text then
    .error .tooShort
  else
    match fixedDigits 2 0 text with
    | .ok result => .ok result
    | .error _ => .error .invalid

/-- Reads an offset after its sign, in seconds. -/
def readOffsetMagnitude (text : List Char) : Except Fault (Int × List Char) := do
  let (hours, rest) ← twoDigits text
  let rest ← oneOf [':'] rest
  let (minutes, rest) ← twoDigits rest
  if 60 ≤ minutes ∨ 24 ≤ hours then
    .error .outOfRange
  else
    .ok (3600 * hours + 60 * minutes, rest)

/-- Reads the offset of local time from UTC, in seconds. The minus sign may be the typographic
one. -/
def readOffset : List Char → Except Fault (Int × List Char)
  | [] => .error .tooShort
  | c :: rest =>
    if c = 'Z' ∨ c = 'z' then .ok (0, rest)
    else if c = '+' then readOffsetMagnitude rest
    else if c = '-' ∨ c = '\u2212' then do
      let (offset, rest) ← readOffsetMagnitude rest
      .ok (-offset, rest)
    else .error .invalid

/-- Reads a timestamp in the format of RFC 3339. Second 60 is a leap second, which shares the
seconds of its predecessor. -/
def readRfc3339 (text : String) : Except Fault Instant := do
  if text.utf8ByteSize < 19 then
    throw .tooShort
  let (year, rest) ← fixedDigits 4 0 text.toList
  let rest ← oneOf ['-'] rest
  let (month, rest) ← fixedDigits 2 0 rest
  let rest ← oneOf ['-'] rest
  let (day, rest) ← fixedDigits 2 0 rest
  let date : Date := { year, month, day }
  unless date.Exists do
    throw .outOfRange
  let rest ← oneOf ['T', 't', ' '] rest
  let (hour, rest) ← fixedDigits 2 0 rest
  let rest ← oneOf [':'] rest
  let (minute, rest) ← fixedDigits 2 0 rest
  let rest ← oneOf [':'] rest
  let (second, rest) ← fixedDigits 2 0 rest
  let (nanos, rest) ←
    match rest with
    | '.' :: rest => readNanos rest
    | rest => .ok (0, rest)
  if 24 ≤ hour ∨ 60 ≤ minute ∨ 61 ≤ second then
    throw .outOfRange
  let (offset, rest) ← readOffset rest
  unless rest.isEmpty do
    throw .trailing
  let leap := if second = 60 then 1 else 0
  let ofDay : Int := 3600 * hour + 60 * minute + (second - leap : Nat)
  return {
    seconds := date.dayNumber * Instant.secondsPerDay + ofDay - offset
    nanos := leap * 1000000000 + nanos }

/-- Reads a plain date or a timestamp. -/
def read (text : String) : Except Fault Instant :=
  match Date.read? text.toList with
  | some date => .ok (Instant.midnight date)
  | none => readRfc3339 text

/-- The timestamp of a whole second, in UTC. -/
def toText (t : Instant) : String :=
  let ofDay := (t.seconds % Instant.secondsPerDay).toNat
  String.ofList (t.date.toChars ++ 'T' :: paddedDigits 2 (ofDay / 3600) ++
    ':' :: paddedDigits 2 (ofDay / 60 % 60) ++ ':' :: paddedDigits 2 (ofDay % 60) ++ ['Z'])

end Timestamp
end ExpenseLedger
