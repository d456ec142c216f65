/-!
# Reading JSON texts

The characters between two quotes, read one by one. A backslash starts an escape; a surrogate
half has to be followed by the escape of its other half. Control characters have to be escaped.
-/

namespace ExpenseLedger
namespace Json

/-- Why a JSON text is not read: it is no JSON, or not of the shape that is asked for. The first
fault from the left counts. -/
inductive Fault where
  | malformed
  | mismatch
  deriving DecidableEq, Repr

def hexValue? (c : Char) : Option Nat :=
  if c.isDigit then some (c.toNat - '0'.toNat)
  else if 'a' ≤ c ∧ c ≤ 'f' then some (c.toNat - 'a'.toNat + 10)
  else if 'A' ≤ c ∧ c ≤ 'F' then some (c.toNat - 'A'.toNat + 10)
  else none

/-- The character that an escape of one letter stands for. -/
def unescape? (c : Char) : Option Char :=
  if c = '"' ∨ c = '\\' ∨ c = '/' then some c
  else if c = 'b' then some '\x08'
  else if c = 't' then some '\t'
  else if c = 'n' then some '\n'
  else if c = 'f' then some '\x0c'
  else if c = 'r' then some '\r'
  else none

/-- How far an escape has been read. -/
inductive Escape where
  | outside
  | slash
  | digits (missing value : Nat)
  | pairSlash (high : Nat)
  | pairLetter (high : Nat)
  | pairDigits (high missing value : Nat)
  deriving DecidableEq

/-- The first half of a surrogate pair. -/
def isHigh (unit : Nat) : Bool :=
  0xD800 ≤ unit && unit ≤ 0xDBFF

/-- The second half of a surrogate pair. -/
def isLow (unit : Nat) : Bool :=
  0xDC00 ≤ unit && unit ≤ 0xDFFF

/-- What one more character of a text leads to: the end of the text, a fault, or another state
together with the character that is complete, if one is. -/
inductive Escape.Step where
  | finish
  | fail
  | next (state : Escape) (done : Option Char)

/-- One more character of a text. -/
def Escape.step (state : Escape) (c : Char) : Escape.Step :=
  match state with
  | .outside =>
    if c = '"' then .finish
    else if c = '\\' then .next .slash none
    else if c.toNat < 0x20 then .fail
    else .next .outside (some c)
  | .slash =>
    if c = 'u' then .next (.digits 4 0) none
    else
      match unescape? c with
      | some plain => .next .outside (some plain)
      | none => .fail
  | .digits missing value =>
    match hexValue? c with
    | none => .fail
    | some digit =>
      let value := 16 * value + digit
      if 1 < missing then .next (.digits (missing - 1) value) none
      else if isHigh value then .next (.pairSlash value) none
      else if isLow value then .fail
      else .next .outside (some (Char.ofNat value))
  | .pairSlash high => if c = '\\' then .next (.pairLetter high) none else .fail
  | .pairLetter high => if c = 'u' then .next (.pairDigits high 4 0) none else .fail
  | .pairDigits high missing value =>
    match hexValue? c with
    | none => .fail
    | some digit =>
      let value := 16 * value + digit
      if 1 < missing then .next (.pairDigits high (missing - 1) value) none
      else if isLow value then
        let code := 0x10000 + 0x400 * (high - 0xD800) + (value - 0xDC00)
        .next .outside (some (Char.ofNat code))
      else .fail

/-- Reads on to the closing quote; the rest of the input follows it. -/
def readChars (state : Escape) : List Char → Except Fault (List Char × List Char)
  | [] => .error .malformed
  | c :: rest =>
    match state.step c with
    | .finish => .ok ([], rest)
    | .fail => .error .malformed
    | .next state done => do
      let (chars, rest) ← readChars state rest
      .ok (done.toList ++ chars, rest)

inductive Skip where
  | outside
  | slash
  | digits (missing : Nat)
  deriving DecidableEq

/-- Passes over a text up to its closing quote. The escapes have to be well formed, but a
surrogate half may stand alone. -/
def skipChars (state : Skip) : List Char → Except Fault (List Char)
  | [] => .error .malformed
  | c :: rest =>
    match state with
    | .outside =>
      if c = '"' then .ok rest
      else if c = '\\' then skipChars .slash rest
      else if c.toNat < 0x20 then .error .malformed
      else skipChars .outside rest
    | .slash =>
      if c = 'u' then skipChars (.digits 4) rest
      else if (unescape? c).isSome then skipChars .outside rest
      else .error .malformed
    | .digits missing =>
      if (hexValue? c).isNone then .error .malformed
      else if 1 < missing then skipChars (.digits (missing - 1)) rest
      else skipChars .outside rest

end Json
end ExpenseLedger
