import ExpenseLedger.Net.Ipv6
import ExpenseLedger.Numeric.Power
import ExpenseLedger.Text.Folding
import ExpenseLedger.Url.Encoding
import ExpenseLedger.Url.Punycode

/-!
# Hosts

The host of a URL is a name or an IP address. In the well-known schemes names are domains: they
are decoded, folded and written in ASCII, and a domain whose last label is a number has to be an
IPv4 address, whose parts may be octal or hexadecimal and may span several bytes. In other schemes
a name is only encoded. An IPv6 address stands in brackets.
-/

namespace ExpenseLedger
namespace Url

/-- Whom a URL speaks to. -/
inductive Host where
  | name (text : List Char)
  | ipv4 (address : Net.Ipv4)
  | ipv6 (address : Net.Ipv6)
  deriving DecidableEq

namespace Host

def chars : Host → List Char
  | .name text => text
  | .ipv4 address => address.chars
  | .ipv6 address => '[' :: address.chars ++ [']']

/-- The host is there, but it is nobody. -/
def isEmpty : Host → Bool
  | .name text => text.isEmpty
  | _ => false

/-! ## IPv4 addresses in hosts -/

/-- A part in the base that its first characters tell, if it is a number. -/
def part? (text : List Char) : Option Nat :=
  let read (base : Nat) (digits : List Char) : Option Nat := do
    let values ← digits.mapM Json.hexValue?
    if values.all (· < base) then some (values.foldl (fun n digit => base * n + digit) 0)
    else none
  match text with
  | [] => none
  | '0' :: 'x' :: digits | '0' :: 'X' :: digits => read 16 digits
  | '0' :: c :: digits => read 8 (c :: digits)
  | digits => read 10 digits

/-- The parts of a domain, without the empty one behind a last point. -/
def parts (domain : List Char) : List (List Char) :=
  let pieces := piecesAt '.' domain
  if pieces.getLast? = some [] then pieces.dropLast else pieces

/-- The last label of a domain is a number. -/
def endsInNumber (domain : List Char) : Bool :=
  match (parts domain).getLast? with
  | none => false
  | some last => (!last.isEmpty && last.all Char.isDigit) || (part? last).isSome

/-- The number that parts stand for: each is a byte, but the last spans all bytes that are
left. -/
def joinParts? (remaining value : Nat) : List Nat → Option Nat
  | [] => none
  | [last] =>
    let span := twoTo (8 * remaining)
    if last < span then some (value * span + last) else none
  | first :: rest =>
    if first < 256 then joinParts? (remaining - 1) (value * 256 + first) rest else none

/-- Reads an IPv4 address of up to four parts. -/
def ipv4? (domain : List Char) : Option Net.Ipv4 := do
  let numbers ← (parts domain).mapM part?
  if 4 < numbers.length then none
  else
    let n ← joinParts? 4 0 numbers
    some (Net.Ipv4.ofNumber n)

/-! ## Reading -/

/-- The characters that no host holds. -/
def isForbidden (c : Char) : Bool :=
  "\x00\t\n\x0d #/:<>?@[\\]^|".toList.contains c

/-- The characters that no domain holds. -/
def isForbiddenInDomain (c : Char) : Bool :=
  isForbidden c || c.toNat < 0x20 || c = '%' || c.toNat = 0x7f

def label (text : List Char) : List Char :=
  if text.all fun c => c.toNat < 0x80 then text else "xn--".toList ++ Punycode.encode text

def domain? (text : List Char) : Option (List Char) := do
  let decoded ← decodeText? text
  let folded ← foldText? decoded
  let domain := joinPieces '.' ((piecesAt '.' folded).map label)
  if domain.isEmpty ∨ domain.any isForbiddenInDomain then none else some domain

/-- Reads an IPv6 address behind its opening bracket. -/
def bracketed? (text : List Char) : Option Host :=
  if text.getLast? = some ']' then (Net.Ipv6.ofChars? text.dropLast).map .ipv6 else none

/-- Reads the host of a well-known scheme. -/
def ofDomain? : List Char → Option Host
  | '[' :: rest => bracketed? rest
  | text => do
    let domain ← domain? text
    if endsInNumber domain then (ipv4? domain).map .ipv4 else some (.name domain)

/-- Reads the host of another scheme. -/
def ofOpaque? : List Char → Option Host
  | '[' :: rest => bracketed? rest
  | text => if text.any isForbidden then none else some (.name (encode .control text))

end Host
end Url
end ExpenseLedger
