import ExpenseLedger.Net.Ipv6

/-!
# Socket addresses

An IP address and a port. An IPv6 address stands in brackets and may have a scope behind a
percent sign; a scope of zero is not written.
-/

namespace ExpenseLedger
namespace Net

inductive SocketAddress where
  | v4 (ip : Ipv4) (port : UInt16)
  | v6 (ip : Ipv6) (scope : UInt32) (port : UInt16)
  deriving DecidableEq

namespace SocketAddress

def port : SocketAddress → UInt16
  | .v4 _ port => port
  | .v6 _ _ port => port

def chars : SocketAddress → List Char
  | .v4 ip port => ip.chars ++ ':' :: naturalDigits port.toNat
  | .v6 ip scope port =>
    let scopeChars := if scope = 0 then [] else '%' :: naturalDigits scope.toNat
    '[' :: ip.charsWithMapped ++ scopeChars ++ [']', ':'] ++ naturalDigits port.toNat

def toText (address : SocketAddress) : String :=
  String.ofList address.chars

instance : ToString SocketAddress := ⟨toText⟩

/-- Reads a number of decimal digits that stays below a bound; it may begin with zeros. -/
def number? (bound : Nat) (digits : List Char) : Option Nat :=
  let n := Nat.ofDigitChars 10 digits 0
  if digits.isEmpty ∨ !digits.all Char.isDigit then none
  else if n < bound then some n
  else none

def port? (digits : List Char) : Option UInt16 :=
  (number? 0x10000 digits).map UInt16.ofNat

/-- Reads what stands behind an IPv6 address in brackets: a scope or nothing. -/
def scope? : List Char → Option UInt32
  | [] => some 0
  | '%' :: digits => (number? 0x100000000 digits).map UInt32.ofNat
  | _ => none

def ofChars? : List Char → Option SocketAddress
  | '[' :: rest =>
    let (inner, rest) := divideAt (· = ']') rest
    let (ip, scope) := divideAt (· = '%') inner
    match rest with
    | ']' :: ':' :: digits => do
      some (.v6 (← Ipv6.ofChars? ip) (← scope? scope) (← port? digits))
    | _ => none
  | text =>
    let (ip, rest) := divideAt (· = ':') text
    match rest with
    | ':' :: digits => do
      some (.v4 (← Ipv4.ofChars? ip) (← port? digits))
    | _ => none

def ofText? (text : String) : Option SocketAddress :=
  ofChars? text.toList

/-- Who connects to the second IP address reaches a program that listens at the first. All zeros
stand for every address of the machine, an IPv6 address of zeros also for the IPv4 ones. -/
def covers : SocketAddress → SocketAddress → Bool
  | .v4 ip _, .v4 ip' _ => ip = ip' ∨ ip = default
  | .v6 ip _ _, .v6 ip' _ _ => ip = ip' ∨ ip = default
  | .v6 ip _ _, .v4 _ _ => ip = default
  | .v4 _ _, .v6 _ _ _ => false

/-- Two programs cannot listen at both addresses at once. Port 0 stands for any free port. -/
def overlaps (a b : SocketAddress) : Bool :=
  a.port = b.port ∧ a.port ≠ 0 ∧ (a.covers b ∨ b.covers a)

end SocketAddress
end Net
end ExpenseLedger
