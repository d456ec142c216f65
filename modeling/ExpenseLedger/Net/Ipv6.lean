import ExpenseLedger.Json.Text
import ExpenseLedger.Net.Ipv4

/-!
# IPv6 addresses

Eight groups of 16 bits, written in hexadecimal with colons between them. The longest run of two
or more zero groups, of several the first, is written as a double colon. In a text a double colon
stands for at least one group, and the last two groups may have the form of an IPv4 address.
-/

namespace ExpenseLedger
namespace Net

/-- An IPv6 address: its groups from the left. -/
structure Ipv6 where
  groups : List UInt16
  size_groups : groups.length = 8
  deriving DecidableEq

namespace Ipv6

instance : Inhabited Ipv6 := ⟨{ groups := List.replicate 8 0, size_groups := by decide }⟩

/-! ## Writing -/

/-- The run of zero groups at the beginning. -/
def zeroRun (groups : List UInt16) : Nat :=
  (groups.takeWhile (· = 0)).length

/-- The start and the length of the longest run of zero groups, of several the first. -/
def longestZeroRun : List UInt16 → Nat × Nat
  | [] => (0, 0)
  | group :: rest =>
    let (start, length) := longestZeroRun rest
    let here := zeroRun (group :: rest)
    if length ≤ here then (0, here) else (start + 1, length)

/-- Groups with colons between them. -/
def groupChars (groups : List UInt16) : List Char :=
  joinPieces ':' (groups.map fun group => Nat.toDigits 16 group.toNat)

def chars (address : Ipv6) : List Char :=
  let (start, length) := longestZeroRun address.groups
  if length < 2 then groupChars address.groups
  else
    groupChars (address.groups.take start) ++ [':', ':'] ++
      groupChars (address.groups.drop (start + length))

/-- The IPv4 address that the address stands for, if it is of the kind that maps one. -/
def mapped? (address : Ipv6) : Option Ipv4 :=
  match address.groups with
  | [0, 0, 0, 0, 0, 0xffff, high, low] =>
    some (Ipv4.ofNumber (high.toNat * 0x10000 + low.toNat))
  | _ => none

/-- The text of an address, a mapped IPv4 address in its own form. -/
def charsWithMapped (address : Ipv6) : List Char :=
  match address.mapped? with
  | some inner => "::ffff:".toList ++ inner.chars
  | none => address.chars

/-! ## Reading -/

/-- Reads a group: one to four hexadecimal digits. -/
def group? (digits : List Char) : Option UInt16 := do
  let values ← digits.mapM Json.hexValue?
  if digits.isEmpty ∨ 4 < digits.length then none
  else some (UInt16.ofNat (values.foldl (fun n digit => 16 * n + digit) 0))

/-- The two groups that an IPv4 address makes up. -/
def groupsOfIpv4 (address : Ipv4) : List UInt16 :=
  [address.a.toUInt16 * 256 + address.b.toUInt16, address.c.toUInt16 * 256 + address.d.toUInt16]

/-- Reads groups with colons between them. Where it is allowed, an IPv4 address may stand in
place of the last two. -/
def groupList? (allowsIpv4 : Bool) : List (List Char) → Option (List UInt16)
  | [] => some []
  | [last] =>
    match group? last with
    | some group => some [group]
    | none => if allowsIpv4 then (Ipv4.ofChars? last).map groupsOfIpv4 else none
  | piece :: rest => do
    let group ← group? piece
    let groups ← groupList? allowsIpv4 rest
    some (group :: groups)

/-- Reads the groups on one side of a double colon, of which there may be none. -/
def side? (allowsIpv4 : Bool) (text : List Char) : Option (List UInt16) :=
  if text.isEmpty then some [] else groupList? allowsIpv4 (piecesAt ':' text)

def divideDouble? : List Char → Option (List Char × List Char)
  | ':' :: ':' :: rest => some ([], rest)
  | c :: rest => (divideDouble? rest).map fun (front, back) => (c :: front, back)
  | [] => none

/-- Fills the groups on both sides of a gap up with zeros. -/
def fill (front back : List UInt16) : List UInt16 :=
  front ++ List.replicate (8 - front.length - back.length) 0 ++ back

/-- The groups that a text stands for. -/
def readGroups? (text : List Char) : Option (List UInt16) :=
  match divideDouble? text with
  | none => side? true text
  | some (front, back) => do
    let front ← side? false front
    let back ← side? true back
    if front.length + back.length < 8 then some (fill front back) else none

def ofChars? (text : List Char) : Option Ipv6 := do
  let groups ← readGroups? text
  if h : groups.length = 8 then some { groups, size_groups := h } else none

end Ipv6
end Net
end ExpenseLedger
