import ExpenseLedger.Text.Blank

/-!
# Folding letters

Letters that differ in case or in width only are the same letter in a domain name. Folding maps
them to one of them; characters that show nothing are dropped, and characters that cannot stand
in a name have no folding. Covered are the Latin, Greek, Cyrillic and Armenian letters and the
wide forms of ASCII; other characters stand for themselves.
-/

namespace ExpenseLedger

/-- A block of code points whose upper case letters lie at a fixed distance below the lower case
ones. -/
def shiftedBlocks : List (Nat × Nat × Nat) :=
  [(0x41, 0x5A, 0x20), (0xC0, 0xD6, 0x20), (0xD8, 0xDE, 0x20), (0x391, 0x3A1, 0x20),
    (0x3A3, 0x3AB, 0x20), (0x400, 0x40F, 0x50), (0x410, 0x42F, 0x20), (0x531, 0x556, 0x30)]

/-- A block in which every lower case letter follows its upper case letter, which has the same
parity as the start of the block. -/
def alternatingBlocks : List (Nat × Nat) :=
  [(0x100, 0x12F), (0x132, 0x137), (0x139, 0x148), (0x14A, 0x177), (0x179, 0x17E),
    (0x1DE, 0x1EF), (0x1F8, 0x21F), (0x222, 0x233), (0x370, 0x373), (0x3D8, 0x3EF),
    (0x460, 0x481), (0x48A, 0x4BF), (0x4C1, 0x4CE), (0x4D0, 0x52F), (0x1E00, 0x1E95),
    (0x1EA0, 0x1EFF)]

/-- The code point of the lower case letter. -/
def lowerPoint (n : Nat) : Nat :=
  match shiftedBlocks.find? fun (first, last, _) => first ≤ n && n ≤ last with
  | some (_, _, distance) => n + distance
  | none =>
    match alternatingBlocks.find? fun (first, last) => first ≤ n && n ≤ last with
    | some (first, _) => if n % 2 = first % 2 then n + 1 else n
    | none => if n = 0x178 then 0xFF else n

/-- The wide form of an ASCII character. -/
def isWide (n : Nat) : Bool :=
  0xFF01 ≤ n && n ≤ 0xFF5E

/-- A full stop of one of the ideographic scripts. -/
def isIdeographicStop (n : Nat) : Bool :=
  n == 0x3002 || n == 0xFF61

/-- A character that shows nothing. -/
def isInvisible (n : Nat) : Bool :=
  n == 0xAD || n == 0x200B || n == 0x2060 || n == 0xFEFF || (0xFE00 ≤ n && n ≤ 0xFE0F)

/-- A character that is a control, that stands for none, or that is for private use. -/
def isUnusable (n : Nat) : Bool :=
  (0x80 ≤ n && n < 0xA0) || (0xE000 ≤ n && n ≤ 0xF8FF) || n == 0xFFFD || 0xF0000 ≤ n ||
    n % 0x10000 == 0xFFFE || n % 0x10000 == 0xFFFF

/-- What a character is folded to, if it can stand in a name. -/
def foldChar? (c : Char) : Option (List Char) :=
  let n := c.toNat
  if isInvisible n then some []
  else if isIdeographicStop n then some ['.']
  else if isWide n then some [Char.ofNat (lowerPoint (n - 0xFEE0))]
  else if isUnusable n ∨ (0x80 ≤ n ∧ isBlank c) then none
  else some [Char.ofNat (lowerPoint n)]

def foldText? (text : List Char) : Option (List Char) :=
  (text.mapM foldChar?).map List.flatten

end ExpenseLedger
