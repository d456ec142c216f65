/-!
# Punycode

Labels of domain names beyond ASCII in ASCII letters and digits. The ASCII characters come first;
then, by ascending code points, the distances from one insertion of a further character to the
next, as numbers of variable length whose digits run to 36. How many digits a distance takes
adapts to the distances before it.
-/

namespace ExpenseLedger
namespace Punycode

/-- The letters and digits that stand for 0 to 35. -/
def digit (n : Nat) : Char :=
  Char.ofNat (if n < 26 then 'a'.toNat + n else '0'.toNat + (n - 26))

/-- The least value that a digit with another digit behind it has, at a place that is counted in
steps of 36. -/
def threshold (bias place : Nat) : Nat :=
  max 1 (min 26 (place - bias))

/-- How often a distance is divided by 35 until it is at most 455, and what is left. -/
def scale (distance : Nat) : Nat × Nat :=
  if 455 < distance then
    let (count, rest) := scale (distance / 35)
    (count + 1, rest)
  else (0, distance)
termination_by distance
decreasing_by omega

/-- The bias after a distance with which `count` characters are in place. -/
def adapt (distance count : Nat) (isFirst : Bool) : Nat :=
  let damped := distance / (if isFirst then 700 else 2)
  let (times, rest) := scale (damped + damped / count)
  36 * times + 36 * rest / (rest + 38)

theorem threshold_pos (bias place : Nat) : 1 ≤ threshold bias place := by
  unfold threshold
  omega

def number (bias place n : Nat) : List Char :=
  let least := threshold bias place
  if n < least then [digit n]
  else digit (least + (n - least) % (36 - least)) ::
    number bias (place + 36) ((n - least) / (36 - least))
termination_by n
decreasing_by
  have := threshold_pos bias place
  have := Nat.div_le_self (n - threshold bias place) (36 - threshold bias place)
  omega

/-- How far the characters beyond ASCII have been put in. -/
structure Progress where
  written : List Char := []
  distance : Nat := 0
  bias : Nat := 72
  count : Nat
  isFirst : Bool := true

/-- One character of the label while those with the code point `current` are put in. -/
def Progress.pass (current : Nat) (progress : Progress) (c : Char) : Progress :=
  if c.toNat < current then
    { progress with distance := progress.distance + 1 }
  else if c.toNat = current then
    { written := progress.written ++ number progress.bias 36 progress.distance
      distance := 0
      bias := adapt progress.distance (progress.count + 1) progress.isFirst
      count := progress.count + 1
      isFirst := false }
  else progress

/-- Puts the characters of the given code points in, which ascend from `next` on. -/
def putIn (label : List Char) : Nat → List Nat → Progress → Progress
  | _, [], progress => progress
  | next, current :: rest, progress =>
    let skipped := progress.distance + (current - next) * (progress.count + 1)
    let progress := label.foldl (Progress.pass current) { progress with distance := skipped }
    putIn label (current + 1) rest { progress with distance := progress.distance + 1 }

def encode (label : List Char) : List Char :=
  let basic := label.filter fun c => c.toNat < 0x80
  let others := (label.filter fun c => 0x80 ≤ c.toNat).map Char.toNat
  let points := (others.mergeSort fun a b => a ≤ b).eraseDups
  let progress := putIn label 0x80 points { count := basic.length }
  basic ++ (if basic.isEmpty then [] else ['-']) ++ progress.written

end Punycode
end ExpenseLedger
