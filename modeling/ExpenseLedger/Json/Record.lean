import ExpenseLedger.Json.Reader

/-!
# Reading JSON records

A record has named fields in a fixed order. As an object it may have them in any order and other
members besides, but none twice; as an array it has their values in order. A field with a
default may be absent, in an array only behind all fields that are present.
-/

namespace ExpenseLedger
namespace Json
namespace Reader

/-- The fields of a record: the first index says which of them have been read, the second is the
tuple of their values. -/
inductive Fields : Type → Type → Type 1 where
  | done : Fields Unit Unit
  | field {α σ τ : Type} (name : String) (read : Reader α) (absent : Option α)
      (rest : Fields σ τ) : Fields (Option α × σ) (α × τ)

namespace Fields

/-- Nothing has been read. -/
def start {σ τ : Type} : Fields σ τ → σ
  | .done => ()
  | .field _ _ _ rest => (none, rest.start)

/-- What a member of an object means to the record. -/
def member {σ τ : Type} : Fields σ τ → σ → String → Member σ
  | .done, _, _ => .unknown
  | .field name read _ rest, (slot, slots), key =>
    if key = name then
      match slot with
      | some _ => .repeated
      | none =>
        .value fun text => do
          let (a, text) ← read text
          .ok ((some a, slots), text)
    else
      match rest.member slots key with
      | .unknown => .unknown
      | .repeated => .repeated
      | .value read =>
        .value fun text => do
          let (slots, text) ← read text
          .ok ((slot, slots), text)

/-- The values of all fields, if none is missing that has no default. -/
def finish? {σ τ : Type} : Fields σ τ → σ → Option τ
  | .done, _ => some ()
  | .field _ _ absent rest, (slot, slots) => do
    let a ← slot.or absent
    let values ← rest.finish? slots
    some (a, values)

/-- Reads the values in order, up to the end of the array, whose bracket is left in place. -/
def readInOrder {σ τ : Type} : Fields σ τ → Bool → Reader τ
  | .done, _, text => .ok ((), text)
  | .field _ read absent rest, first, text => do
    match ← nextItem first text with
    | some text =>
      let (a, text) ← read text
      let (values, text) ← rest.readInOrder false text
      .ok ((a, values), text)
    | none =>
      match absent with
      | some a =>
        let (values, text) ← rest.readInOrder first text
        .ok ((a, values), text)
      | none => .error .mismatch

end Fields

/-- Reads a record, as an object or as an array. -/
def record {σ τ α : Type} (fields : Fields σ τ) (make : τ → α) : Reader α := fun text => do
  match skipSpace text with
  | '{' :: rest =>
    let (state, rest) ← readMembers fields.member (rest.length + 1) true fields.start rest
    match fields.finish? state with
    | some values => .ok (make values, rest)
    | none => .error .mismatch
  | '[' :: rest =>
    let (values, rest) ← fields.readInOrder true rest
    let rest ← expect ']' rest
    .ok (make values, rest)
  | text => .error (wrongShape text)

end Reader
end Json
end ExpenseLedger
