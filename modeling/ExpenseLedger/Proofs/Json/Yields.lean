import ExpenseLedger.Json.Codec
import ExpenseLedger.Proofs.Outcome
import ExpenseLedger.Proofs.Report.Entries

/-!
# What readers yield

However a text is spelled, what is read from it has the shape that is asked for: its numbers are in their
bounds. `Yields` says so of one reader, and each way of making readers passes it on, `Fields.Keeps` that of
records field by field.
-/

namespace ExpenseLedger

open Json Json.Reader

namespace Json
namespace Reader

variable {α β σ τ : Type} {read : Reader α} {P : α → Prop}

/-- All that a reader takes off the front of a text has a property. -/
def Yields (read : Reader α) (P : α → Prop) : Prop :=
  ∀ text a rest, read text = .ok (a, rest) → P a

theorem yields_any (read : Reader α) : Yields read fun _ => True :=
  fun _ _ _ _ => trivial

theorem Yields.whole {text : String} {a : α} (yields : Yields read P)
    (h : whole read text = .ok a) : P a := by
  obtain ⟨⟨a', rest⟩, taken, h⟩ := except_bind_eq_ok.1 h
  simp only at h
  split at h
  · cases h
    exact yields _ _ _ taken
  · cases h

theorem yields_integer (low high : Int) : Yields (integer low high) fun n => low ≤ n ∧ n ≤ high := by
  intro text n rest h
  simp only [integer] at h
  split at h
  · obtain ⟨⟨numeral, left⟩, -, h⟩ := except_bind_eq_ok.1 h
    cases numeral with
    | integer m =>
      simp only at h
      split at h
      · next between =>
        cases h
        exact between
      · cases h
    | double x => cases h
  · cases h

theorem yields_int64 : Yields int64 FitsInt64 :=
  yields_integer minInt64 maxInt64

/-- A value that is turned into another. -/
theorem yields_map {f : α → β} {Q : β → Prop} (yields : Yields read P) (made : ∀ a, P a → Q (f a)) :
    Yields (fun text => do
      let (a, rest) ← read text
      .ok (f a, rest)) Q := by
  intro text b rest h
  obtain ⟨⟨a, left⟩, taken, h⟩ := except_bind_eq_ok.1 h
  cases h
  exact made a (yields _ _ _ taken)

/-! ## Arrays -/

theorem yields_readItems (yields : Yields read P) (fuel : Nat) (first : Bool) :
    Yields (readItems read fuel first) fun items => ∀ a ∈ items, P a := by
  induction fuel generalizing first with
  | zero =>
    intro text items rest h
    cases h
  | succ fuel ih =>
    intro text items rest h
    obtain ⟨next, -, h⟩ := except_bind_eq_ok.1 h
    cases next with
    | none =>
      obtain ⟨left, -, h⟩ := except_bind_eq_ok.1 h
      cases h
      exact fun a member => by cases member
    | some text' =>
      obtain ⟨⟨item, left⟩, taken, h⟩ := except_bind_eq_ok.1 h
      obtain ⟨⟨later, left'⟩, takenLater, h⟩ := except_bind_eq_ok.1 h
      cases h
      exact List.forall_mem_cons.2 ⟨yields _ _ _ taken, ih false _ _ _ takenLater⟩

theorem yields_array (yields : Yields read P) : Yields (array read) fun items => ∀ a ∈ items, P a := by
  intro text items rest h
  unfold array at h
  split at h
  · exact yields_readItems yields _ true _ _ _ h
  · cases h

/-! ## Objects -/

/-- A member whose value is read leaves the state with the property. -/
def Member.Keeps (S : σ → Prop) : Member σ → Prop
  | .value read => Yields read S
  | _ => True

/-- A property of the state that every member keeps holds at the end of the object. -/
theorem yields_readMembers {member : σ → String → Member σ} {S : σ → Prop}
    (keeps : ∀ state key, S state → (member state key).Keeps S) (fuel : Nat) (first : Bool)
    {state : σ} (before : S state) : Yields (readMembers member fuel first state) S := by
  induction fuel generalizing first state with
  | zero =>
    intro text last rest h
    cases h
  | succ fuel ih =>
    intro text last rest h
    obtain ⟨next, -, h⟩ := except_bind_eq_ok.1 h
    cases next with
    | none =>
      obtain ⟨left, -, h⟩ := except_bind_eq_ok.1 h
      cases h
      exact before
    | some text' =>
      obtain ⟨⟨key, left⟩, -, h⟩ := except_bind_eq_ok.1 h
      have kept := keeps state (String.ofList key) before
      cases means : member state (String.ofList key) with
      | repeated =>
        simp only [means] at h
        cases h
      | unknown =>
        simp only [means] at h
        obtain ⟨left', -, h⟩ := except_bind_eq_ok.1 h
        obtain ⟨left'', -, h⟩ := except_bind_eq_ok.1 h
        exact ih false before _ _ _ h
      | value read =>
        rw [means] at kept
        simp only [means] at h
        obtain ⟨left', -, h⟩ := except_bind_eq_ok.1 h
        obtain ⟨⟨middle, left''⟩, taken, h⟩ := except_bind_eq_ok.1 h
        exact ih false (kept _ _ _ taken) _ _ _ h

theorem yields_map_of_insert {empty : σ} {insert : σ → String → α → σ} {S : σ → Prop}
    (yields : Yields read P) (start : S empty)
    (inserts : ∀ state key a, S state → P a → S (insert state key a)) :
    Yields (map read empty insert) S := by
  intro text last rest h
  unfold map at h
  split at h
  · refine yields_readMembers (fun state key before => ?_) _ true start _ _ _ h
    exact yields_map yields fun a has => inserts state key a before has
  · cases h

/-! ## Records -/

/-- What has been read of a record has a property from the start on, every member keeps it, and the values of
all fields have another, in whichever order they come. -/
structure Fields.Keeps (fields : Fields σ τ) (S : σ → Prop) (T : τ → Prop) : Prop where
  start : S fields.start
  member : ∀ slots key, S slots → (fields.member slots key).Keeps S
  finish : ∀ slots values, S slots → fields.finish? slots = some values → T values
  inOrder : ∀ first, Yields (fields.readInOrder first) T

theorem Fields.Keeps.done : Keeps .done (fun _ => True) fun _ => True where
  start := trivial
  member := fun _ _ _ => trivial
  finish := fun _ _ _ _ => trivial
  inOrder := fun _ _ _ _ _ => trivial

/-- One more field, whose value and whose default have a property. -/
theorem Fields.Keeps.field {name : String} {absent : Option α} {rest : Fields σ τ} {S : σ → Prop}
    {T : τ → Prop} (yields : Yields read P) (default : ∀ a, absent = some a → P a)
    (keeps : rest.Keeps S T) :
    Keeps (.field name read absent rest) (fun slots => (∀ a, slots.1 = some a → P a) ∧ S slots.2)
      fun values => P values.1 ∧ T values.2 where
  start := ⟨nofun, keeps.start⟩
  member := by
    rintro ⟨slot, slots⟩ key ⟨before, others⟩
    unfold Fields.member
    split
    · cases slot with
      | some a => exact trivial
      | none =>
        have put (a : α) (has : P a) : (∀ a', some a = some a' → P a') ∧ S slots :=
          ⟨fun a' same => Option.some.inj same ▸ has, others⟩
        exact yields_map (f := fun a => (some a, slots)) yields put
    · have kept := keeps.member slots key others
      cases means : rest.member slots key with
      | unknown => exact trivial
      | repeated => exact trivial
      | value read =>
        rw [means] at kept
        exact yields_map kept fun slots' others' => ⟨before, others'⟩
  finish := by
    rintro ⟨slot, slots⟩ values ⟨before, others⟩ h
    obtain ⟨a, found, h⟩ := Option.bind_eq_some_iff.1 h
    obtain ⟨later, finished, h⟩ := Option.bind_eq_some_iff.1 h
    cases h
    refine ⟨?_, keeps.finish slots later others finished⟩
    cases slot with
    | some a' => exact before a found
    | none => exact default a found
  inOrder := by
    intro first text values left h
    obtain ⟨next, -, h⟩ := except_bind_eq_ok.1 h
    cases next with
    | some text' =>
      obtain ⟨⟨a, left'⟩, taken, h⟩ := except_bind_eq_ok.1 h
      obtain ⟨⟨later, left''⟩, takenLater, h⟩ := except_bind_eq_ok.1 h
      cases h
      exact ⟨yields _ _ _ taken, keeps.inOrder false _ _ _ takenLater⟩
    | none =>
      cases absent with
      | none => cases h
      | some a =>
        obtain ⟨⟨later, left''⟩, takenLater, h⟩ := except_bind_eq_ok.1 h
        cases h
        exact ⟨default a rfl, keeps.inOrder first _ _ _ takenLater⟩

theorem yields_record {fields : Fields σ τ} {make : τ → α} {S : σ → Prop} {T : τ → Prop}
    (keeps : fields.Keeps S T) (made : ∀ values, T values → P (make values)) :
    Yields (record fields make) P := by
  intro text a rest h
  unfold record at h
  split at h
  · obtain ⟨⟨state, left⟩, taken, h⟩ := except_bind_eq_ok.1 h
    have kept := yields_readMembers keeps.member _ true keeps.start _ _ _ taken
    cases finished : fields.finish? state with
    | none =>
      simp only [finished] at h
      cases h
    | some values =>
      simp only [finished] at h
      cases h
      exact made values (keeps.finish state values kept finished)
  · obtain ⟨⟨values, left⟩, taken, h⟩ := except_bind_eq_ok.1 h
    obtain ⟨left', -, h⟩ := except_bind_eq_ok.1 h
    cases h
    exact made values (keeps.inOrder true _ _ _ taken)
  · cases h

end Reader
end Json
end ExpenseLedger
