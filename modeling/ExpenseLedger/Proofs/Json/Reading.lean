import ExpenseLedger.Json.Record
import ExpenseLedger.Json.Value
import ExpenseLedger.Proofs.Numeric.IntegerText
import ExpenseLedger.Proofs.Uuid
import Mathlib.Data.List.TakeDrop

/-!
# JSON written and read back

A reader `Reads` a text as a value if it does so in front of anything that may follow a value. The
lemmas follow the readers: numbers and texts first, then what is put together from them. Objects
are read member by member, each of which changes a state: `Takes` is such a chain of changes.
-/

namespace ExpenseLedger
namespace Json

/-! ## Texts -/

section Texts

variable {c : Char} {text chars rest : List Char}

theorem readChars_next {state next : Escape} {done : Option Char}
    (step : state.step c = .next next done) (h : readChars next text = .ok (chars, rest)) :
    readChars state (c :: text) = .ok (done.toList ++ chars, rest) := by
  unfold readChars
  rw [step]
  simp only [h]
  rfl

/-- An escape of one letter. -/
theorem readChars_letter {letter : Char} (other : letter ≠ 'u') (plain : unescape? letter = some c)
    (h : readChars .outside text = .ok (chars, rest)) :
    readChars .outside ('\\' :: letter :: text) = .ok (c :: chars, rest) := by
  have first : Escape.step .outside '\\' = .next .slash none := rfl
  have second : Escape.step .slash letter = .next .outside (some c) := by
    simp only [Escape.step, other, plain, if_false]
  exact readChars_next first (readChars_next second h)

/-- An escape of four digits, for a character below the surrogates. -/
theorem readChars_digits (low : c.toNat < 256)
    (h : readChars .outside text = .ok (chars, rest)) :
    readChars .outside ('\\' :: 'u' :: '0' :: '0' :: hexDigit (c.toNat / 16) :: hexDigit c.toNat ::
      text) = .ok (c :: chars, rest) := by
  have first : Escape.step .outside '\\' = .next .slash none := rfl
  have second : Escape.step .slash 'u' = .next (.digits 4 0) none := rfl
  have zeros : Escape.step (.digits 4 0) '0' = .next (.digits 3 0) none ∧
      Escape.step (.digits 3 0) '0' = .next (.digits 2 0) none := ⟨rfl, rfl⟩
  have third : Escape.step (.digits 2 0) (hexDigit (c.toNat / 16)) =
      .next (.digits 1 (c.toNat / 16)) none := by
    have digit : c.toNat / 16 % 16 = c.toNat / 16 := by omega
    simp [Escape.step, Uuid.hexValue?_hexDigit, digit]
  have fourth : Escape.step (.digits 1 (c.toNat / 16)) (hexDigit c.toNat) =
      .next .outside (some c) := by
    have value : 16 * (c.toNat / 16) + c.toNat % 16 = c.toNat := Nat.div_add_mod _ _
    have notHigh : isHigh c.toNat = false := by
      unfold isHigh
      rw [Bool.and_eq_false_iff, decide_eq_false_iff_not]
      omega
    have notLow : isLow c.toNat = false := by
      unfold isLow
      rw [Bool.and_eq_false_iff, decide_eq_false_iff_not]
      omega
    simp [Escape.step, Uuid.hexValue?_hexDigit, value, notHigh, notLow]
  exact readChars_next first <| readChars_next second <| readChars_next zeros.1 <|
    readChars_next zeros.2 <| readChars_next third <| readChars_next fourth h

theorem readChars_escapeChar (c : Char) (h : readChars .outside text = .ok (chars, rest)) :
    readChars .outside (escapeChar c ++ text) = .ok (c :: chars, rest) := by
  unfold escapeChar
  split
  · next quote =>
    subst quote
    exact readChars_letter (by decide) (by decide) h
  split
  · next slash =>
    subst slash
    exact readChars_letter (by decide) (by decide) h
  split
  · next back =>
    subst back
    exact readChars_letter (by decide) (by decide) h
  split
  · next tab =>
    subst tab
    exact readChars_letter (by decide) (by decide) h
  split
  · next line =>
    subst line
    exact readChars_letter (by decide) (by decide) h
  split
  · next feed =>
    subst feed
    exact readChars_letter (by decide) (by decide) h
  split
  · next carriage =>
    subst carriage
    exact readChars_letter (by decide) (by decide) h
  split
  · next control => exact readChars_digits (by omega) h
  · next notQuote notSlash _ _ _ _ _ printed =>
    have step : Escape.step .outside c = .next .outside (some c) := by
      simp only [Escape.step, notQuote, notSlash, printed, if_false]
    exact readChars_next step h

theorem readChars_flatMap_escapeChar (chars rest : List Char) :
    readChars .outside (chars.flatMap escapeChar ++ '"' :: rest) = .ok (chars, rest) := by
  induction chars with
  | nil => rfl
  | cons c chars ih =>
    rw [List.flatMap_cons, List.append_assoc]
    exact readChars_escapeChar c ih

end Texts

namespace Reader

/-! ## What stands around values -/

/-- A value ends here: the text is over, or goes on with what divides or closes values. -/
def IsEnd : List Char → Prop
  | [] => True
  | c :: _ => c = ',' ∨ c = ']' ∨ c = '}'

/-- A value begins here: with no blank, and with nothing that divides or closes values. -/
def IsStart : List Char → Prop
  | [] => False
  | c :: _ => isSpace c = false ∧ c ≠ ',' ∧ c ≠ ']' ∧ c ≠ '}'

/-- The reader takes the text for the value, whatever follows it. -/
structure Reads {α : Type} (read : Reader α) (text : List Char) (a : α) : Prop where
  start : IsStart text
  reads : ∀ rest, IsEnd rest → read (text ++ rest) = .ok (a, rest)

theorem skipSpace_cons {c : Char} (printed : isSpace c = false) (rest : List Char) :
    skipSpace (c :: rest) = c :: rest := by
  unfold skipSpace
  rw [List.dropWhile_cons_of_neg]
  simp [printed]

theorem skipSpace_of_isStart {text : List Char} (start : IsStart text) (rest : List Char) :
    skipSpace (text ++ rest) = text ++ rest := by
  cases text with
  | nil => exact start.elim
  | cons c text => exact skipSpace_cons start.1 _

theorem expect_cons {c : Char} (printed : isSpace c = false) (rest : List Char) :
    expect c (c :: rest) = .ok rest := by
  unfold expect
  rw [skipSpace_cons printed]
  exact if_pos rfl

theorem whole_of_reads {α : Type} {read : Reader α} {text : List Char} {a : α}
    (h : Reads read text a) : whole read (String.ofList text) = .ok a := by
  have taken := h.reads [] trivial
  rw [List.append_nil] at taken
  unfold whole
  rw [String.toList_ofList, taken]
  rfl

/-! ## Numbers -/

section Numbers

variable {digits rest : List Char} {n : Int}

theorem isDigit_eq_false_of_isEnd {c : Char} (h : IsEnd (c :: rest)) : c.isDigit = false := by
  rcases h with rfl | rfl | rfl <;> rfl

theorem spanDigits_append (all : ∀ c ∈ digits, c.isDigit = true) (ends : IsEnd rest) :
    Binary64.spanDigits (digits ++ rest) = (digits, rest) := by
  unfold Binary64.spanDigits
  rw [List.span_eq_takeWhile_dropWhile, List.takeWhile_append_of_pos all,
    List.dropWhile_append_of_pos all]
  cases rest with
  | nil => simp
  | cons c rest => simp [isDigit_eq_false_of_isEnd ends]

theorem readWhole_naturalDigits (n : Nat) (ends : IsEnd rest) :
    readWhole (naturalDigits n ++ rest) = .ok (naturalDigits n, rest) := by
  unfold readWhole
  rw [spanDigits_append (fun c member => isDigit_of_mem_naturalDigits member) ends]
  simp only
  split
  · next none => exact absurd none (naturalDigits_ne_nil n)
  · next zero => cases eq_nil_of_naturalDigits zero
  · rfl

theorem readPart_of_isEnd (ends : IsEnd rest) : readPart rest = .ok ([], rest) := by
  unfold readPart
  split
  · rcases ends with h | h | h <;> cases h
  · rfl

theorem readPower_of_isEnd (ends : IsEnd rest) : readPower rest = .ok (none, rest) := by
  cases rest with
  | nil => rfl
  | cons c rest =>
    rcases ends with rfl | rfl | rfl <;> rfl

/-- Digits of a number that 64 bits hold are all gathered. -/
theorem gather_of_lt {digits : List Char} :
    ∀ {significand : Nat}, Nat.ofDigitChars 10 digits significand < 0x10000000000000000 →
      gather significand digits = (Nat.ofDigitChars 10 digits significand, []) := by
  induction digits with
  | nil => exact fun _ => rfl
  | cons c digits ih =>
    intro significand fits
    have more : Nat.ofDigitChars 10 (c :: digits) significand =
        Nat.ofDigitChars 10 digits (Nat.ofDigitChars 10 [c] significand) := by
      rw [← Nat.ofDigitChars_append, List.singleton_append]
    rw [more] at fits ⊢
    have room := Nat.lt_of_le_of_lt (le_ofDigitChars digits _) fits
    simp only [gather]
    rw [if_neg (Nat.not_le.2 room)]
    exact ih fits

theorem readUnsigned_naturalDigits {negative : Bool} {magnitude : Nat}
    (fits : magnitude < 0x10000000000000000) (ends : IsEnd rest) :
    readUnsigned negative (naturalDigits magnitude ++ rest) =
      .ok (wholeNumeral negative magnitude, rest) := by
  have gathered : gather 0 (naturalDigits magnitude) = (magnitude, []) := by
    rw [gather_of_lt] <;> rw [ofDigitChars_naturalDigits]
    exact fits
  unfold readUnsigned
  simp only [readWhole_naturalDigits magnitude ends, readPart_of_isEnd ends,
    readPower_of_isEnd ends, bind, Except.bind, List.isEmpty_nil, Option.isNone_none,
    Bool.and_self, if_true, gathered]

theorem readNumeral_integerDigits (fits : FitsInt64 n) (ends : IsEnd rest) :
    readNumeral (integerDigits n ++ rest) = .ok (.integer n, rest) := by
  obtain ⟨low, high⟩ := fits
  unfold minInt64 at low
  unfold maxInt64 at high
  unfold integerDigits
  split
  · next negative =>
    have numeral : wholeNumeral true n.natAbs = .integer n := by
      simp only [wholeNumeral, if_true]
      rw [if_neg (by omega)]
      congr 1
      omega
    rw [← numeral]
    exact readUnsigned_naturalDigits (by omega) ends
  · next natural =>
    have numeral : wholeNumeral false n.natAbs = .integer n := by
      simp only [wholeNumeral, Bool.false_eq_true, if_false]
      congr 1
      omega
    rw [← numeral, ← readUnsigned_naturalDigits (by omega) ends]
    cases front : naturalDigits n.natAbs with
    | nil => exact absurd front (naturalDigits_ne_nil _)
    | cons c digits =>
      have digit : c.isDigit = true :=
        isDigit_of_mem_naturalDigits (n := n.natAbs) (front ▸ List.mem_cons_self)
      unfold readNumeral
      split
      · next minus =>
        obtain ⟨rfl, -⟩ := List.cons.inj minus
        cases digit
      · rfl

theorem integerDigits_eq_cons (n : Int) :
    ∃ c rest, integerDigits n = c :: rest ∧ (c = '-' ∨ c.isDigit = true) := by
  unfold integerDigits
  split
  · exact ⟨'-', _, rfl, Or.inl rfl⟩
  · cases front : naturalDigits n.natAbs with
    | nil => exact absurd front (naturalDigits_ne_nil _)
    | cons c digits =>
      exact ⟨c, digits, rfl,
        Or.inr (isDigit_of_mem_naturalDigits (n := n.natAbs) (front ▸ List.mem_cons_self))⟩

theorem isStart_integerDigits (n : Int) : IsStart (integerDigits n) := by
  obtain ⟨c, rest, front, first⟩ := integerDigits_eq_cons n
  rw [front]
  refine ⟨?_, ?_, ?_, ?_⟩
  · rcases first with rfl | digit
    · rfl
    · cases space : isSpace c with
      | false => rfl
      | true =>
        unfold isSpace at space
        simp only [Bool.or_eq_true, beq_iff_eq] at space
        rcases space with ((rfl | rfl) | rfl) | rfl <;> cases digit
  all_goals
    rintro rfl
    rcases first with first | digit
    · cases first
    · cases digit

theorem reads_integer {low high : Int} (fits : FitsInt64 n) (between : low ≤ n ∧ n ≤ high) :
    Reads (integer low high) (integerDigits n) n where
  start := isStart_integerDigits n
  reads := by
    intro rest ends
    have starts : startsNumeral (integerDigits n ++ rest) = true := by
      obtain ⟨c, digits, front, first⟩ := integerDigits_eq_cons n
      rw [front]
      show (c == '-' || c.isDigit) = true
      rcases first with rfl | digit
      · rfl
      · rw [digit, Bool.or_true]
    unfold integer
    simp only [skipSpace_of_isStart (isStart_integerDigits n), starts, if_true,
      readNumeral_integerDigits fits ends, bind, Except.bind, between, and_self]

theorem reads_int64 (fits : FitsInt64 n) : Reads int64 (integerDigits n) n :=
  reads_integer fits fits

end Numbers

/-! ## Texts, and values made from others -/

section Made

variable {α β : Type} {read : Reader α} {text : List Char} {a : α}

theorem reads_string (s : String) : Reads string (quote s) s where
  start := ⟨rfl, by decide, by decide, by decide⟩
  reads := by
    intro rest _
    unfold string quote
    rw [List.cons_append, List.cons_append, skipSpace_cons rfl, List.append_assoc]
    simp only [List.cons_append, List.nil_append, readChars_flatMap_escapeChar, bind, Except.bind,
      String.ofList_toList]

theorem reads_refine {f : α → Option β} {b : β} (h : Reads read text a) (made : f a = some b) :
    Reads (refine read f) text b where
  start := h.start
  reads := by
    intro rest ends
    unfold refine
    simp only [h.reads rest ends, bind, Except.bind, made]

theorem reads_map (f : α → β) (h : Reads read text a) :
    Reads (fun text => do
      let (a, rest) ← read text
      .ok (f a, rest)) text (f a) where
  start := h.start
  reads := by
    intro rest ends
    simp only [h.reads rest ends, bind, Except.bind]

end Made

/-! ## Arrays -/

theorem separated_cons (piece : List Char) (pieces : List (List Char)) :
    separated [','] (piece :: pieces) = piece ++ pieces.flatMap fun piece => ',' :: piece := by
  induction pieces generalizing piece with
  | nil => simp [separated]
  | cons next pieces ih => simp [separated, ih next]

theorem isEnd_flatMap (pieces : List (List Char)) (closing : Char) (rest : List Char)
    (closes : IsEnd (closing :: rest)) :
    IsEnd ((pieces.flatMap fun piece => ',' :: piece) ++ closing :: rest) := by
  cases pieces with
  | nil => exact closes
  | cons piece pieces => exact Or.inl rfl

theorem length_le_flatMap (pieces : List (List Char)) :
    pieces.length ≤ (pieces.flatMap fun piece => ',' :: piece).length := by
  induction pieces with
  | nil => exact Nat.zero_le _
  | cons piece pieces ih =>
    rw [List.flatMap_cons, List.length_append, List.length_cons, List.length_cons]
    omega

section Arrays

variable {α : Type} {read : Reader α} {write : α → List Char}

theorem nextItem_first {text : List Char} (start : IsStart text) (rest : List Char) :
    nextItem true (text ++ rest) = .ok (some (text ++ rest)) := by
  unfold nextItem
  rw [skipSpace_of_isStart start]
  cases text with
  | nil => exact start.elim
  | cons c text =>
    obtain ⟨-, noComma, noBracket, -⟩ := start
    simp [noComma, noBracket]

theorem nextItem_next {text : List Char} (start : IsStart text) (rest : List Char) :
    nextItem false (',' :: text ++ rest) = .ok (some (text ++ rest)) := by
  unfold nextItem
  rw [List.cons_append, skipSpace_cons rfl]
  simp only [Bool.false_eq_true, if_false, skipSpace_of_isStart start]
  cases text with
  | nil => exact start.elim
  | cons c text =>
    obtain ⟨-, -, noBracket, -⟩ := start
    simp [noBracket]

theorem readItems_next {items : List α} (all : ∀ a ∈ items, Reads read (write a) a) {fuel : Nat}
    (enough : items.length < fuel) (rest : List Char) :
    readItems read fuel false
      ((items.map write).flatMap (fun piece => ',' :: piece) ++ ']' :: rest) =
        .ok (items, rest) := by
  induction items generalizing fuel with
  | nil =>
    cases fuel with
    | zero => cases enough
    | succ fuel => rfl
  | cons a items ih =>
    cases fuel with
    | zero => cases enough
    | succ fuel =>
      have head := all a List.mem_cons_self
      have tail := ih (fun b member => all b (List.mem_cons_of_mem _ member))
        (Nat.lt_of_succ_lt_succ enough)
      have taken := head.reads _
        (isEnd_flatMap (items.map write) ']' rest (Or.inr (Or.inl rfl)))
      unfold readItems
      rw [List.map_cons, List.flatMap_cons, List.append_assoc, nextItem_next head.start]
      simp only [bind, Except.bind, taken, tail]

/-- An array is read item by item. -/
theorem reads_array {items : List α} (all : ∀ a ∈ items, Reads read (write a) a) :
    Reads (array read) ('[' :: separated [','] (items.map write) ++ [']']) items where
  start := ⟨rfl, by decide, by decide, by decide⟩
  reads := by
    intro rest _
    unfold array
    rw [List.cons_append, List.cons_append, skipSpace_cons rfl, List.append_assoc]
    cases items with
    | nil => rfl
    | cons a items =>
      have head := all a List.mem_cons_self
      have room := length_le_flatMap (items.map write)
      have taken := head.reads _
        (isEnd_flatMap (items.map write) ']' rest (Or.inr (Or.inl rfl)))
      have enough : items.length <
          (separated [','] ((a :: items).map write) ++ ([']'] ++ rest)).length := by
        rw [List.map_cons, separated_cons]
        simp only [List.length_append, List.length_map, List.length_cons] at room ⊢
        omega
      have tail := readItems_next (fun b member => all b (List.mem_cons_of_mem _ member)) enough
        rest
      unfold readItems
      rw [List.map_cons, separated_cons, List.append_assoc] at tail ⊢
      simp only [nextItem_first head.start, bind, Except.bind, List.cons_append, List.nil_append,
        taken] at tail ⊢
      rw [tail]

end Arrays

/-! ## Objects -/

/-- Members with these keys and texts take a state to another one. -/
inductive Takes {σ : Type} (member : σ → String → Member σ) :
    σ → List (String × List Char) → σ → Prop
  | done (state : σ) : Takes member state [] state
  | next {state middle last : σ} {key : String} {text : List Char}
      {members : List (String × List Char)} {read : Reader σ}
      (value : member state key = .value read) (reads : Reads read text middle)
      (rest : Takes member middle members last) : Takes member state ((key, text) :: members) last

/-- A member as it is written. -/
def memberText (member : String × List Char) : List Char :=
  quote member.1 ++ ':' :: member.2

section Objects

variable {σ : Type} {member : σ → String → Member σ} {state last : σ}
  {members : List (String × List Char)}

theorem nextKey_first (key : String) (rest : List Char) :
    nextKey true (quote key ++ rest) =
      .ok (some (key.toList.flatMap escapeChar ++ '"' :: rest)) := by
  unfold nextKey quote
  rw [List.cons_append, List.cons_append, skipSpace_cons rfl, List.append_assoc]
  rfl

theorem nextKey_next (key : String) (rest : List Char) :
    nextKey false (',' :: quote key ++ rest) =
      .ok (some (key.toList.flatMap escapeChar ++ '"' :: rest)) := by
  unfold nextKey quote
  rw [List.cons_append, skipSpace_cons rfl]
  simp only [List.cons_append, skipSpace_cons (c := '"') rfl, List.append_assoc]
  rfl

theorem readMembers_step {first : Bool} {middle : σ} {key : String} {text rest whole : List Char}
    {read : Reader σ} (found : nextKey first whole =
      .ok (some (key.toList.flatMap escapeChar ++ '"' :: ':' :: (text ++ rest))))
    (value : member state key = .value read) (reads : Reads read text middle) (ends : IsEnd rest)
    (fuel : Nat) :
    readMembers member (fuel + 1) first state whole =
      readMembers member fuel false middle rest := by
  rw [readMembers]
  simp only [found, bind, Except.bind, readChars_flatMap_escapeChar, String.ofList_toList, value,
    expect_cons (c := ':') rfl, reads.reads rest ends]

theorem readMembers_next (takes : Takes member state members last) {fuel : Nat}
    (enough : members.length < fuel) (rest : List Char) :
    readMembers member fuel false state
      ((members.map memberText).flatMap (fun piece => ',' :: piece) ++ '}' :: rest) =
        .ok (last, rest) := by
  induction takes generalizing fuel with
  | done state =>
    cases fuel with
    | zero => cases enough
    | succ fuel => rfl
  | @next state middle last key text members read value reads _ ih =>
    cases fuel with
    | zero => cases enough
    | succ fuel =>
      have ends := isEnd_flatMap (members.map memberText) '}' rest (Or.inr (Or.inr rfl))
      have found := nextKey_next key
        (':' :: (text ++ ((members.map memberText).flatMap (fun piece => ',' :: piece) ++
          '}' :: rest)))
      have here := readMembers_step found value reads ends fuel
      rw [← ih (Nat.lt_of_succ_lt_succ enough), ← here]
      simp [memberText]

/-- Members are read one by one. -/
theorem readMembers_of_takes (takes : Takes member state members last) (rest : List Char) :
    readMembers member ((separated [','] (members.map memberText) ++ '}' :: rest).length + 1) true
      state (separated [','] (members.map memberText) ++ '}' :: rest) = .ok (last, rest) := by
  cases takes with
  | done => rfl
  | @next _ middle _ key text members read value reads takes =>
    have room := length_le_flatMap (members.map memberText)
    have ends := isEnd_flatMap (members.map memberText) '}' rest (Or.inr (Or.inr rfl))
    have found := nextKey_first key
      (':' :: (text ++ ((members.map memberText).flatMap (fun piece => ',' :: piece) ++
        '}' :: rest)))
    have split : separated [','] (((key, text) :: members).map memberText) ++ '}' :: rest =
        quote key ++ ':' :: (text ++ ((members.map memberText).flatMap
          (fun piece => ',' :: piece) ++ '}' :: rest)) := by
      rw [List.map_cons, separated_cons]
      simp [memberText]
    rw [split, readMembers_step found value reads ends]
    refine readMembers_next takes ?_ rest
    simp only [List.length_append, List.length_cons, List.length_map] at room ⊢
    omega

/-- An object as it is written, with its members in the order in which they stand. -/
def objectText (members : List (String × List Char)) : List Char :=
  '{' :: separated [','] (members.map memberText) ++ ['}']

theorem reads_map_of_takes {α : Type} {read : Reader α} {insert : σ → String → α → σ}
    (takes : Takes (fun state key => .value fun text => do
      let (a, rest) ← read text
      .ok (insert state key a, rest)) state members last) :
    Reads (map read state insert) (objectText members) last where
  start := ⟨rfl, by decide, by decide, by decide⟩
  reads := by
    intro rest _
    unfold map objectText
    rw [List.cons_append, List.cons_append, skipSpace_cons rfl, List.append_assoc]
    exact readMembers_of_takes takes rest

theorem reads_record {σ τ α : Type} {fields : Fields σ τ} {make : τ → α} (last : σ) (values : τ)
    (takes : Takes fields.member fields.start members last)
    (complete : fields.finish? last = some values) :
    Reads (record fields make) (objectText members) (make values) where
  start := ⟨rfl, by decide, by decide, by decide⟩
  reads := by
    intro rest _
    unfold record objectText
    rw [List.cons_append, List.cons_append, skipSpace_cons rfl, List.append_assoc]
    simp only [List.cons_append, List.nil_append, readMembers_of_takes takes rest, bind,
      Except.bind, complete]

end Objects

/-! ## Values as they are written -/

theorem compactItems_eq_map (items : List Json) : compactItems items = items.map compact := by
  induction items with
  | nil => rfl
  | cons item items ih => rw [compactItems, ih, List.map_cons]

theorem compactMembers_eq_map (members : List (String × Json)) :
    compactMembers members =
      (members.map fun (key, value) => (key, compact value)).map memberText := by
  induction members with
  | nil => rfl
  | cons member members ih =>
    rw [compactMembers, ih]
    rfl

theorem compact_array (items : List Json) :
    compact (.array items) = '[' :: separated [','] (items.map compact) ++ [']'] := by
  rw [compact, compactItems_eq_map]

theorem compact_object (members : List (String × Json)) :
    compact (.object members) =
      objectText (members.map fun (key, value) => (key, compact value)) := by
  rw [compact, compactMembers_eq_map]
  rfl

end Reader
end Json
end ExpenseLedger
