/-!
# Reading the words of a command line

A command line has levels: options of the program, then a command, its options and perhaps a
command below it. Each level is read from left to right. A word that takes the place of a value
is held back until the next word that means something, so a bad value may be reported after a
fault that stands further right but is seen at once.
-/

namespace ExpenseLedger

/-- What is wrong with a command line, or what is asked for instead of a command. -/
inductive UsageFault where
  | missingArgument
  | unknownArgument
  | unknownCommand
  | missingCommand
  | missingValue
  | invalidValue
  | repeatedOption
  | needlessValue
  | help
  | helpForEmpty
  deriving DecidableEq, Repr

namespace Words

/-- A place for one value: an option or a positional argument. -/
structure Slot (σ : Type) where
  name : String
  given : σ → Bool
  store : σ → String → Option σ

/-- A switch that takes no value. -/
structure Switch (σ : Type) where
  name : String
  given : σ → Bool
  turnOn : σ → σ

/-- What a level takes: options, switches, arguments in order, and names of commands below. -/
structure Level (σ : Type) where
  options : List (Slot σ) := []
  switches : List (Switch σ) := []
  arguments : List (Slot σ) := []
  commands : List String := []

/-- A value that has been held back: its place, and the word if it has been seen. -/
abbrev Pending (σ : Type) := Option (Slot σ × Option String)

def store {σ : Type} (slot : Slot σ) (word : String) (values : σ) : Except UsageFault σ :=
  if slot.given values then .error .repeatedOption
  else
    match slot.store values word with
    | some values => .ok values
    | none => .error .invalidValue

/-- Stores the value that was held back. -/
def resolve {σ : Type} (pending : Pending σ) (values : σ) : Except UsageFault σ :=
  match pending with
  | none => .ok values
  | some (_, none) => .error .missingValue
  | some (slot, some word) => store slot word values

/-- A value is due. -/
def awaits {σ : Type} : Pending σ → Bool
  | some (_, none) => true
  | _ => false

/-- The name of a command below the level, the help command being one where there are any. -/
def Level.isCommand {σ : Type} (level : Level σ) (word : String) : Bool :=
  level.commands.contains word || (!level.commands.isEmpty && word == "help")

/-- The fault of a word that has no place. -/
def Level.misplaced {σ : Type} (level : Level σ) (word : String) (trailing : Bool) :
    UsageFault :=
  if trailing && level.isCommand word then .unknownArgument
  else if level.commands.isEmpty then .unknownArgument
  else .unknownCommand

/-- What is known after some words of a level. -/
structure Progress (σ : Type) where
  values : σ
  pending : Pending σ
  arguments : List (Slot σ)

/-- The name of a long option and the value attached to it. -/
def splitLong (body : List Char) : String × Option String :=
  let name := body.takeWhile (· != '=')
  let attached := (body.drop name.length).drop 1
  (String.ofList name,
    if name.length < body.length then some (String.ofList attached) else none)

/-- Takes in a word that begins with two hyphens. -/
def Level.long {σ : Type} (level : Level σ) (progress : Progress σ) (body : List Char) :
    Except UsageFault (Progress σ) :=
  let (name, attached) := splitLong body
  if name = "help" then
    if attached.isSome then .error .needlessValue
    else do
      let _ ← resolve progress.pending progress.values
      .error .help
  else
    match level.options.find? (·.name = name) with
    | some slot => do
      let values ← resolve progress.pending progress.values
      match attached with
      | some word =>
        let values ← store slot word values
        .ok { progress with values, pending := none }
      | none => .ok { progress with values, pending := some (slot, none) }
    | none =>
      match level.switches.find? (·.name = name) with
      | some switch =>
        if attached.isSome then .error .needlessValue
        else do
          let values ← resolve progress.pending progress.values
          if switch.given values then .error .repeatedOption
          else .ok { progress with values := switch.turnOn values, pending := none }
      | none => .error .unknownArgument

/-- Takes in a word that begins with one hyphen; help is the only short option. -/
def Level.short {σ : Type} (progress : Progress σ) (body : List Char) :
    Except UsageFault (Progress σ) :=
  if body.head? = some 'h' then do
    let _ ← resolve progress.pending progress.values
    .error .help
  else
    .error .unknownArgument

def Level.argument {σ : Type} (level : Level σ) (progress : Progress σ) (word : String)
    (trailing : Bool) : Except UsageFault (Progress σ) :=
  match progress.arguments with
  | slot :: rest => do
    let values ← resolve progress.pending progress.values
    .ok { values, pending := some (slot, some word), arguments := rest }
  | [] => .error (level.misplaced word trailing)

/-- Reads words up to the end or to the name of a command below, which is returned with the
words that follow it. -/
def Level.scan {σ : Type} (level : Level σ) (trailing : Bool) (progress : Progress σ) :
    List String → Except UsageFault (Progress σ × Option (String × List String))
  | [] => .ok (progress, none)
  | word :: rest =>
    if trailing then do
      let next ← level.argument progress word true
      level.scan true next rest
    else if !awaits progress.pending && level.isCommand word then
      .ok (progress, some (word, rest))
    else
      match word.toList with
      | ['-', '-'] => level.scan true progress rest
      | '-' :: '-' :: body => do
        let next ← level.long progress body
        level.scan false next rest
      | '-' :: c :: body => do
        let next ← Level.short progress (c :: body)
        level.scan false next rest
      | _ =>
        match progress.pending with
        | some (slot, none) =>
          level.scan false { progress with pending := some (slot, some word) } rest
        | _ => do
          let next ← level.argument progress word false
          level.scan false next rest

def Level.read {σ : Type} (level : Level σ) (start : σ) (words : List String) :
    Except UsageFault (Progress σ × Option (String × List String)) :=
  level.scan false { values := start, pending := none, arguments := level.arguments } words

end Words
end ExpenseLedger
