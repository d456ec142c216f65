/-!
# Media types

The text of a `Content-Type` header: a type, a slash, a subtype that may end in a plus sign and
a suffix, and parameters behind semicolons. Case does not matter.
-/

namespace ExpenseLedger
namespace Http

/-- The characters of types, subtypes, suffixes and parameters. -/
def isTokenChar (c : Char) : Bool :=
  c.isAlphanum || "!#$%&'*+-.^_\x60|~".toList.contains c

/-- A type, a subtype and a suffix, in lower case. -/
structure MediaType where
  type : String
  subtype : String
  suffix : Option String
  deriving DecidableEq, Repr

namespace MediaType

/-- Where in its parameters the reading of a header stands. -/
inductive ParameterState where
  | gap
  | name
  | valueStart
  | value
  | quoteStart
  | quoted
  | quoteEnd
  deriving DecidableEq, Repr

/-- How one character of the parameters is read, if it is allowed there. A quoted value has at
least one character, which may itself be a quote. -/
def ParameterState.next? (state : ParameterState) (c : Char) : Option ParameterState :=
  let isPrintable := 0x20 ≤ c.toNat ∧ c.toNat < 0x7f
  match state with
  | .gap => if c = ' ' then some .gap else if isTokenChar c then some .name else none
  | .name => if c = '=' then some .valueStart else if isTokenChar c then some .name else none
  | .valueStart =>
    if c = '"' then some .quoteStart else if isTokenChar c then some .value else none
  | .value => if c = ';' then some .gap else if isTokenChar c then some .value else none
  | .quoteStart => if isPrintable then some .quoted else none
  | .quoted => if c = '"' then some .quoteEnd else if isPrintable then some .quoted else none
  | .quoteEnd => if c = ';' then some .gap else if c = ' ' then some .quoteEnd else none

/-- The parameters may end here. -/
def ParameterState.isComplete : ParameterState → Bool
  | .gap | .valueStart | .value | .quoteEnd => true
  | .name | .quoteStart | .quoted => false

/-- The text is a list of parameters. -/
def areParameters (text : List Char) : Bool :=
  match text.foldlM ParameterState.next? .gap with
  | some state => state.isComplete
  | none => false

/-- Divides a name at its last plus sign, unless that is its first character. -/
def divideSuffix (name : List Char) : List Char × Option (List Char) :=
  let suffix := name.reverse.takeWhile fun c => c != '+'
  let stem := name.take (name.length - suffix.length - 1)
  if stem.isEmpty then (name, none) else (stem, some suffix.reverse)

/-- The media type of a text in lower case. -/
def ofChars? (text : List Char) : Option MediaType :=
  let type := text.takeWhile isTokenChar
  match text.drop type.length with
  | '/' :: rest =>
    let name := rest.takeWhile isTokenChar
    let (stem, suffix) := divideSuffix name
    let mediaType : MediaType :=
      { type := String.ofList type, subtype := String.ofList stem
        suffix := suffix.map String.ofList }
    match rest.drop name.length with
    | [] => some mediaType
    | mark :: parameters =>
      if (mark = ';' ∨ mark = ' ') ∧ areParameters parameters then some mediaType else none
  | _ => none

def ofText? (text : String) : Option MediaType :=
  ofChars? (text.toList.map Char.toLower)

def isJson (mediaType : MediaType) : Bool :=
  mediaType.type == "application" &&
    (mediaType.subtype == "json" || mediaType.suffix == some "json")

end MediaType
end Http
end ExpenseLedger
