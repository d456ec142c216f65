import ExpenseLedger.Net.SocketAddress
import ExpenseLedger.Url.Basic

/-!
# Reading URLs

What people write is read leniently: spaces around it, tabs and line breaks in it, backslashes
for slashes in the well-known schemes, and upper case where case means nothing. What comes out is
in normal form, or there is no URL.
-/

namespace ExpenseLedger
namespace Url

/-- The kinds of schemes, by what they mean for the rest of the URL. -/
def kindOfScheme (scheme : List Char) : PathKind :=
  let scheme := String.ofList scheme
  if scheme = "file" then .file
  else if ["http", "https", "ws", "wss", "ftp"].contains scheme then .wellKnown
  else .other

def impliedPort? (scheme : List Char) : Option Nat :=
  [("http", 80), ("https", 443), ("ws", 80), ("wss", 443), ("ftp", 21)].lookup
    (String.ofList scheme)

/-- The character is a control or a space. -/
def isMargin (c : Char) : Bool :=
  c.toNat ≤ 0x20

/-- The text without controls and spaces around it, and without tabs and line breaks. -/
def clean (text : List Char) : List Char :=
  let text := ((text.dropWhile isMargin).reverse.dropWhile isMargin).reverse
  text.filter fun c => c ≠ '\t' ∧ c ≠ '\n' ∧ c ≠ '\x0d'

/-- The character may stand in a scheme. -/
def isSchemeChar (c : Char) : Bool :=
  c.isAlphanum || c = '+' || c = '-' || c = '.'

/-- The scheme in lower case, and what stands behind its colon. -/
def divideScheme? (text : List Char) : Option (List Char × List Char) :=
  let (scheme, rest) := text.span isSchemeChar
  match scheme, rest with
  | first :: _, ':' :: rest => if first.isAlpha then some (scheme.map Char.toLower, rest) else none
  | _, _ => none

/-- The character ends the part that names the host. -/
def endsAuthority (kind : PathKind) (c : Char) : Bool :=
  kind.divides c || c = '?' || c = '#'

/-- Divides a text at the last sign that ends the credentials. -/
def divideCredentials? (authority : List Char) : Option (List Char × List Char) :=
  let (behind, before) := divideAt (· = '@') authority.reverse
  match before with
  | _ :: before => some (before.reverse, behind.reverse)
  | [] => none

/-- The end of a host: a colon outside of brackets. -/
def divideHost (inBrackets : Bool) : List Char → List Char × List Char
  | [] => ([], [])
  | c :: rest =>
    if c = ':' ∧ !inBrackets then ([], c :: rest)
    else
      let (host, rest) := divideHost (c = '[' ∨ (inBrackets ∧ c ≠ ']')) rest
      (c :: host, rest)

/-- Reads a port behind its colon: none where there are no digits, or where it is implied. What
is left stands behind the digits. -/
def readPort? (scheme : List Char) (text : List Char) : Option (Option UInt16 × List Char) :=
  let (digits, rest) := text.span Char.isDigit
  let n := Nat.ofDigitChars 10 digits 0
  if 0x10000 ≤ n then none
  else if digits.isEmpty ∨ impliedPort? scheme = some n then some (none, rest)
  else some (some (UInt16.ofNat n), rest)

/-- Divides what stands behind the host: the path, the query and the fragment. -/
def divideTail (text : List Char) : List Char × Option (List Char) × Option (List Char) :=
  let (front, back) := divideAt (· = '#') text
  let (path, query) := divideAt (· = '?') front
  let part (text : List Char) : Option (List Char) := if text.isEmpty then none else some text.tail
  (path, part query, part back)

/-- The path behind a host. -/
def pathBehindHost (kind : PathKind) (text : List Char) : UrlPath :=
  match text with
  | [] => .segments (if kind = .other then [] else [[]])
  | c :: rest => .segments (kind.segments (if kind.divides c then rest else text))

/-- A URL with the query and the fragment that a text has. -/
def finish (kind : PathKind) (url : Url) (query fragment : Option (List Char)) : Url :=
  let set : EncodeSet := if kind = .other then .query else .specialQuery
  { url with query := query.map (encode set), fragment := fragment.map (encode .fragment) }

def readHost? (kind : PathKind) (text : List Char) : Option Host :=
  if kind = .other then Host.ofOpaque? text
  else if text.isEmpty then none
  else Host.ofDomain? text

/-- The name and the password of credentials. An empty password is none. -/
def readCredentials (text : List Char) : List Char × Option (List Char) :=
  let (user, rest) := divideAt (· = ':') text
  let password := rest.tail
  (encode .userinfo user, if password.isEmpty then none else some (encode .userinfo password))

/-- Reads a URL from behind the two slashes in front of its host. -/
def readAuthority? (scheme text : List Char) : Option Url := do
  let kind := kindOfScheme scheme
  let (authority, rest) := divideAt (endsAuthority kind) text
  let (credentials, place) := (divideCredentials? authority).getD ([], authority)
  if credentials.isEmpty ∧ place.length < authority.length ∧ place.isEmpty ∧ ¬rest.isEmpty then
    none
  else
    let (user, password) := readCredentials credentials
    let (hostText, portText) := divideHost false place
    let host ← readHost? kind hostText
    if host.isEmpty ∧ (¬portText.isEmpty ∨ ¬user.isEmpty ∨ password.isSome) then none
    else
      let (port, behind) ← readPort? scheme portText.tail
      if behind.head?.any fun c => c ≠ '\\' then none
      else
        let (path, query, fragment) := divideTail (behind ++ rest)
        let url : Url :=
          { scheme, user, password, host := some host, port, path := pathBehindHost kind path }
        some (finish kind url query fragment)

/-- Reads a URL without a host from behind the colon of its scheme. -/
def readHostless (scheme text : List Char) : Url :=
  let (path, query, fragment) := divideTail text
  let path : UrlPath :=
    match path with
    | '/' :: path => .segments (PathKind.other.segments path)
    | path => .opaqueText (encode .control path)
  finish .other { scheme, path } query fragment

/-- The host of a file: nobody, if it is this machine. -/
def readFileHost? (text : List Char) : Option Host :=
  if text.isEmpty then some (.name [])
  else do
    let host ← Host.ofDomain? text
    some (if host = .name "localhost".toList then .name [] else host)

/-- The first segment of a path of a file names a drive. -/
def startsWithDrive (path : UrlPath) : Bool :=
  match path with
  | .segments (first :: _) => isDrive first
  | _ => false

/-- Reads a file URL from behind the colon of its scheme. A drive needs no host. -/
def readFile? (scheme text : List Char) : Option Url := do
  let isSlash := PathKind.file.divides
  let (hostText, rest) :=
    match text with
    | a :: b :: rest =>
      if isSlash a ∧ isSlash b then divideAt (endsAuthority .file) rest else ([], text)
    | _ => ([], text)
  let (host, rest) ←
    if isDrive hostText then some (.name [], hostText ++ rest)
    else (readFileHost? hostText).map fun host => (host, rest)
  let (path, query, fragment) := divideTail rest
  let path := pathBehindHost .file path
  let host := if startsWithDrive path then .name [] else host
  some (finish .file { scheme, host := some host, path } query fragment)

def ofChars? (text : List Char) : Option Url := do
  let (scheme, rest) ← divideScheme? (clean text)
  match kindOfScheme scheme with
  | .file => readFile? scheme rest
  | .wellKnown => readAuthority? scheme (rest.dropWhile PathKind.wellKnown.divides)
  | .other =>
    match rest with
    | '/' :: '/' :: rest => readAuthority? scheme rest
    | rest => some (readHostless scheme rest)

def ofText? (text : String) : Option Url :=
  ofChars? text.toList

end Url
end ExpenseLedger
