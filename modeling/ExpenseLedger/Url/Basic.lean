import ExpenseLedger.Url.Host
import ExpenseLedger.Url.Path

/-!
# URLs

The parts of an absolute URL in their normal form, and its text. Parts are kept encoded. A port
that the scheme implies is not kept.
-/

namespace ExpenseLedger

/-- Where a URL leads below its host. -/
inductive UrlPath where
  | opaqueText (text : List Char)
  | segments (list : List (List Char))
  deriving DecidableEq

namespace UrlPath

def chars : UrlPath → List Char
  | .opaqueText text => text
  | .segments list => list.flatMap fun segment => '/' :: segment

end UrlPath

structure Url where
  scheme : List Char
  user : List Char := []
  password : Option (List Char) := none
  host : Option Url.Host := none
  port : Option UInt16 := none
  path : UrlPath
  query : Option (List Char) := none
  fragment : Option (List Char) := none
  deriving DecidableEq

namespace Url

/-- The name and the password, and the sign behind them. -/
def credentials (url : Url) : List Char :=
  if url.user.isEmpty ∧ url.password.isNone then []
  else
    let password := url.password.elim [] fun password => ':' :: password
    url.user ++ password ++ ['@']

/-- The part that names the host. Without one, a path must not look like it. -/
def authority (url : Url) : List Char :=
  match url.host with
  | some host =>
    let port := url.port.elim [] fun port => ':' :: naturalDigits port.toNat
    ['/', '/'] ++ url.credentials ++ host.chars ++ port
  | none =>
    match url.path with
    | .segments ([] :: _ :: _) => ['/', '.']
    | _ => []

/-- The path and the query, which is what a request asks for. -/
def target (url : Url) : List Char :=
  url.path.chars ++ url.query.elim [] fun query => '?' :: query

def chars (url : Url) : List Char :=
  url.scheme ++ ':' :: url.authority ++ url.target ++
    url.fragment.elim [] fun fragment => '#' :: fragment

def toText (url : Url) : String :=
  String.ofList url.chars

instance : ToString Url := ⟨toText⟩

end Url
end ExpenseLedger
