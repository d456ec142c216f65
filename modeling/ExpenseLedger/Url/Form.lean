import ExpenseLedger.Url.Basic

/-!
# Queries as forms

Pairs of names and values in a query: ASCII letters, digits and four signs stand for themselves,
a space is a plus sign, and everything else is encoded.
-/

namespace ExpenseLedger
namespace Url

/-- A name or a value of a form. -/
def formText (text : String) : List Char :=
  text.toList.flatMap fun c =>
    if c.isAlphanum || "*-._".toList.contains c then [c]
    else if c = ' ' then ['+']
    else encodeChar c

/-- The URL with one more pair in its query. -/
def addPair (url : Url) (name value : String) : Url :=
  let before := url.query.getD []
  let mark := if before.isEmpty then [] else ['&']
  { url with query := some (before ++ mark ++ formText name ++ '=' :: formText value) }

end Url
end ExpenseLedger
