import ExpenseLedger.Json.Text

/-!
# Percent encoding

A byte is written as a percent sign and two hexadecimal digits in upper case. Which characters
are written so depends on the part of the URL; characters beyond ASCII always are, byte by byte.
-/

namespace ExpenseLedger
namespace Url

/-- A set of characters that have to be encoded. -/
abbrev EncodeSet := Char → Bool

namespace EncodeSet

/-- Control characters and everything beyond ASCII. -/
def control : EncodeSet := fun c => c.toNat < 0x20 || 0x7e < c.toNat

/-- A set with further characters. -/
def adding (set : EncodeSet) (characters : String) : EncodeSet :=
  fun c => set c || characters.toList.contains c

/-- What is encoded in a fragment. -/
def fragment : EncodeSet := control.adding " \"<>\x60"

/-- What is encoded in the segments of a path. -/
def path : EncodeSet := fragment.adding "#?\x7b\x7d"

/-- What is encoded in names and passwords. -/
def userinfo : EncodeSet := path.adding "/:;=@[\\]^|"

/-- What is encoded in a query. -/
def query : EncodeSet := control.adding " \"#<>"

/-- What is encoded in a query of one of the well-known schemes. -/
def specialQuery : EncodeSet := query.adding "'"

end EncodeSet

def upperHex (n : Nat) : Char :=
  (Nat.digitChar n).toUpper

/-- A byte as a percent sign and two digits. -/
def encodeByte (byte : UInt8) : List Char :=
  ['%', upperHex (byte.toNat / 16), upperHex (byte.toNat % 16)]

def encodeChar (c : Char) : List Char :=
  (String.utf8EncodeChar c).flatMap encodeByte

def encode (set : EncodeSet) (text : List Char) : List Char :=
  text.flatMap fun c => if set c then encodeChar c else [c]

/-- The bytes of a text, those that are encoded decoded. A percent sign without two digits
behind it stands for itself. -/
def decode : List Char → List UInt8
  | '%' :: a :: b :: rest =>
    match Json.hexValue? a, Json.hexValue? b with
    | some high, some low => UInt8.ofNat (16 * high + low) :: decode rest
    | _, _ => UInt8.ofNat '%'.toNat :: decode (a :: b :: rest)
  | c :: rest => String.utf8EncodeChar c ++ decode rest
  | [] => []

/-- The decoded text, if its bytes are one. -/
def decodeText? (text : List Char) : Option (List Char) :=
  (String.fromUTF8? (ByteArray.mk (decode text).toArray)).map String.toList

end Url
end ExpenseLedger
