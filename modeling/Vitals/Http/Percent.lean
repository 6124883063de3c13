import Vitals.Text.Reader

/-!
# Percent encoding

Characters that may not stand in a part of a URL are written as the bytes of their UTF-8 form,
each as a percent sign and two hexadecimal digits. Which characters those are depends on the part.
-/

namespace Vitals.Http

open Text

/-- A control character, or a character beyond ASCII. -/
def isControl (c : Char) : Bool := c.toNat < 0x20 || 0x7E < c.toNat

def encodedInFragment (c : Char) : Bool :=
  isControl c || [' ', '"', '<', '>', '\x60'].contains c

def encodedInQuery (c : Char) : Bool :=
  isControl c || [' ', '"', '#', '<', '>'].contains c

/-- A character that is encoded in the query of a URL of the web. -/
def encodedInWebQuery (c : Char) : Bool := encodedInQuery c || c == '\''

def encodedInPath (c : Char) : Bool :=
  encodedInFragment c || ['#', '?', '{', '}'].contains c

/-- A character that is encoded in the name and the password of a user. -/
def encodedInUser (c : Char) : Bool :=
  encodedInPath c || ['/', ':', ';', '=', '@', '[', '\\', ']', '^', '|'].contains c

/-- A byte as a percent sign and two digits. -/
def encodeByte (byte : UInt8) : List Char :=
  let digits := "0123456789ABCDEF".toList
  ['%', digits.getD (byte.toNat / 16) '0', digits.getD (byte.toNat % 16) '0']

/-- A text with some of its characters encoded. -/
def percentEncode (encoded : Char → Bool) (chars : List Char) : String :=
  String.ofList <| chars.flatMap fun c =>
    if encoded c then c.toString.toUTF8.toList.flatMap encodeByte else [c]

/-- The bytes that encoded characters stand for. -/
def percentBytes : List Char → List UInt8
  | [] => []
  | '%' :: high :: low :: rest =>
      match hexValue? high, hexValue? low with
      | some high, some low => (high * 16 + low).toUInt8 :: percentBytes rest
      | _, _ => 0x25 :: percentBytes (high :: low :: rest)
  | c :: rest => c.toString.toUTF8.toList ++ percentBytes rest

/-- The text that encoded characters stand for, if it is one. -/
def percentDecode? (chars : List Char) : Option String :=
  String.fromUTF8? ⟨(percentBytes chars).toArray⟩

/-- A character that may stand in a URL as it is. -/
def isUrlChar (c : Char) : Bool :=
  c.isAlphanum || ['-', '.', '_', '~', ':', '/', '?', '#', '[', ']', '@', '!', '$', '&', '\'', '(',
    ')', '*', '+', ',', ';', '='].contains c

/-- A text in which nothing is left to encode: all characters may stand in a URL, and each percent
sign stands before two digits. -/
def isEncoded : List Char → Bool
  | [] => true
  | '%' :: high :: low :: rest =>
      (hexValue? high).isSome && (hexValue? low).isSome && isEncoded rest
  | c :: rest => isUrlChar c && isEncoded rest

end Vitals.Http
