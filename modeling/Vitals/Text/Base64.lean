/-!
# Base 64

Bytes as letters, digits and two signs: three bytes make four characters of six bits each. The last
characters of a group that is not full are equals signs.
-/

namespace Vitals.Text

def base64Char (bits : Nat) : Char :=
  "ABCDEFGHIJKLMNOPQRSTUVWXYZabcdefghijklmnopqrstuvwxyz0123456789+/".toList.getD (bits % 64) '='

/-- The characters of a group whose bytes make a number of 24 bits, `count` of them in use. -/
def base64Group (number count : Nat) : List Char :=
  [number / 262144, number / 4096, number / 64, number].map base64Char |>.take (count + 1)
    |>.append (List.replicate (3 - count) '=')

def base64Chars : List UInt8 → List Char
  | [] => []
  | [a] => base64Group (a.toNat * 65536) 1
  | [a, b] => base64Group (a.toNat * 65536 + b.toNat * 256) 2
  | a :: b :: c :: rest =>
      base64Group (a.toNat * 65536 + b.toNat * 256 + c.toNat) 3 ++ base64Chars rest

def base64 (bytes : ByteArray) : String := String.ofList (base64Chars bytes.toList)

end Vitals.Text
