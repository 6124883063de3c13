/-!
# Texts of bytes that may be none

Bytes are read as UTF-8. Where they are not well formed, the longest run of bytes that could have
begun a character is read as one replacement character.
-/

namespace Vitals.Text

/-- What the first byte of a character says about it: the bits that it holds, and the ranges of the
bytes behind it. -/
def opening? (first : UInt8) : Option (Nat × List (UInt8 × UInt8)) :=
  let bits := first.toNat
  let any : UInt8 × UInt8 := (0x80, 0xBF)
  if first < 0x80 then some (bits, [])
  else if first < 0xC2 then none
  else if first < 0xE0 then some (bits % 32, [any])
  else if first = 0xE0 then some (bits % 16, [(0xA0, 0xBF), any])
  else if first = 0xED then some (bits % 16, [(0x80, 0x9F), any])
  else if first < 0xF0 then some (bits % 16, [any, any])
  else if first = 0xF0 then some (bits % 8, [(0x90, 0xBF), any, any])
  else if first < 0xF4 then some (bits % 8, [any, any, any])
  else if first = 0xF4 then some (bits % 8, [(0x80, 0x8F), any, any])
  else none

/-- Reads the bytes behind the first one of a character: its code if all of them are in their
ranges, and the bytes that were not read. -/
def readBehind (code : Nat) : List (UInt8 × UInt8) → List UInt8 → Option Nat × List UInt8
  | [], bytes => (some code, bytes)
  | _ :: _, [] => (none, [])
  | (low, high) :: ranges, byte :: bytes =>
      if low ≤ byte ∧ byte ≤ high then readBehind (code * 64 + byte.toNat % 64) ranges bytes
      else (none, byte :: bytes)

theorem length_readBehind_le (code : Nat) (ranges : List (UInt8 × UInt8)) (bytes : List UInt8) :
    (readBehind code ranges bytes).2.length ≤ bytes.length := by
  induction ranges generalizing code bytes with
  | nil => simp [readBehind]
  | cons range ranges ih =>
      cases bytes with
      | nil => simp [readBehind]
      | cons byte bytes =>
          unfold readBehind
          split
          · exact Nat.le_succ_of_le (ih _ bytes)
          · exact Nat.le_refl _

/-- The character that stands for bytes that are none. -/
def replacement : Char := '\uFFFD'

def lossyChars : List UInt8 → List Char
  | [] => []
  | first :: bytes =>
      match opening? first with
      | none => replacement :: lossyChars bytes
      | some (bits, ranges) =>
          let read := readBehind bits ranges bytes
          (read.1.map Char.ofNat).getD replacement :: lossyChars read.2
termination_by bytes => bytes.length
decreasing_by
  · simp
  · exact Nat.lt_succ_of_le (length_readBehind_le bits ranges bytes)

def ofBytes (bytes : ByteArray) : String := String.ofList (lossyChars bytes.toList)

end Vitals.Text
