import ConfigText.Text.Utf8

/-!
The encodings of JSON documents: UTF-8, and UTF-16 and UTF-32 in both byte orders. A mark in front
tells them apart, and without one the first bytes do, as the first character of a document is of
the basic alphabet.

A surrogate that stands alone is no character, so no text holds one. In UTF-16 and UTF-32 it is read
as the replacement character, whichever surrogate it is: texts that differ only there are read as
one text. In UTF-8 the document is not read.
-/

namespace ConfigText.Json

/-- What stands for a unit that is no character. -/
def replacement : Char := '\uFFFD'

/-- The character with a number, if there is one. -/
def charOf (n : Nat) : Char := if n.isValidChar then Char.ofNat n else replacement

/-! ### UTF-16 -/

def isHighUnit (n : Nat) : Bool := 0xD800 ≤ n && n < 0xDC00

def isLowUnit (n : Nat) : Bool := 0xDC00 ≤ n && n < 0xE000

/-- The character that a high and a low unit make up. -/
def charOfPair (high low : Nat) : Char :=
  Char.ofNat (0x10000 + (high - 0xD800) * 0x400 + (low - 0xDC00))

/-- The text that UTF-16 units write. -/
def textOfUnits : List Nat → Text
  | [] => []
  | [unit] => [charOf unit]
  | high :: low :: more =>
    if isHighUnit high && isLowUnit low then charOfPair high low :: textOfUnits more
    else charOf high :: textOfUnits (low :: more)

/-! ### Bytes -/

inductive ByteOrder
  | bigEndian
  | littleEndian
  deriving DecidableEq

/-- The number that bytes write. -/
def ByteOrder.number (order : ByteOrder) (bytes : List UInt8) : Nat :=
  let digits :=
    match order with
    | .bigEndian => bytes
    | .littleEndian => bytes.reverse
  digits.foldl (fun n byte => 0x100 * n + byte.toNat) 0

/-- The numbers that pairs of bytes write, unless one byte is left. -/
def ByteOrder.pairs (order : ByteOrder) : List UInt8 → Option (List Nat)
  | [] => some []
  | a :: b :: more => (pairs order more).map (order.number [a, b] :: ·)
  | _ => none

/-- The numbers that groups of four bytes write, unless some bytes are left. -/
def ByteOrder.fours (order : ByteOrder) : List UInt8 → Option (List Nat)
  | [] => some []
  | a :: b :: c :: d :: more => (fours order more).map (order.number [a, b, c, d] :: ·)
  | _ => none

inductive Encoding
  | utf8
  | utf16 (order : ByteOrder)
  | utf32 (order : ByteOrder)
  deriving DecidableEq

namespace Encoding

/-- The encoding of a document with a mark in front. -/
def marked? : List UInt8 → Option Encoding
  | 0x00 :: 0x00 :: 0xFE :: 0xFF :: _ => some (.utf32 .bigEndian)
  | 0xFF :: 0xFE :: 0x00 :: 0x00 :: _ => some (.utf32 .littleEndian)
  | 0xFE :: 0xFF :: _ => some (.utf16 .bigEndian)
  | 0xFF :: 0xFE :: _ => some (.utf16 .littleEndian)
  | 0xEF :: 0xBB :: 0xBF :: _ => some .utf8
  | _ => none

/-- The encoding that the zeros among the first bytes tell of. -/
def ofZeros : List UInt8 → Encoding
  | [a, b] =>
    if a = 0 then .utf16 .bigEndian else if b = 0 then .utf16 .littleEndian else .utf8
  | a :: b :: c :: d :: _ =>
    if a = 0 then if b = 0 then .utf32 .bigEndian else .utf16 .bigEndian
    else if b = 0 then
      if c = 0 ∧ d = 0 then .utf32 .littleEndian else .utf16 .littleEndian
    else .utf8
  | _ => .utf8

def detect (bytes : List UInt8) : Encoding := (marked? bytes).getD (ofZeros bytes)

/-- There are no characters from this number on. -/
def charBound : Nat := 0x110000

def decodeIn (encoding : Encoding) (bytes : List UInt8) : Option Text :=
  match encoding with
  | .utf8 => (Text.ofUtf8 bytes).toOption
  | .utf16 order => (order.pairs bytes).map textOfUnits
  | .utf32 order =>
    (order.fours bytes).bind fun numbers =>
      if numbers.all (· < charBound) then some (numbers.map charOf) else none

/-- The text of a document, without a mark. -/
def decode (bytes : List UInt8) : Option Text :=
  (decodeIn (detect bytes) bytes).map Text.dropMark

end Encoding
end ConfigText.Json
