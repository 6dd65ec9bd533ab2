import ConfigText.Text.Printable

/-!
Quoted text: single quotes around it, or double quotes where it holds a single and no double one.
The backslash, the quote in use and every character that is not shown are escaped. Bytes are quoted
like text, where only those of the basic alphabet are shown.
-/

namespace ConfigText.Text

/-- A number in lower-case hexadecimal digits, with zeros in front up to a width. -/
def hex (width n : Nat) : Text :=
  let digits := Nat.toDigits 16 n
  List.replicate (width - digits.length) '0' ++ digits

/-- The quote around a text. -/
def quoteFor (text : Text) : Char :=
  if text.contains quote && !text.contains doubleQuote then doubleQuote else quote

/-- A character between quotes. -/
def escape (mark c : Char) : Text :=
  if c = mark ∨ c = '\\' then ['\\', c]
  else if c = '\n' then ['\\', 'n']
  else if c = '\r' then ['\\', 'r']
  else if c = '\t' then ['\\', 't']
  else if isPrintable c then [c]
  else if c.toNat < 0x100 then '\\' :: 'x' :: hex 2 c.toNat
  else if c.toNat < 0x10000 then '\\' :: 'u' :: hex 4 c.toNat
  else '\\' :: 'U' :: hex 8 c.toNat

/-- The text in quotes. -/
def quoted (text : Text) : Text :=
  let mark := quoteFor text
  mark :: text.flatMap (escape mark) ++ [mark]

/-- A byte between quotes. -/
def escapeByte (mark : Char) (byte : UInt8) : Text :=
  if byte.toNat < 0x80 then escape mark (Char.ofNat byte.toNat)
  else '\\' :: 'x' :: hex 2 byte.toNat

/-- Bytes in quotes, behind the letter that tells them from text. -/
def quotedBytes (bytes : List UInt8) : Text :=
  let mark := quoteFor (bytes.map fun byte => Char.ofNat byte.toNat)
  'b' :: mark :: bytes.flatMap (escapeByte mark) ++ [mark]

end ConfigText.Text
