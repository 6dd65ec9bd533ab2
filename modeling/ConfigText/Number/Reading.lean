import ConfigText.Number.Binary64
import ConfigText.Text.Blank
import ConfigText.Text.Digit
import ConfigText.Text.Quoted

/-!
Reading numbers: whole numbers in the digits of any script, whole numbers as a field of a record
takes them, and decimals with an exponent.
-/

namespace ConfigText

/-- Why a text is no whole number. -/
inductive IntegerFault
  | malformed (literal : Text)
  /-- More digits than are read. -/
  | tooLong (digits : Nat)
  deriving DecidableEq

/-- Quoted literals are cut to this many characters. -/
def literalShown : Nat := 200

/-- Whole numbers with more digits are refused. -/
def digitLimit : Nat := 4300

def IntegerFault.message : IntegerFault → Text
  | .malformed literal =>
    "invalid literal for int() with base 10: ".toList ++ (Text.quoted literal).take literalShown
  | .tooLong digits =>
    "Exceeds the limit (".toList ++ Text.ofNat digitLimit
      ++ " digits) for integer string conversion: value has ".toList ++ Text.ofNat digits
      ++ " digits; use sys.set_int_max_str_digits() to increase the limit".toList

namespace Number

/-- The digits of a text that holds digits only, but for single underscores between two of them. -/
def groupedDigits (digit? : Char → Option Nat) (afterDigit : Bool) : Text → Option (List Nat)
  | [] => if afterDigit then some [] else none
  | '_' :: rest => if afterDigit then groupedDigits digit? false rest else none
  | c :: rest =>
    match digit? c with
    | some d => (groupedDigits digit? true rest).map (d :: ·)
    | none => none

/-- The number that decimal digits write. -/
def ofDigits (digits : List Nat) : Nat := digits.foldl (fun n d => 10 * n + d) 0

/-- A sign in front, and what follows it. -/
def takeSign : Text → Bool × Text
  | '-' :: rest => (true, rest)
  | '+' :: rest => (false, rest)
  | text => (false, text)

def signed (negative : Bool) (n : Nat) : Int := if negative then -(n : Int) else n

/-- The digits in front, with underscores among them, and the rest. Underscores stand one at a time
and between digits. -/
def takeDigits (digit? : Char → Option Nat) (text : Text) : Option (List Nat × Text) :=
  let inGroup (c : Char) : Bool := (digit? c).isSome || c == '_'
  (groupedDigits digit? false (text.takeWhile inGroup)).map (·, text.dropWhile inGroup)

/-- A whole number with white space around it, a sign, and single underscores between digits. Too
many digits are noticed before anything behind them. -/
def readInteger (text : Text) : Except IntegerFault Int :=
  let (negative, body) := takeSign (text.dropWhile Text.isWhiteSpace)
  match takeDigits Text.digit? body with
  | none => .error (.malformed text)
  | some (digits, rest) =>
    if digitLimit < digits.length then .error (.tooLong digits.length)
    else if rest.all Text.isWhiteSpace then .ok (signed negative (ofDigits digits))
    else .error (.malformed text)

/-- A digit of the basic alphabet. -/
def basicDigit? (c : Char) : Option Nat := if c.isDigit then some (c.toNat - '0'.toNat) else none

/-- The text from its first digit other than zero on, or from a minus sign behind zeros, where only
zeros, and underscores among them, are in front. One zero stays in front of a point and where
nothing else is left. -/
def dropZeros : Text → Option Text
  | [] => none
  | '0' :: more =>
    let isFiller (c : Char) : Bool := c == '0' || c == '_'
    let last := (more.takeWhile isFiller).getLastD '0'
    match more.dropWhile isFiller with
    | [] => some [last]
    | '.' :: rest => some (last :: '.' :: rest)
    | c :: rest => if c.isDigit || c == '-' then some (c :: rest) else none
  | c :: rest => if c.isDigit then some (c :: rest) else none

/-- The text without a point and the zeros behind it, of which there is at least one. -/
def dropFraction (text : Text) : Text :=
  match Text.cut ['.'] text with
  | some (whole, zero :: zeros) => if (zero :: zeros).all (· == '0') then whole else text
  | _ => text

/-- The text without its underscores, if they stand one at a time and inside. -/
def dropUnderscores (text : Text) : Text :=
  if text.head? = some '_' || text.getLast? = some '_' || Text.has ['_', '_'] text then text
  else text.filter (· != '_')

/-- A minus sign in front, if there is one, and what follows it. -/
def takeMinus : Text → Text × Text
  | '-' :: rest => (['-'], rest)
  | text => ([], text)

/-- A whole number as fields take it, in plain form: without white space around it, a plus sign,
zeros in front, a fraction of zeros, and underscores. -/
def plainInteger (text : Text) : Option Text :=
  let (minus, body) :=
    match Text.trimBy Text.isWhiteSpace text with
    | '+' :: rest => ([], rest)
    | text => takeMinus text
  (dropZeros body).map fun body => minus ++ dropUnderscores (dropFraction body)

/-- The text starts like a whole number in plain form that has too many digits. -/
def startsOverlong (text : Text) : Bool :=
  let digits := (takeMinus text).2.takeWhile Char.isDigit
  digits.head? != some '0' && digitLimit < digits.length

/-- A whole number in plain form: a minus sign, if there is one, and digits of the basic alphabet
without a zero in front. -/
def readPlain (text : Text) : Option Int :=
  let (minus, body) := takeMinus text
  if body.head? = some '0' ∧ body ≠ ['0'] ∨ digitLimit < body.length then none
  else
    match body.mapM basicDigit? with
    | none | some [] => none
    | some digits => some (signed (!minus.isEmpty) (ofDigits digits))

/-- A decimal with an optional fraction and exponent, or one of the names of what is no finite
number, in any case and with white space around it. -/
def readDecimal (text : Text) : Option Binary64 :=
  let (negative, body) := takeSign (Text.lowerBasic (Text.trimBy Text.isWhiteSpace text))
  if body ∈ ["inf".toList, "infinity".toList] then some (.infinite negative)
  else if body = ['n', 'a', 'n'] then some .nan
  else
    let (mantissa, power) := (Text.cut ['e'] body).getD (body, ['0'])
    let (whole, fraction) := (Text.cut ['.'] mantissa).getD (mantissa, [])
    match groupedDigits basicDigit? false (whole ++ fraction), (readInteger power).toOption with
    | some digits, some exponent =>
      some (.ofDecimal negative (ofDigits digits) (exponent - fraction.length))
    | _, _ => none

end Number
end ConfigText
