import ConfigText.Value

/-!
Templates: texts in which a percent sign starts a directive that a record fills in. A directive
names an entry of the record in parentheses, then come flags, a width, a precision, a size letter
and last the letter of a conversion. Reading a template finds the first directive that cannot be
filled.
-/

namespace ConfigText

namespace Template

/-- What can fill a directive. -/
inductive Entry
  | value (value : Value)
  /-- An object of which only the kind is known. -/
  | object (kind : Text)

namespace Entry

def kind : Entry → Text
  | value v => v.kind
  | object kind => kind

/-- A number of any kind. -/
def isNumber : Entry → Bool
  | value v => v.number?.isSome
  | object _ => false

/-- A whole number, or a truth value as one. -/
def isInteger : Entry → Bool
  | value (.int _) | value (.bool _) => true
  | _ => false

/-- A text of one character. -/
def isCharacter : Entry → Bool
  | value v => v.text?.any (·.length == 1)
  | object _ => false

end Entry

/-- A record, by the names of its entries. -/
abbrev Record := Text → Option Entry

/-- Why a template cannot be filled. -/
inductive Fault
  | incompleteKey
  | incomplete
  | unknownKey (name : Text)
  /-- The entry that a directive names is used up. -/
  | tooFew
  | widthNotInteger
  | widthTooBig
  | precisionTooBig
  /-- Whole numbers are not written with so many digits. -/
  | precisionTooLarge
  /-- What is written is too wide for memory. -/
  | tooWide
  | notNumber (conversion : Char) (kind : Text)
  | notInteger (conversion : Char) (kind : Text)
  | notReal (kind : Text)
  | notCharacter
  | unknownConversion (conversion : Char) (position : Nat)
  deriving DecidableEq

namespace Fault

/-- A character of the basic alphabet that can be shown. -/
def isShown (c : Char) : Bool := 31 ≤ c.toNat && c.toNat ≤ 126

def message : Fault → Text
  | incompleteKey => "incomplete format key".toList
  | incomplete => "incomplete format".toList
  | unknownKey name => name
  | tooFew => "not enough arguments for format string".toList
  | widthNotInteger => "* wants int".toList
  | widthTooBig => "width too big".toList
  | precisionTooBig => "precision too big".toList
  | precisionTooLarge => "precision too large".toList
  | tooWide => []
  | notNumber conversion kind =>
    '%' :: conversion :: " format: a real number is required, not ".toList ++ kind
  | notInteger conversion kind =>
    '%' :: conversion :: " format: an integer is required, not ".toList ++ kind
  | notReal kind => "must be real number, not ".toList ++ kind
  | notCharacter => "%c requires int or char".toList
  | unknownConversion conversion position =>
    "unsupported format character '".toList
      ++ [if isShown conversion then conversion else '?'] ++ "' (0x".toList
      ++ Nat.toDigits 16 conversion.toNat ++ ") at index ".toList ++ Text.ofNat position

end Fault

/-- Widths are below this bound. -/
def widthBound : Nat := Nat.pow 2 63

/-- Texts that are no shorter find no place in memory. -/
def memoryBound : Nat := Nat.pow 2 33

/-- Precisions are below this bound. -/
def precisionBound : Nat := Nat.pow 2 31

/-- Precisions of whole numbers, which take a sign and two more characters, are below this one. -/
def digitsBound : Nat := precisionBound - 3

/-- The fault of an entry for a conversion with a precision; `position` is where its letter
stands. -/
def conversionFault? (conversion : Char) (precision position : Nat) (entry : Entry) :
    Option Fault :=
  let overlong : Option Fault :=
    if precision < digitsBound then none else some .precisionTooLarge
  if conversion ∈ ['s', 'r', 'a'] then none
  else if conversion ∈ ['d', 'i', 'u'] then
    if entry.isNumber then overlong else some (.notNumber conversion entry.kind)
  else if conversion ∈ ['o', 'x', 'X'] then
    if entry.isInteger then overlong else some (.notInteger conversion entry.kind)
  else if conversion ∈ ['e', 'E', 'f', 'F', 'g', 'G'] then
    if entry.isNumber then none else some (.notReal entry.kind)
  else if conversion = 'c' then
    if entry.isCharacter || entry.isInteger then none else some .notCharacter
  else some (.unknownConversion conversion position)

/-! ### Reading -/

/-- A name in parentheses, after the first of them, and the rest; `depth` more are open. -/
def name? (depth : Nat) : Text → Option (Text × Text)
  | [] => none
  | c :: rest =>
    let longer (depth : Nat) := (name? depth rest).map fun (name, rest) => (c :: name, rest)
    match c, depth with
    | ')', 0 => some ([], rest)
    | ')', depth + 1 => longer depth
    | '(', depth => longer (depth + 1)
    | _, depth => longer depth

def isFlag (c : Char) : Bool := c == '-' || c == '+' || c == ' ' || c == '#' || c == '0'

def isSize (c : Char) : Bool := c == 'h' || c == 'l' || c == 'L'

/-- An entry that is at hand, if there is one, and the rest of a template. -/
abbrev Place := Option Entry × Text

/-- The number in front, which has to be below a bound; no digits count as zero. A star uses up
the entry for the number, so that none is left to be written. -/
def takeNumber (bound : Nat) (tooBig : Fault) : Place → Except Fault (Nat × Place)
  | (none, '*' :: _) => .error .tooFew
  | (some entry, '*' :: rest) =>
    if entry.isInteger then .ok (0, none, rest) else .error .widthNotInteger
  | (entry, rest) =>
    let digits := rest.takeWhile Char.isDigit
    let n := digits.foldl (fun n c => 10 * n + (c.toNat - '0'.toNat)) 0
    if n < bound then .ok (n, entry, rest.dropWhile Char.isDigit) else .error tooBig

/-- The entry that a name in front stands for. -/
def takeNamed (record : Record) : Place → Except Fault Place
  | (_, '(' :: rest) =>
    match name? 0 rest with
    | none => .error .incompleteKey
    | some (name, rest) =>
      match record name with
      | none => .error (.unknownKey name)
      | some entry => .ok (some entry, rest)
  | place => .ok place

/-- What is left after one directive; `length` is that of the whole template. -/
def directive (record : Record) (length : Nat) (place : Place) : Except Fault Place := do
  let (entry, rest) ← takeNamed record place
  let (width, entry, rest) ← takeNumber widthBound .widthTooBig (entry, rest.dropWhile isFlag)
  let (precision, entry, rest) ←
    match rest with
    | '.' :: rest => takeNumber precisionBound .precisionTooBig (entry, rest)
    | rest => .ok (0, entry, rest)
  let rest := if rest.head?.any isSize then rest.tail else rest
  match rest, entry with
  | [], _ => .error .incomplete
  | _, none => .error .tooFew
  | conversion :: rest, some entry =>
    match conversionFault? conversion precision (length - (rest.length + 1)) entry with
    | some fault => .error fault
    | none => if width < memoryBound then .ok (none, rest) else .error .tooWide

/-- The first fault in what is left of a template. -/
def faultFrom? (record : Record) (length : Nat) : Nat → Place → Option Fault
  | 0, _ => none
  | _ + 1, (_, []) => none
  | fuel + 1, (entry, '%' :: '%' :: rest) => faultFrom? record length fuel (entry, rest)
  | fuel + 1, (entry, '%' :: rest) =>
    match directive record length (entry, rest) with
    | .error fault => some fault
    | .ok place => faultFrom? record length fuel place
  | fuel + 1, (entry, _ :: rest) => faultFrom? record length fuel (entry, rest)

end Template

/-- The first fault in a template that a record fills. The record itself is at hand for one
directive without a name. -/
def Template.fault? (record : Template.Record) (template : Text) : Option Template.Fault :=
  Template.faultFrom? record template.length template.length
    (some (.value (.dict [])), template)

end ConfigText
