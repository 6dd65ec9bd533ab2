import ConfigText.Text

/-!
Double-precision numbers, held exactly: a finite one is a whole number of at most 53 bits times a
power of two. Reading a decimal rounds to the nearest number, a tie to the even one.
-/

namespace ConfigText

inductive Binary64
  | nan
  | infinite (negative : Bool)
  /-- The number `digits * 2 ^ scale`, negated if it is negative. -/
  | finite (negative : Bool) (digits : Nat) (scale : Int)
  deriving DecidableEq

/-- A quotient rounded to the nearest whole number, a tie to the even one. -/
def roundDiv (num den : Nat) : Nat :=
  let whole := num / den
  let twice := 2 * (num % den)
  if twice < den then whole
  else if den < twice then whole + 1
  else if whole % 2 = 0 then whole else whole + 1

/-- A power with a negative exponent sent to the other side of a fraction. -/
def scaleFraction (base : Nat) (exponent : Int) (num den : Nat) : Nat × Nat :=
  if 0 ≤ exponent then (num * base.pow exponent.toNat, den)
  else (num, den * base.pow (-exponent).toNat)

namespace Binary64

/-- The smallest exponent of two. -/
def minScale : Int := -1074

/-- The number nearest to a positive fraction. -/
def ofFraction (negative : Bool) (num den : Nat) : Binary64 :=
  let guess : Int := (Nat.log2 num : Int) - Nat.log2 den - 53
  let fits (scale : Int) : Bool :=
    let (n, d) := scaleFraction 2 (-scale) num den
    n < d * Nat.pow 2 53
  let scale := if fits guess then guess else guess + 1
  let scale := max scale minScale
  let (n, d) := scaleFraction 2 (-scale) num den
  let digits := roundDiv n d
  let (digits, scale) :=
    if digits = Nat.pow 2 53 then (Nat.pow 2 52, scale + 1) else (digits, scale)
  if 971 < scale then infinite negative else finite negative digits scale

/-- The number nearest to `mantissa * 10 ^ exponent`. -/
def ofDecimal (negative : Bool) (mantissa : Nat) (exponent : Int) : Binary64 :=
  if mantissa = 0 then finite negative 0 minScale
  else
    let magnitude := exponent + (Text.ofNat mantissa).length
    if 310 < magnitude then infinite negative
    else if magnitude < -330 then finite negative 0 minScale
    else
      let (num, den) := scaleFraction 10 exponent mantissa 1
      ofFraction negative num den

/-- The number is zero, of either sign. -/
def isZero : Binary64 → Bool
  | finite _ digits _ => digits = 0
  | _ => false

/-- The whole number that it is, if it is one. -/
def toInt? : Binary64 → Option Int
  | finite negative digits scale =>
    let (num, den) := scaleFraction 2 scale digits 1
    if num % den = 0 then
      some (if negative then -((num / den : Nat) : Int) else ((num / den : Nat) : Int))
    else none
  | _ => none

/-- The number is below one. -/
def belowOne : Binary64 → Bool
  | nan => false
  | infinite negative => negative
  | finite negative digits scale =>
    let (num, den) := scaleFraction 2 scale digits 1
    negative || num < den

/-- Equality of numbers: both zeros are equal, and nothing equals the number that is none. -/
def sameNumber : Binary64 → Binary64 → Bool
  | nan, _ => false
  | _, nan => false
  | x, y => x == y || (x.isZero && y.isZero)

/-- The fewest digits that read back, as a whole number times a power of ten: among 1 to 17
digits, the first count for which a neighbour of the number reads back; of two neighbours the
nearer, on a tie the even one. -/
def shortest (digits : Nat) (scale : Int) : Nat × Int :=
  -- the number and the ends of what rounds to it, over one denominator
  let (value, den) := scaleFraction 2 scale (4 * digits) 4
  let (unit, _) := scaleFraction 2 scale 1 4
  let low := if digits = Nat.pow 2 52 ∧ minScale < scale then value - unit else value - 2 * unit
  let high := value + 2 * unit
  let closed := digits % 2 = 0
  let leading : Int :=
    if den ≤ value then (Text.ofNat (value / den)).length
    else -(((List.range 400).find? fun j => den ≤ value * Nat.pow 10 (j + 1)).getD 0 : Nat)
  let attempt (count : Nat) : Option (Nat × Int) :=
    let exponent := leading - count
    let (n, d) := scaleFraction 10 (-exponent) value den
    let (l, _) := scaleFraction 10 (-exponent) low den
    let (h, _) := scaleFraction 10 (-exponent) high den
    let readsBack (c : Nat) : Bool :=
      if closed then l ≤ c * d && c * d ≤ h else l < c * d && c * d < h
    let below := n / d
    match readsBack below && 0 < below, readsBack (below + 1) with
    | true, true => some (roundDiv n d, exponent)
    | true, false => some (below, exponent)
    | false, true => some (below + 1, exponent)
    | false, false => none
  ((List.range 17).findSome? fun k => attempt (k + 1)).getD (digits, 0)

/-- Digits in positional notation, or with an exponent where the point would stand more than three
places to the left of the digits or more than sixteen to the right of their start. -/
def writeDecimal (mantissa : Nat) (exponent : Int) : Text :=
  let digits := ((Text.ofNat mantissa).reverse.dropWhile (· == '0')).reverse
  let point : Int := exponent + (Text.ofNat mantissa).length
  if -4 < point ∧ point ≤ 16 then
    if point ≤ 0 then
      '0' :: '.' :: List.replicate (-point).toNat '0' ++ digits
    else if digits.length ≤ point.toNat then
      digits ++ List.replicate (point.toNat - digits.length) '0' ++ ['.', '0']
    else digits.take point.toNat ++ '.' :: digits.drop point.toNat
  else
    let power := point - 1
    let tail := Text.ofNat power.natAbs
    let tail := if tail.length < 2 then '0' :: tail else tail
    let front :=
      match digits with
      | [] => []
      | [digit] => [digit]
      | digit :: more => digit :: '.' :: more
    front ++ 'e' :: (if power < 0 then '-' else '+') :: tail

/-- A number in the fewest digits that read back, always with a point or an exponent. -/
def toText : Binary64 → Text
  | nan => ['n', 'a', 'n']
  | infinite negative => if negative then ['-', 'i', 'n', 'f'] else ['i', 'n', 'f']
  | finite negative digits scale =>
    let unsigned :=
      if digits = 0 then ['0', '.', '0']
      else
        let (mantissa, exponent) := shortest digits scale
        writeDecimal mantissa exponent
    if negative then '-' :: unsigned else unsigned

end Binary64
end ConfigText
