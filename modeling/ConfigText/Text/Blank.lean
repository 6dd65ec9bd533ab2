import ConfigText.Text

/-!
White space: the characters of the Unicode property, and the wider class of blanks, which also
holds the four separators U+001C to U+001F.
-/

namespace ConfigText.Text

/-- The Unicode property of white space. -/
def isWhiteSpace (c : Char) : Bool :=
  let n := c.toNat
  (0x9 ≤ n && n ≤ 0xD) || n == 0x20 || n == 0x85 || n == 0xA0 || n == 0x1680
    || (0x2000 ≤ n && n ≤ 0x200A) || n == 0x2028 || n == 0x2029 || n == 0x202F || n == 0x205F
    || n == 0x3000

/-- White space, or one of the information separators. -/
def isBlank (c : Char) : Bool :=
  isWhiteSpace c || (0x1C ≤ c.toNat && c.toNat ≤ 0x1F)

/-- A blank that does not end a line. -/
def isLineBlank (c : Char) : Bool := isBlank c && c != '\n' && c != '\r'

/-- The text without the characters of a class at its end. -/
def trimRightBy (drop : Char → Bool) (text : Text) : Text :=
  (text.reverse.dropWhile drop).reverse

/-- The text without the characters of a class at both ends. -/
def trimBy (drop : Char → Bool) (text : Text) : Text :=
  trimRightBy drop (text.dropWhile drop)

/-- Only blanks, or nothing. -/
def allBlank (text : Text) : Bool := text.all isBlank

theorem dropWhile_eq_nil {drop : Char → Bool} {text : Text} :
    text.dropWhile drop = [] ↔ text.all drop = true := by
  induction text with
  | nil => simp
  | cons c rest ih => by_cases h : drop c = true <;> simp_all

theorem all_dropWhile {drop : Char → Bool} {text : Text} :
    (text.dropWhile drop).all drop = text.all drop := by
  induction text with
  | nil => rfl
  | cons c rest ih => by_cases h : drop c = true <;> simp_all

/-- Trimming leaves nothing exactly where every character is dropped. -/
theorem trimBy_eq_nil_iff {drop : Char → Bool} {text : Text} :
    trimBy drop text = [] ↔ text.all drop = true := by
  rw [trimBy, trimRightBy, List.reverse_eq_nil_iff, dropWhile_eq_nil, List.all_reverse,
    all_dropWhile]

end ConfigText.Text
