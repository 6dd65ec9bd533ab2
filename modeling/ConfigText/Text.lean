/-!
Text as a list of code points, with the searches that placeholders need. Positions count code
points, so a position is a length of a part in front.
-/

namespace ConfigText

abbrev Text := List Char

instance lawfulBEqText : LawfulBEq Text := inferInstance

namespace Text

def quote : Char := '\x27'

def doubleQuote : Char := '\x22'

/-- The parts before and after the first occurrence of `token`. -/
def cut (token : Text) : Text → Option (Text × Text)
  | [] => if token = [] then some ([], []) else none
  | c :: rest =>
    if token <+: c :: rest then some ([], (c :: rest).drop token.length)
    else (cut token rest).map fun (before, after) => (c :: before, after)

/-- Somewhere in the text the token occurs. -/
def has (token text : Text) : Bool := (cut token text).isSome

theorem cut_eq_append {token text before after : Text}
    (h : cut token text = some (before, after)) : text = before ++ token ++ after := by
  induction text generalizing before after with
  | nil =>
    rw [cut] at h
    split at h <;> simp_all
  | cons c rest ih =>
    rw [cut] at h
    split at h
    · next hp =>
      obtain ⟨u, hu⟩ := hp
      simp only [Option.some.injEq, Prod.mk.injEq] at h
      obtain ⟨rfl, rfl⟩ := h
      simp [← hu]
    · obtain ⟨⟨b, a⟩, hc, he⟩ := Option.map_eq_some_iff.1 h
      simp only [Prod.mk.injEq] at he
      obtain ⟨rfl, rfl⟩ := he
      simp [ih hc]

theorem has_iff {token text : Text} : has token text = true ↔ token <:+: text := by
  induction text with
  | nil => by_cases h : token = [] <;> simp [has, cut, h]
  | cons c rest ih =>
    rw [List.infix_cons_iff, ← ih, has, has, cut]
    split <;> simp_all

/-- The first position from `start` on where the token stands. -/
def find? (token text : Text) (start : Nat) : Option Nat :=
  (cut token (text.drop start)).map fun (before, _) => start + before.length

theorem find?_bounds {token text : Text} {start i : Nat} (ht : token ≠ [])
    (h : find? token text start = some i) : start ≤ i ∧ i + token.length ≤ text.length := by
  obtain ⟨⟨before, after⟩, hc, rfl⟩ := Option.map_eq_some_iff.1 h
  have hlen := congrArg List.length (cut_eq_append hc)
  have hpos := List.length_pos_iff.2 ht
  simp only [List.length_drop, List.length_append] at hlen ⊢
  omega

/-- The token stands at position `start`; a position below zero counts from the end, and one past
the end matches nothing, not even the empty token. -/
def matchesAt (text : Text) (start : Int) (token : Text) : Bool :=
  let start := if start < 0 then (start + text.length).toNat else start.toNat
  token.isPrefixOf (text.drop start) && start ≤ text.length

theorem matchesAt_bound {text token : Text} {start : Int} (h0 : 0 ≤ start)
    (h : matchesAt text start token = true) : start + token.length ≤ text.length := by
  simp only [matchesAt, Int.not_lt.2 h0, if_false, Bool.and_eq_true, decide_eq_true_eq,
    List.isPrefixOf_iff_prefix] at h
  have := h.1.length_le
  simp only [List.length_drop] at this
  omega

/-- The parts of a text between marks, one more than there are marks. -/
def splitAtChar (mark : Char) : Text → List Text
  | [] => [[]]
  | c :: rest =>
    if c = mark then [] :: splitAtChar mark rest
    else
      match splitAtChar mark rest with
      | [] => [[c]]
      | part :: parts => (c :: part) :: parts

/-- Texts in a row with a mark between neighbours. -/
def join (mark : Text) : List Text → Text
  | [] => []
  | [text] => text
  | text :: more => text ++ mark ++ join mark more

/-- The text without a byte order mark in front. -/
def dropMark : Text → Text
  | '\uFEFF' :: rest => rest
  | text => text

/-- Letters of the basic alphabet in lower case; all else stays. -/
def lowerBasic (text : Text) : Text := text.map Char.toLower

/-- The number of bytes that the text takes in UTF-8. -/
def byteLength (text : Text) : Nat := text.foldl (fun size c => size + c.utf8Size) 0

/-- A natural number in decimal digits. -/
def ofNat (n : Nat) : Text := Nat.toDigits 10 n

/-- An integer in decimal digits, with a minus sign if it is negative. -/
def ofInt (n : Int) : Text := if n < 0 then '-' :: ofNat n.natAbs else ofNat n.natAbs

end Text
end ConfigText
