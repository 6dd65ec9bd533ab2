import ConfigText.Text

/-!
How placeholders are written and how far they are followed: the marks around a key, the mark in
front of a default, what happens to a key without a value, and a limit on nesting.
-/

namespace ConfigText

/-- The bracket that a closing bracket closes. -/
def openingBracket : Text → Option Text
  | ['}'] => some ['{']
  | [']'] => some ['[']
  | [')'] => some ['(']
  | _ => none

/-- The token that opens a nested level: a single bracket where the closer is a bracket and the
opener ends in its partner, else the whole opener. -/
def bracketOf (opener closer : Text) : Text :=
  match openingBracket closer with
  | some bracket => if bracket <:+ opener then bracket else opener
  | none => opener

theorem bracketOf_suffix (opener closer : Text) : bracketOf opener closer <:+ opener := by
  unfold bracketOf
  split
  · split
    · assumption
    · exact List.suffix_rfl
  · exact List.suffix_rfl

theorem openingBracket_ne_nil {closer bracket : Text} (h : openingBracket closer = some bracket) :
    bracket ≠ [] := by
  unfold openingBracket at h
  split at h <;> simp_all <;> simp [← h]

theorem bracketOf_ne_nil {opener : Text} (closer : Text) (h : opener ≠ []) :
    bracketOf opener closer ≠ [] := by
  unfold bracketOf
  split
  · next hb =>
    split
    · exact openingBracket_ne_nil hb
    · exact h
  · exact h

structure Config where
  /-- The mark that opens a placeholder. -/
  opener : Text
  /-- The mark that closes it. -/
  closer : Text
  /-- The mark between a name and its default. -/
  separator : Option Text
  /-- Placeholders without a value stay in the text. -/
  lenient : Bool
  /-- How deep placeholders may nest. -/
  maxDepth : Option Nat
  /-- The token that opens a nested level, which the opener ends in. -/
  bracket : Text
  opener_ne : opener ≠ []
  closer_ne : closer ≠ []
  bracket_ne : bracket ≠ []
  bracket_suffix : bracket <:+ opener

/-- A key cut at the first separator into name and default. No separator and an empty separator
both cut nothing. -/
def splitDefault (separator : Option Text) (key : Text) : Text × Option Text :=
  match separator with
  | none | some [] => (key, none)
  | some mark =>
    match Text.cut mark key with
    | none => (key, none)
    | some (name, default) => (name, some default)

namespace Config

variable (c : Config)

/-- The key's name and its default. -/
def split (key : Text) : Text × Option Text := splitDefault c.separator key

/-- Marks around a key. -/
def enclose (key : Text) : Text := c.opener ++ key ++ c.closer

/-- The text holds an opener, so something in it may have to be replaced. -/
def opens (text : Text) : Bool := Text.has c.opener text

end Config
end ConfigText
