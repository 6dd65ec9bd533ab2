import ConfigText.Span
import ConfigText.Text.Blank

/-!
The placeholders of a text with their positions, and what is wrong with the text: openers that
nothing closes, and placeholders whose name is blank.
-/

namespace ConfigText

/-- A placeholder that lies in a text and not inside another one. -/
structure Placeholder where
  /-- What stands between the marks. -/
  key : Text
  /-- The key up to the first separator. -/
  name : Text
  /-- The key behind the first separator. -/
  default : Option Text
  /-- The placeholder with its marks. -/
  whole : Text
  /-- Where the opener starts. -/
  start : Nat
  /-- Where the closer ends. -/
  stop : Nat
  /-- The key holds an opener itself. -/
  nested : Bool
  deriving DecidableEq

/-- What is wrong with a text, by position. -/
structure Validation where
  /-- Openers that nothing closes. -/
  unterminated : List Nat
  /-- Placeholders with a blank name. -/
  nameless : List Nat
  deriving DecidableEq

namespace Config

variable (c : Config)

/-- The key of the placeholder with its opener at `start` and its closer at `stop`. -/
def keyBetween (text : Text) (start stop : Nat) : Text :=
  text.extract (start + c.opener.length) stop

/-- The placeholder with its opener at `start` and its closer at `stop`. -/
def placeholderBetween (text : Text) (start stop : Nat) : Placeholder where
  key := c.keyBetween text start stop
  name := (c.split (c.keyBetween text start stop)).1
  default := (c.split (c.keyBetween text start stop)).2
  whole := text.extract start (stop + c.closer.length)
  start := start
  stop := stop + c.closer.length
  nested := c.opens (c.keyBetween text start stop)

/-- The placeholders of a text from a position on. An opener that nothing closes is passed over. -/
def placeholdersFrom (text : Text) (position : Nat) : List Placeholder :=
  match _hs : Text.find? c.opener text position with
  | none => []
  | some start =>
    match _he : c.end? text start with
    | none => placeholdersFrom text (start + c.opener.length)
    | some stop =>
      c.placeholderBetween text start stop :: placeholdersFrom text (stop + c.closer.length)
termination_by text.length - position
decreasing_by
  · have := Text.find?_bounds c.opener_ne _hs
    have := List.length_pos_iff.2 c.opener_ne
    omega
  · have := Text.find?_bounds c.opener_ne _hs
    have := c.end?_bounds _he
    have := List.length_pos_iff.2 c.closer_ne
    omega

/-- The placeholders of a text, from left to right. -/
def placeholders (text : Text) : List Placeholder := c.placeholdersFrom text 0

/-- The text holds a placeholder. -/
def hasPlaceholders (text : Text) : Bool := !(c.placeholders text).isEmpty

/-- What is wrong with a text from a position on. -/
def validateFrom (text : Text) (position : Nat) : Validation :=
  match _hs : Text.find? c.opener text position with
  | none => ⟨[], []⟩
  | some start =>
    match _he : c.end? text start with
    | none =>
      let rest := validateFrom text (start + c.opener.length)
      { rest with unterminated := start :: rest.unterminated }
    | some stop =>
      let rest := validateFrom text (stop + c.closer.length)
      if Text.allBlank (c.split (c.keyBetween text start stop)).1 then
        { rest with nameless := start :: rest.nameless }
      else rest
termination_by text.length - position
decreasing_by
  · have := Text.find?_bounds c.opener_ne _hs
    have := List.length_pos_iff.2 c.opener_ne
    omega
  · have := Text.find?_bounds c.opener_ne _hs
    have := c.end?_bounds _he
    have := List.length_pos_iff.2 c.closer_ne
    omega

def validate (text : Text) : Validation := c.validateFrom text 0

end Config

namespace Validation

/-- Blank names are tolerated, missing closers are not. -/
def valid (v : Validation) : Bool := v.unterminated.isEmpty

def errors (c : Config) (v : Validation) : List Text :=
  v.unterminated.map fun start =>
    "Unterminated placeholder at position ".toList ++ Text.ofNat start ++ ": missing '".toList
      ++ c.closer ++ "'".toList

def warnings (v : Validation) : List Text :=
  v.nameless.map fun start => "Empty placeholder name at position ".toList ++ Text.ofNat start

end Validation
end ConfigText
