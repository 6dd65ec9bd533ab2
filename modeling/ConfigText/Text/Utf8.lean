import ConfigText.Text.Quoted

/-!
UTF-8: the text that bytes write, or the first place where they write none. A character of more
than one byte begins with a byte that says how many follow; some first bytes allow only a part of
the continuation bytes right behind them.
-/

namespace ConfigText.Text

/-- Why bytes do not go on as a character. -/
inductive Utf8Reason
  | startByte
  | continuationByte
  | endOfData
  deriving DecidableEq

def Utf8Reason.message : Utf8Reason → Text
  | startByte => "invalid start byte".toList
  | continuationByte => "invalid continuation byte".toList
  | endOfData => "unexpected end of data".toList

/-- The bytes from a position on that begin a character which does not go on. -/
structure Utf8Fault where
  position : Nat
  bytes : List UInt8
  reason : Utf8Reason
  deriving DecidableEq

def Utf8Fault.message (fault : Utf8Fault) : Text :=
  let place :=
    match fault.bytes with
    | [byte] =>
      "byte 0x".toList ++ hex 2 byte.toNat ++ " in position ".toList ++ ofNat fault.position
    | bytes =>
      "bytes in position ".toList ++ ofNat fault.position ++ ['-']
        ++ ofNat (fault.position + bytes.length - 1)
  "'utf-8' codec can't decode ".toList ++ place ++ [':', ' '] ++ fault.reason.message

/-- A character of which some bytes are read. -/
structure Utf8Part where
  bytes : List UInt8
  /-- The number that the bytes write. -/
  number : Nat
  /-- How many bytes are still to come, and the bounds of the next one. -/
  missing : Nat
  low : Nat
  high : Nat

namespace Utf8Part

/-- The part that a first byte makes. -/
def ofFirst (byte : UInt8) : Except Utf8Reason Utf8Part :=
  let n := byte.toNat
  let part (base missing low high : Nat) : Except Utf8Reason Utf8Part :=
    .ok ⟨[byte], n - base, missing, low, high⟩
  if n < 0x80 then part 0 0 0x80 0xBF
  else if n < 0xC2 then .error .startByte
  else if n < 0xE0 then part 0xC0 1 0x80 0xBF
  else if n = 0xE0 then part 0xE0 2 0xA0 0xBF
  else if n = 0xED then part 0xE0 2 0x80 0x9F
  else if n < 0xF0 then part 0xE0 2 0x80 0xBF
  else if n = 0xF0 then part 0xF0 3 0x90 0xBF
  else if n < 0xF4 then part 0xF0 3 0x80 0xBF
  else if n = 0xF4 then part 0xF0 3 0x80 0x8F
  else .error .startByte

/-- The part with a byte more. -/
def add (part : Utf8Part) (byte : UInt8) : Except Utf8Reason Utf8Part :=
  let n := byte.toNat
  if part.low ≤ n ∧ n ≤ part.high then
    .ok ⟨part.bytes ++ [byte], 0x40 * part.number + (n - 0x80), part.missing - 1, 0x80, 0xBF⟩
  else .error .continuationByte

/-- The fault of a part that does not go on at a position. -/
def fault (part : Utf8Part) (position : Nat) (reason : Utf8Reason) : Utf8Fault :=
  ⟨position - part.bytes.length, part.bytes, reason⟩

end Utf8Part

/-- The text that bytes write from a position on, behind the part of a character if there is
one. -/
def ofUtf8From (position : Nat) (part : Option Utf8Part) : List UInt8 → Except Utf8Fault Text
  | [] =>
    match part with
    | none => .ok []
    | some part => .error (part.fault position .endOfData)
  | byte :: more =>
    match part.elim (Utf8Part.ofFirst byte) (·.add byte) with
    | .error reason => .error (part.elim ⟨position, [byte], reason⟩ (·.fault position reason))
    | .ok next =>
      if next.missing = 0 then
        (ofUtf8From (position + 1) none more).map (Char.ofNat next.number :: ·)
      else ofUtf8From (position + 1) (some next) more

/-- The text that bytes write. -/
def ofUtf8 (bytes : List UInt8) : Except Utf8Fault Text := ofUtf8From 0 none bytes

/-- Bytes that write a text write one that is not empty, unless there are none. -/
theorem ne_nil_of_ofUtf8From {position : Nat} {part : Option Utf8Part} {bytes : List UInt8}
    {text : Text} (h : ofUtf8From position part bytes = .ok text)
    (hbytes : bytes ≠ [] ∨ part ≠ none) : text ≠ [] := by
  induction bytes generalizing position part text with
  | nil =>
    cases part with
    | none => simp at hbytes
    | some part => cases h
  | cons byte more ih =>
    rw [ofUtf8From] at h
    split at h
    · cases h
    · split at h
      · cases hmore : ofUtf8From (position + 1) none more with
        | error fault =>
          rw [hmore] at h
          cases h
        | ok rest =>
          rw [hmore] at h
          cases h
          exact List.cons_ne_nil _ _
      · exact ih h (.inr (Option.some_ne_none _))

theorem ne_nil_of_ofUtf8 {bytes : List UInt8} {text : Text} (h : ofUtf8 bytes = .ok text)
    (hbytes : bytes ≠ []) : text ≠ [] := ne_nil_of_ofUtf8From h (.inl hbytes)

end ConfigText.Text
