import ConfigText.Config

/-!
Where a placeholder ends. Behind an opener the text is read from left to right, brackets are
counted up and closers down, and the closer that finds no bracket open is the end.
-/

namespace ConfigText.Config

variable (c : Config)

/-- The position of the closer that balances `depth` more openings than closings, looking from
`start` on. A closer goes before a bracket, a bracket before a single character. -/
def closerFrom (text : Text) (depth : Nat) (start : Int) : Int :=
  if start < text.length then
    if Text.matchesAt text start c.closer then
      match depth with
      | 0 => start
      | depth + 1 => closerFrom text depth (start + c.closer.length)
    else if Text.matchesAt text start c.bracket then
      closerFrom text (depth + 1) (start + c.bracket.length)
    else closerFrom text depth (start + 1)
  else -1
termination_by (text.length - start).toNat
decreasing_by
  · have := List.length_pos_iff.2 c.closer_ne
    omega
  · have := List.length_pos_iff.2 c.bracket_ne
    omega
  · omega

/-- The position of the closer of the placeholder whose opener stands at `start`, or -1. -/
def findEnd (text : Text) (start : Int) : Int :=
  c.closerFrom text 0 (start + c.opener.length)

/-- The position of the closer of the placeholder whose opener stands at `start`, if there is
one. -/
def end? (text : Text) (start : Nat) : Option Nat :=
  let stop := c.findEnd text start
  if stop = -1 then none else some stop.toNat

theorem closerFrom_bounds {text : Text} {depth : Nat} {start : Int} (h0 : 0 ≤ start)
    (h : c.closerFrom text depth start ≠ -1) :
    start ≤ c.closerFrom text depth start ∧
      c.closerFrom text depth start + c.closer.length ≤ text.length := by
  fun_induction c.closerFrom text depth start with
  | case1 start _ hc =>
    have := Text.matchesAt_bound h0 hc
    omega
  | case2 start _ _ depth ih =>
    have := ih (by omega) h
    omega
  | case3 depth start _ _ _ ih =>
    have := ih (by omega) h
    omega
  | case4 depth start _ _ _ ih =>
    have := ih (by omega) h
    omega
  | case5 => exact absurd rfl h

theorem end?_bounds {text : Text} {start stop : Nat} (h : c.end? text start = some stop) :
    start + c.opener.length ≤ stop ∧ stop + c.closer.length ≤ text.length := by
  simp only [end?, Option.ite_none_left_eq_some, Option.some.injEq] at h
  obtain ⟨hne, rfl⟩ := h
  have := c.closerFrom_bounds (by omega) hne
  simp only [findEnd] at this ⊢
  omega

end ConfigText.Config
