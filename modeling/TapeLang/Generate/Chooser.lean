/-!
# Choosers

A source generator makes its choices by asking a chooser: how long a part is
to be, which of several things comes next, one way or the other. A chooser
has an amount left, which no choice increases and which every choice of a
size uses up a little. Nothing else is asked of it, so what is shown of a
generator holds whatever the choices are.
-/

namespace TapeLang

/-- A state that choices can be drawn from. -/
class Chooser (σ : Type) where
  /-- The amount left to draw from. -/
  left : σ → Nat
  /-- Draws a size. -/
  size : σ → Nat × σ
  /-- Draws one of a number of things. -/
  choose : (count : Nat) → 0 < count → σ → Fin count × σ
  /-- Draws one of two things. -/
  toss : σ → Bool × σ
  /-- Draws a character. -/
  char : σ → Char × σ
  /-- A size is never drawn for nothing. -/
  left_size_lt : ∀ state, 0 < left state → left (size state).2 < left state
  /-- A choice never adds to what is left. -/
  left_choose_le : ∀ count pos state, left (choose count pos state).2 ≤ left state
  /-- Nor does a choice between two things. -/
  left_toss_le : ∀ state, left (toss state).2 ≤ left state

end TapeLang
