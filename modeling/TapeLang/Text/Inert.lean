import TapeLang.Text.Quoted

/-!
# Inert text

A terminal obeys some characters instead of showing them. Text that comes from
outside and is meant for a reader must not give such orders, so these
characters are replaced by their escapes. Line ends, tabs and the control
characters that do no harm stay.
-/

namespace TapeLang.Text

/-- The ASCII characters that a terminal may obey: bell, backspace, form feed, escape, delete. -/
def isTerminalControl (c : Char) : Bool :=
  [0x07, 0x08, 0x0c, 0x1b, 0x7f].contains c.toNat

/-- The second block of control characters, which stand for escape sequences of two characters. -/
def isSecondControl (c : Char) : Bool :=
  decide (0x80 ≤ c.toNat) && decide (c.toNat ≤ 0x9f)

/-- The number of a character below 256 in two hexadecimal digits. -/
def hexPair (c : Char) : String :=
  String.ofList [Nat.digitChar (c.toNat / 16), Nat.digitChar (c.toNat % 16)]

/-- A character, or its escape if a terminal may obey it. -/
def inertChar (c : Char) : String :=
  if isTerminalControl c then "\\x" ++ hexPair c
  else if isSecondControl c then "\\u\x7b" ++ hex c.toNat ++ "\x7d"
  else c.toString

/-- A text without power over a terminal. -/
def inert (text : String) : String := String.join (text.toList.map inertChar)

end TapeLang.Text
