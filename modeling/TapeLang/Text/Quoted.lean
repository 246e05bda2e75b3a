import TapeLang.Text.DefaultIgnorable
import TapeLang.Text.GraphemeExtend
import TapeLang.Text.Unprintable

/-!
# Quoted characters

A message that names a character shows it between single quotes. Five
characters have a short escape, and so has the single quote itself, since it
would end the quotation. Any other character that would not show as itself,
because it extends a grapheme, is ignored in display or is unprintable, is
shown by its code point in hexadecimal.
-/

namespace TapeLang.Text

/-- The number in lower-case hexadecimal, without leading zeros. -/
def hex (n : Nat) : String := String.ofList (Nat.toDigits 16 n)

/-- The short escape of a character that has one. -/
def shortEscape? (c : Char) : Option String :=
  match c.toNat with
  | 0x00 => some "\\0"
  | 0x09 => some "\\t"
  | 0x0a => some "\\n"
  | 0x0d => some "\\r"
  | 0x27 => some "\\'"
  | 0x5c => some "\\\\"
  | _ => none

/-- Whether a character, standing alone, would not show as itself. -/
def isHidden (c : Char) : Bool :=
  graphemeExtend.contains c || defaultIgnorable.contains c || unprintable.contains c

/-- A character as it stands between the quotes. -/
def escaped (c : Char) : String :=
  match shortEscape? c with
  | some short => short
  | none =>
    if isHidden c then "\\u\x7b" ++ hex c.toNat ++ "\x7d" else c.toString

/-- A character in single quotes. -/
def quoted (c : Char) : String := "'" ++ escaped c ++ "'"

end TapeLang.Text
