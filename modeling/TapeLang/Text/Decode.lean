/-!
# Text from bytes

Any bytes can be read as UTF-8. Where they are not well formed, each longest
piece that begins like a character and breaks off gives one replacement
character, and so does each byte with which no character begins.

A character is a lead byte and a number of trailing bytes. The lead byte
fixes that number and the range of each trailing byte; the first of them has
a narrower range where a shorter form, a surrogate or a number above the last
code point must be kept out.
-/

namespace TapeLang.Text

/-- The character that stands for bytes without a meaning. -/
def replacement : Char := '\ufffd'

/-- An inclusive range of bytes. -/
structure ByteRange where
  /-- The first byte of the range. -/
  first : UInt8
  /-- The last byte of the range. -/
  last : UInt8
  deriving DecidableEq, Repr

namespace ByteRange

/-- Whether a byte is in the range. -/
def contains (range : ByteRange) (byte : UInt8) : Bool :=
  decide (range.first ≤ byte) && decide (byte ≤ range.last)

/-- All trailing bytes. -/
def trailing : ByteRange := ⟨0x80, 0xbf⟩

end ByteRange

/-- The ranges of the trailing bytes after a lead byte; not every byte is a lead byte. -/
def trailingRanges? (lead : UInt8) : Option (List ByteRange) :=
  if lead < 0x80 then some []
  else if lead < 0xc2 then none
  else if lead < 0xe0 then some [.trailing]
  else if lead = 0xe0 then some [⟨0xa0, 0xbf⟩, .trailing]
  else if lead = 0xed then some [⟨0x80, 0x9f⟩, .trailing]
  else if lead < 0xf0 then some [.trailing, .trailing]
  else if lead = 0xf0 then some [⟨0x90, 0xbf⟩, .trailing, .trailing]
  else if lead < 0xf4 then some [.trailing, .trailing, .trailing]
  else if lead = 0xf4 then some [⟨0x80, 0x8f⟩, .trailing, .trailing]
  else none

/-- How many bytes from the start fall into the ranges set for them. -/
def fitting : List ByteRange → List UInt8 → Nat
  | range :: ranges, byte :: bytes =>
    if range.contains byte then fitting ranges bytes + 1 else 0
  | _, _ => 0

/-- The code point that a lead byte and its trailing bytes give. -/
def codePoint (lead : UInt8) : List UInt8 → Nat
  | [] => lead.toNat
  | trailing =>
    trailing.foldl (fun value byte => value * 64 + byte.toNat % 64)
      (lead.toNat % (64 >>> trailing.length))

/-- The character at the start of bytes, and how many of them it takes after the first. -/
def decodeFirst (lead : UInt8) (rest : List UInt8) : Char × Nat :=
  match trailingRanges? lead with
  | none => (replacement, 0)
  | some ranges =>
    let count := fitting ranges rest
    if count = ranges.length then (Char.ofNat (codePoint lead (rest.take count)), count)
    else (replacement, count)

/-- Adds the text of bytes to a text. -/
def decodeOnto (text : String) : List UInt8 → String
  | [] => text
  | lead :: rest =>
    let first := decodeFirst lead rest
    decodeOnto (text.push first.1) (rest.drop first.2)
termination_by bytes => bytes.length
decreasing_by
  simp only [List.length_drop, List.length_cons]
  omega

/-- The text of bytes, with replacements where they are not well formed. -/
def decode (bytes : List UInt8) : String := decodeOnto "" bytes

end TapeLang.Text
