import TapeLang.Generate.Chooser

/-!
# Choices from a buffer of bytes

A buffer of bytes supplies choices from both ends: sizes come from its end,
everything else from its start. So a small change at the start of a buffer
changes what is chosen but not how much of it. When the buffer runs out,
missing bytes count as zero.

## Main results

* `ByteSource.littleEndian_lt` — a number of `n` bytes is below the `n`th power of
  256, which keeps every choice in its range.
-/

namespace TapeLang

/-- The bytes that choices have not used up. -/
structure ByteSource where
  /-- The bytes in order. -/
  bytes : List UInt8
  deriving DecidableEq, Repr

namespace ByteSource

/-! ## Numbers -/

/-- The number whose bytes stand in order from the lowest. -/
def littleEndian (bytes : List UInt8) : Nat :=
  bytes.foldr (fun byte value => byte.toNat + 256 * value) 0

/-- The number whose bytes stand in order from the highest. -/
def bigEndian (bytes : List UInt8) : Nat :=
  bytes.foldl (fun value byte => 256 * value + byte.toNat) 0

theorem littleEndian_lt (bytes : List UInt8) : littleEndian bytes < Nat.pow 256 bytes.length := by
  induction bytes with
  | nil => simp [littleEndian]
  | cons byte rest ih =>
      have hByte : byte.toNat < 256 := byte.toNat_lt
      have hStep : littleEndian (byte :: rest) = byte.toNat + 256 * littleEndian rest := rfl
      have hPow : Nat.pow 256 (byte :: rest).length = Nat.pow 256 rest.length * 256 := rfl
      rw [hStep, hPow]
      omega

/-- A number of at most `width` bytes from the start of the bytes. -/
theorem littleEndian_take_lt (width : Nat) (bytes : List UInt8) :
    littleEndian (bytes.take width) < Nat.pow 256 width :=
  Nat.lt_of_lt_of_le (littleEndian_lt _)
    (Nat.pow_le_pow_right (by decide) (List.length_take_le width bytes))

/-- The number of bytes that a number takes; zero takes none. -/
def byteCount (n : Nat) : Nat := if n = 0 then 0 else n.log2 / 8 + 1

/-! ## Choices from the start -/

/-- A number of a width in bytes, from the start of the buffer. -/
def word (width : Nat) (source : ByteSource) : Nat × ByteSource :=
  (littleEndian (source.bytes.take width), ⟨source.bytes.drop width⟩)

/-- One of a number of things, all about equally likely. -/
def choose (count : Nat) (pos : 0 < count) (source : ByteSource) : Fin count × ByteSource :=
  have hLess : littleEndian (source.bytes.take 4) * count / 0x100000000 < count := by
    rw [Nat.div_lt_iff_lt_mul (by decide), Nat.mul_comm]
    exact Nat.mul_lt_mul_of_pos_left (littleEndian_take_lt 4 source.bytes) pos
  (⟨(source.word 4).1 * count / 0x100000000, hLess⟩, (source.word 4).2)

/-- One of two things, by the parity of a byte. -/
def toss (source : ByteSource) : Bool × ByteSource :=
  match source.word 1 with
  | (value, source) => (value % 2 == 1, source)

/-- Any character. A number that would fall among the surrogates is taken from the first ones. -/
def char (source : ByteSource) : Char × ByteSource :=
  match source.word 4 with
  | (value, source) =>
    let point := value % 0x110000
    if 0xd800 ≤ point ∧ point ≤ 0xdfff then (Char.ofNat (point - 0xd800), source)
    else (Char.ofNat point, source)

/-! ## Sizes from the end -/

/--
The number of bytes that a size is given at the end of a buffer of a length: one, two,
four or eight, and more only for a length that does not fit in eight bytes itself.
-/
def sizeWidth (length : Nat) : Nat :=
  if length ≤ 256 then 1
  else if length ≤ 65537 then 2
  else if length ≤ 4294967299 then 4
  else 8 + (byteCount length - 8)

theorem sizeWidth_pos (length : Nat) : 0 < sizeWidth length := by
  unfold sizeWidth
  repeat' split
  all_goals omega

/--
A size of at most the number of bytes that are left after it. Of the bytes
taken from the end only as many count as that number itself has.
-/
def size (source : ByteSource) : Nat × ByteSource :=
  let length := source.bytes.length - sizeWidth source.bytes.length
  let taken := source.bytes.drop length
  (bigEndian (taken.take (byteCount length)) % (length + 1), ⟨source.bytes.take length⟩)

instance : Chooser ByteSource where
  left source := source.bytes.length
  size := size
  choose := choose
  toss := toss
  char := char
  left_size_lt source hPos := by
    have hWidth := sizeWidth_pos source.bytes.length
    simp only [size, List.length_take]
    omega
  left_choose_le count pos source := by simp [choose, word]
  left_toss_le source := by simp [toss, word]

end ByteSource

end TapeLang
