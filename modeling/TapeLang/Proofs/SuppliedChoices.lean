import TapeLang.Generate.ByteSource
import TapeLang.Generate.Nested

/-!
# Buffers that supply given choices

Choices are drawn from a buffer of bytes one after the other, and each takes its bytes
away.  Read backwards: in front of what is to be left, or behind it, bytes can be put
that make a given choice.  So a buffer for given choices is built from the last choice
to the first.

For operations and tosses that is a matter of one to four bytes at the start.  A size
takes its bytes from the end, and how many they are depends on the length of the whole
buffer, these bytes included.  Behind any bytes there is a width that fits
(`ByteSource.exists_sizeWidth_eq`), and then every size up to the number of bytes can be
written in it.

## Main results

* `Chooser.Supplies` — what it is to supply every choice of the generator of nested
  sources.
* `ByteSource.byteCount_le_iff` — how many bytes a number takes.
* `ByteSource.supplies` — buffers of bytes supply every choice.
-/

namespace TapeLang

/--
Every choice can be drawn with a given state left after it.  A size is at most the
amount left, a segment's operation takes what an operation costs.
-/
structure Chooser.Supplies (σ : Type) [Chooser σ] : Prop where
  size : ∀ (amount : Nat) (rest : σ), amount ≤ Chooser.left rest →
    ∃ source : σ, 0 < Chooser.left source ∧ Chooser.size source = (amount, rest)
  operation : ∀ (operation : Operation) (rest : σ), operation.isJump = false →
    ∃ source : σ, Chooser.left source = Chooser.left rest + Generate.operationCost ∧
      Generate.plainOperation source = (operation, rest)
  toss : ∀ (way : Bool) (rest : σ),
    ∃ source : σ, Chooser.left rest < Chooser.left source ∧ Chooser.toss source = (way, rest)

namespace ByteSource

/-! ## How many bytes a number takes -/

/-- A number takes at most so many bytes exactly if it is below that power of 256. -/
theorem byteCount_le_iff {n width : Nat} : byteCount n ≤ width ↔ n < Nat.pow 256 width := by
  have hPow : Nat.pow 256 width = 2 ^ (8 * width) := by
    rw [Nat.pow_mul]
    rfl
  rw [hPow, byteCount]
  by_cases hZero : n = 0
  · rw [if_pos hZero, hZero]
    exact ⟨fun _ => Nat.two_pow_pos _, fun _ => Nat.zero_le _⟩
  · rw [if_neg hZero, ← Nat.log2_lt hZero]
    omega

theorem byteCount_mono {m n : Nat} (h : m ≤ n) : byteCount m ≤ byteCount n :=
  byteCount_le_iff.2 (Nat.lt_of_le_of_lt h (byteCount_le_iff.1 (Nat.le_refl _)))

/-- A number in a width of bytes, in order from the highest. -/
def bytesOf : (width : Nat) → Nat → List UInt8
  | 0, _ => []
  | width + 1, n => bytesOf width (n / 256) ++ [UInt8.ofNat n]

theorem length_bytesOf (width : Nat) : ∀ n : Nat, (bytesOf width n).length = width := by
  induction width with
  | zero => intro n; rfl
  | succ width ih => intro n; rw [bytesOf, List.length_append, ih, List.length_singleton]

theorem bigEndian_concat (bytes : List UInt8) (byte : UInt8) :
    bigEndian (bytes ++ [byte]) = 256 * bigEndian bytes + byte.toNat := by
  simp [bigEndian]

/-- A number that fits is read back from its bytes. -/
theorem bigEndian_bytesOf (width : Nat) :
    ∀ {n : Nat}, n < Nat.pow 256 width → bigEndian (bytesOf width n) = n := by
  induction width with
  | zero =>
      intro n h
      have hZero : n = 0 := Nat.lt_one_iff.1 h
      rw [hZero]
      rfl
  | succ width ih =>
      intro n h
      have hPow : Nat.pow 256 (width + 1) = Nat.pow 256 width * 256 := rfl
      rw [hPow] at h
      have hHigh : n / 256 < Nat.pow 256 width := by omega
      rw [bytesOf, bigEndian_concat, ih hHigh, UInt8.toNat_ofNat']
      omega

/-! ## Sizes at the end -/

/--
Behind any number of bytes a size can be put, in a width that is right for both
together.
-/
theorem exists_sizeWidth_eq (length : Nat) :
    ∃ width : Nat, byteCount length ≤ width ∧ sizeWidth (length + width) = width := by
  by_cases hOne : length < 256
  · exact ⟨1, byteCount_le_iff.2 hOne, if_pos (by omega)⟩
  by_cases hTwo : length < 65536
  · refine ⟨2, byteCount_le_iff.2 hTwo, ?_⟩
    rw [sizeWidth, if_neg (by omega), if_pos (by omega)]
  by_cases hFour : length < 4294967296
  · refine ⟨4, byteCount_le_iff.2 hFour, ?_⟩
    rw [sizeWidth, if_neg (by omega), if_neg (by omega), if_pos (by omega)]
  have hWide : ∀ width : Nat, 8 ≤ width →
      sizeWidth (length + width) = 8 + (byteCount (length + width) - 8) := by
    intro width hWidth
    rw [sizeWidth, if_neg (by omega), if_neg (by omega), if_neg (by omega)]
  obtain ⟨width, hWidth⟩ : ∃ width, width = 8 + (byteCount length - 8) := ⟨_, rfl⟩
  have hFits : length < Nat.pow 256 width := byteCount_le_iff.1 (by omega)
  by_cases hEnough : byteCount (length + width) ≤ width
  · refine ⟨width, by omega, ?_⟩
    have hMore := byteCount_mono (Nat.le_add_right length width)
    rw [hWide width (by omega)]
    omega
  · -- the width itself carries the length over a power of 256, so one byte more is enough
    refine ⟨width + 1, by omega, ?_⟩
    have hMore : byteCount (length + width) ≤ byteCount (length + (width + 1)) :=
      byteCount_mono (Nat.le_succ _)
    have hNext : byteCount (length + (width + 1)) ≤ width + 1 := by
      have hSmall : width < Nat.pow 256 width := Nat.lt_pow_self (by decide)
      have hPow : Nat.pow 256 (width + 1) = Nat.pow 256 width * 256 := rfl
      rw [byteCount_le_iff, hPow]
      omega
    rw [hWide (width + 1) (by omega)]
    omega

/-- Every size up to the number of bytes can be drawn with these bytes left. -/
theorem exists_size_eq (amount : Nat) (rest : ByteSource) (h : amount ≤ rest.bytes.length) :
    ∃ source : ByteSource, 0 < source.bytes.length ∧ source.size = (amount, rest) := by
  obtain ⟨width, hCount, hWidth⟩ := exists_sizeWidth_eq rest.bytes.length
  have hPos := sizeWidth_pos (rest.bytes.length + width)
  have hFits : amount < Nat.pow 256 (byteCount rest.bytes.length) :=
    Nat.lt_of_le_of_lt h (byteCount_le_iff.1 (Nat.le_refl _))
  -- the size comes first in its width, and what is left of the width does not count
  let taken := bytesOf (byteCount rest.bytes.length) amount ++
    List.replicate (width - byteCount rest.bytes.length) 0
  have hTaken : taken.length = width := by
    rw [List.length_append, length_bytesOf, List.length_replicate]
    omega
  have hValue : bigEndian (taken.take (byteCount rest.bytes.length)) = amount := by
    rw [List.take_left' (length_bytesOf _ _), bigEndian_bytesOf _ hFits]
  have hLength : (rest.bytes ++ taken).length = rest.bytes.length + width := by
    rw [List.length_append, hTaken]
  refine ⟨⟨rest.bytes ++ taken⟩, ?_, ?_⟩
  · show 0 < (rest.bytes ++ taken).length
    omega
  · simp only [size, hLength, hWidth, Nat.add_sub_cancel, List.drop_left, List.take_left, hValue]
    rw [Nat.mod_eq_of_lt (Nat.lt_succ_of_le h)]

/-! ## Operations and tosses at the start -/

/-- The highest of the four bytes that choose one of six things; the others are zero. -/
def choiceByte (choice : Fin 6) : UInt8 := UInt8.ofNat ((choice.val * 256 + 5) / 6)

theorem choose_choiceByte (choice : Fin 6) (rest : List UInt8) :
    choose 6 (by decide) ⟨0 :: 0 :: 0 :: choiceByte choice :: rest⟩ = (choice, ⟨rest⟩) := by
  have hValue : ∀ choice : Fin 6,
      littleEndian [0, 0, 0, choiceByte choice] * 6 / 0x100000000 = choice.val := by decide
  have hChoice : (choose 6 (by decide) ⟨0 :: 0 :: 0 :: choiceByte choice :: rest⟩).1 = choice :=
    Fin.ext (hValue choice)
  exact Prod.ext hChoice rfl

theorem toss_cons (way : Bool) (rest : List UInt8) :
    toss ⟨(if way then 1 else 0) :: rest⟩ = (way, ⟨rest⟩) := by
  cases way <;> rfl

/-- A buffer of bytes can be made to supply every choice. -/
theorem supplies : Chooser.Supplies ByteSource where
  size := exists_size_eq
  operation := by
    intro operation rest hPlain
    have hSix : operation.index.val < 6 := by
      cases operation with
      | jumpIfZero => cases hPlain
      | jumpIfNonZero => cases hPlain
      | _ => decide
    refine ⟨⟨0 :: 0 :: 0 :: choiceByte ⟨operation.index.val, hSix⟩ :: rest.bytes⟩, rfl, ?_⟩
    have hChosen := choose_choiceByte ⟨operation.index.val, hSix⟩ rest.bytes
    show (Operation.ofIndex ((choose 6 (by decide) _).1.castLE (by decide)),
      (choose 6 (by decide) _).2) = (operation, rest)
    rw [hChosen]
    exact Prod.ext operation.ofIndex_index rfl
  toss := by
    intro way rest
    exact ⟨⟨(if way then 1 else 0) :: rest.bytes⟩, Nat.lt_succ_self _, toss_cons way rest.bytes⟩

end ByteSource

end TapeLang
