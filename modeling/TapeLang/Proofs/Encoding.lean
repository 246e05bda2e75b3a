import Mathlib.Data.List.Basic
import TapeLang.Text.Decode

/-!
# Characters as bytes

Which bytes make up a character can be said in two ways: by encoding the
character, and by the table of lead bytes and ranges from which bytes are read.
`Formed` says it a third way, by the number of trailing bytes, and the two
others are proved to come to that.  So a character is read off its own bytes,
whatever stands behind them (`decodeFirst_encode`).

From this follows what makes it safe to look for symbols in raw bytes: no
character's bytes are the beginning of another one's, and none begin with a
trailing byte.

## Main results

* `exists_formed`, `Formed.exists_char` — the bytes of characters are exactly
  the well-formed ones.
* `formed_of_fitting`, `Formed.exists_ranges` — so are the bytes that the table
  takes in full.
* `exists_prefix_encode_iff` — which bytes are the beginning of a character.
* `decodeFirst_encode` — reading is the inverse of encoding.
* `eq_of_encode_prefix`, `not_encode_prefix_of_isTrailing` — where the bytes of
  a character can begin.
-/

namespace TapeLang.Text

/-- A byte that can stand behind the first byte of a character. -/
def IsTrailing (byte : UInt8) : Prop := 0x80 ≤ byte.toNat ∧ byte.toNat ≤ 0xbf

/-- A lead byte and trailing bytes that make up a character, by the number of trailing bytes. -/
inductive Formed (lead : UInt8) : List UInt8 → Prop where
  | one (hLead : lead.toNat < 0x80) : Formed lead []
  | two {first : UInt8} (hLead : 0xc2 ≤ lead.toNat ∧ lead.toNat ≤ 0xdf)
      (hFirst : IsTrailing first) : Formed lead [first]
  -- no shorter form, and no surrogate
  | three {first second : UInt8} (hLead : 0xe0 ≤ lead.toNat ∧ lead.toNat ≤ 0xef)
      (hFirst : IsTrailing first) (hLong : lead.toNat = 0xe0 → 0xa0 ≤ first.toNat)
      (hSurrogate : lead.toNat = 0xed → first.toNat ≤ 0x9f) (hSecond : IsTrailing second) :
      Formed lead [first, second]
  -- no shorter form, and no number above the last code point
  | four {first second third : UInt8} (hLead : 0xf0 ≤ lead.toNat ∧ lead.toNat ≤ 0xf4)
      (hFirst : IsTrailing first) (hLong : lead.toNat = 0xf0 → 0x90 ≤ first.toNat)
      (hLast : lead.toNat = 0xf4 → first.toNat ≤ 0x8f) (hSecond : IsTrailing second)
      (hThird : IsTrailing third) : Formed lead [first, second, third]

theorem Formed.lead_cases {lead : UInt8} {trailing : List UInt8} (h : Formed lead trailing) :
    lead.toNat < 0x80 ∨ 0xc2 ≤ lead.toNat := by
  cases h <;> omega

theorem Formed.isTrailing {lead : UInt8} {trailing : List UInt8} (h : Formed lead trailing) :
    ∀ byte ∈ trailing, IsTrailing byte := by
  cases h <;> simp [*]

/-! ## Encoding -/

/-- The encoding of a character, in terms of its code point. -/
theorem utf8EncodeChar_eq (c : Char) :
    String.utf8EncodeChar c =
      if c.toNat ≤ 0x7f then [UInt8.ofNat c.toNat]
      else if c.toNat ≤ 0x7ff then
        [UInt8.ofNat (c.toNat / 64 % 32 + 192), UInt8.ofNat (c.toNat % 64 + 128)]
      else if c.toNat ≤ 0xffff then
        [UInt8.ofNat (c.toNat / 4096 % 16 + 224), UInt8.ofNat (c.toNat / 64 % 64 + 128),
          UInt8.ofNat (c.toNat % 64 + 128)]
      else
        [UInt8.ofNat (c.toNat / 262144 % 8 + 240), UInt8.ofNat (c.toNat / 4096 % 64 + 128),
          UInt8.ofNat (c.toNat / 64 % 64 + 128), UInt8.ofNat (c.toNat % 64 + 128)] := rfl

theorem exists_toNat_eq {n : Nat} (h : n < 0xd800 ∨ 0xdfff < n ∧ n < 0x110000) :
    ∃ c : Char, c.toNat = n :=
  ⟨Char.ofNatAux n h, rfl⟩

/-- A byte is fixed by its number. -/
theorem ofNat_eq_of_toNat {n : Nat} (byte : UInt8) (h : n = byte.toNat) : UInt8.ofNat n = byte := by
  rw [h, UInt8.ofNat_toNat]

theorem toNat_ofNat_of_lt {n : Nat} (h : n < 256) : (UInt8.ofNat n).toNat = n :=
  UInt8.toNat_ofNat_of_lt' h

theorem toNat_ofNat_trailing (n : Nat) : (UInt8.ofNat (n % 64 + 128)).toNat = n % 64 + 128 :=
  toNat_ofNat_of_lt (by omega)

theorem isTrailing_ofNat (n : Nat) : IsTrailing (UInt8.ofNat (n % 64 + 128)) := by
  unfold IsTrailing
  have h := toNat_ofNat_trailing n
  omega

theorem codePoint_two (lead first : UInt8) :
    codePoint lead [first] = lead.toNat % 32 * 64 + first.toNat % 64 := by
  simp [codePoint]

theorem codePoint_three (lead first second : UInt8) :
    codePoint lead [first, second] =
      (lead.toNat % 16 * 64 + first.toNat % 64) * 64 + second.toNat % 64 := by
  simp [codePoint]

theorem codePoint_four (lead first second third : UInt8) :
    codePoint lead [first, second, third] =
      ((lead.toNat % 8 * 64 + first.toNat % 64) * 64 + second.toNat % 64) * 64 +
        third.toNat % 64 := by
  simp [codePoint]

/-- The bytes of a character are well formed and give its number. -/
theorem exists_formed (c : Char) : ∃ (lead : UInt8) (trailing : List UInt8),
    String.utf8EncodeChar c = lead :: trailing ∧ Formed lead trailing ∧
      codePoint lead trailing = c.toNat := by
  have hValid : c.toNat < 0xd800 ∨ 0xdfff < c.toNat ∧ c.toNat < 0x110000 := c.valid
  have hEncode := utf8EncodeChar_eq c
  by_cases hOne : c.toNat ≤ 0x7f
  · rw [if_pos hOne] at hEncode
    have hLead : (UInt8.ofNat c.toNat).toNat = c.toNat := toNat_ofNat_of_lt (by omega)
    exact ⟨_, _, hEncode, .one (by omega), hLead⟩
  rw [if_neg hOne] at hEncode
  have hLast := toNat_ofNat_trailing c.toNat
  by_cases hTwo : c.toNat ≤ 0x7ff
  · rw [if_pos hTwo] at hEncode
    have hLead : (UInt8.ofNat (c.toNat / 64 % 32 + 192)).toNat = c.toNat / 64 % 32 + 192 :=
      toNat_ofNat_of_lt (by omega)
    refine ⟨_, _, hEncode, .two (by omega) (isTrailing_ofNat _), ?_⟩
    rw [codePoint_two, hLead, hLast]
    omega
  rw [if_neg hTwo] at hEncode
  have hMiddle := toNat_ofNat_trailing (c.toNat / 64)
  by_cases hThree : c.toNat ≤ 0xffff
  · rw [if_pos hThree] at hEncode
    have hLead : (UInt8.ofNat (c.toNat / 4096 % 16 + 224)).toNat = c.toNat / 4096 % 16 + 224 :=
      toNat_ofNat_of_lt (by omega)
    refine ⟨_, _, hEncode, .three (by omega) (isTrailing_ofNat _) (by omega) (by omega)
      (isTrailing_ofNat _), ?_⟩
    rw [codePoint_three, hLead, hMiddle, hLast]
    omega
  · rw [if_neg hThree] at hEncode
    have hFirst := toNat_ofNat_trailing (c.toNat / 4096)
    have hLead : (UInt8.ofNat (c.toNat / 262144 % 8 + 240)).toNat = c.toNat / 262144 % 8 + 240 :=
      toNat_ofNat_of_lt (by omega)
    refine ⟨_, _, hEncode, .four (by omega) (isTrailing_ofNat _) (by omega) (by omega)
      (isTrailing_ofNat _) (isTrailing_ofNat _), ?_⟩
    rw [codePoint_four, hLead, hFirst, hMiddle, hLast]
    omega

/-- What is well formed is the bytes of a character. -/
theorem Formed.exists_char {lead : UInt8} {trailing : List UInt8} (h : Formed lead trailing) :
    ∃ c : Char, String.utf8EncodeChar c = lead :: trailing := by
  cases h with
  | one hLead =>
      obtain ⟨c, hc⟩ := exists_toNat_eq (n := lead.toNat) (by omega)
      refine ⟨c, ?_⟩
      rw [utf8EncodeChar_eq, if_pos (by omega), ofNat_eq_of_toNat lead hc]
  | @two first hLead hFirst =>
      unfold IsTrailing at hFirst
      obtain ⟨c, hc⟩ := exists_toNat_eq (n := (lead.toNat - 192) * 64 + (first.toNat - 128))
        (by omega)
      refine ⟨c, ?_⟩
      rw [utf8EncodeChar_eq, if_neg (by omega), if_pos (by omega)]
      rw [ofNat_eq_of_toNat lead (by omega), ofNat_eq_of_toNat first (by omega)]
  | @three first second hLead hFirst hLong hSurrogate hSecond =>
      unfold IsTrailing at hFirst hSecond
      obtain ⟨c, hc⟩ := exists_toNat_eq
        (n := ((lead.toNat - 224) * 64 + (first.toNat - 128)) * 64 + (second.toNat - 128)) (by omega)
      refine ⟨c, ?_⟩
      rw [utf8EncodeChar_eq, if_neg (by omega), if_neg (by omega), if_pos (by omega)]
      rw [ofNat_eq_of_toNat lead (by omega), ofNat_eq_of_toNat first (by omega),
        ofNat_eq_of_toNat second (by omega)]
  | @four first second third hLead hFirst hLong hLast hSecond hThird =>
      unfold IsTrailing at hFirst hSecond hThird
      obtain ⟨c, hc⟩ := exists_toNat_eq
        (n := (((lead.toNat - 240) * 64 + (first.toNat - 128)) * 64 + (second.toNat - 128)) * 64 +
          (third.toNat - 128)) (by omega)
      refine ⟨c, ?_⟩
      rw [utf8EncodeChar_eq, if_neg (by omega), if_neg (by omega), if_neg (by omega)]
      rw [ofNat_eq_of_toNat lead (by omega), ofNat_eq_of_toNat first (by omega),
        ofNat_eq_of_toNat second (by omega), ofNat_eq_of_toNat third (by omega)]

/-! ## Bytes within their ranges -/

theorem ByteRange.contains_iff {range : ByteRange} {byte : UInt8} :
    range.contains byte = true ↔
      range.first.toNat ≤ byte.toNat ∧ byte.toNat ≤ range.last.toNat := by
  simp [contains, UInt8.le_iff_toNat_le]

@[simp] theorem fitting_nil_right (ranges : List ByteRange) : fitting ranges [] = 0 := by
  cases ranges <;> rfl

theorem fitting_le (ranges : List ByteRange) (bytes : List UInt8) :
    fitting ranges bytes ≤ ranges.length := by
  fun_induction fitting ranges bytes with
  | case1 range ranges byte bytes _ ih => simpa using ih
  | case2 => exact Nat.zero_le _
  | case3 => exact Nat.zero_le _

theorem fitting_le_length (ranges : List ByteRange) (bytes : List UInt8) :
    fitting ranges bytes ≤ bytes.length := by
  fun_induction fitting ranges bytes with
  | case1 range ranges byte bytes _ ih => simpa using ih
  | case2 => exact Nat.zero_le _
  | case3 => exact Nat.zero_le _

/-- What falls into its ranges does not depend on what comes behind it. -/
theorem fitting_take (ranges : List ByteRange) (bytes : List UInt8) (n : Nat) :
    fitting ranges (bytes.take n) = min n (fitting ranges bytes) := by
  induction ranges generalizing bytes n with
  | nil => simp [fitting]
  | cons range ranges ih =>
      cases bytes with
      | nil => simp
      | cons byte bytes =>
          cases n with
          | zero => simp
          | succ n =>
              rw [List.take_succ_cons, fitting, fitting, ih]
              by_cases h : range.contains byte
              · rw [if_pos h, if_pos h, Nat.add_min_add_right]
              · rw [if_neg h, if_neg h, Nat.min_zero]

/-- All ranges are met by a byte within them and the bytes after it. -/
theorem fitting_cons_eq_length {range : ByteRange} {ranges : List ByteRange} {byte : UInt8}
    {bytes : List UInt8} :
    fitting (range :: ranges) (byte :: bytes) = (range :: ranges).length ↔
      range.contains byte = true ∧ fitting ranges bytes = ranges.length := by
  rw [fitting, List.length_cons]
  by_cases h : range.contains byte <;> simp [h]

/-! ## The table -/

/-- The lead byte's row of the table, in numbers. -/
theorem trailingRanges?_eq (lead : UInt8) :
    trailingRanges? lead =
      if lead.toNat < 0x80 then some []
      else if lead.toNat < 0xc2 then none
      else if lead.toNat < 0xe0 then some [.trailing]
      else if lead.toNat = 0xe0 then some [⟨0xa0, 0xbf⟩, .trailing]
      else if lead.toNat = 0xed then some [⟨0x80, 0x9f⟩, .trailing]
      else if lead.toNat < 0xf0 then some [.trailing, .trailing]
      else if lead.toNat = 0xf0 then some [⟨0x90, 0xbf⟩, .trailing, .trailing]
      else if lead.toNat < 0xf4 then some [.trailing, .trailing, .trailing]
      else if lead.toNat = 0xf4 then some [⟨0x80, 0x8f⟩, .trailing, .trailing]
      else none := by
  simp [trailingRanges?, UInt8.lt_iff_toNat_lt, ← UInt8.toNat_inj]

/-- The range of all trailing bytes holds no others. -/
theorem contains_trailing {byte : UInt8} :
    ByteRange.trailing.contains byte = true ↔ IsTrailing byte := by
  simp [ByteRange.contains_iff, ByteRange.trailing, IsTrailing]

/-- The rows with two trailing bytes. -/
theorem trailingRanges?_three {lead : UInt8} (h : 0xe0 ≤ lead.toNat ∧ lead.toNat ≤ 0xef) :
    ∃ range : ByteRange, trailingRanges? lead = some [range, .trailing] ∧
      ∀ byte : UInt8, range.contains byte = true ↔ IsTrailing byte ∧
        (lead.toNat = 0xe0 → 0xa0 ≤ byte.toNat) ∧ (lead.toNat = 0xed → byte.toNat ≤ 0x9f) := by
  rw [trailingRanges?_eq, if_neg (by omega), if_neg (by omega), if_neg (by omega)]
  by_cases hLong : lead.toNat = 0xe0
  · refine ⟨⟨0xa0, 0xbf⟩, if_pos hLong, fun byte => ?_⟩
    simp [ByteRange.contains_iff, IsTrailing, hLong]
    omega
  by_cases hSurrogate : lead.toNat = 0xed
  · refine ⟨⟨0x80, 0x9f⟩, by rw [if_neg hLong, if_pos hSurrogate], fun byte => ?_⟩
    simp [ByteRange.contains_iff, IsTrailing, hSurrogate]
    omega
  · refine ⟨.trailing, by rw [if_neg hLong, if_neg hSurrogate, if_pos (by omega)], fun byte => ?_⟩
    simp [contains_trailing, hLong, hSurrogate]

/-- The rows with three trailing bytes. -/
theorem trailingRanges?_four {lead : UInt8} (h : 0xf0 ≤ lead.toNat ∧ lead.toNat ≤ 0xf4) :
    ∃ range : ByteRange, trailingRanges? lead = some [range, .trailing, .trailing] ∧
      ∀ byte : UInt8, range.contains byte = true ↔ IsTrailing byte ∧
        (lead.toNat = 0xf0 → 0x90 ≤ byte.toNat) ∧ (lead.toNat = 0xf4 → byte.toNat ≤ 0x8f) := by
  rw [trailingRanges?_eq, if_neg (by omega), if_neg (by omega), if_neg (by omega),
    if_neg (by omega), if_neg (by omega), if_neg (by omega)]
  by_cases hLong : lead.toNat = 0xf0
  · refine ⟨⟨0x90, 0xbf⟩, if_pos hLong, fun byte => ?_⟩
    simp [ByteRange.contains_iff, IsTrailing, hLong]
    omega
  by_cases hLast : lead.toNat = 0xf4
  · refine ⟨⟨0x80, 0x8f⟩, by rw [if_neg hLong, if_neg (by omega), if_pos hLast], fun byte => ?_⟩
    simp [ByteRange.contains_iff, IsTrailing, hLast]
    omega
  · refine ⟨.trailing, by rw [if_neg hLong, if_pos (by omega)], fun byte => ?_⟩
    simp [contains_trailing, hLong, hLast]

theorem trailingRanges?_two {lead : UInt8} (h : 0xc2 ≤ lead.toNat ∧ lead.toNat ≤ 0xdf) :
    trailingRanges? lead = some [.trailing] := by
  rw [trailingRanges?_eq, if_neg (by omega), if_neg (by omega), if_pos (by omega)]

theorem trailingRanges?_one {lead : UInt8} (h : lead.toNat < 0x80) :
    trailingRanges? lead = some [] := by
  rw [trailingRanges?_eq, if_pos h]

/-- No character begins with any other byte. -/
theorem lead_of_trailingRanges? {lead : UInt8} {ranges : List ByteRange}
    (h : trailingRanges? lead = some ranges) :
    lead.toNat < 0x80 ∨ (0xc2 ≤ lead.toNat ∧ lead.toNat ≤ 0xdf) ∨
      (0xe0 ≤ lead.toNat ∧ lead.toNat ≤ 0xef) ∨ (0xf0 ≤ lead.toNat ∧ lead.toNat ≤ 0xf4) := by
  rw [trailingRanges?_eq] at h
  by_cases hContinues : 0x80 ≤ lead.toNat ∧ lead.toNat < 0xc2
  · rw [if_neg (by omega), if_pos (by omega)] at h
    cases h
  by_cases hBeyond : 0xf4 < lead.toNat
  · iterate 9 rw [if_neg (by omega)] at h
    cases h
  · omega

/-- Bytes that meet all ranges of a lead byte are well formed with it. -/
theorem formed_of_fitting {lead : UInt8} {ranges : List ByteRange} {trailing : List UInt8}
    (hRanges : trailingRanges? lead = some ranges) (hLength : trailing.length = ranges.length)
    (hFitting : fitting ranges trailing = ranges.length) : Formed lead trailing := by
  rcases lead_of_trailingRanges? hRanges with hLead | hLead | hLead | hLead
  · rw [trailingRanges?_one hLead, Option.some.injEq] at hRanges
    subst hRanges
    rw [List.eq_nil_of_length_eq_zero hLength]
    exact .one hLead
  · rw [trailingRanges?_two hLead, Option.some.injEq] at hRanges
    subst hRanges
    obtain ⟨first, rfl⟩ := List.length_eq_one_iff.1 hLength
    simp only [fitting_cons_eq_length, contains_trailing] at hFitting
    exact .two hLead hFitting.1
  · obtain ⟨range, hRow, hRange⟩ := trailingRanges?_three hLead
    rw [hRow, Option.some.injEq] at hRanges
    subst hRanges
    obtain ⟨first, second, rfl⟩ := List.length_eq_two.1 hLength
    simp only [fitting_cons_eq_length, contains_trailing, hRange] at hFitting
    obtain ⟨⟨hFirst, hLong, hSurrogate⟩, hSecond, _⟩ := hFitting
    exact .three hLead hFirst hLong hSurrogate hSecond
  · obtain ⟨range, hRow, hRange⟩ := trailingRanges?_four hLead
    rw [hRow, Option.some.injEq] at hRanges
    subst hRanges
    obtain ⟨first, second, third, rfl⟩ := List.length_eq_three.1 hLength
    simp only [fitting_cons_eq_length, contains_trailing, hRange] at hFitting
    obtain ⟨⟨hFirst, hLong, hLast⟩, hSecond, hThird, _⟩ := hFitting
    exact .four hLead hFirst hLong hLast hSecond hThird

/-- What is well formed meets all ranges of its lead byte. -/
theorem Formed.exists_ranges {lead : UInt8} {trailing : List UInt8} (h : Formed lead trailing) :
    ∃ ranges : List ByteRange, trailingRanges? lead = some ranges ∧
      trailing.length = ranges.length ∧ fitting ranges trailing = ranges.length := by
  cases h with
  | one hLead => exact ⟨[], trailingRanges?_one hLead, rfl, rfl⟩
  | two hLead hFirst =>
      refine ⟨_, trailingRanges?_two hLead, rfl, ?_⟩
      simp only [fitting_cons_eq_length, contains_trailing]
      exact ⟨hFirst, rfl⟩
  | three hLead hFirst hLong hSurrogate hSecond =>
      obtain ⟨range, hRow, hRange⟩ := trailingRanges?_three hLead
      refine ⟨_, hRow, rfl, ?_⟩
      simp only [fitting_cons_eq_length, contains_trailing, hRange]
      exact ⟨⟨hFirst, hLong, hSurrogate⟩, hSecond, rfl⟩
  | four hLead hFirst hLong hLast hSecond hThird =>
      obtain ⟨range, hRow, hRange⟩ := trailingRanges?_four hLead
      refine ⟨_, hRow, rfl, ?_⟩
      simp only [fitting_cons_eq_length, contains_trailing, hRange]
      exact ⟨⟨hFirst, hLong, hLast⟩, hSecond, hThird, rfl⟩

/-- No range of a lead byte is empty. -/
theorem exists_contains {lead : UInt8} {ranges : List ByteRange}
    (h : trailingRanges? lead = some ranges) :
    ∀ range ∈ ranges, ∃ byte : UInt8, range.contains byte = true := by
  have hTrailing : ∃ byte : UInt8, ByteRange.trailing.contains byte = true := ⟨0x80, rfl⟩
  rcases lead_of_trailingRanges? h with hLead | hLead | hLead | hLead
  · rw [trailingRanges?_one hLead, Option.some.injEq] at h
    subst h
    simp
  · rw [trailingRanges?_two hLead, Option.some.injEq] at h
    subst h
    simp [hTrailing]
  · obtain ⟨range, hRow, hRange⟩ := trailingRanges?_three hLead
    rw [hRow, Option.some.injEq] at h
    subst h
    have hFirst : ∃ byte : UInt8, range.contains byte = true := by
      by_cases hLong : lead.toNat = 0xe0
      · exact ⟨0xa0, (hRange 0xa0).2 (by simp [IsTrailing, hLong])⟩
      · exact ⟨0x80, (hRange 0x80).2 (by simp [IsTrailing, hLong])⟩
    simp [hFirst, hTrailing]
  · obtain ⟨range, hRow, hRange⟩ := trailingRanges?_four hLead
    rw [hRow, Option.some.injEq] at h
    subst h
    have hFirst : ∃ byte : UInt8, range.contains byte = true := by
      by_cases hLong : lead.toNat = 0xf0
      · exact ⟨0x90, (hRange 0x90).2 (by simp [IsTrailing, hLong])⟩
      · exact ⟨0x80, (hRange 0x80).2 (by simp [IsTrailing, hLong])⟩
    simp [hFirst, hTrailing]

/-- Bytes within their ranges can be continued until all ranges are met. -/
theorem exists_fitting_append {ranges : List ByteRange}
    (hRanges : ∀ range ∈ ranges, ∃ byte : UInt8, range.contains byte = true) :
    ∀ bytes : List UInt8, fitting ranges bytes = bytes.length →
      ∃ more : List UInt8, (bytes ++ more).length = ranges.length ∧
        fitting ranges (bytes ++ more) = ranges.length := by
  induction ranges with
  | nil =>
      intro bytes h
      have hNil : bytes = [] := List.eq_nil_of_length_eq_zero h.symm
      exact ⟨[], by rw [hNil]; rfl, rfl⟩
  | cons range ranges ih =>
      have hRest := ih fun more hMore => hRanges more (List.mem_cons_of_mem range hMore)
      intro bytes h
      cases bytes with
      | nil =>
          obtain ⟨byte, hByte⟩ := hRanges range List.mem_cons_self
          obtain ⟨more, hLength, hFitting⟩ := hRest [] (by simp)
          refine ⟨byte :: more, ?_, fitting_cons_eq_length.2 ⟨hByte, hFitting⟩⟩
          simpa using hLength
      | cons byte bytes =>
          rw [fitting, List.length_cons] at h
          by_cases hByte : range.contains byte = true
          · rw [if_pos hByte, Nat.add_right_cancel_iff] at h
            obtain ⟨more, hLength, hFitting⟩ := hRest bytes h
            refine ⟨more, ?_, fitting_cons_eq_length.2 ⟨hByte, hFitting⟩⟩
            simpa using hLength
          · rw [if_neg hByte] at h
            omega

/-- Bytes are the beginning of a character exactly if they are within their ranges. -/
theorem exists_prefix_encode_iff {lead : UInt8} {bytes : List UInt8} :
    (∃ c : Char, lead :: bytes <+: String.utf8EncodeChar c) ↔
      ∃ ranges : List ByteRange, trailingRanges? lead = some ranges ∧
        fitting ranges bytes = bytes.length := by
  constructor
  · intro ⟨c, hPrefix⟩
    obtain ⟨lead', trailing, hc, hFormed, _⟩ := exists_formed c
    rw [hc] at hPrefix
    obtain ⟨rfl, hBytes⟩ := List.cons_prefix_cons.1 hPrefix
    obtain ⟨ranges, hRanges, hLength, hFitting⟩ := hFormed.exists_ranges
    have hLe := hBytes.length_le
    refine ⟨ranges, hRanges, ?_⟩
    rw [List.prefix_iff_eq_take.1 hBytes, fitting_take, hFitting, List.length_take]
    omega
  · intro ⟨ranges, hRanges, hFitting⟩
    obtain ⟨more, hLength, hAll⟩ := exists_fitting_append (exists_contains hRanges) bytes hFitting
    obtain ⟨c, hc⟩ := (formed_of_fitting hRanges hLength hAll).exists_char
    refine ⟨c, ?_⟩
    rw [hc, ← List.cons_append]
    exact List.prefix_append _ _

/-! ## The first character -/

/-- A character is read off its own bytes, whatever comes behind them. -/
theorem decodeFirst_encode {c : Char} {lead : UInt8} {trailing : List UInt8}
    (h : String.utf8EncodeChar c = lead :: trailing) (after : List UInt8) :
    decodeFirst lead (trailing ++ after) = (c, trailing.length) := by
  obtain ⟨lead', trailing', h', hFormed, hCode⟩ := exists_formed c
  obtain ⟨rfl, rfl⟩ := List.cons.inj (h.symm.trans h')
  obtain ⟨ranges, hRanges, hLength, hFitting⟩ := hFormed.exists_ranges
  have hCount : fitting ranges (trailing ++ after) = ranges.length := by
    have hTake := fitting_take ranges (trailing ++ after) trailing.length
    rw [List.take_left, hFitting] at hTake
    have hLe := fitting_le ranges (trailing ++ after)
    omega
  rw [decodeFirst, hRanges]
  simp only [hCount, if_pos]
  rw [← hLength, List.take_left, hCode, Char.ofNat_toNat]

/-- No character is a beginning of another one's bytes. -/
theorem eq_of_encode_prefix {c d : Char} {after : List UInt8}
    (h : String.utf8EncodeChar c <+: String.utf8EncodeChar d ++ after) : c = d := by
  obtain ⟨rest, hRest⟩ := h
  obtain ⟨lead, trailing, hc, _⟩ := exists_formed c
  obtain ⟨lead', trailing', hd, _⟩ := exists_formed d
  rw [hc, hd, List.cons_append, List.cons_append] at hRest
  obtain ⟨rfl, hSame⟩ := List.cons.inj hRest
  have hFirst := decodeFirst_encode hc rest
  rw [hSame, decodeFirst_encode hd after] at hFirst
  exact (Prod.mk.inj hFirst).1.symm

/-- No character begins with a trailing byte. -/
theorem not_encode_prefix_of_isTrailing {byte : UInt8} (h : IsTrailing byte) (c : Char)
    (rest : List UInt8) : ¬String.utf8EncodeChar c <+: byte :: rest := by
  intro hPrefix
  obtain ⟨lead, trailing, hc, hFormed, _⟩ := exists_formed c
  rw [hc] at hPrefix
  obtain ⟨rfl, _⟩ := List.cons_prefix_cons.1 hPrefix
  have hLead := hFormed.lead_cases
  unfold IsTrailing at h
  omega

end TapeLang.Text
