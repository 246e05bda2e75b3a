import TapeLang.Proofs.Encoding

/-!
# Reading bytes piece by piece

Bytes are read in pieces, each of which gives one character: a whole piece is
the bytes of that character, and a broken one is read as the replacement.  A
broken piece is the longest ill-formed one at its place (`Broken`): no character
begins there, and the piece goes on as long as it could still become one.  After
its first byte come trailing bytes only, so nothing of what stands behind it is
lost.

A broken piece has one to three bytes and its replacement always three; hence
the text of bytes is as long as the bytes or longer, and by how much can be
read off the pieces.

## Main results

* `exists_broken`, `Broken.decodeFirst_eq` — where no character begins there is
  one broken piece, and it is read as one replacement.
* `pieces_induction` — what holds of bytes is proved piece by piece.
* `toList_decode`, `flatMap_pieces` — the pieces give the text and the bytes.
* `pieces_of_pieces_eq_append` — bytes cut between two pieces are read as before.
-/

namespace TapeLang.Text

/-! ## Where no character begins -/

/--
The longest ill-formed piece at the start of bytes.  No character begins there;
the piece is a single byte or the beginning of a character, and with the byte
behind it it is not.
-/
structure Broken (lead : UInt8) (trailing after : List UInt8) : Prop where
  not_prefix : ∀ c : Char, ¬String.utf8EncodeChar c <+: lead :: (trailing ++ after)
  begins : trailing = [] ∨ ∃ c : Char, lead :: trailing <+: String.utf8EncodeChar c
  maximal : ∀ byte ∈ after.head?, ¬∃ c : Char,
    lead :: (trailing ++ [byte]) <+: String.utf8EncodeChar c

namespace Broken

variable {lead : UInt8} {trailing after : List UInt8}

theorem isTrailing (h : Broken lead trailing after) : ∀ byte ∈ trailing, IsTrailing byte := by
  rcases h.begins with hNil | ⟨c, hPrefix⟩
  · simp [hNil]
  · obtain ⟨lead', trailing', hc, hFormed, _⟩ := exists_formed c
    rw [hc] at hPrefix
    intro byte hByte
    exact hFormed.isTrailing byte ((List.cons_prefix_cons.1 hPrefix).2.subset hByte)

/-- A broken piece has three bytes at most, since with four it would be a character. -/
theorem length_le (h : Broken lead trailing after) : trailing.length ≤ 2 := by
  rcases h.begins with hNil | ⟨c, hPrefix⟩
  · simp [hNil]
  · have hLe := hPrefix.length_le
    rw [List.length_cons, String.length_utf8EncodeChar] at hLe
    have hFour := c.utf8Size_le_four
    apply Nat.le_of_not_lt
    intro hLong
    have hWhole : lead :: trailing = String.utf8EncodeChar c :=
      hPrefix.eq_of_length (by rw [List.length_cons, String.length_utf8EncodeChar]; omega)
    apply h.not_prefix c
    rw [← hWhole, ← List.cons_append]
    exact List.prefix_append _ _

/-- Bytes stay broken when some of those behind them are taken away. -/
theorem truncate {start rest : List UInt8} (h : Broken lead trailing (start ++ rest)) :
    Broken lead trailing start where
  not_prefix := by
    intro c hPrefix
    apply h.not_prefix c
    rw [← List.append_assoc, ← List.cons_append]
    exact hPrefix.trans (List.prefix_append _ _)
  begins := h.begins
  maximal := by
    intro byte hByte
    cases start with
    | nil => cases hByte
    | cons first start => exact h.maximal byte hByte

end Broken

/-- Where no character begins, some range of the lead byte is not met. -/
theorem fitting_ne_length {lead : UInt8} {rest : List UInt8} {ranges : List ByteRange}
    (hRanges : trailingRanges? lead = some ranges)
    (h : ∀ c : Char, ¬String.utf8EncodeChar c <+: lead :: rest) :
    fitting ranges rest ≠ ranges.length := by
  intro hCount
  have hLe := fitting_le_length ranges rest
  have hTake : (rest.take ranges.length).length = ranges.length := by
    rw [List.length_take]
    omega
  have hFormed : Formed lead (rest.take ranges.length) :=
    formed_of_fitting hRanges hTake (by rw [fitting_take, hCount, Nat.min_self])
  obtain ⟨c, hc⟩ := hFormed.exists_char
  apply h c
  rw [hc]
  exact List.cons_prefix_cons.2 ⟨rfl, List.take_prefix _ _⟩

/-- Where no character begins, the longest ill-formed piece is read as one replacement. -/
theorem exists_broken {lead : UInt8} {rest : List UInt8}
    (h : ∀ c : Char, ¬String.utf8EncodeChar c <+: lead :: rest) :
    ∃ trailing after : List UInt8, rest = trailing ++ after ∧ Broken lead trailing after ∧
      decodeFirst lead rest = (replacement, trailing.length) := by
  cases hRanges : trailingRanges? lead with
  | none =>
      refine ⟨[], rest, rfl, ⟨h, .inl rfl, ?_⟩, by simp [decodeFirst, hRanges]⟩
      intro byte _ hBegins
      obtain ⟨ranges, hSome, _⟩ := exists_prefix_encode_iff.1 hBegins
      rw [hRanges] at hSome
      cases hSome
  | some ranges =>
      have hLess := fitting_ne_length hRanges h
      have hTake : (rest.take (fitting ranges rest)).length = fitting ranges rest := by
        rw [List.length_take, Nat.min_eq_left (fitting_le_length ranges rest)]
      refine ⟨rest.take (fitting ranges rest), rest.drop (fitting ranges rest),
        (List.take_append_drop _ _).symm, ⟨?_, .inr ?_, ?_⟩, ?_⟩
      · rwa [List.take_append_drop]
      · refine exists_prefix_encode_iff.2 ⟨ranges, hRanges, ?_⟩
        rw [hTake, fitting_take, Nat.min_self]
      · -- the byte behind the piece is outside its range
        intro byte hByte hBegins
        obtain ⟨ranges', hSome, hFitting⟩ := exists_prefix_encode_iff.1 hBegins
        rw [hRanges, Option.some.injEq] at hSome
        subst hSome
        have hNext : rest.take (fitting ranges rest) ++ [byte] =
            rest.take (fitting ranges rest + 1) := by
          rw [List.head?_drop, Option.mem_def] at hByte
          rw [List.take_add_one, hByte]
          rfl
        rw [hNext, fitting_take, ← hNext, List.length_append, hTake,
          List.length_singleton] at hFitting
        omega
      · simp only [decodeFirst, hRanges, if_neg hLess, hTake]

/-- Of two broken pieces at the same place neither is longer. -/
theorem Broken.length_le_of_append_eq {lead : UInt8} {trailing after trailing' after' : List UInt8}
    (h : Broken lead trailing after) (h' : Broken lead trailing' after')
    (hSame : trailing ++ after = trailing' ++ after') : trailing'.length ≤ trailing.length := by
  rcases List.append_eq_append_iff.1 hSame with ⟨more, hMore, hAfter⟩ | ⟨more, hMore, _⟩
  · cases more with
    | nil =>
        rw [List.append_nil] at hMore
        exact Nat.le_of_eq (congrArg List.length hMore)
    | cons byte more =>
        -- the longer piece would go on with the byte behind the shorter one
        exfalso
        rcases h'.begins with hNil | ⟨c, hPrefix⟩
        · rw [hNil] at hMore
          simp at hMore
        · apply h.maximal byte (by rw [hAfter]; rfl)
          have hNext : trailing ++ [byte] <+: trailing' := ⟨more, by simp [hMore]⟩
          exact ⟨c, (List.cons_prefix_cons.2 ⟨rfl, hNext⟩).trans hPrefix⟩
  · rw [hMore, List.length_append]
    omega

/-- A broken piece is read as one replacement. -/
theorem Broken.decodeFirst_eq {lead : UInt8} {trailing after : List UInt8}
    (h : Broken lead trailing after) :
    decodeFirst lead (trailing ++ after) = (replacement, trailing.length) := by
  obtain ⟨trailing', after', hSame, h', hFirst⟩ := exists_broken h.not_prefix
  have hLe := h.length_le_of_append_eq h' hSame
  have hGe := h'.length_le_of_append_eq h hSame.symm
  rw [hFirst, Nat.le_antisymm hLe hGe]

/-! ## Pieces -/

/-- Bytes that are read together as one character. -/
inductive Piece where
  /-- The bytes of a character. -/
  | whole (char : Char)
  /-- Bytes that are no character's. -/
  | broken (bytes : List UInt8)
  deriving DecidableEq, Repr

namespace Piece

/-- The character that a piece is read as. -/
def char : Piece → Char
  | .whole char => char
  | .broken _ => replacement

/-- The bytes of a piece. -/
def bytes : Piece → List UInt8
  | .whole char => String.utf8EncodeChar char
  | .broken bytes => bytes

/-- By how many bytes the character of a piece is longer than the piece. -/
def growth : Piece → Nat
  | .whole _ => 0
  | .broken bytes => 3 - bytes.length

end Piece

/-- The pieces in which bytes are read. -/
def pieces : List UInt8 → List Piece
  | [] => []
  | lead :: rest =>
    let first := decodeFirst lead rest
    let own := lead :: rest.take first.2
    (if String.utf8EncodeChar first.1 = own then .whole first.1 else .broken own) ::
      pieces (rest.drop first.2)
termination_by bytes => bytes.length
decreasing_by
  simp only [List.length_drop, List.length_cons]
  omega

@[simp] theorem pieces_nil : pieces [] = [] := by
  rw [pieces]

@[simp] theorem pieces_encode (c : Char) (after : List UInt8) :
    pieces (String.utf8EncodeChar c ++ after) = .whole c :: pieces after := by
  obtain ⟨lead, trailing, hc, _⟩ := exists_formed c
  rw [hc, List.cons_append, pieces, decodeFirst_encode hc after]
  simp only [List.take_left, List.drop_left, hc, if_pos]

theorem Broken.pieces_eq {lead : UInt8} {trailing after : List UInt8}
    (h : Broken lead trailing after) :
    pieces (lead :: (trailing ++ after)) = .broken (lead :: trailing) :: pieces after := by
  rw [pieces, h.decodeFirst_eq]
  simp only [List.take_left, List.drop_left]
  rw [if_neg]
  intro hEncode
  apply h.not_prefix replacement
  rw [hEncode, ← List.cons_append]
  exact List.prefix_append _ _

/-- Bytes are read piece by piece, so what each piece keeps holds of all bytes. -/
@[elab_as_elim]
theorem pieces_induction {motive : List UInt8 → Prop} (bytes : List UInt8) (nil : motive [])
    (whole : ∀ (c : Char) (after : List UInt8), motive after →
      motive (String.utf8EncodeChar c ++ after))
    (broken : ∀ (lead : UInt8) (trailing after : List UInt8), Broken lead trailing after →
      motive after → motive (lead :: (trailing ++ after))) : motive bytes := by
  induction hLength : bytes.length using Nat.strongRecOn generalizing bytes with
  | ind length ih =>
      subst hLength
      cases bytes with
      | nil => exact nil
      | cons lead rest =>
          by_cases h : ∃ c : Char, String.utf8EncodeChar c <+: lead :: rest
          · obtain ⟨c, after, hAfter⟩ := h
            have hPos : 0 < (String.utf8EncodeChar c).length := by
              rw [String.length_utf8EncodeChar]
              exact c.utf8Size_pos
            rw [← hAfter] at ih ⊢
            rw [List.length_append] at ih
            exact whole c after (ih after.length (by omega) after rfl)
          · obtain ⟨trailing, after, rfl, hBroken, _⟩ := exists_broken (not_exists.1 h)
            rw [List.length_cons, List.length_append] at ih
            exact broken lead trailing after hBroken (ih after.length (by omega) after rfl)

/-- The pieces lie one behind the other and leave no byte out. -/
theorem flatMap_pieces (bytes : List UInt8) : (pieces bytes).flatMap Piece.bytes = bytes := by
  induction bytes using pieces_induction with
  | nil => simp
  | whole c after ih => rw [pieces_encode, List.flatMap_cons, ih]; rfl
  | broken lead trailing after hBroken ih =>
      rw [hBroken.pieces_eq, List.flatMap_cons, ih]
      rfl

theorem toList_decodeOnto (bytes : List UInt8) :
    ∀ text : String,
      (decodeOnto text bytes).toList = text.toList ++ (pieces bytes).map Piece.char := by
  induction bytes using pieces_induction with
  | nil => simp [decodeOnto]
  | whole c after ih =>
      intro text
      obtain ⟨lead, trailing, hc, _⟩ := exists_formed c
      rw [pieces_encode, hc, List.cons_append, decodeOnto, decodeFirst_encode hc after]
      simp only [List.drop_left]
      rw [ih, String.toList_push, List.append_assoc]
      rfl
  | broken lead trailing after hBroken ih =>
      intro text
      rw [hBroken.pieces_eq, decodeOnto, hBroken.decodeFirst_eq]
      simp only [List.drop_left]
      rw [ih, String.toList_push, List.append_assoc]
      rfl

/-- The text of bytes has one character for each piece. -/
theorem toList_decode (bytes : List UInt8) :
    (decode bytes).toList = (pieces bytes).map Piece.char := by
  rw [decode, toList_decodeOnto]
  rfl

/-- A broken piece has at least one byte and at most three. -/
theorem length_of_broken_mem (contents bytes : List UInt8) (h : Piece.broken bytes ∈ pieces contents) :
    0 < bytes.length ∧ bytes.length ≤ 3 := by
  induction contents using pieces_induction with
  | nil => simp at h
  | whole c after ih =>
      rw [pieces_encode] at h
      rcases List.mem_cons.1 h with h | h
      · cases h
      · exact ih h
  | broken lead trailing after hBroken ih =>
      rw [hBroken.pieces_eq] at h
      rcases List.mem_cons.1 h with h | h
      · cases h
        have := hBroken.length_le
        rw [List.length_cons]
        omega
      · exact ih h

/-- Pieces that stand side by side are read again as they are. -/
theorem pieces_of_pieces_eq_append {first second : List Piece} :
    ∀ {bytes : List UInt8}, pieces bytes = first ++ second →
      pieces (first.flatMap Piece.bytes) = first ∧ pieces (second.flatMap Piece.bytes) = second := by
  induction first with
  | nil =>
      intro bytes h
      rw [List.nil_append] at h
      rw [← h, flatMap_pieces]
      simp
  | cons piece first ih =>
      intro bytes h
      cases bytes using pieces_induction with
      | nil => simp at h
      | whole c after _ =>
          rw [pieces_encode, List.cons_append, List.cons.injEq] at h
          obtain ⟨rfl, hAfter⟩ := h
          obtain ⟨hFirst, hSecond⟩ := ih hAfter
          rw [List.flatMap_cons, Piece.bytes, pieces_encode, hFirst]
          exact ⟨rfl, hSecond⟩
      | broken lead trailing after hBroken _ =>
          rw [hBroken.pieces_eq, List.cons_append, List.cons.injEq] at h
          obtain ⟨rfl, hAfter⟩ := h
          obtain ⟨hFirst, hSecond⟩ := ih hAfter
          have hSplit := flatMap_pieces after
          rw [hAfter, List.flatMap_append] at hSplit
          rw [← hSplit] at hBroken
          rw [List.flatMap_cons, Piece.bytes, List.cons_append, hBroken.truncate.pieces_eq, hFirst]
          exact ⟨rfl, hSecond⟩

end TapeLang.Text
