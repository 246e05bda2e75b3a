import TapeLang.Proofs.Assembly
import TapeLang.Proofs.Pieces

/-!
# Symbols in raw bytes

A source file is bytes, and its text may have replacements where they are not
well formed.  None of this matters for the program: the operations of the text
are those whose symbols are spelled out in the bytes.  `Alphabet.scan` looks for
the symbols at every byte, inside characters and inside broken pieces too, and
knows nothing of decoding.

It finds nothing that the text does not have, since no symbol begins inside a
character, within a broken piece, or where another character begins; and it
misses nothing, since a broken piece ends before the next symbol.  All that is
asked of the alphabet is that the replacement is no symbol.

## Main results

* `Alphabet.recognise_decode` — the operations of the text are those spelled out
  in the bytes.
* `compile_verdict` — what the operations of a source say about the answer.
* `decoding_keeps_code` — both together, for the alphabets that have a name.
-/

namespace TapeLang

namespace Alphabet

/-! ## Looking for symbols -/

/-- The operation whose symbol is spelled out at the start of bytes. -/
def spelled? (alphabet : Alphabet) (bytes : List UInt8) : Option Operation :=
  Operation.all.find? fun operation =>
    (String.utf8EncodeChar (alphabet.symbol operation)).isPrefixOf bytes

/-- The operations whose symbols are spelled out in bytes, from any byte on. -/
def scan (alphabet : Alphabet) : List UInt8 → List Operation
  | [] => []
  | byte :: rest => (alphabet.spelled? (byte :: rest)).toList ++ alphabet.scan rest

variable {alphabet : Alphabet}

/-- Where no character begins no symbol does. -/
theorem spelled?_eq_none {bytes : List UInt8}
    (h : ∀ c : Char, ¬String.utf8EncodeChar c <+: bytes) : alphabet.spelled? bytes = none := by
  rw [spelled?, List.find?_eq_none]
  intro operation _ hPrefix
  exact h _ (List.isPrefixOf_iff_prefix.1 hPrefix)

/-- Where a character begins, a symbol does only if it is that character. -/
theorem spelled?_encode (c : Char) (after : List UInt8) :
    alphabet.spelled? (String.utf8EncodeChar c ++ after) = alphabet.lookup c := by
  have hSame : ∀ operation : Operation,
      (String.utf8EncodeChar (alphabet.symbol operation)).isPrefixOf
        (String.utf8EncodeChar c ++ after) = (alphabet.symbol operation == c) := by
    intro operation
    rw [Bool.eq_iff_iff, List.isPrefixOf_iff_prefix, beq_iff_eq]
    constructor
    · exact Text.eq_of_encode_prefix
    · intro h
      rw [h]
      exact List.prefix_append _ _
  simp only [spelled?, hSame]
  cases hFound : Operation.all.find? fun operation => alphabet.symbol operation == c with
  | none =>
      rw [List.find?_eq_none] at hFound
      refine (alphabet.lookup_eq_none_iff.2 fun operation hSymbol => ?_).symm
      exact hFound operation (Operation.mem_all operation) (beq_iff_eq.2 hSymbol)
  | some operation =>
      have hSymbol := List.find?_some hFound
      exact (lookup_eq_some_iff.2 (beq_iff_eq.1 hSymbol)).symm

/-- No symbol begins at a trailing byte. -/
theorem scan_trailing (trailing after : List UInt8) (h : ∀ byte ∈ trailing, Text.IsTrailing byte) :
    alphabet.scan (trailing ++ after) = alphabet.scan after := by
  induction trailing with
  | nil => rfl
  | cons byte trailing ih =>
      have hNone : alphabet.spelled? (byte :: (trailing ++ after)) = none :=
        spelled?_eq_none fun c =>
          Text.not_encode_prefix_of_isTrailing (h byte List.mem_cons_self) c _
      rw [List.cons_append, scan, hNone]
      exact ih fun other hOther => h other (List.mem_cons_of_mem byte hOther)

theorem scan_encode (c : Char) (after : List UInt8) :
    alphabet.scan (String.utf8EncodeChar c ++ after) =
      (alphabet.lookup c).toList ++ alphabet.scan after := by
  have hSpelled := alphabet.spelled?_encode c after
  obtain ⟨lead, trailing, hc, hFormed, _⟩ := Text.exists_formed c
  rw [hc, List.cons_append] at hSpelled ⊢
  rw [scan, hSpelled, scan_trailing trailing after hFormed.isTrailing]

theorem scan_broken {lead : UInt8} {trailing after : List UInt8}
    (h : Text.Broken lead trailing after) :
    alphabet.scan (lead :: (trailing ++ after)) = alphabet.scan after := by
  rw [scan, spelled?_eq_none h.not_prefix, scan_trailing trailing after h.isTrailing]
  rfl

/-- No alphabet with a name has the replacement among its symbols. -/
theorem Named.lookup_replacement (h : alphabet.Named) :
    alphabet.lookup Text.replacement = none := by
  rcases named_iff.1 h with rfl | rfl <;> decide

/-- The operations of the text of bytes are those that are spelled out in the bytes. -/
theorem recognise_decode (h : alphabet.lookup Text.replacement = none) (bytes : List UInt8) :
    alphabet.recognise (Text.decode bytes).toList = alphabet.scan bytes := by
  rw [Text.toList_decode]
  induction bytes using Text.pieces_induction with
  | nil => simp [recognise, scan]
  | whole c after ih =>
      rw [Text.pieces_encode, scan_encode, ← ih]
      cases hLookup : alphabet.lookup c with
      | none => exact recognise_cons_none hLookup _
      | some operation => exact recognise_cons hLookup _
  | broken lead trailing after hBroken ih =>
      rw [hBroken.pieces_eq, scan_broken hBroken, ← ih]
      exact recognise_cons_none h _

end Alphabet

/-! ## What the operations say about the answer -/

/-- No beginning of operations closes more than it opens, but not all that is opened is closed. -/
structure LeftOpen (operations : List Operation) : Prop where
  closings_le : ∀ start, start <+: operations → closings start ≤ openings start
  closings_lt : closings operations < openings operations

/-- Some beginning of operations closes more than it opens. -/
def Overclosing (operations : List Operation) : Prop :=
  ∃ start, start <+: operations ∧ openings start < closings start

theorem Overclosing.not_closings_le {operations : List Operation} (h : Overclosing operations) :
    ¬∀ start, start <+: operations → closings start ≤ openings start := by
  obtain ⟨start, hStart, hLess⟩ := h
  intro hLe
  have := hLe start hStart
  omega

/-- The operations of a source decide which of the three answers it gets. -/
theorem compile_verdict (alphabet : Alphabet) (source : String) :
    (∃ program : Program, compile alphabet source = .ok program ∧
      program.operations = alphabet.recognise source.toList ∧
      Nested (alphabet.recognise source.toList)) ∨
    (∃ offset : Nat, compile alphabet source = .error (.unmatchedClose offset) ∧
      Overclosing (alphabet.recognise source.toList)) ∨
    ∃ offset : Nat, compile alphabet source = .error (.unmatchedOpen offset) ∧
      LeftOpen (alphabet.recognise source.toList) := by
  obtain ⟨code, hCode, hOk⟩ | ⟨before, symbol, after, code, hSplit, hBefore, hSymbol, hError⟩ |
    ⟨before, _, _, _, _, _, _, hNever, hOpen, hError⟩ :=
      Assembler.compile_cases .empty alphabet source
  · refine .inl ⟨code.program, hOk, ?_, ?_⟩
    · rw [hCode, Code.operations_program]
    · rw [hCode]
      exact code.nested_operations
  · refine .inr (.inl ⟨_, hError, code.operations ++ [.jumpIfNonZero], ?_, ?_⟩)
    · rw [hSplit, Alphabet.recognise_append, Alphabet.recognise_cons hSymbol, hBefore]
      exact ⟨alphabet.recognise after, by simp⟩
    · have hSettled := code.openings_operations
      simp only [openings_append, closings_append, openings_closing, closings_closing,
        openings_nil, closings_nil]
      omega
  · exact .inr (.inr ⟨_, hError, hNever, hOpen⟩)

/--
**Decoding neither makes code nor loses any.**  Let bytes, well formed or not,
be decoded and the text be compiled in an alphabet that has a name.  The
operations of the text are those whose symbols are spelled out in the bytes; so
it compiles if and only if these are properly nested, and then to exactly them.
Otherwise a closing bracket is reported if and only if some beginning of them
closes more than it opens, and an opening one if and only if none does but not
all that is opened is closed.
-/
theorem decoding_keeps_code {alphabet : Alphabet} (hNamed : alphabet.Named) (bytes : List UInt8) :
    alphabet.recognise (Text.decode bytes).toList = alphabet.scan bytes ∧
    ((∃ program : Program, compile alphabet (Text.decode bytes) = .ok program) ↔
      Nested (alphabet.scan bytes)) ∧
    (∀ program : Program, compile alphabet (Text.decode bytes) = .ok program →
      program.operations = alphabet.scan bytes) ∧
    ((∃ offset : Nat, compile alphabet (Text.decode bytes) = .error (.unmatchedClose offset)) ↔
      Overclosing (alphabet.scan bytes)) ∧
    ((∃ offset : Nat, compile alphabet (Text.decode bytes) = .error (.unmatchedOpen offset)) ↔
      LeftOpen (alphabet.scan bytes)) := by
  have hScan := Alphabet.recognise_decode hNamed.lookup_replacement bytes
  refine ⟨hScan, ?_⟩
  rw [← hScan]
  -- each answer decides all four parts, since the conditions exclude one another
  obtain ⟨program, hOk, hOperations, hNested⟩ | ⟨offset, hError, hOver⟩ | ⟨offset, hError, hLeft⟩ :=
    compile_verdict alphabet (Text.decode bytes)
  · rw [hOk]
    refine ⟨⟨fun _ => hNested, fun _ => ⟨program, rfl⟩⟩, ?_, ⟨nofun, ?_⟩, ⟨nofun, ?_⟩⟩
    · intro other hOther
      cases hOther
      exact hOperations
    · intro hOver
      exact absurd hNested.closings_le hOver.not_closings_le
    · intro hLeft
      exact absurd hNested.settled (Nat.ne_of_gt hLeft.closings_lt)
  · rw [hError]
    have hUnsafe := hOver.not_closings_le
    refine ⟨⟨nofun, ?_⟩, nofun, ⟨fun _ => hOver, fun _ => ⟨offset, rfl⟩⟩, ⟨nofun, ?_⟩⟩
    · intro hNested
      exact absurd hNested.closings_le hUnsafe
    · intro hLeft
      exact absurd hLeft.closings_le hUnsafe
  · rw [hError]
    refine ⟨⟨nofun, ?_⟩, nofun, ⟨nofun, ?_⟩, ⟨fun _ => hLeft, fun _ => ⟨offset, rfl⟩⟩⟩
    · intro hNested
      exact absurd hNested.settled (Nat.ne_of_gt hLeft.closings_lt)
    · intro hOver
      exact absurd hLeft.closings_le hOver.not_closings_le

/-- A character that breaks off takes nothing from the symbol behind it. -/
theorem decoding_keeps_code_cut_off :
    ∃ program : Program,
      compile .zeroWidth
        (Text.decode [0xe2, 0x80, 0xe2, 0x80, 0xab, 0xff, 0xe2, 0x80, 0xac]) = .ok program ∧
      program.operations = [.jumpIfZero, .jumpIfNonZero] := by
  have hNamed : Alphabet.zeroWidth.Named := Alphabet.named_iff.2 (.inl rfl)
  have hScan : Alphabet.zeroWidth.scan [0xe2, 0x80, 0xe2, 0x80, 0xab, 0xff, 0xe2, 0x80, 0xac] =
      (Code.loop .done .done).operations := by
    decide
  obtain ⟨_, hAccepts, hOperations, _⟩ :=
    decoding_keeps_code hNamed [0xe2, 0x80, 0xe2, 0x80, 0xab, 0xff, 0xe2, 0x80, 0xac]
  rw [hScan] at hAccepts hOperations
  obtain ⟨program, hProgram⟩ := hAccepts.2 (Code.loop .done .done).nested_operations
  exact ⟨program, hProgram, hOperations program hProgram⟩

end TapeLang
