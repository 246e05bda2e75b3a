import TapeLang.Proofs.Assembly

/-!
# Which sources compile, and which bracket is reported

The assembler keeps a stack; what it answers can be said by counting symbols
in the source.  A text is *overclosed* if it has more closing symbols than
opening ones.  A source compiles if no beginning of it is overclosed and its
symbols balance.  Otherwise the bracket reported is the one that ends the
shortest overclosed beginning or, if there is none, the last opening symbol
behind which nothing is overclosed: that is the innermost loop left open.

Offsets are counted in bytes of the UTF-8 encoding, over all characters of the
source, symbols or not.

## Main results

* `Assembler.compile_diagnosis` — the three answers and their conditions.
* `compile_accepts_exactly_nested` — the answers as equivalences, for an
  assembler in any state.
-/

namespace TapeLang

namespace Alphabet

variable {alphabet : Alphabet}

/-- How many opening symbols stand in a text. -/
def openingSymbols (alphabet : Alphabet) (text : List Char) : Nat :=
  text.count (alphabet.symbol .jumpIfZero)

/-- How many closing symbols stand in a text. -/
def closingSymbols (alphabet : Alphabet) (text : List Char) : Nat :=
  text.count (alphabet.symbol .jumpIfNonZero)

/-- A text has more closing symbols than opening ones. -/
def Overclosed (alphabet : Alphabet) (text : List Char) : Prop :=
  alphabet.openingSymbols text < alphabet.closingSymbols text

/-- No beginning of a text is overclosed. -/
def NeverOverclosed (alphabet : Alphabet) (text : List Char) : Prop :=
  ∀ start, start <+: text → ¬alphabet.Overclosed start

/-- Behind `before` stands the last character of the shortest overclosed beginning of a text. -/
def FirstExcess (alphabet : Alphabet) (text before : List Char) : Prop :=
  ∃ symbol : Char, before ++ [symbol] <+: text ∧ alphabet.Overclosed (before ++ [symbol]) ∧
    ∀ start, start <+: text → alphabet.Overclosed start → before.length < start.length

/-- Behind `before` stands the last opening symbol of a text after which nothing is overclosed. -/
def LastOpen (alphabet : Alphabet) (text before : List Char) : Prop :=
  ∃ after : List Char, text = before ++ alphabet.symbol .jumpIfZero :: after ∧
    alphabet.NeverOverclosed after ∧
    ∀ before' after' : List Char, text = before' ++ alphabet.symbol .jumpIfZero :: after' →
      alphabet.NeverOverclosed after' → before'.length ≤ before.length

theorem FirstExcess.not_neverOverclosed {text before : List Char}
    (h : alphabet.FirstExcess text before) : ¬alphabet.NeverOverclosed text := by
  obtain ⟨symbol, hPrefix, hOver, _⟩ := h
  exact fun hNever => hNever _ hPrefix hOver

/-! ## Counting symbols is counting operations -/

theorem count_recognise (text : List Char) (operation : Operation) :
    (alphabet.recognise text).count operation = text.count (alphabet.symbol operation) := by
  induction text with
  | nil => rfl
  | cons c rest ih =>
      cases hLookup : alphabet.lookup c with
      | none =>
          have hNe : c ≠ alphabet.symbol operation := by
            rintro rfl
            simp at hLookup
          rw [recognise_cons_none hLookup, ih, List.count_cons_of_ne hNe]
      | some other =>
          have hSymbol := lookup_eq_some_iff.1 hLookup
          rw [recognise_cons hLookup]
          by_cases hEq : other = operation
          · subst hEq
            rw [← hSymbol, List.count_cons_self, List.count_cons_self, ih]
          · have hNe : c ≠ alphabet.symbol operation := by
              rintro rfl
              exact hEq (alphabet.symbol_injective hSymbol)
            rw [List.count_cons_of_ne hEq, List.count_cons_of_ne hNe, ih]

theorem openings_recognise (text : List Char) :
    openings (alphabet.recognise text) = alphabet.openingSymbols text :=
  count_recognise text .jumpIfZero

theorem closings_recognise (text : List Char) :
    closings (alphabet.recognise text) = alphabet.closingSymbols text :=
  count_recognise text .jumpIfNonZero

theorem overclosed_iff {text : List Char} :
    alphabet.Overclosed text ↔
      openings (alphabet.recognise text) < closings (alphabet.recognise text) := by
  rw [Overclosed, openings_recognise, closings_recognise]

/-- What holds of every beginning of the operations holds of every beginning of the text. -/
theorem neverOverclosed_of_recognise {text : List Char}
    (h : ∀ start, start <+: alphabet.recognise text → closings start ≤ openings start) :
    alphabet.NeverOverclosed text := by
  intro start hStart hOver
  have hLe := h _ (hStart.filterMap alphabet.lookup)
  exact absurd (overclosed_iff.1 hOver) (Nat.not_lt.2 hLe)

/-- A text that is a whole tree is nowhere overclosed. -/
theorem neverOverclosed_of_code {text : List Char} {code : Code}
    (h : alphabet.recognise text = code.operations) : alphabet.NeverOverclosed text := by
  apply neverOverclosed_of_recognise
  rw [h]
  exact code.closings_le_openings

/-! ## The bracket that is reported -/

/-- A closing symbol after a whole tree is the first excess. -/
theorem firstExcess_of_code {text before after : List Char} {symbol : Char} {code : Code}
    (hText : text = before ++ symbol :: after) (hBefore : alphabet.recognise before = code.operations)
    (hSymbol : alphabet.lookup symbol = some .jumpIfNonZero) :
    alphabet.FirstExcess text before := by
  refine ⟨symbol, ⟨after, by simp [hText]⟩, ?_, ?_⟩
  · have hCode := code.openings_operations
    rw [overclosed_iff, recognise_append, hBefore, recognise_cons hSymbol]
    simp only [openings_append, closings_append, openings_closing, closings_closing]
    have hEmpty : openings (alphabet.recognise []) = closings (alphabet.recognise []) := rfl
    omega
  · intro start hStart hOver
    apply Nat.lt_of_not_ge
    intro hShort
    have hPrefix : start <+: before :=
      List.prefix_of_prefix_length_le hStart ⟨symbol :: after, hText.symm⟩ hShort
    exact neverOverclosed_of_code hBefore start hPrefix hOver

/-- An opening symbol before a whole tree is the last one left open. -/
theorem lastOpen_of_code {text before after : List Char} {symbol : Char} {code : Code}
    (hText : text = before ++ symbol :: after) (hSymbol : alphabet.lookup symbol = some .jumpIfZero)
    (hAfter : alphabet.recognise after = code.operations) : alphabet.LastOpen text before := by
  have hIs := lookup_eq_some_iff.1 hSymbol
  subst hIs
  refine ⟨after, hText, neverOverclosed_of_code hAfter, ?_⟩
  intro before' after' hText' hNever
  rcases List.append_eq_append_iff.1 (hText'.symm.trans hText) with
    ⟨more, hBefore, _⟩ | ⟨more, hBefore, hMore⟩
  · rw [hBefore, List.length_append]
    omega
  · cases more with
    | nil =>
        rw [List.append_nil] at hBefore
        exact Nat.le_of_eq (congrArg List.length hBefore)
    | cons first more =>
        -- a later opening symbol lies in the tree, so the text after it closes a loop too many
        exfalso
        rw [List.cons_append] at hMore
        obtain ⟨-, rfl⟩ := List.cons.inj hMore
        apply hNever after' (List.prefix_refl _)
        have hCode := code.openings_operations
        have hLe := code.closings_le_openings (alphabet.recognise more) (by
          rw [← hAfter, recognise_append]
          exact List.prefix_append _ _)
        rw [← hAfter, recognise_append, recognise_cons hSymbol] at hCode
        simp only [openings_append, closings_append, openings_opening, closings_opening] at hCode
        rw [overclosed_iff]
        omega

end Alphabet

/-! ## The three answers -/

namespace Assembler

/-- The three answers to a source, each with what it says of the source. -/
theorem compile_diagnosis (assembler : Assembler) (alphabet : Alphabet) (source : String) :
    (∃ program : Program, (assembler.compile alphabet source).1 = .ok program ∧
      alphabet.NeverOverclosed source.toList ∧
      alphabet.openingSymbols source.toList = alphabet.closingSymbols source.toList) ∨
    (∃ before : List Char,
      (assembler.compile alphabet source).1 = .error (.unmatchedClose (byteLength before)) ∧
      alphabet.FirstExcess source.toList before) ∨
    ∃ before : List Char,
      (assembler.compile alphabet source).1 = .error (.unmatchedOpen (byteLength before)) ∧
      alphabet.LastOpen source.toList before ∧ alphabet.NeverOverclosed source.toList ∧
      alphabet.closingSymbols source.toList < alphabet.openingSymbols source.toList := by
  obtain ⟨code, hCode, hOk⟩ | ⟨before, symbol, after, code, hSplit, hBefore, hSymbol, hError⟩ |
    ⟨before, symbol, after, code, hSplit, hSymbol, hAfter, hNever, hOpen, hError⟩ :=
      assembler.compile_cases alphabet source
  · refine .inl ⟨code.program, hOk, Alphabet.neverOverclosed_of_code hCode, ?_⟩
    rw [← Alphabet.openings_recognise, ← Alphabet.closings_recognise, hCode]
    exact code.openings_operations
  · exact .inr (.inl ⟨before, hError, Alphabet.firstExcess_of_code hSplit hBefore hSymbol⟩)
  · refine .inr (.inr ⟨before, hError, Alphabet.lastOpen_of_code hSplit hSymbol hAfter,
      Alphabet.neverOverclosed_of_recognise hNever, ?_⟩)
    rwa [Alphabet.openings_recognise, Alphabet.closings_recognise] at hOpen

end Assembler

/--
**The assembler accepts exactly the properly nested sources and reports the
right bracket.**  Whatever earlier sources left in the assembler: a source
compiles if and only if no beginning of it is overclosed and its symbols
balance.  A closing bracket is reported if and only if some beginning is
overclosed, and it is the one that ends the shortest such beginning.  An
opening bracket is reported if and only if no beginning is overclosed but
opening symbols are left over, and it is the last one behind which nothing is
overclosed.
-/
theorem compile_accepts_exactly_nested (assembler : Assembler) (alphabet : Alphabet)
    (source : String) :
    ((∃ program : Program, (assembler.compile alphabet source).1 = .ok program) ↔
      (∀ start, start <+: source.toList →
        alphabet.closingSymbols start ≤ alphabet.openingSymbols start) ∧
      alphabet.openingSymbols source.toList = alphabet.closingSymbols source.toList) ∧
    ((∃ offset : Nat, (assembler.compile alphabet source).1 = .error (.unmatchedClose offset)) ↔
      ∃ start, start <+: source.toList ∧
        alphabet.openingSymbols start < alphabet.closingSymbols start) ∧
    (∀ offset : Nat, (assembler.compile alphabet source).1 = .error (.unmatchedClose offset) →
      ∃ before : List Char, alphabet.FirstExcess source.toList before ∧
        offset = (String.ofList before).utf8ByteSize) ∧
    ((∃ offset : Nat, (assembler.compile alphabet source).1 = .error (.unmatchedOpen offset)) ↔
      (∀ start, start <+: source.toList →
        alphabet.closingSymbols start ≤ alphabet.openingSymbols start) ∧
      alphabet.closingSymbols source.toList < alphabet.openingSymbols source.toList) ∧
    ∀ offset : Nat, (assembler.compile alphabet source).1 = .error (.unmatchedOpen offset) →
      ∃ before : List Char, alphabet.LastOpen source.toList before ∧
        offset = (String.ofList before).utf8ByteSize := by
  have hNever : (∀ start, start <+: source.toList →
      alphabet.closingSymbols start ≤ alphabet.openingSymbols start) ↔
        alphabet.NeverOverclosed source.toList := by
    simp [Alphabet.NeverOverclosed, Alphabet.Overclosed]
  have hSome : (∃ start, start <+: source.toList ∧
      alphabet.openingSymbols start < alphabet.closingSymbols start) ↔
        ¬alphabet.NeverOverclosed source.toList := by
    simp [Alphabet.NeverOverclosed, Alphabet.Overclosed]
  rw [hNever, hSome]
  -- each answer decides all five parts, since the conditions exclude one another
  obtain ⟨program, hOk, hSafe, hEven⟩ | ⟨before, hError, hFirst⟩ |
    ⟨before, hError, hLast, hSafe, hOpen⟩ := assembler.compile_diagnosis alphabet source
  · rw [hOk]
    refine ⟨⟨fun _ => ⟨hSafe, hEven⟩, fun _ => ⟨program, rfl⟩⟩, ⟨nofun, ?_⟩, nofun, ⟨nofun, ?_⟩, nofun⟩
    · intro hUnsafe
      exact absurd hSafe hUnsafe
    · rintro ⟨_, hOpen⟩
      omega
  · rw [hError]
    have hUnsafe := hFirst.not_neverOverclosed
    refine ⟨⟨nofun, ?_⟩, ⟨fun _ => hUnsafe, fun _ => ⟨_, rfl⟩⟩, ?_, ⟨nofun, ?_⟩, nofun⟩
    · rintro ⟨hSafe, _⟩
      exact absurd hSafe hUnsafe
    · intro offset hOffset
      cases hOffset
      exact ⟨before, hFirst, rfl⟩
    · rintro ⟨hSafe, _⟩
      exact absurd hSafe hUnsafe
  · rw [hError]
    refine ⟨⟨nofun, ?_⟩, ⟨nofun, ?_⟩, nofun, ⟨fun _ => ⟨hSafe, hOpen⟩, fun _ => ⟨_, rfl⟩⟩, ?_⟩
    · rintro ⟨_, hEven⟩
      omega
    · intro hUnsafe
      exact absurd hSafe hUnsafe
    · intro offset hOffset
      cases hOffset
      exact ⟨before, hLast, rfl⟩

end TapeLang
