import TapeLang.Assembler
import TapeLang.Proofs.Nesting

/-!
# What the assembler makes of a source

The assembler patches the target of an opening jump when its closing jump
arrives, so between the two its instructions are not yet those of a tree.
`Assembler.Reached` describes such a state: some loops are open, and between
the symbol of one and the symbol of the next the source so far is a whole
tree, laid out where it stands.  One character keeps this description
(`Assembler.Scanned.feed`), hence so does a text (`Assembler.Scanned.absorb`),
and all that is known of a compiled source is read off it at the end.

## Main results

* `Assembler.compile_cases` — the three ways in which a source can turn out.
* `compile_eq_ok_iff` — a source compiles to the layout of its tree, and if it
  has no tree it does not compile.
-/

namespace TapeLang

/-- The operations that the characters of a text stand for, in order. -/
def Alphabet.recognise (alphabet : Alphabet) (text : List Char) : List Operation :=
  text.filterMap alphabet.lookup

/-- The number of bytes of a text in UTF-8. -/
def byteLength (text : List Char) : Nat := (String.ofList text).utf8ByteSize

@[simp] theorem byteLength_nil : byteLength [] = 0 := rfl

theorem byteLength_append (first second : List Char) :
    byteLength (first ++ second) = byteLength first + byteLength second := by
  rw [byteLength, String.ofList_append, String.utf8ByteSize_append]
  rfl

theorem byteLength_cons (c : Char) (text : List Char) :
    byteLength (c :: text) = c.utf8Size + byteLength text := by
  rw [← List.singleton_append, byteLength_append]
  congr 1
  exact String.utf8ByteSize_singleton

theorem byteLength_concat (text : List Char) (c : Char) :
    byteLength (text ++ [c]) = byteLength text + c.utf8Size := by
  rw [byteLength_append, byteLength_cons, byteLength_nil, Nat.add_zero]

namespace Alphabet

variable {alphabet : Alphabet}

@[simp] theorem recognise_append (first second : List Char) :
    alphabet.recognise (first ++ second) = alphabet.recognise first ++ alphabet.recognise second :=
  List.filterMap_append

theorem recognise_cons {c : Char} {operation : Operation} (h : alphabet.lookup c = some operation)
    (rest : List Char) : alphabet.recognise (c :: rest) = operation :: alphabet.recognise rest := by
  simp [recognise, h]

theorem recognise_cons_none {c : Char} (h : alphabet.lookup c = none) (rest : List Char) :
    alphabet.recognise (c :: rest) = alphabet.recognise rest := by
  simp [recognise, h]

end Alphabet

namespace Assembler

/-! ## The state along the way -/

/--
What has become of a text when no closing symbol came too early: the
instructions so far, and the brackets still open, innermost first.
-/
inductive Reached (alphabet : Alphabet) :
    List Char → List Instruction → List OpenBracket → Prop where
  -- no loop is open, and the text is a whole tree
  | outermost {text : List Char} {code : Code} (h : alphabet.recognise text = code.operations) :
      Reached alphabet text (code.instructions 0) []
  -- a loop is open, and after its symbol the text is a whole tree again
  | within {before after : List Char} {symbol : Char} {code : Code}
      {instructions : List Instruction} {pending : List OpenBracket}
      (hBefore : Reached alphabet before instructions pending)
      (hSymbol : alphabet.lookup symbol = some .jumpIfZero)
      (hAfter : alphabet.recognise after = code.operations) :
      Reached alphabet (before ++ symbol :: after)
        (instructions ++ ⟨.jumpIfZero, 0⟩ :: code.instructions (instructions.length + 1))
        (⟨instructions.length, byteLength before⟩ :: pending)

variable {alphabet : Alphabet}

/-- More code may follow wherever the text stands. -/
theorem Reached.extend {text more : List Char} {code : Code} {instructions : List Instruction}
    {pending : List OpenBracket} (h : Reached alphabet text instructions pending)
    (hMore : alphabet.recognise more = code.operations) :
    Reached alphabet (text ++ more) (instructions ++ code.instructions instructions.length)
      pending := by
  cases h with
  | @outermost text first hFirst =>
      have hText : alphabet.recognise (text ++ more) = (first.append code).operations := by
        rw [Alphabet.recognise_append, hFirst, hMore, Code.operations_append]
      have hNext := Reached.outermost hText
      rwa [Code.instructions_append, Nat.zero_add, ← first.length_instructions 0] at hNext
  | @within before after symbol first instructions pending hBefore hSymbol hAfter =>
      have hText : alphabet.recognise (after ++ more) = (first.append code).operations := by
        rw [Alphabet.recognise_append, hAfter, hMore, Code.operations_append]
      have hNext := Reached.within hBefore hSymbol hText
      rw [Code.instructions_append] at hNext
      have hLength : (instructions ++ (⟨.jumpIfZero, 0⟩ : Instruction) ::
          first.instructions (instructions.length + 1)).length =
            instructions.length + 1 + first.size := by
        simp only [List.length_append, List.length_cons, Code.length_instructions]
        omega
      rw [hLength]
      simpa using hNext

private theorem modify_middle {α : Type} (before after : List α) (a : α) (f : α → α) :
    (before ++ a :: after).modify before.length f = before ++ f a :: after := by
  induction before with
  | nil => rfl
  | cons b before ih =>
      rw [List.cons_append, List.length_cons, List.modify_succ_cons, ih, List.cons_append]

/-- The closing symbol of a loop makes one piece of code out of the loop. -/
theorem Reached.close {text : List Char} {symbol : Char} {instructions : List Instruction}
    {bracket : OpenBracket} {pending : List OpenBracket}
    (h : Reached alphabet text instructions (bracket :: pending))
    (hSymbol : alphabet.lookup symbol = some .jumpIfNonZero) :
    Reached alphabet (text ++ [symbol])
      ((instructions ++ [(⟨.jumpIfNonZero, bracket.address⟩ : Instruction)]).modify bracket.address
        fun jump => { jump with target := instructions.length }) pending := by
  cases h with
  | @within before after opening code instructions pending hBefore hOpening hAfter =>
      have hLoop : alphabet.recognise (opening :: (after ++ [symbol])) =
          (Code.loop code .done).operations := by
        rw [Alphabet.recognise_cons hOpening, Alphabet.recognise_append, hAfter,
          Alphabet.recognise_cons hSymbol]
        rfl
      have hNext := hBefore.extend hLoop
      have hLength : (instructions ++ (⟨.jumpIfZero, 0⟩ : Instruction) ::
          code.instructions (instructions.length + 1)).length =
            instructions.length + code.size + 1 := by
        simp only [List.length_append, List.length_cons, Code.length_instructions]
        omega
      have hPatched : (instructions ++ (⟨.jumpIfZero, 0⟩ : Instruction) ::
            code.instructions (instructions.length + 1) ++
              [(⟨.jumpIfNonZero, instructions.length⟩ : Instruction)]).modify instructions.length
            (fun jump => { jump with target := instructions.length + code.size + 1 }) =
          instructions ++ (Code.loop code .done).instructions instructions.length := by
        rw [List.append_assoc, List.cons_append, modify_middle]
        rfl
      rw [hLength]
      dsimp only
      rw [hPatched, List.append_assoc]
      exact hNext

/-- An assembler that has taken in a text without an error. -/
def Scanned (alphabet : Alphabet) (text : List Char) (assembler : Assembler) : Prop :=
  Reached alphabet text assembler.instructions.toList assembler.pending

theorem scanned_empty : Scanned alphabet [] empty := @Reached.outermost alphabet [] .done rfl

/-- A character that is no symbol changes nothing. -/
theorem Scanned.pass {text : List Char} {assembler : Assembler} {c : Char}
    (h : Scanned alphabet text assembler) (hLookup : alphabet.lookup c = none) :
    Scanned alphabet (text ++ [c]) assembler := by
  have hNone : alphabet.recognise [c] = Code.done.operations :=
    Alphabet.recognise_cons_none hLookup []
  simpa [Scanned, Code.instructions] using Reached.extend h hNone

/-- One operation, if it is no error, keeps the state in order. -/
theorem Scanned.feed {text : List Char} {assembler next : Assembler} {c : Char}
    {operation : Operation} (h : Scanned alphabet text assembler)
    (hLookup : alphabet.lookup c = some operation)
    (hFeed : assembler.feed operation (byteLength text) = (.ok (), next)) :
    Scanned alphabet (text ++ [c]) next := by
  obtain ⟨instructions, pending⟩ := assembler
  obtain ⟨simple, rfl⟩ | rfl | rfl := operation.simple_or_jump
  · have hCode : alphabet.recognise [c] = (Code.simple simple .done).operations :=
      Alphabet.recognise_cons hLookup []
    have hNext : next = emit ⟨instructions, pending⟩ simple.operation := by
      cases simple <;> exact (Prod.mk.inj hFeed).2.symm
    subst hNext
    simpa [Scanned, emit, Code.instructions] using Reached.extend h hCode
  · have hNext : next = openLoop ⟨instructions, pending⟩ (byteLength text) :=
      (Prod.mk.inj hFeed).2.symm
    subst hNext
    have hOpen : Reached alphabet (text ++ [c]) (instructions.toList ++ [⟨.jumpIfZero, 0⟩])
        (⟨instructions.toList.length, byteLength text⟩ :: pending) :=
      @Reached.within alphabet text [] c .done instructions.toList pending h hLookup rfl
    simpa [Scanned, openLoop] using hOpen
  · cases pending with
    | nil => cases (Prod.mk.inj hFeed).1
    | cons bracket pending =>
        have hNext : next = closeLoop instructions bracket pending := (Prod.mk.inj hFeed).2.symm
        subst hNext
        have hClose := Reached.close h hLookup
        simpa [Scanned, closeLoop] using hClose

/-- The only error along the way is a closing symbol while no loop is open. -/
theorem feed_error {assembler next : Assembler} {operation : Operation} {start : Nat}
    {error : CompileError} (h : assembler.feed operation start = (.error error, next)) :
    operation = .jumpIfNonZero ∧ assembler.pending = [] ∧ error = .unmatchedClose start ∧
      next = assembler := by
  obtain ⟨instructions, pending⟩ := assembler
  obtain ⟨simple, rfl⟩ | rfl | rfl := operation.simple_or_jump
  · cases simple <;> cases (Prod.mk.inj h).1
  · cases (Prod.mk.inj h).1
  · cases pending with
    | nil =>
        cases h
        exact ⟨rfl, rfl, rfl, rfl⟩
    | cons bracket pending => cases (Prod.mk.inj h).1

/-- A text that is taken in without an error keeps the state in order. -/
theorem Scanned.absorb (rest : List Char) :
    ∀ {text : List Char} {assembler next : Assembler}, Scanned alphabet text assembler →
      absorb alphabet assembler (byteLength text) rest = (.ok (), next) →
        Scanned alphabet (text ++ rest) next := by
  induction rest with
  | nil =>
      intro text assembler next h hAbsorb
      cases hAbsorb
      rwa [List.append_nil]
  | cons c rest ih =>
      intro text assembler next h hAbsorb
      rw [Assembler.absorb] at hAbsorb
      rw [List.append_cons]
      split at hAbsorb
      · next hLookup =>
          rw [← byteLength_concat] at hAbsorb
          exact ih (h.pass hLookup) hAbsorb
      · next operation hLookup =>
          split at hAbsorb
          · next fed hFeed =>
              rw [← byteLength_concat] at hAbsorb
              exact ih (h.feed hLookup hFeed) hAbsorb
          · cases (Prod.mk.inj hAbsorb).1

/-- A text that fails does so at the first closing symbol that comes while no loop is open. -/
theorem Scanned.absorb_error (rest : List Char) :
    ∀ {text : List Char} {assembler next : Assembler} {error : CompileError},
      Scanned alphabet text assembler →
      Assembler.absorb alphabet assembler (byteLength text) rest = (.error error, next) →
        ∃ (before : List Char) (symbol : Char) (after : List Char),
          text ++ rest = before ++ symbol :: after ∧ Scanned alphabet before next ∧
            next.pending = [] ∧ alphabet.lookup symbol = some .jumpIfNonZero ∧
            error = .unmatchedClose (byteLength before) := by
  induction rest with
  | nil =>
      intro text assembler next error h hAbsorb
      cases (Prod.mk.inj hAbsorb).1
  | cons c rest ih =>
      intro text assembler next error h hAbsorb
      rw [Assembler.absorb] at hAbsorb
      split at hAbsorb
      · next hLookup =>
          rw [← byteLength_concat] at hAbsorb
          rw [List.append_cons]
          exact ih (h.pass hLookup) hAbsorb
      · next operation hLookup =>
          split at hAbsorb
          · next fed hFeed =>
              rw [← byteLength_concat] at hAbsorb
              rw [List.append_cons]
              exact ih (h.feed hLookup hFeed) hAbsorb
          · next failure fed hFeed =>
              cases hAbsorb
              obtain ⟨rfl, hPending, rfl, rfl⟩ := feed_error hFeed
              exact ⟨text, c, rest, rfl, h, hPending, hLookup, rfl⟩

/-- When no loop is open the text is a whole tree. -/
theorem Reached.exists_code {text : List Char} {instructions : List Instruction}
    (h : Reached alphabet text instructions []) :
    ∃ code : Code, alphabet.recognise text = code.operations ∧
      instructions = code.instructions 0 := by
  cases h with
  | @outermost _ code h => exact ⟨code, h, rfl⟩

/-- The innermost open loop begins where the text after its symbol is a whole tree. -/
theorem Reached.exists_innermost {text : List Char} {instructions : List Instruction}
    {bracket : OpenBracket} {pending : List OpenBracket}
    (h : Reached alphabet text instructions (bracket :: pending)) :
    ∃ (before : List Char) (symbol : Char) (after : List Char) (code : Code),
      text = before ++ symbol :: after ∧ alphabet.lookup symbol = some .jumpIfZero ∧
        alphabet.recognise after = code.operations ∧ bracket.start = byteLength before := by
  cases h with
  | @within before after symbol code _ _ _ hSymbol hAfter =>
      exact ⟨before, symbol, after, code, rfl, hSymbol, hAfter, rfl⟩

/-! ## Counting along the way -/

/-- So far nothing is closed that was not open. -/
theorem Reached.closings_le {text : List Char} {instructions : List Instruction}
    {pending : List OpenBracket} (h : Reached alphabet text instructions pending) :
    ∀ start, start <+: alphabet.recognise text → closings start ≤ openings start := by
  induction h with
  | @outermost text code h =>
      rw [h]
      exact code.closings_le_openings
  | @within before after symbol code _ _ _ hSymbol hAfter ih =>
      intro start hStart
      rw [Alphabet.recognise_append, Alphabet.recognise_cons hSymbol, hAfter] at hStart
      have hBefore := ih _ (List.prefix_refl _)
      rcases start_of_append hStart with hStart | ⟨more, hMore, rfl⟩
      · exact ih start hStart
      · rcases List.prefix_cons_iff.1 hMore with rfl | ⟨tail, rfl, hTail⟩
        · rwa [List.append_nil]
        · have hLe := code.closings_le_openings tail hTail
          simp only [openings_append, closings_append, openings_opening, closings_opening]
          omega

/-- As many loops are pending as have been opened and not closed. -/
theorem Reached.openings_eq {text : List Char} {instructions : List Instruction}
    {pending : List OpenBracket} (h : Reached alphabet text instructions pending) :
    openings (alphabet.recognise text) = closings (alphabet.recognise text) + pending.length := by
  induction h with
  | @outermost text code h =>
      rw [h]
      exact code.openings_operations
  | @within before after symbol code _ pending _ hSymbol hAfter ih =>
      have hCode := code.openings_operations
      rw [Alphabet.recognise_append, Alphabet.recognise_cons hSymbol, hAfter]
      simp only [openings_append, closings_append, openings_opening, closings_opening,
        List.length_cons]
      omega

/-! ## The three ways a source can turn out -/

/--
A source compiles to the layout of its tree; or it fails at a closing symbol
before which it is a whole tree; or it fails at an opening symbol after which
it is a whole tree, when nothing was closed too early and not all was closed.
-/
theorem compile_cases (assembler : Assembler) (alphabet : Alphabet) (source : String) :
    (∃ code : Code, alphabet.recognise source.toList = code.operations ∧
      (assembler.compile alphabet source).1 = .ok code.program) ∨
    (∃ (before : List Char) (symbol : Char) (after : List Char) (code : Code),
      source.toList = before ++ symbol :: after ∧
      alphabet.recognise before = code.operations ∧
      alphabet.lookup symbol = some .jumpIfNonZero ∧
      (assembler.compile alphabet source).1 = .error (.unmatchedClose (byteLength before))) ∨
    (∃ (before : List Char) (symbol : Char) (after : List Char) (code : Code),
      source.toList = before ++ symbol :: after ∧
      alphabet.lookup symbol = some .jumpIfZero ∧
      alphabet.recognise after = code.operations ∧
      (∀ start, start <+: alphabet.recognise source.toList → closings start ≤ openings start) ∧
      closings (alphabet.recognise source.toList) < openings (alphabet.recognise source.toList) ∧
      (assembler.compile alphabet source).1 = .error (.unmatchedOpen (byteLength before))) := by
  rw [Assembler.compile, reset_eq_empty, ← byteLength_nil]
  split
  · next reached hAbsorb =>
      have hScanned := Scanned.absorb source.toList scanned_empty hAbsorb
      rw [List.nil_append] at hScanned
      obtain ⟨⟨instructions⟩, pending⟩ := reached
      -- whether a loop is still open decides between the first case and the last
      cases pending with
      | nil =>
          obtain ⟨code, hCode, rfl⟩ := Reached.exists_code hScanned
          exact .inl ⟨code, hCode, rfl⟩
      | cons bracket pending =>
          obtain ⟨before, symbol, after, code, hSplit, hSymbol, hAfter, hStart⟩ :=
            Reached.exists_innermost hScanned
          have hCount := Reached.openings_eq hScanned
          rw [List.length_cons] at hCount
          refine .inr (.inr ⟨before, symbol, after, code, hSplit, hSymbol, hAfter,
            Reached.closings_le hScanned, by omega, ?_⟩)
          rw [← hStart]
          rfl
  · next error reached hAbsorb =>
      obtain ⟨before, symbol, after, hSplit, hScanned, hPending, hSymbol, rfl⟩ :=
        Scanned.absorb_error source.toList scanned_empty hAbsorb
      rw [Scanned, hPending] at hScanned
      obtain ⟨code, hCode, _⟩ := hScanned.exists_code
      exact .inr (.inl ⟨before, symbol, after, code, hSplit, hCode, hSymbol, rfl⟩)

end Assembler

/-- A source compiles to the layout of its tree, and if it has no tree it does not compile. -/
theorem compile_eq_ok_iff {alphabet : Alphabet} {source : String} {program : Program} :
    compile alphabet source = .ok program ↔
      ∃ code : Code, alphabet.recognise source.toList = code.operations ∧
        program = code.program := by
  obtain ⟨code, hCode, hOk⟩ | ⟨before, symbol, after, code, hSplit, hBefore, hSymbol, hError⟩ |
    ⟨_, _, _, _, _, _, _, _, hOpen, hError⟩ := Assembler.compile_cases .empty alphabet source
  · constructor
    · intro h
      rw [compile, hOk] at h
      exact ⟨code, hCode, (Except.ok.inj h).symm⟩
    · rintro ⟨other, hOther, rfl⟩
      rw [compile, hOk, Code.operations_injective (hCode.symm.trans hOther)]
  · constructor
    · intro h
      rw [compile, hError] at h
      cases h
    · rintro ⟨other, hOther, rfl⟩
      -- the tree before the symbol and the symbol make a beginning that closes too much
      rw [hSplit, Alphabet.recognise_append, Alphabet.recognise_cons hSymbol, hBefore] at hOther
      have hPrefix : code.operations ++ [.jumpIfNonZero] <+: other.operations :=
        ⟨alphabet.recognise after, by rw [← hOther, List.append_assoc]; rfl⟩
      have hLe := other.closings_le_openings _ hPrefix
      have hSettled := code.openings_operations
      simp only [openings_append, closings_append, openings_closing, closings_closing,
        openings_nil, closings_nil] at hLe
      omega
  · constructor
    · intro h
      rw [compile, hError] at h
      cases h
    · rintro ⟨other, hOther, rfl⟩
      have hSettled := other.openings_operations
      rw [← hOther] at hSettled
      omega

end TapeLang
