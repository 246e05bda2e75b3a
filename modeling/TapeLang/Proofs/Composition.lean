import TapeLang.Proofs.Diagnosis
import TapeLang.Proofs.TurnedTape

/-!
# Sources put together

The assembler works with absolute addresses, absolute offsets and one stack for
the whole source.  Still a source that compiles is a unit: it leaves nothing on
the stack, so what comes after it is assembled as if it stood alone, only further
on.  Addresses move by the number of instructions before them, and the offset of
a reported bracket moves by the number of bytes.

Programs are put together through their trees, where nothing has to be moved at
all.  For the reported bracket the counting conditions are used, since they fix
it: `compile_eq_unmatchedClose` and `compile_eq_unmatchedOpen`.

## Main results

* `Code.program_append`, `Code.program_loop` — programs of one tree after another,
  and of a loop around a tree.
* `compile_append_error` — the bracket that is reported behind a source that compiles.
* `compile_is_compositional` — compiling a source from its parts.
-/

namespace TapeLang

/-! ## Programs put together -/

namespace Program

/-- The program as it stands that much further on. -/
def relocate (shift : Nat) (program : Program) : Program :=
  ⟨program.instructions.map (Instruction.relocate shift)⟩

/-- One program after another. Targets stay as they are. -/
def append (first second : Program) : Program :=
  ⟨first.instructions ++ second.instructions⟩

instance : Append Program := ⟨append⟩

end Program

namespace Code

theorem relocate_program (code : Code) (shift : Nat) :
    code.program.relocate shift = ⟨(code.instructions shift).toArray⟩ := by
  have hMoved := code.instructions_relocate shift 0
  rw [Nat.zero_add] at hMoved
  rw [hMoved, ← List.map_toArray]
  rfl

/-- One tree after another: the second program stands behind the first. -/
theorem program_append (code next : Code) :
    (code.append next).program = code.program ++ next.program.relocate code.program.size := by
  have hInstructions : ((code.append next).instructions 0).toArray =
      (code.instructions 0).toArray ++ (next.instructions code.size).toArray := by
    rw [instructions_append, Nat.zero_add, List.append_toArray]
  rw [relocate_program, size_program]
  exact congrArg Program.mk hInstructions

/-- A loop around a tree: the program stands between the two jumps. -/
theorem program_loop (code : Code) :
    (Code.loop code .done).program =
      ⟨#[⟨.jumpIfZero, code.program.size + 1⟩]⟩ ++ code.program.relocate 1 ++
        ⟨#[⟨.jumpIfNonZero, 0⟩]⟩ := by
  have hInstructions : ((Code.loop code .done).instructions 0).toArray =
      #[⟨.jumpIfZero, code.size + 1⟩] ++ (code.instructions 1).toArray ++
        #[⟨.jumpIfNonZero, 0⟩] := by
    simp [instructions]
  rw [relocate_program, size_program]
  exact congrArg Program.mk hInstructions

end Code

/-! ## Offsets -/

theorem byteLength_toList (source : String) : byteLength source.toList = source.utf8ByteSize := by
  rw [byteLength, String.ofList_toList]

/-- The same error in a source that begins that many bytes later. -/
def CompileError.later (shift : Nat) : CompileError → CompileError
  | .unmatchedOpen start => .unmatchedOpen (start + shift)
  | .unmatchedClose start => .unmatchedClose (start + shift)

/-! ## The conditions fix the bracket -/

namespace Alphabet

variable {alphabet : Alphabet} {text before before' : List Char}

theorem FirstExcess.unique (h : alphabet.FirstExcess text before)
    (h' : alphabet.FirstExcess text before') : before = before' := by
  obtain ⟨symbol, hPrefix, hOver, hLeast⟩ := h
  obtain ⟨symbol', hPrefix', hOver', hLeast'⟩ := h'
  have hLess := hLeast _ hPrefix' hOver'
  have hLess' := hLeast' _ hPrefix hOver
  rw [List.length_append, List.length_singleton] at hLess hLess'
  have hLength : before.length = before'.length := by omega
  have hBefore : before <+: text := (List.prefix_append _ _).trans hPrefix
  have hBefore' : before' <+: text := (List.prefix_append _ _).trans hPrefix'
  exact (List.prefix_of_prefix_length_le hBefore hBefore' hLength.le).eq_of_length hLength

theorem LastOpen.unique (h : alphabet.LastOpen text before)
    (h' : alphabet.LastOpen text before') : before = before' := by
  obtain ⟨after, hText, hNever, hMost⟩ := h
  obtain ⟨after', hText', hNever', hMost'⟩ := h'
  have hLength : before.length = before'.length :=
    Nat.le_antisymm (hMost' before after hText hNever) (hMost before' after' hText' hNever')
  exact List.append_inj_left (hText.symm.trans hText') hLength

end Alphabet

section Reported

variable {alphabet : Alphabet} {source : String} {before after : List Char} {symbol : Char}
  {code : Code}

/-- A closing symbol behind a whole tree is what is reported, whatever comes after it. -/
theorem compile_eq_unmatchedClose (hSource : source.toList = before ++ symbol :: after)
    (hBefore : alphabet.recognise before = code.operations)
    (hSymbol : alphabet.lookup symbol = some .jumpIfNonZero) :
    compile alphabet source = .error (.unmatchedClose (byteLength before)) := by
  have hFirst := Alphabet.firstExcess_of_code hSource hBefore hSymbol
  obtain ⟨_, _, hSafe, _⟩ | ⟨before', hError, hFirst'⟩ | ⟨_, _, _, hSafe, _⟩ :=
    Assembler.empty.compile_diagnosis alphabet source
  · exact absurd hSafe hFirst.not_neverOverclosed
  · rw [hFirst.unique hFirst']
    exact hError
  · exact absurd hSafe hFirst.not_neverOverclosed

/-- An opening symbol before a whole tree is what is reported, if nothing was closed too early. -/
theorem compile_eq_unmatchedOpen (hSource : source.toList = before ++ symbol :: after)
    (hSymbol : alphabet.lookup symbol = some .jumpIfZero)
    (hAfter : alphabet.recognise after = code.operations)
    (hNever : ∀ start, start <+: alphabet.recognise source.toList →
      closings start ≤ openings start) :
    compile alphabet source = .error (.unmatchedOpen (byteLength before)) := by
  have hSafe := Alphabet.neverOverclosed_of_recognise hNever
  have hLast := Alphabet.lastOpen_of_code hSource hSymbol hAfter
  obtain ⟨_, _, _, hEven⟩ | ⟨_, _, hFirst⟩ | ⟨before', hError, hLast', _⟩ :=
    Assembler.empty.compile_diagnosis alphabet source
  · -- up to the symbol not too much is closed, and the tree behind it closes itself
    have hBefore := hNever (alphabet.recognise before) (by
      rw [hSource, Alphabet.recognise_append]
      exact List.prefix_append _ _)
    have hCode := code.openings_operations
    rw [← Alphabet.openings_recognise, ← Alphabet.closings_recognise, hSource,
      Alphabet.recognise_append, Alphabet.recognise_cons hSymbol, hAfter] at hEven
    simp only [openings_append, closings_append, openings_opening, closings_opening] at hEven
    omega
  · exact absurd hSafe hFirst.not_neverOverclosed
  · rw [hLast.unique hLast']
    exact hError

end Reported

/-! ## Sources put together -/

section Append

variable {alphabet : Alphabet} {first next : String} {program : Program}

/-- Behind a source that compiles the same bracket is reported, that much further on. -/
theorem compile_append_error (hFirst : compile alphabet first = .ok program) {error : CompileError}
    (hNext : compile alphabet next = .error error) :
    compile alphabet (first ++ next) = .error (error.later first.utf8ByteSize) := by
  obtain ⟨code, hCode, rfl⟩ := compile_eq_ok_iff.1 hFirst
  have hSplit : ∀ {before : List Char} {symbol : Char} {after : List Char},
      next.toList = before ++ symbol :: after →
        (first ++ next).toList = (first.toList ++ before) ++ symbol :: after := by
    intro before symbol after hNext
    rw [String.toList_append, hNext, List.append_assoc]
  have hOffset : ∀ before : List Char, byteLength (first.toList ++ before) =
      byteLength before + first.utf8ByteSize := by
    intro before
    rw [byteLength_append, byteLength_toList, Nat.add_comm]
  obtain ⟨_, _, hOk⟩ | ⟨before, symbol, after, inner, hSource, hBefore, hSymbol, hError⟩ |
    ⟨before, symbol, after, inner, hSource, hSymbol, hAfter, hNever, _, hError⟩ :=
      Assembler.compile_cases .empty alphabet next
  · rw [compile, hOk] at hNext
    cases hNext
  · rw [compile, hError] at hNext
    cases hNext
    have hTree : alphabet.recognise (first.toList ++ before) = (code.append inner).operations := by
      rw [Alphabet.recognise_append, hCode, hBefore, Code.operations_append]
    rw [compile_eq_unmatchedClose (hSplit hSource) hTree hSymbol, hOffset]
    rfl
  · rw [compile, hError] at hNext
    cases hNext
    have hSafe : ∀ start, start <+: alphabet.recognise (first ++ next).toList →
        closings start ≤ openings start := by
      intro start hStart
      rw [String.toList_append, Alphabet.recognise_append, hCode] at hStart
      rcases start_of_append hStart with hInside | ⟨more, hMore, rfl⟩
      · exact code.closings_le_openings start hInside
      · have hLe := hNever more hMore
        have hSettled := code.openings_operations
        rw [openings_append, closings_append]
        omega
    rw [compile_eq_unmatchedOpen (hSplit hSource) hSymbol hAfter hSafe, hOffset]
    rfl

theorem compile_append_ok (hFirst : compile alphabet first = .ok program) {nextProgram : Program}
    (hNext : compile alphabet next = .ok nextProgram) :
    compile alphabet (first ++ next) = .ok (program ++ nextProgram.relocate program.size) := by
  obtain ⟨code, hCode, rfl⟩ := compile_eq_ok_iff.1 hFirst
  obtain ⟨nextCode, hNextCode, rfl⟩ := compile_eq_ok_iff.1 hNext
  refine compile_eq_ok_iff.2 ⟨code.append nextCode, ?_, (Code.program_append code nextCode).symm⟩
  rw [String.toList_append, Alphabet.recognise_append, hCode, hNextCode, Code.operations_append]

/-- Brackets around a source are a loop around its program. -/
theorem compile_brackets (h : compile alphabet first = .ok program) :
    compile alphabet (String.singleton (alphabet.symbol .jumpIfZero) ++ first ++
        String.singleton (alphabet.symbol .jumpIfNonZero)) =
      .ok (⟨#[⟨.jumpIfZero, program.size + 1⟩]⟩ ++ program.relocate 1 ++
        ⟨#[⟨.jumpIfNonZero, 0⟩]⟩) := by
  obtain ⟨code, hCode, rfl⟩ := compile_eq_ok_iff.1 h
  refine compile_eq_ok_iff.2 ⟨.loop code .done, ?_, (Code.program_loop code).symm⟩
  have hOpening := Alphabet.recognise_cons (alphabet.lookup_symbol .jumpIfZero) []
  have hClosing := Alphabet.recognise_cons (alphabet.lookup_symbol .jumpIfNonZero) []
  rw [String.toList_append, String.toList_append, Alphabet.recognise_append,
    Alphabet.recognise_append, hCode, String.toList_singleton, String.toList_singleton, hOpening,
    hClosing]
  rfl

/-- No text behind it makes up for a closing bracket that closes nothing. -/
theorem compile_append_unmatchedClose {start : Nat}
    (h : compile alphabet first = .error (.unmatchedClose start)) (more : String) :
    compile alphabet (first ++ more) = .error (.unmatchedClose start) := by
  obtain ⟨_, _, hOk⟩ | ⟨before, symbol, after, code, hSource, hBefore, hSymbol, hError⟩ |
    ⟨_, _, _, _, _, _, _, _, _, hError⟩ := Assembler.compile_cases .empty alphabet first
  · rw [compile, hOk] at h
    cases h
  · rw [compile, hError] at h
    cases h
    have hWhole : (first ++ more).toList = before ++ symbol :: (after ++ more.toList) := by
      rw [String.toList_append, hSource, List.append_assoc]
      rfl
    exact compile_eq_unmatchedClose hWhole hBefore hSymbol
  · rw [compile, hError] at h
    cases h

end Append

/--
**Compiling is compositional.**  Behind a source that compiles, another source that
compiles gives its program, relocated by the number of instructions before it; one
that fails fails in the same way, at an offset that is larger by the number of bytes
before it.  In brackets, a source that compiles gives its program relocated by one
between two jumps that name each other.  And a source in which a closing bracket
closes nothing fails for it whatever is added behind.
-/
theorem compile_is_compositional (alphabet : Alphabet) :
    (∀ (first : String) (program : Program), compile alphabet first = .ok program →
      (∀ (next : String) (nextProgram : Program), compile alphabet next = .ok nextProgram →
        compile alphabet (first ++ next) =
          .ok (program ++ nextProgram.relocate program.size)) ∧
      (∀ (next : String) (error : CompileError), compile alphabet next = .error error →
        compile alphabet (first ++ next) = .error (error.later first.utf8ByteSize)) ∧
      compile alphabet (String.singleton (alphabet.symbol .jumpIfZero) ++ first ++
          String.singleton (alphabet.symbol .jumpIfNonZero)) =
        .ok (⟨#[⟨.jumpIfZero, program.size + 1⟩]⟩ ++ program.relocate 1 ++
          ⟨#[⟨.jumpIfNonZero, 0⟩]⟩)) ∧
    ∀ (source : String) (start : Nat), compile alphabet source = .error (.unmatchedClose start) →
      ∀ more : String, compile alphabet (source ++ more) = .error (.unmatchedClose start) := by
  constructor
  · intro first program hFirst
    refine ⟨?_, ?_, compile_brackets hFirst⟩
    · intro next nextProgram hNext
      exact compile_append_ok hFirst hNext
    · intro next error hNext
      exact compile_append_error hFirst hNext
  · intro source start hSource more
    exact compile_append_unmatchedClose hSource more

/-- A source of six bytes and three instructions, in brackets, and before one that fails. -/
theorem compile_is_compositional_around_loop :
    compile .ascii "aé[-]" = .ok ⟨#[⟨.jumpIfZero, 2⟩, ⟨.decrement, 0⟩, ⟨.jumpIfNonZero, 0⟩]⟩ ∧
    compile .ascii "[aé[-]]" = .ok ⟨#[⟨.jumpIfZero, 4⟩, ⟨.jumpIfZero, 3⟩, ⟨.decrement, 0⟩,
      ⟨.jumpIfNonZero, 1⟩, ⟨.jumpIfNonZero, 0⟩]⟩ ∧
    compile .ascii "+[" = .error (.unmatchedOpen 1) ∧
    compile .ascii "aé[-]+[" = .error (.unmatchedOpen 7) := by
  have hFirst : compile .ascii "aé[-]" =
      .ok ⟨#[⟨.jumpIfZero, 2⟩, ⟨.decrement, 0⟩, ⟨.jumpIfNonZero, 0⟩]⟩ := by rfl
  have hNext : compile .ascii "+[" = .error (.unmatchedOpen 1) := by rfl
  obtain ⟨_, hError, hBrackets⟩ := (compile_is_compositional .ascii).1 "aé[-]" _ hFirst
  refine ⟨hFirst, hBrackets.trans ?_, hNext, hError "+[" _ hNext⟩
  cbv

end TapeLang
