import TapeLang.Proofs.Assembly
import TapeLang.Source

/-!
# Compiling the source of a program

The source of a program spells its operations in order and adds nothing but
tabs and line ends.  If these are not symbols themselves, an assembler passes
over them and finds the operations again.  An alphabet may well use a tab or a
line end as a symbol; then each one added is read as an operation too many.

So two things are followed through the writing of a source: what its lines
spell (`Source.State.spelled`), and at which levels lines stand
(`Source.State.HasLevel`).  The first gives back the operations, the second
says whether any tab was written at all.

## Main results

* `Program.bodyChars_source`, `Program.level_source` — what a source spells, and
  the levels of its lines.
* `Code.levels_eq_iff` — only code in loops is indented.
* `Program.recognise_source_iff` — a source is read back as its operations
  exactly if nothing that was added is a symbol.
* `compile_source_iff` — which programs survive being written and compiled.
-/

namespace TapeLang

/-! ## Levels -/

namespace Operation

/-- The level at which an operation is shown, from the level before it. -/
def shownLevel : Operation → Nat → Nat
  | .jumpIfNonZero, level => level - 1
  | _, level => level

/-- The level after an operation, from the level before it. -/
def nextLevel : Operation → Nat → Nat
  | .jumpIfZero, level => level + 1
  | .jumpIfNonZero, level => level - 1
  | _, level => level

end Operation

/-- The levels at which operations are shown, one after the other. -/
def levels (level : Nat) : List Operation → List Nat
  | [] => []
  | operation :: rest => operation.shownLevel level :: levels (operation.nextLevel level) rest

/-- The level after operations. -/
def levelAfter (level : Nat) (operations : List Operation) : Nat :=
  operations.foldl (fun level operation => operation.nextLevel level) level

theorem levels_append (first second : List Operation) :
    ∀ level : Nat, levels level (first ++ second) =
      levels level first ++ levels (levelAfter level first) second := by
  induction first with
  | nil => intro level; rfl
  | cons operation rest ih =>
      intro level
      simp only [List.cons_append, levels, ih]
      rfl

namespace Code

@[simp] theorem levelAfter_operations (code : Code) :
    ∀ level : Nat, levelAfter level code.operations = level := by
  induction code with
  | done => intro level; rfl
  | simple operation rest ih =>
      intro level
      have hNext : operation.operation.nextLevel level = level := by cases operation <;> rfl
      show levelAfter (operation.operation.nextLevel level) rest.operations = level
      rw [hNext, ih]
  | loop body rest ihBody ihRest =>
      intro level
      show levelAfter (level + 1) (body.operations ++ .jumpIfNonZero :: rest.operations) = level
      rw [levelAfter, List.foldl_append]
      show levelAfter (levelAfter (level + 1) body.operations - 1) rest.operations = level
      rw [ihBody, Nat.add_sub_cancel, ihRest]

/-- Within a loop everything is shown one level further in. -/
theorem levels_loop (body rest : Code) (level : Nat) :
    levels level (loop body rest).operations =
      level :: (levels (level + 1) body.operations ++ level :: levels level rest.operations) := by
  show level :: levels (level + 1) (body.operations ++ .jumpIfNonZero :: rest.operations) = _
  rw [levels_append, levelAfter_operations]
  rfl

theorem levels_simple (operation : SimpleOperation) (rest : Code) (level : Nat) :
    levels level (simple operation rest).operations = level :: levels level rest.operations := by
  cases operation <;> rfl

theorem le_of_mem_levels (code : Code) :
    ∀ level n : Nat, n ∈ levels level code.operations → level ≤ n := by
  induction code with
  | done => intro level n h; cases h
  | simple operation rest ih =>
      intro level n h
      rw [levels_simple, List.mem_cons] at h
      obtain rfl | hRest := h
      · exact Nat.le_refl _
      · exact ih level n hRest
  | loop body rest ihBody ihRest =>
      intro level n h
      rw [levels_loop, List.mem_cons, List.mem_append, List.mem_cons] at h
      obtain rfl | hBody | rfl | hRest := h
      · exact Nat.le_refl _
      · have hLe := ihBody (level + 1) n hBody
        omega
      · exact Nat.le_refl _
      · exact ihRest level n hRest

/-- All is shown at the outermost level exactly if every loop is empty. -/
theorem levels_eq_iff (code : Code) :
    ∀ level : Nat, (∀ n ∈ levels level code.operations, n = level) ↔
      ∀ (i : Nat) (body : Code), code.LoopAt i body → body = .done := by
  induction code with
  | done =>
      intro level
      constructor
      · intro _ i body hLoop
        cases hLoop
      · intro _ n hn
        cases hn
  | simple operation rest ih =>
      intro level
      rw [levels_simple]
      constructor
      · intro h i body hLoop
        cases hLoop with
        | later hLoop => exact (ih level).1 (fun n hn => h n (by simp [hn])) _ body hLoop
      · intro h n hn
        rcases List.mem_cons.1 hn with rfl | hRest
        · rfl
        · exact (ih level).2 (fun i body hLoop => h _ body (.later hLoop)) n hRest
  | loop body rest ihBody ihRest =>
      intro level
      rw [levels_loop]
      constructor
      · intro h
        -- whatever stands in the body is shown further in
        have hEmpty : body = .done := by
          have hNone : levels (level + 1) body.operations = [] := by
            apply List.eq_nil_iff_forall_not_mem.2
            intro n hn
            have hEq := h n (by simp [hn])
            have hLe := body.le_of_mem_levels (level + 1) n hn
            omega
          cases body with
          | done => rfl
          | simple operation inner => rw [levels_simple] at hNone; cases hNone
          | loop inner after => rw [levels_loop] at hNone; cases hNone
        subst hEmpty
        intro i inner hLoop
        cases hLoop with
        | here => rfl
        | inside hLoop => cases hLoop
        | after hLoop => exact (ihRest level).1 (fun n hn => h n (by simp [hn])) _ inner hLoop
      · intro h
        have hEmpty : body = .done := h 0 body .here
        subst hEmpty
        intro n hn
        simp only [operations, levels, List.nil_append, List.mem_cons] at hn
        obtain rfl | rfl | hRest := hn
        · rfl
        · rfl
        · exact (ihRest level).2 (fun i inner hLoop => h _ inner (.after hLoop)) n hRest

end Code

/-! ## What is written -/

namespace Line

/-- The characters of a line's body. -/
def bodyChars (line : Line) : List Char := (String.join line.body).toList

/-- The characters of a line's margin. -/
def marginChars (line : Line) : List Char := (String.join line.margin).toList

/-- All characters of a line behind its margin, its end included. -/
def chars (line : Line) : List Char :=
  List.replicate line.level '\t' ++ (line.bodyChars ++ ['\n'])

theorem flatMap_toList_pieces_eq (line : Line) :
    line.pieces.flatMap String.toList = line.marginChars ++ line.chars := by
  have hTabs : ∀ n : Nat, (List.replicate n "\t").flatMap String.toList = List.replicate n '\t' := by
    intro n
    induction n with
    | zero => rfl
    | succ n ih => rw [List.replicate_succ, List.flatMap_cons, ih]; rfl
  simp only [pieces, List.flatMap_append, hTabs, chars, marginChars, bodyChars,
    String.toList_join, List.append_assoc]
  rfl

theorem flatMap_toList_pieces {line : Line} (h : line.margin = []) :
    line.pieces.flatMap String.toList = line.chars := by
  rw [flatMap_toList_pieces_eq, marginChars, h]
  rfl

end Line

namespace Source.State

variable (state : State)

/-- The characters that spell operations: the bodies of the lines, and the line begun. -/
def spelled : List Char :=
  state.layout.lines.toList.flatMap Line.bodyChars ++ state.pending.toList

/-- A line stands at a level, or one is begun there. -/
def HasLevel (n : Nat) : Prop :=
  (∃ line ∈ state.layout.lines, line.level = n) ∨ (state.pending ≠ "" ∧ state.level = n)

/-- No line has anything in its margin. -/
def NoMargins : Prop := ∀ line ∈ state.layout.lines, line.margin = []

/-! ### Ending a line -/

@[simp] theorem endLine_pending : state.endLine.pending = "" := by
  obtain ⟨layout, pending, level⟩ := state
  rw [endLine]
  split
  · next hEmpty => exact String.isEmpty_iff.1 hEmpty
  · rfl

@[simp] theorem endLine_level : state.endLine.level = state.level := by
  obtain ⟨layout, pending, level⟩ := state
  rw [endLine]
  split <;> rfl

@[simp] theorem spelled_endLine : state.endLine.spelled = state.spelled := by
  obtain ⟨layout, pending, level⟩ := state
  rw [endLine]
  split
  · rfl
  · simp [spelled, Layout.push, Line.bodyChars]

@[simp] theorem hasLevel_endLine (n : Nat) : state.endLine.HasLevel n ↔ state.HasLevel n := by
  obtain ⟨layout, pending, level⟩ := state
  rw [endLine]
  split
  · rfl
  · next hPending =>
      rw [String.isEmpty_iff] at hPending
      simp [HasLevel, Layout.push, hPending, or_and_right, exists_or]

theorem NoMargins.endLine {state : State} (h : state.NoMargins) : state.endLine.NoMargins := by
  obtain ⟨layout, pending, level⟩ := state
  rw [State.endLine]
  split
  · exact h
  · intro line hLine
    rcases Array.mem_push.1 hLine with hOld | rfl
    · exact h line hOld
    · rfl

/-! ### Adding an operation -/

theorem bracket_eq (symbol : Char) :
    state.bracket symbol =
      ⟨state.endLine.layout.push { level := state.level, body := [symbol.toString] }, "",
        state.level⟩ := by
  rw [← endLine_pending state, ← endLine_level state]
  rfl

@[simp] theorem bracket_pending (symbol : Char) : (state.bracket symbol).pending = "" := by
  rw [bracket_eq]

@[simp] theorem bracket_level (symbol : Char) : (state.bracket symbol).level = state.level := by
  rw [bracket_eq]

theorem spelled_bracket (symbol : Char) :
    (state.bracket symbol).spelled = state.spelled ++ [symbol] := by
  rw [← spelled_endLine state, bracket_eq]
  simp [spelled, Layout.push, Line.bodyChars]

theorem hasLevel_bracket (symbol : Char) (n : Nat) :
    (state.bracket symbol).HasLevel n ↔ state.HasLevel n ∨ state.level = n := by
  rw [← hasLevel_endLine state, bracket_eq]
  simp [HasLevel, Layout.push, or_and_right, exists_or]

theorem NoMargins.bracket {state : State} (h : state.NoMargins) (symbol : Char) :
    (state.bracket symbol).NoMargins := by
  rw [bracket_eq]
  intro line hLine
  rcases Array.mem_push.1 hLine with hOld | rfl
  · exact h.endLine line hOld
  · rfl

/-- Where no line is begun, the level may change and no line is moved. -/
theorem hasLevel_relevel {state : State} (hPending : state.pending = "") (level n : Nat) :
    { state with level := level }.HasLevel n ↔ state.HasLevel n := by
  simp [HasLevel, hPending]

/-- What one operation adds: its symbol, a line at the level where it is shown, and a new level. -/
structure Adds (alphabet : Alphabet) (operation : Operation) (before after : State) : Prop where
  spelled : after.spelled = before.spelled ++ [alphabet.symbol operation]
  level : after.level = operation.nextLevel before.level
  hasLevel : ∀ n, after.HasLevel n ↔ before.HasLevel n ∨ operation.shownLevel before.level = n
  noMargins : before.NoMargins → after.NoMargins

theorem adds_simple (alphabet : Alphabet) (simple : SimpleOperation) :
    Adds alphabet simple.operation state
      { state with pending := state.pending.push (alphabet.symbol simple.operation) } where
  spelled := by simp [State.spelled]
  level := by cases simple <;> rfl
  hasLevel := by
    intro n
    have hShown : simple.operation.shownLevel state.level = state.level := by
      cases simple <;> rfl
    have hPush : state.pending.push (alphabet.symbol simple.operation) ≠ "" := by
      simp [← String.toList_eq_nil_iff]
    rw [hShown]
    by_cases hPending : state.pending = ""
    · simp [HasLevel, hPending]
    · simp [HasLevel, hPending, hPush]
  noMargins := id

theorem adds_opening (alphabet : Alphabet) :
    Adds alphabet .jumpIfZero state (state.bracket (alphabet.symbol .jumpIfZero)).indent where
  spelled := state.spelled_bracket _
  level := by
    show (state.bracket _).level + 1 = state.level + 1
    rw [bracket_level]
  hasLevel := by
    intro n
    rw [indent, hasLevel_relevel (state.bracket_pending _), hasLevel_bracket]
    rfl
  noMargins h := h.bracket _

theorem adds_closing (alphabet : Alphabet) :
    Adds alphabet .jumpIfNonZero state
      (state.endLine.outdent.bracket (alphabet.symbol .jumpIfNonZero)) where
  spelled := by
    rw [spelled_bracket, ← spelled_endLine state]
    rfl
  level := by
    rw [bracket_level]
    show state.endLine.level - 1 = state.level - 1
    rw [endLine_level]
  hasLevel := by
    intro n
    rw [hasLevel_bracket, outdent, hasLevel_relevel state.endLine_pending, hasLevel_endLine,
      endLine_level]
    rfl
  noMargins := by
    intro h
    have hOut : state.endLine.outdent.NoMargins := h.endLine
    exact hOut.bracket _

/-- One instruction adds its operation. -/
theorem adds_feed (alphabet : Alphabet) (instruction : Instruction) :
    Adds alphabet instruction.operation state (state.feed alphabet instruction) := by
  obtain ⟨operation, target⟩ := instruction
  obtain ⟨simple, rfl⟩ | rfl | rfl := operation.simple_or_jump
  · have hFeed : state.feed alphabet ⟨simple.operation, target⟩ =
        { state with pending := state.pending.push (alphabet.symbol simple.operation) } := by
      cases simple <;> rfl
    rw [hFeed]
    exact state.adds_simple alphabet simple
  · exact state.adds_opening alphabet
  · exact state.adds_closing alphabet

/-- Instructions one after the other add their operations. -/
theorem foldl_feed (alphabet : Alphabet) (instructions : List Instruction) :
    ∀ state : State,
      (instructions.foldl (feed alphabet) state).spelled =
        state.spelled ++ (instructions.map Instruction.operation).map alphabet.symbol ∧
      (∀ n, (instructions.foldl (feed alphabet) state).HasLevel n ↔ state.HasLevel n ∨
        n ∈ levels state.level (instructions.map Instruction.operation)) ∧
      (state.NoMargins → (instructions.foldl (feed alphabet) state).NoMargins) := by
  induction instructions with
  | nil => intro state; simp [levels]
  | cons instruction rest ih =>
      intro state
      have hAdds := state.adds_feed alphabet instruction
      obtain ⟨hSpelled, hLevel, hMargins⟩ := ih (state.feed alphabet instruction)
      refine ⟨?_, ?_, ?_⟩
      · rw [List.foldl_cons, hSpelled, hAdds.spelled]
        simp
      · intro n
        rw [List.foldl_cons, hLevel, hAdds.hasLevel, hAdds.level, List.map_cons, levels,
          List.mem_cons, or_assoc, eq_comm]
      · intro h
        exact hMargins (hAdds.noMargins h)

end Source.State

namespace Program

variable (alphabet : Alphabet) (program : Program)

theorem margin_source {line : Line} (h : line ∈ (program.source alphabet).lines) :
    line.margin = [] := by
  have hStart : ({} : Source.State).NoMargins := by intro line hLine; simp at hLine
  obtain ⟨_, _, hMargins⟩ := Source.State.foldl_feed alphabet program.instructions.toList {}
  exact (hMargins hStart).endLine line h

/-- The bodies of the lines spell the operations. -/
theorem bodyChars_source :
    (program.source alphabet).lines.toList.flatMap Line.bodyChars =
      program.operations.map alphabet.symbol := by
  obtain ⟨hSpelled, _, _⟩ := Source.State.foldl_feed alphabet program.instructions.toList {}
  rw [← Source.State.spelled_endLine, Source.State.spelled, Source.State.endLine_pending] at hSpelled
  simpa [Source.State.spelled, source, operations] using hSpelled

/-- Lines stand at the levels at which operations are shown, and nowhere else. -/
theorem level_source (n : Nat) :
    (∃ line ∈ (program.source alphabet).lines, line.level = n) ↔
      n ∈ levels 0 program.operations := by
  obtain ⟨_, hLevel, _⟩ := Source.State.foldl_feed alphabet program.instructions.toList {}
  have hEnd := hLevel n
  rw [← Source.State.hasLevel_endLine, Source.State.HasLevel, Source.State.endLine_pending] at hEnd
  simpa [Source.State.HasLevel, source, operations] using hEnd

theorem toList_text_source :
    (program.source alphabet).text.toList =
      (program.source alphabet).lines.toList.flatMap Line.chars := by
  rw [Layout.text, Layout.pieces, String.toList_join, List.flatMap_assoc]
  apply congrArg List.flatten
  apply List.map_congr_left
  intro line hLine
  exact Line.flatMap_toList_pieces (program.margin_source alphabet (Array.mem_toList_iff.1 hLine))

end Program

/-! ## What is read back -/

namespace Alphabet

variable (alphabet : Alphabet)

theorem recognise_symbols (operations : List Operation) :
    alphabet.recognise (operations.map alphabet.symbol) = operations := by
  induction operations with
  | nil => rfl
  | cons operation rest ih =>
      rw [List.map_cons, recognise_cons (alphabet.lookup_symbol operation), ih]

/-- Nothing is read in the indentation and the end of a line. -/
def Passes (line : Line) : Prop :=
  (line.level = 0 ∨ alphabet.lookup '\t' = none) ∧ alphabet.lookup '\n' = none

theorem recognise_chars (line : Line) :
    alphabet.recognise line.chars = alphabet.recognise (List.replicate line.level '\t') ++
      (alphabet.recognise line.bodyChars ++ alphabet.recognise ['\n']) := by
  rw [Line.chars, recognise_append, recognise_append]

theorem passes_iff (line : Line) :
    alphabet.Passes line ↔ alphabet.recognise line.chars = alphabet.recognise line.bodyChars := by
  have hTabs : alphabet.recognise (List.replicate line.level '\t') = [] ↔
      line.level = 0 ∨ alphabet.lookup '\t' = none := by
    by_cases hLevel : line.level = 0
    · simp [hLevel, recognise]
    · simp [hLevel, recognise, List.mem_replicate]
  have hEnd : alphabet.recognise ['\n'] = [] ↔ alphabet.lookup '\n' = none := by
    simp [recognise]
  rw [Passes, ← hTabs, ← hEnd, recognise_chars]
  constructor
  · rintro ⟨hNone, hNone'⟩
    rw [hNone, hNone', List.nil_append, List.append_nil]
  · intro h
    have hLength := congrArg List.length h
    simp only [List.length_append] at hLength
    exact ⟨List.eq_nil_of_length_eq_zero (by omega), List.eq_nil_of_length_eq_zero (by omega)⟩

/-- Of a text no less is read than of the bodies of its lines. -/
theorem length_recognise_le (lines : List Line) :
    (alphabet.recognise (lines.flatMap Line.bodyChars)).length ≤
      (alphabet.recognise (lines.flatMap Line.chars)).length := by
  induction lines with
  | nil => exact Nat.le_refl _
  | cons line rest ih =>
      simp only [List.flatMap_cons, recognise_append, recognise_chars, List.length_append]
      omega

/-- A text is read as the bodies of its lines exactly if all else is passed over. -/
theorem recognise_lines_iff (lines : List Line) :
    alphabet.recognise (lines.flatMap Line.chars) =
      alphabet.recognise (lines.flatMap Line.bodyChars) ↔
        ∀ line ∈ lines, alphabet.Passes line := by
  induction lines with
  | nil => simp
  | cons line rest ih =>
      rw [List.forall_mem_cons, ← ih, passes_iff, List.flatMap_cons, List.flatMap_cons,
        recognise_append, recognise_append]
      constructor
      · intro h
        -- neither part is read as less than it should be, so neither is read as more
        have hLine := alphabet.length_recognise_le [line]
        have hRest := alphabet.length_recognise_le rest
        have hLength := congrArg List.length h
        simp only [List.flatMap_cons, List.flatMap_nil, List.append_nil, List.length_append]
          at hLine hLength
        exact List.append_inj h (by omega)
      · rintro ⟨hLine, hRest⟩
        rw [hLine, hRest]

end Alphabet

namespace Program

/-- An address lies strictly between the two jumps of a loop. -/
def InsideLoop (program : Program) (address : Nat) : Prop :=
  ∃ i j : Nat, Matching program.operations i j ∧ i < address ∧ address < j

theorem levels_eq_nil_iff (program : Program) :
    levels 0 program.operations = [] ↔ program.isEmpty = true := by
  rw [isEmpty, Array.isEmpty_iff, ← Array.toList_eq_nil_iff, operations]
  cases program.instructions.toList with
  | nil => simp [levels]
  | cons instruction rest => simp [levels]

/-- A source is read back as its operations exactly if nothing that was added is a symbol. -/
theorem recognise_source_iff (alphabet : Alphabet) (program : Program) :
    alphabet.recognise (program.source alphabet).text.toList = program.operations ↔
      (program.isEmpty = true ∨ alphabet.lookup '\n' = none) ∧
        (alphabet.lookup '\t' = none ∨ ∀ n ∈ levels 0 program.operations, n = 0) := by
  have hLines : alphabet.recognise (program.source alphabet).text.toList = program.operations ↔
      ∀ line ∈ (program.source alphabet).lines, alphabet.Passes line := by
    have hRead := alphabet.recognise_lines_iff (program.source alphabet).lines.toList
    rw [← toList_text_source, bodyChars_source, Alphabet.recognise_symbols] at hRead
    simpa using hRead
  have hLevels : (∀ line ∈ (program.source alphabet).lines, alphabet.Passes line) ↔
      ∀ n ∈ levels 0 program.operations,
        (n = 0 ∨ alphabet.lookup '\t' = none) ∧ alphabet.lookup '\n' = none := by
    constructor
    · intro h n hn
      obtain ⟨line, hLine, rfl⟩ := (program.level_source alphabet n).2 hn
      exact h line hLine
    · intro h line hLine
      exact h line.level ((program.level_source alphabet line.level).1 ⟨line, hLine, rfl⟩)
  rw [hLines, hLevels, ← levels_eq_nil_iff]
  cases hAll : levels 0 program.operations with
  | nil => simp
  | cons first rest =>
      constructor
      · intro h
        refine ⟨.inr (h first List.mem_cons_self).2, ?_⟩
        by_cases hTab : alphabet.lookup '\t' = none
        · exact .inl hTab
        · exact .inr fun n hn => (h n hn).1.resolve_right hTab
      · rintro ⟨hEnd, hTab⟩ n hn
        refine ⟨?_, hEnd.resolve_left nofun⟩
        exact hTab.elim .inr fun hFlat => .inl (hFlat n hn)

end Program

/-- In a program laid out from a tree, nothing is inside a loop exactly if every loop is empty. -/
theorem Code.forall_not_insideLoop_iff (code : Code) :
    (∀ address : Nat, ¬code.program.InsideLoop address) ↔
      ∀ (i : Nat) (body : Code), code.LoopAt i body → body = .done := by
  constructor
  · intro h i body hLoop
    have hSize : ¬0 < body.size := by
      intro hPos
      refine h (i + 1) ⟨i, i + body.size + 1, ?_, by omega, by omega⟩
      rw [operations_program]
      exact hLoop.matching
    cases body with
    | done => rfl
    | simple operation rest => simp [size] at hSize
    | loop inner rest => simp [size] at hSize
  · rintro h address ⟨i, j, hMatch, hi, hj⟩
    rw [operations_program] at hMatch
    obtain ⟨body, hLoop, rfl⟩ := matching_iff.1 hMatch
    rw [h i body hLoop, size] at hj
    omega

/-- A program's source gives it back exactly if it is canonical and its operations are read back. -/
theorem compile_source_eq_ok_iff (alphabet : Alphabet) (program : Program) :
    compile alphabet (program.source alphabet).text = .ok program ↔
      program.Canonical ∧
        alphabet.recognise (program.source alphabet).text.toList = program.operations := by
  rw [compile_eq_ok_iff]
  constructor
  · rintro ⟨code, hRead, rfl⟩
    exact ⟨code.canonical_program, by rw [hRead, code.operations_program]⟩
  · rintro ⟨hCanonical, hRead⟩
    obtain ⟨code, rfl⟩ := Program.canonical_iff.1 hCanonical
    exact ⟨code, by rw [hRead, code.operations_program], rfl⟩

/--
**Which programs survive being written and compiled.**  The source of a program
compiles to that program if and only if the program is canonical, it is empty
or no symbol is a line end, and no symbol is a tab or nothing is inside a loop.
So in an alphabet with neither, whatever was compiled survives.
-/
theorem compile_source_iff (alphabet : Alphabet) (program : Program) :
    (compile alphabet (program.source alphabet).text = .ok program ↔
      program.Canonical ∧
      (program.isEmpty = true ∨ ∀ operation : Operation, alphabet.symbol operation ≠ '\n') ∧
      ((∀ operation : Operation, alphabet.symbol operation ≠ '\t') ∨
        ∀ address : Nat, ¬program.InsideLoop address)) ∧
    ((∀ operation : Operation,
        alphabet.symbol operation ≠ '\n' ∧ alphabet.symbol operation ≠ '\t') →
      ∀ (origin : Alphabet) (source : String), compile origin source = .ok program →
        compile alphabet (program.source alphabet).text = .ok program) := by
  rw [compile_source_eq_ok_iff, Program.recognise_source_iff, ← alphabet.lookup_eq_none_iff,
    ← alphabet.lookup_eq_none_iff]
  constructor
  · apply and_congr_right
    intro hCanonical
    obtain ⟨code, rfl⟩ := Program.canonical_iff.1 hCanonical
    rw [code.operations_program, code.levels_eq_iff, ← code.forall_not_insideLoop_iff]
  · intro hPlain origin source hCompile
    obtain ⟨code, _, hProgram⟩ := compile_eq_ok_iff.1 hCompile
    have hEnd : alphabet.lookup '\n' = none :=
      alphabet.lookup_eq_none_iff.2 fun operation => (hPlain operation).1
    have hTab : alphabet.lookup '\t' = none :=
      alphabet.lookup_eq_none_iff.2 fun operation => (hPlain operation).2
    exact ⟨Program.canonical_iff.2 ⟨code, hProgram⟩, .inr hEnd, .inl hTab⟩

end TapeLang
