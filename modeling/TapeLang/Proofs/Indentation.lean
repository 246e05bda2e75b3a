import Mathlib.Data.List.Chain
import TapeLang.Proofs.Linking
import TapeLang.Proofs.ListedProgram

/-!
# How far lines are indented

Listings and sources keep a level as they go: an opening jump adds one to it, a
closing jump takes one away, and at zero it stays at zero.  A walk that is stopped at
zero is the free walk less the lowest point that it has come to.  So the level is
known from the jumps alone: it is the balance of the jumps so far less the least
balance (`indentation`), whatever the targets are.

A listing has one line for each instruction.  A source has one for each jump and one
for each stretch of other operations between them, and such a stretch waits until the
next jump before it is written.  `Source.State.Underway` says what has been written
and what waits; every instruction preserves it.

In a compiled program no walk ever comes below zero, and the balance is the number of
loops around an instruction.

## Main results

* `levels_eq_indentation` — the levels that are kept, from the balances.
* `Program.text_listing`, `Program.exists_rows_source` — the texts, line by line.
* `Code.levels_eq_around` — the levels in compiled code, from its loops.
* `layouts_are_indented_by_balance` — both texts, and the levels in a compiled program.
-/

namespace TapeLang

/-! ## Balances -/

/-- The opening less the closing jumps before an operation. -/
def excess (operations : List Operation) (i : Nat) : Int :=
  openings (operations.take i) - closings (operations.take i)

/-- The excess before an operation, and one less if it is a closing jump itself. -/
def balance (operations : List Operation) (i : Nat) : Int :=
  excess operations i - if operations[i]? = some .jumpIfNonZero then 1 else 0

/-- The least of zero and the first `n` balances. -/
def lowest (operations : List Operation) (n : Nat) : Int :=
  ((List.range n).map (balance operations)).foldl min 0

/-- The balance of an operation above the least so far, its own included. -/
def indentation (operations : List Operation) (i : Nat) : Nat :=
  (balance operations i - lowest operations (i + 1)).toNat

theorem lowest_succ (operations : List Operation) (n : Nat) :
    lowest operations (n + 1) = min (lowest operations n) (balance operations n) := by
  rw [lowest, List.range_succ, List.map_append, List.foldl_append]
  rfl

theorem indentation_cast (operations : List Operation) (i : Nat) :
    (indentation operations i : Int) = balance operations i - lowest operations (i + 1) := by
  have hLowest := lowest_succ operations i
  apply Int.toNat_of_nonneg
  omega

/-! ## Levels from balances -/

theorem SimpleOperation.shownLevel_operation (simple : SimpleOperation) (level : Nat) :
    simple.operation.shownLevel level = level := by
  cases simple <;> rfl

theorem SimpleOperation.nextLevel_operation (simple : SimpleOperation) (level : Nat) :
    simple.operation.nextLevel level = level := by
  cases simple <;> rfl

/-- If the level before an operation is right, so are the one where it is shown and the next. -/
theorem level_step {operations : List Operation} {i level : Nat} {operation : Operation}
    (hAt : operations[i]? = some operation)
    (hLevel : (level : Int) = excess operations i - lowest operations i) :
    operation.shownLevel level = indentation operations i ∧
      (operation.nextLevel level : Int) =
        excess operations (i + 1) - lowest operations (i + 1) := by
  have hTake : operations.take (i + 1) = operations.take i ++ [operation] := by
    rw [List.take_add_one, hAt]
    rfl
  have hCast := indentation_cast operations i
  have hLowest := lowest_succ operations i
  rw [balance, hAt, excess] at hCast hLowest
  rw [excess] at hLevel
  rw [excess, hTake, openings_append, closings_append]
  obtain ⟨simple, rfl⟩ | rfl | rfl := operation.simple_or_jump
  · rw [if_neg (by simp)] at hCast hLowest
    rw [simple.shownLevel_operation, simple.nextLevel_operation, openings_simple, closings_simple,
      openings_nil, closings_nil]
    omega
  · rw [if_neg (by simp)] at hCast hLowest
    rw [openings_opening, closings_opening, openings_nil, closings_nil]
    simp only [Operation.shownLevel, Operation.nextLevel]
    omega
  · rw [if_pos rfl] at hCast hLowest
    rw [openings_closing, closings_closing, openings_nil, closings_nil]
    simp only [Operation.shownLevel, Operation.nextLevel]
    -- at zero the level stays, and the balance is the lowest so far
    omega

/-- From where the level is right on, operations are shown at their indentations. -/
theorem levels_from (operations rest : List Operation) :
    ∀ (i level : Nat), operations.drop i = rest →
      (level : Int) = excess operations i - lowest operations i →
        levels level rest = (List.range' i rest.length).map (indentation operations) := by
  induction rest with
  | nil => intro i level _ _; rfl
  | cons operation rest ih =>
      intro i level hDrop hLevel
      have hAt : operations[i]? = some operation := by
        rw [← List.head?_drop, hDrop]
        rfl
      have hRest : operations.drop (i + 1) = rest := by
        rw [← List.tail_drop, hDrop]
        rfl
      obtain ⟨hShown, hNext⟩ := level_step hAt hLevel
      rw [levels, hShown, ih (i + 1) _ hRest hNext]
      rfl

/-- Operations are shown at their indentations. -/
theorem levels_eq_indentation (operations : List Operation) :
    levels 0 operations = (List.range operations.length).map (indentation operations) := by
  rw [levels_from operations operations 0 0 rfl rfl, List.range_eq_range']

-- a jump that closes nothing stays at the margin, and what comes after it counts from there
example : (List.range 4).map (indentation
    [.jumpIfNonZero, .increment, .jumpIfZero, .decrement]) = [0, 0, 0, 1] := by decide

/-! ## The lines of a listing -/

/-- That many tabs. -/
def tabs (n : Nat) : String := String.ofList (List.replicate n '\t')

theorem Line.join_pieces (line : Line) :
    String.join line.pieces =
      String.join line.margin ++ tabs line.level ++ String.join line.body ++ "\n" := by
  apply String.toList_injective
  have hPieces := line.flatMap_toList_pieces_eq
  rw [String.toList_join, hPieces]
  simp [marginChars, chars, bodyChars, tabs]

theorem Layout.text_eq_join_lines (layout : Layout) :
    layout.text =
      String.join (layout.lines.toList.map fun line => String.join line.pieces) := by
  apply String.toList_injective
  simp only [text, pieces, String.toList_join, List.flatMap_assoc, List.flatMap_map]

theorem Listing.linesFrom_eq (instructions : List Instruction) :
    ∀ n level : Nat, linesFrom n level instructions =
      List.zipWith (fun (instruction, i) level => line i level instruction)
        (instructions.zipIdx n) (levels level (instructions.map Instruction.operation)) := by
  induction instructions with
  | nil => intro n level; rfl
  | cons instruction rest ih =>
      intro n level
      rw [linesFrom, ih]
      rfl

/-- A listing has one line for each instruction, at its indentation. -/
theorem Program.lines_listing_eq (program : Program) :
    program.listing.lines.toList =
      program.instructions.toList.zipIdx.map fun (instruction, i) =>
        Listing.line i (indentation program.operations i) instruction := by
  have hLength : program.operations.length = program.instructions.size := by
    rw [operations, List.length_map, Array.length_toList]
  rw [lines_listing, Listing.linesFrom_eq, ← operations, levels_eq_indentation, hLength]
  apply List.ext_getElem?
  intro i
  rw [List.getElem?_zipWith, List.getElem?_map, List.getElem?_map, List.getElem?_zipIdx,
    Array.getElem?_toList]
  by_cases hi : i < program.instructions.size
  · rw [Array.getElem?_eq_getElem hi, List.getElem?_range hi, Nat.zero_add]
    rfl
  · rw [Array.getElem?_eq_none (by omega)]
    rfl

/-- The text of a listing, line by line. -/
theorem Program.text_listing (program : Program) :
    program.listing.text =
      String.join (program.instructions.toList.zipIdx.map fun (instruction, i) =>
        Listing.address i ++ "  " ++ tabs (indentation program.operations i) ++
          String.join (Listing.body instruction) ++ "\n") := by
  rw [Layout.text_eq_join_lines, lines_listing_eq, List.map_map]
  refine congrArg String.join (List.map_congr_left ?_)
  rintro ⟨instruction, i⟩ _
  have hMargin : String.join [Listing.address i, "  "] = Listing.address i ++ "  " := by
    simp [String.join_cons]
  simp only [Function.comp_apply, Line.join_pieces, Listing.line, hMargin]

/-! ## The lines of a source -/

/-- Operations on one line, and the level of that line. -/
structure Row where
  level : Nat
  operations : List Operation
  deriving DecidableEq, Repr

namespace Row

/-- One jump alone. -/
def IsBracket (row : Row) : Prop := ∃ jump : Operation, jump.isJump = true ∧ row.operations = [jump]

/-- Operations none of which is a jump. -/
def IsRun (row : Row) : Prop :=
  row.operations ≠ [] ∧ ∀ operation ∈ row.operations, operation.isJump = false

/-- The operations, each with the level of the row. -/
def entries (row : Row) : List (Operation × Nat) :=
  row.operations.map fun operation => (operation, row.level)

/-- The row in an alphabet. -/
def line (alphabet : Alphabet) (row : Row) : Line :=
  { level := row.level, body := [String.ofList (row.operations.map alphabet.symbol)] }

/-- The text of the row in an alphabet. -/
def text (alphabet : Alphabet) (row : Row) : String :=
  tabs row.level ++ String.ofList (row.operations.map alphabet.symbol) ++ "\n"

theorem IsBracket.not_isRun {row : Row} (h : row.IsBracket) : ¬row.IsRun := by
  rintro ⟨_, hRun⟩
  obtain ⟨jump, hJump, hRow⟩ := h
  have hSimple := hRun jump (by rw [hRow]; exact List.mem_singleton_self jump)
  rw [hJump] at hSimple
  cases hSimple

end Row

/--
Rows hold operations at their levels in order, each jump in a row of its own and all
that stand between two jumps in one row.
-/
structure Lineation (entries : List (Operation × Nat)) (rows : List Row) : Prop where
  entries_eq : rows.flatMap Row.entries = entries
  bracket_or_run : ∀ row ∈ rows, row.IsBracket ∨ row.IsRun
  maximal : rows.IsChain fun row next => row.IsRun → next.IsBracket

namespace Lineation

variable {entries : List (Operation × Nat)} {rows : List Row}

theorem nil : Lineation [] [] := ⟨rfl, by simp, .nil⟩

theorem concat (h : Lineation entries rows) {row : Row} (hRow : row.IsBracket ∨ row.IsRun)
    (hLast : ∀ last ∈ rows.getLast?, last.IsRun → row.IsBracket) :
    Lineation (entries ++ row.entries) (rows ++ [row]) where
  entries_eq := by rw [List.flatMap_append, h.entries_eq, List.flatMap_singleton]
  bracket_or_run := by
    intro other hOther
    rcases List.mem_append.1 hOther with hOld | hNew
    · exact h.bracket_or_run other hOld
    · rw [List.mem_singleton.1 hNew]
      exact hRow
  maximal := by
    refine h.maximal.append (.singleton row) ?_
    intro last hOld next hNew
    obtain rfl : row = next := Option.some.inj hNew
    exact hLast last hOld

end Lineation

namespace Source.State

variable {alphabet : Alphabet} {entries : List (Operation × Nat)} {state : State}

/-- Rows have been written, and operations wait that belong to the next. -/
structure Underway (alphabet : Alphabet) (entries : List (Operation × Nat)) (rows : List Row)
    (run : List Operation) (state : State) : Prop where
  lines : state.layout.lines.toList = rows.map (Row.line alphabet)
  pending : state.pending = String.ofList (run.map alphabet.symbol)
  lineation : ∃ written : List (Operation × Nat), Lineation written rows ∧
    entries = written ++ Row.entries ⟨state.level, run⟩
  simple : ∀ operation ∈ run, operation.isJump = false
  last : ∀ row ∈ rows.getLast?, row.IsBracket

theorem endLine_of_pending_eq (h : state.pending = "") : state.endLine = state := by
  obtain ⟨layout, pending, level⟩ := state
  obtain rfl : pending = "" := h
  rfl

theorem lines_endLine_of_pending_ne (h : state.pending ≠ "") :
    state.endLine.layout.lines.toList =
      state.layout.lines.toList ++ [{ level := state.level, body := [state.pending] }] := by
  obtain ⟨layout, pending, level⟩ := state
  rw [endLine, if_neg (by rw [String.isEmpty_iff]; exact h)]
  exact Array.toList_push

/-- When the line begun is ended, all is in rows. -/
theorem Underway.endLine {rows : List Row} {run : List Operation}
    (h : state.Underway alphabet entries rows run) :
    ∃ rows' : List Row, Lineation entries rows' ∧
      state.endLine.layout.lines.toList = rows'.map (Row.line alphabet) := by
  obtain ⟨written, hRows, rfl⟩ := h.lineation
  by_cases hRun : run = []
  · have hPending : state.pending = "" := by rw [h.pending, hRun]; rfl
    refine ⟨rows, ?_, ?_⟩
    · rw [hRun]
      simpa [Row.entries] using hRows
    · rw [endLine_of_pending_eq hPending, h.lines]
  · refine ⟨rows ++ [⟨state.level, run⟩], ?_, ?_⟩
    · exact hRows.concat (.inr ⟨hRun, h.simple⟩) fun last hLast hOther =>
        absurd hOther (h.last last hLast).not_isRun
    · have hPending : state.pending ≠ "" := by
        rw [h.pending]
        simpa [← String.toList_eq_nil_iff] using hRun
      rw [lines_endLine_of_pending_ne hPending, h.lines, h.pending, List.map_append]
      rfl

/-- A jump goes into a row of its own, behind what waits. -/
theorem Underway.bracket {rows : List Row} {run : List Operation}
    (h : state.Underway alphabet entries rows run) (jump : Operation) (hJump : jump.isJump = true)
    (level after : Nat) :
    ∃ rows' : List Row, Underway alphabet (entries ++ [(jump, level)]) rows' []
      ⟨state.endLine.layout.push { level := level, body := [(alphabet.symbol jump).toString] }, "",
        after⟩ := by
  obtain ⟨rows', hRows, hEnd⟩ := h.endLine
  have hRow : Row.IsBracket ⟨level, [jump]⟩ := ⟨jump, hJump, rfl⟩
  refine ⟨rows' ++ [⟨level, [jump]⟩], ?_, rfl, ⟨_, hRows.concat (.inl hRow) ?_, ?_⟩, ?_, ?_⟩
  · show (state.endLine.layout.lines.push _).toList = _
    rw [Array.toList_push, hEnd, List.map_append]
    rfl
  · intro _ _ _
    exact hRow
  · simp [Row.entries]
  · intro operation hOperation
    cases hOperation
  · intro row hLast
    rw [List.getLast?_concat] at hLast
    cases hLast
    exact hRow

/-- One instruction adds its operation where it is shown. -/
theorem Underway.feed {rows : List Row} {run : List Operation}
    (h : state.Underway alphabet entries rows run) (instruction : Instruction) :
    ∃ (rows' : List Row) (run' : List Operation), (state.feed alphabet instruction).Underway alphabet
      (entries ++ [(instruction.operation, instruction.operation.shownLevel state.level)])
      rows' run' := by
  obtain ⟨operation, target⟩ := instruction
  obtain ⟨simple, rfl⟩ | rfl | rfl := operation.simple_or_jump
  · have hFeed : state.feed alphabet ⟨simple.operation, target⟩ =
        { state with pending := state.pending.push (alphabet.symbol simple.operation) } := by
      cases simple <;> rfl
    obtain ⟨written, hRows, rfl⟩ := h.lineation
    rw [simple.shownLevel_operation, hFeed]
    refine ⟨rows, run ++ [simple.operation], h.lines, ?_, ⟨written, hRows, ?_⟩, ?_, h.last⟩
    · show state.pending.push _ = _
      rw [h.pending]
      apply String.toList_injective
      simp
    · simp [Row.entries]
    · intro operation hOperation
      rcases List.mem_append.1 hOperation with hOld | hNew
      · exact h.simple operation hOld
      · rw [List.mem_singleton.1 hNew, SimpleOperation.isJump_operation]
  · have hFeed : state.feed alphabet ⟨.jumpIfZero, target⟩ =
        (state.bracket (alphabet.symbol .jumpIfZero)).indent := rfl
    rw [hFeed, bracket_eq]
    obtain ⟨rows', hRows⟩ := h.bracket .jumpIfZero rfl state.level (state.level + 1)
    exact ⟨rows', [], hRows⟩
  · have hFeed : state.feed alphabet ⟨.jumpIfNonZero, target⟩ =
        state.endLine.outdent.bracket (alphabet.symbol .jumpIfNonZero) := rfl
    -- nothing waits any more when the level changes
    have hEnded : state.endLine.outdent.endLine = state.endLine.outdent :=
      endLine_of_pending_eq state.endLine_pending
    have hLevel : state.endLine.outdent.level = state.level - 1 := by
      show state.endLine.level - 1 = _
      rw [endLine_level]
    rw [hFeed, bracket_eq, hEnded, hLevel]
    obtain ⟨rows', hRows⟩ := h.bracket .jumpIfNonZero rfl (state.level - 1) (state.level - 1)
    exact ⟨rows', [], hRows⟩

/-- Instructions one after the other add their operations where they are shown. -/
theorem Underway.foldl_feed (instructions : List Instruction) :
    ∀ {state : State} {entries : List (Operation × Nat)} {rows : List Row} {run : List Operation},
      state.Underway alphabet entries rows run →
        ∃ (rows' : List Row) (run' : List Operation),
          (instructions.foldl (State.feed alphabet) state).Underway alphabet
            (entries ++ (instructions.map Instruction.operation).zip
              (levels state.level (instructions.map Instruction.operation))) rows' run' := by
  induction instructions with
  | nil =>
      intro state entries rows run h
      exact ⟨rows, run, by simpa using h⟩
  | cons instruction rest ih =>
      intro state entries rows run h
      obtain ⟨rows₁, run₁, hFeed⟩ := h.feed instruction
      obtain ⟨rows₂, run₂, hRest⟩ := ih hFeed
      rw [(state.adds_feed alphabet instruction).level, List.append_assoc] at hRest
      exact ⟨rows₂, run₂, hRest⟩

end Source.State

theorem Row.join_pieces_line (alphabet : Alphabet) (row : Row) :
    String.join (row.line alphabet).pieces = row.text alphabet := by
  rw [Line.join_pieces]
  simp [line, text, String.join_cons]

theorem zip_levels (operations : List Operation) :
    operations.zip (levels 0 operations) =
      operations.zipIdx.map fun (operation, i) => (operation, indentation operations i) := by
  rw [levels_eq_indentation, List.zip_map_right, List.zipIdx_eq_zip_range', List.range_eq_range']
  rfl

/-- A source has one line for each jump and one for each run of other operations. -/
theorem Program.exists_rows_source (program : Program) (alphabet : Alphabet) :
    ∃ rows : List Row,
      Lineation (program.operations.zipIdx.map fun (operation, i) =>
        (operation, indentation program.operations i)) rows ∧
      (program.source alphabet).text = String.join (rows.map (Row.text alphabet)) := by
  have hStart : Source.State.Underway alphabet [] [] [] {} :=
    ⟨rfl, rfl, ⟨[], .nil, rfl⟩, by simp, by simp⟩
  obtain ⟨_, _, hUnderway⟩ := hStart.foldl_feed program.instructions.toList
  obtain ⟨rows, hRows, hLines⟩ := hUnderway.endLine
  refine ⟨rows, ?_, ?_⟩
  · rw [← zip_levels]
    exact hRows
  · rw [Layout.text_eq_join_lines, source, hLines, List.map_map]
    refine congrArg String.join (List.map_congr_left ?_)
    intro row _
    exact row.join_pieces_line alphabet

/-! ## Loops around an instruction -/

/-- How many linked pairs an address lies strictly between. -/
def Program.loopsAround (program : Program) (i : Nat) : Nat :=
  program.instructions.toList.zipIdx.countP fun (jump, j) =>
    program.linked j jump && decide (j < i ∧ i < jump.target)

theorem Program.get?_of_mem_zipIdx {program : Program} {instruction : Instruction} {i : Nat}
    (h : (instruction, i) ∈ program.instructions.toList.zipIdx) :
    program.get? i = some instruction := by
  rw [get?, ← Array.getElem?_toList]
  exact List.mk_mem_zipIdx_iff_getElem?.1 h

namespace Code

/-- The jumps of code from an address on that go from before another address to behind it. -/
def around (code : Code) (base i : Nat) : Nat :=
  ((code.instructions base).zipIdx base).countP fun (jump, j) => decide (j < i ∧ i < jump.target)

theorem around_simple (operation : SimpleOperation) (rest : Code) (base i : Nat) :
    (simple operation rest).around base i = rest.around (base + 1) i := by
  simp [around, instructions, List.zipIdx_cons]

theorem around_loop (body rest : Code) (base i : Nat) :
    (loop body rest).around base i =
      (if base < i ∧ i < base + body.size + 1 then 1 else 0) + body.around (base + 1) i +
        rest.around (base + body.size + 2) i := by
  have hClosing : ¬(base + 1 + body.size < i ∧ i < base) := by omega
  have hRest : base + 1 + body.size + 1 = base + body.size + 2 := by omega
  simp only [around, instructions, List.zipIdx_cons, List.zipIdx_append, List.countP_cons,
    List.countP_append, length_instructions, decide_eq_true_eq, if_neg hClosing, hRest]
  omega

/-- No jump of code goes around an address outside of it. -/
theorem around_outside (code : Code) :
    ∀ {base i : Nat}, i ≤ base ∨ base + code.size ≤ i → code.around base i = 0 := by
  induction code with
  | done => intro base i _; rfl
  | simple operation rest ih =>
      intro base i h
      rw [size] at h
      rw [around_simple, ih (by omega)]
  | loop body rest ihBody ihRest =>
      intro base i h
      rw [size] at h
      rw [around_loop, ihBody (by omega), ihRest (by omega), if_neg (by omega)]

/-- Code is shown as many levels further in as it has loops around the address. -/
theorem levels_eq_around (code : Code) :
    ∀ level base : Nat, levels level code.operations =
      (List.range' base code.size).map fun i => level + code.around base i := by
  induction code with
  | done => intro level base; rfl
  | simple operation rest ih =>
      intro level base
      rw [levels_simple, ih level (base + 1), size, List.range'_succ, List.map_cons,
        around_simple, around_outside rest (by omega)]
      simp only [around_simple]
      rfl
  | loop body rest ihBody ihRest =>
      intro level base
      have hRange : List.range' base (loop body rest).size =
          base :: (List.range' (base + 1) body.size ++
            (base + body.size + 1) :: List.range' (base + body.size + 2) rest.size) := by
        have hSize : (loop body rest).size = body.size + (rest.size + 1) + 1 := by
          rw [size]
          omega
        rw [hSize, List.range'_succ, ← List.range'_append_1, List.range'_succ,
          Nat.add_right_comm base 1]
      have hOpening : (loop body rest).around base base = 0 := around_outside _ (by omega)
      have hBody : ∀ i ∈ List.range' (base + 1) body.size,
          level + 1 + body.around (base + 1) i = level + (loop body rest).around base i := by
        intro i hi
        rw [List.mem_range'_1] at hi
        rw [around_loop, if_pos (by omega), around_outside rest (by omega)]
        omega
      have hClosing : (loop body rest).around base (base + body.size + 1) = 0 := by
        rw [around_loop, if_neg (by omega), around_outside body (by omega),
          around_outside rest (by omega)]
      have hRest : ∀ i ∈ List.range' (base + body.size + 2) rest.size,
          level + rest.around (base + body.size + 2) i =
            level + (loop body rest).around base i := by
        intro i hi
        rw [List.mem_range'_1] at hi
        rw [around_loop, if_neg (by omega), around_outside body (by omega)]
        omega
      rw [levels_loop, ihBody (level + 1) (base + 1), ihRest level (base + body.size + 2),
        List.map_congr_left hBody, List.map_congr_left hRest, hRange, List.map_cons,
        List.map_append, List.map_cons, hOpening, hClosing]
      rfl

/-- Only opening jumps have their targets behind them. -/
theorem eq_opening_of_lt_target {code : Code} {jump : Instruction} {j : Nat}
    (h : code.program.get? j = some jump) (hLess : j < jump.target) :
    jump = ⟨.jumpIfZero, jump.target⟩ := by
  obtain ⟨operation, target⟩ := jump
  obtain ⟨simple, rfl⟩ | rfl | rfl := operation.simple_or_jump
  · have hZero : target = 0 := code.canonical_program.idle j _ h simple.isJump_operation
    rw [hZero] at hLess
    cases hLess
  · rfl
  · obtain ⟨body, _, hEnd⟩ := get?_closing_iff.1 h
    have hBack : j < target := hLess
    omega

/-- The linked pairs around an address are the jumps that go around it. -/
theorem loopsAround_program (code : Code) (i : Nat) :
    code.program.loopsAround i = code.around 0 i := by
  apply List.countP_congr
  rintro ⟨jump, j⟩ hMem
  have hAt := Program.get?_of_mem_zipIdx hMem
  rw [Bool.and_eq_true, decide_eq_true_eq]
  constructor
  · intro h
    exact h.2
  · intro h
    have hOpening := eq_opening_of_lt_target hAt (by omega)
    exact ⟨linked_program hAt (by rw [hOpening]; rfl), h⟩

/-- In a compiled program the indentation counts the linked pairs around an address. -/
theorem indentation_eq_loopsAround (code : Code) {i : Nat} (hi : i < code.program.size) :
    indentation code.program.operations i = code.program.loopsAround i := by
  have hLevels := code.levels_eq_around 0 0
  rw [levels_eq_indentation, length_operations, List.range_eq_range', List.map_inj_left] at hLevels
  rw [size_program] at hi
  rw [operations_program, loopsAround_program, hLevels i (by simpa using hi), Nat.zero_add]

/-- The two jumps of a pair lie between the same pairs. -/
theorem loopsAround_target (code : Code) {i j : Nat}
    (h : code.program.get? i = some ⟨.jumpIfZero, j⟩) :
    code.program.loopsAround j = code.program.loopsAround i := by
  obtain ⟨body, _, hEnd⟩ := get?_opening_iff.1 h
  apply List.countP_congr
  rintro ⟨jump, k⟩ hMem
  have hAt := Program.get?_of_mem_zipIdx hMem
  rw [Bool.and_eq_true, Bool.and_eq_true, decide_eq_true_eq, decide_eq_true_eq]
  apply and_congr_right
  intro _
  by_cases hLess : k < jump.target
  · -- pairs never cross
    rw [eq_opening_of_lt_target hAt hLess] at hAt
    have hNested := links_apart_or_nested h hAt
    omega
  · omega

/-- The two jumps of a pair have the same indentation. -/
theorem indentation_target {code : Code} {i : Nat} {jump : Instruction}
    (h : code.program.get? i = some jump) (hJump : jump.operation.isJump = true) :
    indentation code.program.operations jump.target = indentation code.program.operations i := by
  have hPair : ∀ {i j : Nat}, code.program.get? i = some ⟨.jumpIfZero, j⟩ →
      indentation code.program.operations j = indentation code.program.operations i := by
    intro i j hAt
    have hi : i < code.program.size := (Array.getElem?_eq_some_iff.1 hAt).1
    have hj : j < code.program.size :=
      (Array.getElem?_eq_some_iff.1 (get?_opening_iff_closing.1 hAt)).1
    rw [code.indentation_eq_loopsAround hi, code.indentation_eq_loopsAround hj,
      code.loopsAround_target hAt]
  obtain ⟨operation, target⟩ := jump
  obtain ⟨simple, rfl⟩ | rfl | rfl := operation.simple_or_jump
  · rw [simple.isJump_operation] at hJump
    cases hJump
  · exact hPair h
  · exact (hPair (get?_opening_iff_closing.2 h)).symm

/-- Before the closing jump of a loop the level is not zero. -/
theorem levelAfter_pos {code body : Code} {i : Nat} (h : code.LoopAt i body) :
    0 < levelAfter 0 (code.operations.take (i + body.size + 1)) := by
  obtain ⟨before, after, rfl, hSplit⟩ := h.split
  have hTake : code.operations.take (before.length + body.size + 1) =
      before ++ .jumpIfZero :: body.operations := by
    have hLength : before.length + body.size + 1 =
        (before ++ .jumpIfZero :: body.operations).length := by
      simp only [List.length_append, List.length_cons, length_operations]
      omega
    have hCut : code.operations =
        (before ++ .jumpIfZero :: body.operations) ++ .jumpIfNonZero :: after := by
      rw [hSplit, List.append_assoc, List.cons_append]
    rw [hCut, hLength, List.take_left]
  rw [hTake, levelAfter, List.foldl_append]
  show 0 < levelAfter (levelAfter 0 before + 1) body.operations
  rw [levelAfter_operations]
  omega

end Code

theorem Listing.level_foldl_feed (instructions : List Instruction) :
    ∀ state : State, (instructions.foldl State.feed state).level =
      levelAfter state.level (instructions.map Instruction.operation) := by
  induction instructions with
  | nil => intro state; rfl
  | cons instruction rest ih =>
      rintro ⟨layout, n, level⟩
      rw [List.foldl_cons, ih, feed_eq]
      rfl

theorem Source.State.level_foldl_feed (alphabet : Alphabet) (instructions : List Instruction) :
    ∀ state : State, (instructions.foldl (feed alphabet) state).level =
      levelAfter state.level (instructions.map Instruction.operation) := by
  induction instructions with
  | nil => intro state; rfl
  | cons instruction rest ih =>
      intro state
      rw [List.foldl_cons, ih, (state.adds_feed alphabet instruction).level]
      rfl

/--
**Both texts are indented by the balance of the jumps.**  The balance of an instruction
is the number of opening jumps before it less that of the closing jumps, and one less if
it is a closing jump; its indentation is the balance less the least of zero and all
balances up to its own.

The listing of any program has one line for each instruction, with as many tabs as its
indentation.  The source of any program, in any alphabet, is made of rows and of nothing
else: they hold the operations in order at their indentations, each jump is a row of its
own, and so is each longest run of operations that are no jumps.

In a compiled program the indentation is the number of linked pairs around the
instruction.  The two jumps of a pair have the same, and neither text ever goes back
a level at zero.
-/
theorem layouts_are_indented_by_balance (program : Program) :
    (∀ i : Nat, (indentation program.operations i : Int) =
      balance program.operations i - lowest program.operations (i + 1)) ∧
    program.listing.text =
      String.join (program.instructions.toList.zipIdx.map fun (instruction, i) =>
        Listing.address i ++ "  " ++ tabs (indentation program.operations i) ++
          String.join (Listing.body instruction) ++ "\n") ∧
    (∀ alphabet : Alphabet, ∃ rows : List Row,
      Lineation (program.operations.zipIdx.map fun (operation, i) =>
        (operation, indentation program.operations i)) rows ∧
      (program.source alphabet).text = String.join (rows.map (Row.text alphabet))) ∧
    ∀ (alphabet : Alphabet) (source : String), compile alphabet source = .ok program →
      (∀ i : Nat, i < program.size →
        indentation program.operations i = program.loopsAround i) ∧
      (∀ (i : Nat) (jump : Instruction), program.get? i = some jump →
        jump.operation.isJump = true →
          indentation program.operations jump.target = indentation program.operations i) ∧
      ∀ (i : Nat) (jump : Instruction), program.get? i = some jump →
        jump.operation = .jumpIfNonZero →
          0 < ((program.instructions.toList.take i).foldl Listing.State.feed {}).level ∧
          ∀ alphabet' : Alphabet, 0 < ((program.instructions.toList.take i).foldl
            (Source.State.feed alphabet') {}).level := by
  refine ⟨indentation_cast program.operations, program.text_listing, program.exists_rows_source, ?_⟩
  intro alphabet source hCompile
  obtain ⟨code, _, rfl⟩ := compile_eq_ok_iff.1 hCompile
  refine ⟨fun i hi => code.indentation_eq_loopsAround hi,
    fun i jump hAt hJump => Code.indentation_target hAt hJump, ?_⟩
  rintro i ⟨_, target⟩ hAt rfl
  obtain ⟨body, hBody, hEnd⟩ := Code.get?_closing_iff.1 hAt
  have hPos := Code.levelAfter_pos hBody
  rw [← hEnd, ← code.operations_program, Program.operations, ← List.map_take] at hPos
  refine ⟨?_, fun alphabet' => ?_⟩
  · rw [Listing.level_foldl_feed]
    exact hPos
  · rw [Source.State.level_foldl_feed]
    exact hPos

/-- The innermost instruction of two nested loops is two levels in. -/
theorem layouts_are_indented_by_balance_two_loops :
    compile .ascii "[>[-]]" = .ok ⟨#[⟨.jumpIfZero, 5⟩, ⟨.forward, 0⟩, ⟨.jumpIfZero, 4⟩,
      ⟨.decrement, 0⟩, ⟨.jumpIfNonZero, 2⟩, ⟨.jumpIfNonZero, 0⟩]⟩ ∧
    indentation [.jumpIfZero, .forward, .jumpIfZero, .decrement, .jumpIfNonZero,
      .jumpIfNonZero] 3 = 2 := by
  have hCompile : compile .ascii "[>[-]]" = .ok ⟨#[⟨.jumpIfZero, 5⟩, ⟨.forward, 0⟩,
      ⟨.jumpIfZero, 4⟩, ⟨.decrement, 0⟩, ⟨.jumpIfNonZero, 2⟩, ⟨.jumpIfNonZero, 0⟩]⟩ := by rfl
  obtain ⟨_, _, _, hCompiled⟩ := layouts_are_indented_by_balance _
  obtain ⟨hAround, _⟩ := hCompiled .ascii "[>[-]]" hCompile
  exact ⟨hCompile, hAround 3 (by decide)⟩

end TapeLang
