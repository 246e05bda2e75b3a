import TapeLang.Proofs.Code

/-!
# Nesting and matching jumps

Whether jumps are properly nested, and which closing jump belongs to an
opening one, can be said by counting alone: no beginning of the sequence
closes more loops than it opens, and the partner of an opening jump is the
first later address at which as many loops have been closed as opened since.
This module says it that way and proves that it comes to the same as being
the layout of a tree.

## Main results

* `Code.nested_operations`, `Nested.exists_code` — a sequence of operations is
  properly nested exactly if it has a tree.
* `Code.matching_iff` — counting finds the partner that the tree gives.
* `Program.canonical_iff` — a program is canonically linked exactly if it is
  the layout of a tree.
-/

namespace TapeLang

/-! ## Counting -/

/-- How many loops a sequence of operations opens. -/
def openings (operations : List Operation) : Nat := operations.count .jumpIfZero

/-- How many loops a sequence of operations closes. -/
def closings (operations : List Operation) : Nat := operations.count .jumpIfNonZero

@[simp] theorem openings_nil : openings [] = 0 := rfl

@[simp] theorem closings_nil : closings [] = 0 := rfl

@[simp] theorem openings_append (first second : List Operation) :
    openings (first ++ second) = openings first + openings second :=
  List.count_append

@[simp] theorem closings_append (first second : List Operation) :
    closings (first ++ second) = closings first + closings second :=
  List.count_append

@[simp] theorem openings_opening (rest : List Operation) :
    openings (.jumpIfZero :: rest) = openings rest + 1 := by
  simp [openings]

@[simp] theorem closings_opening (rest : List Operation) :
    closings (.jumpIfZero :: rest) = closings rest := by
  simp [closings]

@[simp] theorem openings_closing (rest : List Operation) :
    openings (.jumpIfNonZero :: rest) = openings rest := by
  simp [openings]

@[simp] theorem closings_closing (rest : List Operation) :
    closings (.jumpIfNonZero :: rest) = closings rest + 1 := by
  simp [closings]

@[simp] theorem openings_simple (simple : SimpleOperation) (rest : List Operation) :
    openings (simple.operation :: rest) = openings rest := by
  simp [openings]

@[simp] theorem closings_simple (simple : SimpleOperation) (rest : List Operation) :
    closings (simple.operation :: rest) = closings rest := by
  simp [closings]

/-- Properly nested: no beginning closes more than it opens, and all that is opened is closed. -/
structure Nested (operations : List Operation) : Prop where
  closings_le : ∀ start, start <+: operations → closings start ≤ openings start
  settled : openings operations = closings operations

/-- A beginning of two parts ends in the first part or takes in all of it. -/
theorem start_of_append {α : Type} {start first second : List α}
    (h : start <+: first ++ second) :
    start <+: first ∨ ∃ more, more <+: second ∧ start = first ++ more := by
  obtain ⟨rest, hRest⟩ := h
  rcases List.append_eq_append_iff.1 hRest with ⟨more, hFirst, _⟩ | ⟨more, hStart, hSecond⟩
  · exact .inl ⟨more, hFirst.symm⟩
  · exact .inr ⟨more, ⟨rest, hSecond.symm⟩, hStart⟩

/-! ## Trees are nested -/

namespace Code

/-- Code closes the loops that it opens. -/
theorem openings_operations (code : Code) :
    openings code.operations = closings code.operations := by
  induction code with
  | done => rfl
  | simple operation rest ih => simpa [operations] using ih
  | loop body rest ihBody ihRest =>
      simp only [operations, openings_opening, closings_opening, openings_append,
        closings_append, openings_closing, closings_closing]
      omega

/-- No beginning of code closes more than it opens. -/
theorem closings_le_openings (code : Code) :
    ∀ start, start <+: code.operations → closings start ≤ openings start := by
  induction code with
  | done =>
      intro start h
      rw [List.prefix_nil.1 h]
      exact Nat.le_refl 0
  | simple operation rest ih =>
      intro start h
      rcases List.prefix_cons_iff.1 h with rfl | ⟨more, rfl, hMore⟩
      · exact Nat.le_refl 0
      · have hLe := ih more hMore
        simpa using hLe
  | loop body rest ihBody ihRest =>
      intro start h
      rcases List.prefix_cons_iff.1 h with rfl | ⟨more, rfl, hMore⟩
      · exact Nat.le_refl 0
      · rw [openings_opening, closings_opening]
        rcases start_of_append hMore with hBody | ⟨tail, hTail, rfl⟩
        · have hLe := ihBody more hBody
          omega
        · have hBody := body.openings_operations
          rcases List.prefix_cons_iff.1 hTail with rfl | ⟨more, rfl, hRest⟩
          · simp only [List.append_nil]
            omega
          · have hLe := ihRest more hRest
            simp only [openings_append, closings_append, openings_closing, closings_closing]
            omega

theorem nested_operations (code : Code) : Nested code.operations :=
  ⟨code.closings_le_openings, code.openings_operations⟩

/-! ## What is nested has a tree -/

/-- Parsing succeeds if no end of the sequence opens more than it closes. -/
theorem exists_parseFrom (operations : List Operation) :
    (∀ rest, rest <:+ operations → openings rest ≤ closings rest) →
      ∃ (code : Code) (outer : List Code), parseFrom operations = some (code, outer) ∧
        openings operations + outer.length = closings operations := by
  induction operations with
  | nil => intro _; exact ⟨.done, [], rfl, rfl⟩
  | cons operation rest ih =>
      intro h
      obtain ⟨code, outer, hParse, hCount⟩ :=
        ih fun more hMore => h more (hMore.trans (List.suffix_cons operation rest))
      have hWhole := h (operation :: rest) (List.suffix_refl _)
      simp only [parseFrom, hParse, prepend]
      obtain ⟨simple, rfl⟩ | rfl | rfl := operation.simple_or_jump
      · exact ⟨.simple simple code, outer, by simp, by simpa using hCount⟩
      · -- the counts leave a closing jump for this opening one
        cases outer with
        | nil =>
            simp only [openings_opening, closings_opening, List.length_nil] at hWhole hCount
            omega
        | cons after outer =>
            refine ⟨.loop code after, outer, rfl, ?_⟩
            simp only [openings_opening, closings_opening, List.length_cons] at hCount ⊢
            omega
      · refine ⟨.done, code :: outer, rfl, ?_⟩
        simp only [openings_closing, closings_closing, List.length_cons]
        omega

end Code

/-- A properly nested sequence of operations has a tree. -/
theorem Nested.exists_code {operations : List Operation} (h : Nested operations) :
    ∃ code : Code, code.operations = operations := by
  have hSuffix : ∀ rest, rest <:+ operations → openings rest ≤ closings rest := by
    rintro rest ⟨start, rfl⟩
    have hStart := h.closings_le start (List.prefix_append start rest)
    have hSettled := h.settled
    rw [openings_append, closings_append] at hSettled
    omega
  obtain ⟨code, outer, hParse, hCount⟩ := Code.exists_parseFrom operations hSuffix
  have hSettled := h.settled
  have hOuter : outer = [] := List.eq_nil_of_length_eq_zero (by omega)
  subst hOuter
  exact ⟨code, by simpa using (Code.eq_of_parseFrom operations code [] hParse).symm⟩

/-! ## Matching jumps -/

/-- The operations from one address to another, both included. -/
def span (operations : List Operation) (i j : Nat) : List Operation :=
  (operations.drop i).take (j + 1 - i)

/--
The closing jump at `j` belongs to the opening jump at `i`: from the one to
the other as many loops are closed as opened, and at no address between.
-/
structure Matching (operations : List Operation) (i j : Nat) : Prop where
  opens : operations[i]? = some .jumpIfZero
  lt : i < j
  lt_length : j < operations.length
  even : openings (span operations i j) = closings (span operations i j)
  least : ∀ k, i < k → k < j → openings (span operations i k) ≠ closings (span operations i k)

/-- An opening jump has one partner at most. -/
theorem Matching.right_unique {operations : List Operation} {i j j' : Nat}
    (h : Matching operations i j) (h' : Matching operations i j') : j = j' := by
  rcases Nat.lt_trichotomy j j' with hLess | hEq | hGreater
  · exact absurd h.even (h'.least j h.lt hLess)
  · exact hEq
  · exact absurd h'.even (h.least j' h'.lt hGreater)

private theorem span_append_left (before rest : List Operation) (n : Nat) :
    span (before ++ rest) before.length (before.length + n) = rest.take (n + 1) := by
  rw [span, List.drop_append_length]
  congr 1
  omega

namespace Code

/-- A loop of the tree is found by counting. -/
theorem LoopAt.matching {code body : Code} {i : Nat} (h : code.LoopAt i body) :
    Matching code.operations i (i + body.size + 1) := by
  have hBound := h.lt_size
  obtain ⟨before, after, rfl, hSplit⟩ := h.split
  have hBody := body.openings_operations
  constructor
  case opens => simp [hSplit]
  case lt => omega
  case lt_length => simpa using hBound
  case even =>
    have hTake : (body.operations ++ .jumpIfNonZero :: after).take (body.size + 1) =
        body.operations ++ [.jumpIfNonZero] := by
      rw [List.take_append, List.take_of_length_le (by simp), length_operations]
      simp
    rw [hSplit, Nat.add_assoc, span_append_left, List.take_succ_cons, hTake]
    simp [hBody]
  case least =>
    intro k hk hkLess
    obtain ⟨n, rfl⟩ := Nat.exists_eq_add_of_lt hk
    -- what lies between is a beginning of the body, and it leaves the loop itself open
    have hTake : ((body.operations ++ .jumpIfNonZero :: after).take (n + 1)) =
        body.operations.take (n + 1) :=
      List.take_append_of_le_length (by rw [length_operations]; omega)
    have hLe := body.closings_le_openings _ (List.take_prefix (n + 1) body.operations)
    rw [hSplit, Nat.add_assoc, span_append_left, List.take_succ_cons, hTake, openings_opening,
      closings_opening]
    omega

/-- Counting finds the partners that the tree gives, and no others. -/
theorem matching_iff {code : Code} {i j : Nat} :
    Matching code.operations i j ↔ ∃ body : Code, code.LoopAt i body ∧ j = i + body.size + 1 := by
  constructor
  · intro h
    have hOpens := h.opens
    rw [← map_operation_instructions code 0, List.getElem?_map, Option.map_eq_some_iff] at hOpens
    obtain ⟨jump, hJump, hOperation⟩ := hOpens
    obtain ⟨body, hBody⟩ := code.exists_loopAt_of_opening 0 i jump hJump hOperation
    exact ⟨body, hBody, h.right_unique hBody.matching⟩
  · rintro ⟨body, hBody, rfl⟩
    exact hBody.matching

/-- A closing jump has one partner at most. -/
theorem matching_left_unique {code : Code} {i i' j : Nat} (h : Matching code.operations i j)
    (h' : Matching code.operations i' j) : i = i' := by
  obtain ⟨body, hBody, rfl⟩ := matching_iff.1 h
  obtain ⟨body', hBody', hEq⟩ := matching_iff.1 h'
  have hClosing := hBody.closing 0
  rw [hEq, hBody'.closing 0] at hClosing
  simpa using hClosing.symm

end Code

/-! ## Canonical programs -/

/-- A program whose jumps are properly nested and linked accordingly, without any other targets. -/
structure Program.Canonical (program : Program) : Prop where
  nested : Nested program.operations
  opening : ∀ (i : Nat) (jump : Instruction), program.get? i = some jump →
    jump.operation = .jumpIfZero → Matching program.operations i jump.target
  closing : ∀ (j : Nat) (jump : Instruction), program.get? j = some jump →
    jump.operation = .jumpIfNonZero → Matching program.operations jump.target j
  idle : ∀ (i : Nat) (instruction : Instruction), program.get? i = some instruction →
    instruction.operation.isJump = false → instruction.target = 0

theorem Code.canonical_program (code : Code) : code.program.Canonical where
  nested := by
    rw [operations_program]
    exact code.nested_operations
  opening := by
    intro i jump hJump hOperation
    rw [get?_program] at hJump
    obtain ⟨body, hBody⟩ := code.exists_loopAt_of_opening 0 i jump hJump hOperation
    rw [hBody.opening 0, Option.some.injEq] at hJump
    subst hJump
    simpa using hBody.matching
  closing := by
    intro j jump hJump hOperation
    rw [get?_program] at hJump
    obtain ⟨i, body, hBody, rfl⟩ := code.exists_loopAt_of_closing 0 j jump hJump hOperation
    rw [hBody.closing 0, Option.some.injEq] at hJump
    subst hJump
    simpa using hBody.matching
  idle := by
    intro i instruction hInstruction hJump
    rw [get?_program] at hInstruction
    exact code.target_eq_zero 0 instruction (List.mem_of_getElem? hInstruction) hJump

/-- The operations of a canonical program fix its instructions. -/
theorem Program.Canonical.get?_eq {program : Program} (h : program.Canonical) {code : Code}
    (hOperations : code.operations = program.operations) (i : Nat) :
    program.get? i = code.program.get? i := by
  have hCode := code.canonical_program
  have hSame : (program.get? i).map Instruction.operation =
      (code.program.get? i).map Instruction.operation := by
    have hLists : code.program.operations = program.operations := by
      rw [Code.operations_program, hOperations]
    have hAt := congrArg (fun operations => operations[i]?) hLists.symm
    simpa [Program.operations, Program.get?] using hAt
  cases hLeft : program.get? i with
  | none =>
      rw [hLeft, Option.map_none, eq_comm, Option.map_eq_none_iff] at hSame
      exact hSame.symm
  | some left =>
      rw [hLeft, Option.map_some, eq_comm, Option.map_eq_some_iff] at hSame
      obtain ⟨right, hRight, hOperation⟩ := hSame
      rw [hRight, Option.some.injEq]
      have hTarget : left.target = right.target := by
        obtain ⟨simple, hSimple⟩ | hJump | hJump := left.operation.simple_or_jump
        · rw [h.idle i left hLeft (by rw [hSimple, SimpleOperation.isJump_operation]),
            hCode.idle i right hRight
              (by rw [hOperation, hSimple, SimpleOperation.isJump_operation])]
        · have hMatch := h.opening i left hLeft hJump
          have hMatch' := hCode.opening i right hRight (hOperation.trans hJump)
          rw [Code.operations_program, hOperations] at hMatch'
          exact hMatch.right_unique hMatch'
        · have hMatch := h.closing i left hLeft hJump
          have hMatch' := hCode.closing i right hRight (hOperation.trans hJump)
          rw [← hOperations] at hMatch
          rw [Code.operations_program] at hMatch'
          exact Code.matching_left_unique hMatch hMatch'
      exact congr (congrArg Instruction.mk hOperation.symm) hTarget

/-- A program is canonical exactly if it is the layout of a tree. -/
theorem Program.canonical_iff {program : Program} :
    program.Canonical ↔ ∃ code : Code, program = code.program := by
  constructor
  · intro h
    obtain ⟨code, hOperations⟩ := h.nested.exists_code
    refine ⟨code, ?_⟩
    have hInstructions : program.instructions = code.program.instructions :=
      Array.ext_getElem? fun i => h.get?_eq hOperations i
    cases program
    exact congrArg Program.mk hInstructions
  · rintro ⟨code, rfl⟩
    exact code.canonical_program

end TapeLang
