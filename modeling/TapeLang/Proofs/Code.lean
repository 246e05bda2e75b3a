import TapeLang.Program

/-!
# Structured code

A flat program shows its loops only through jumps.  Here the same operations
are read as a tree: simple operations in sequence, and loops that contain
code of their own.  The tree is what a source means; the flat program is what
a machine runs.

Three things connect them.  `Code.operations` writes a tree as the flat
sequence of its operations, and `Code.parse` reads it back.
`Code.instructions` lays a tree out from an address on, with the two jumps of
each loop pointing at each other.  `Code.LoopAt` says where in the layout a
loop stands, so that a fact about a loop never has to be traced through the
addresses of the code around it.

## Main results

* `Code.parse_eq_some_iff` — parsing is the inverse of writing out, so a
  sequence of operations has at most one tree.
* `Code.LoopAt.opening`, `Code.LoopAt.closing` — the jumps of a loop name each
  other's address.
* `Code.exists_loopAt_of_opening`, `Code.exists_loopAt_of_closing` — every jump
  of a layout belongs to a loop of the tree.
* `Code.LoopAt.apart_or_nested` — loops do not cross.
-/

namespace TapeLang

/-- An operation that is no jump. -/
inductive SimpleOperation where
  | forward
  | backward
  | increment
  | decrement
  | write
  | read
  deriving DecidableEq, Repr

/-- A simple operation among all operations. -/
def SimpleOperation.operation : SimpleOperation → Operation
  | .forward => .forward
  | .backward => .backward
  | .increment => .increment
  | .decrement => .decrement
  | .write => .write
  | .read => .read

@[simp] theorem SimpleOperation.isJump_operation (simple : SimpleOperation) :
    simple.operation.isJump = false := by
  cases simple <;> rfl

@[simp] theorem SimpleOperation.operation_ne_jumpIfZero (simple : SimpleOperation) :
    simple.operation ≠ .jumpIfZero := by
  cases simple <;> decide

@[simp] theorem SimpleOperation.operation_ne_jumpIfNonZero (simple : SimpleOperation) :
    simple.operation ≠ .jumpIfNonZero := by
  cases simple <;> decide

/-- What an operation is to the structure of code. -/
inductive Operation.Role where
  | simple (operation : SimpleOperation)
  | opening
  | closing

/-- The role of an operation. -/
def Operation.role : Operation → Operation.Role
  | .forward => .simple .forward
  | .backward => .simple .backward
  | .increment => .simple .increment
  | .decrement => .simple .decrement
  | .write => .simple .write
  | .read => .simple .read
  | .jumpIfZero => .opening
  | .jumpIfNonZero => .closing

@[simp] theorem SimpleOperation.role_operation (simple : SimpleOperation) :
    simple.operation.role = .simple simple := by
  cases simple <;> rfl

/-- Every operation is simple or one of the two jumps. -/
theorem Operation.simple_or_jump (operation : Operation) :
    (∃ simple : SimpleOperation, operation = simple.operation) ∨
      operation = .jumpIfZero ∨ operation = .jumpIfNonZero := by
  cases operation
  case forward => exact .inl ⟨.forward, rfl⟩
  case backward => exact .inl ⟨.backward, rfl⟩
  case increment => exact .inl ⟨.increment, rfl⟩
  case decrement => exact .inl ⟨.decrement, rfl⟩
  case write => exact .inl ⟨.write, rfl⟩
  case read => exact .inl ⟨.read, rfl⟩
  case jumpIfZero => exact .inr (.inl rfl)
  case jumpIfNonZero => exact .inr (.inr rfl)

/-! ## Trees and their operations -/

/-- A sequence of simple operations and loops. -/
inductive Code where
  | done
  | simple (operation : SimpleOperation) (rest : Code)
  | loop (body rest : Code)
  deriving DecidableEq, Repr

namespace Code

/-- The operations in order, a loop between its two jumps. -/
def operations : Code → List Operation
  | done => []
  | simple operation rest => operation.operation :: rest.operations
  | loop body rest =>
      .jumpIfZero :: (body.operations ++ .jumpIfNonZero :: rest.operations)

/-- The number of operations. -/
def size : Code → Nat
  | done => 0
  | simple _ rest => rest.size + 1
  | loop body rest => body.size + rest.size + 2

/-- One code after another. -/
def append : Code → Code → Code
  | done, next => next
  | simple operation rest, next => .simple operation (rest.append next)
  | loop body rest, next => .loop body (rest.append next)

@[simp] theorem length_operations (code : Code) : code.operations.length = code.size := by
  induction code with
  | done => rfl
  | simple operation rest ih => simp [operations, size, ih]
  | loop body rest ihBody ihRest =>
      simp only [operations, size, List.length_cons, List.length_append, ihBody, ihRest]
      omega

@[simp] theorem operations_append (code next : Code) :
    (code.append next).operations = code.operations ++ next.operations := by
  induction code with
  | done => rfl
  | simple operation rest ih => simp [operations, append, ih]
  | loop body rest _ ihRest => simp [operations, append, ihRest]

@[simp] theorem append_done (code : Code) : code.append .done = code := by
  induction code with
  | done => rfl
  | simple operation rest ih => rw [append, ih]
  | loop body rest _ ihRest => rw [append, ihRest]

/-! ## Parsing -/

/--
Puts an operation before code that has been parsed.  `outer` holds, innermost
first, the code after each closing jump whose opening one is still to come.
-/
def prepend (operation : Operation) (code : Code) (outer : List Code) :
    Option (Code × List Code) :=
  match operation.role with
  | .simple operation => some (.simple operation code, outer)
  | .closing => some (.done, code :: outer)
  | .opening =>
      match outer with
      | [] => none
      | after :: outer => some (.loop code after, outer)

/-- Parses operations from the last to the first. -/
def parseFrom : List Operation → Option (Code × List Code)
  | [] => some (.done, [])
  | operation :: rest =>
      match parseFrom rest with
      | none => none
      | some (code, outer) => prepend operation code outer

/-- The tree of a sequence of operations, if its jumps are properly nested. -/
def parse (operations : List Operation) : Option Code :=
  match parseFrom operations with
  | some (code, []) => some code
  | _ => none

/-- Parsing in front of a remainder puts the code before the remainder's. -/
theorem parseFrom_operations_append (code : Code) :
    ∀ (rest : List Operation) (next : Code) (outer : List Code),
      parseFrom rest = some (next, outer) →
        parseFrom (code.operations ++ rest) = some (code.append next, outer) := by
  induction code with
  | done => intro rest next outer h; exact h
  | simple operation code ih =>
      intro rest next outer h
      simp [operations, append, parseFrom, ih rest next outer h, prepend]
  | loop body after ihBody ihAfter =>
      intro rest next outer h
      have hAfter := ihAfter rest next outer h
      have hClosing : parseFrom (.jumpIfNonZero :: (after.operations ++ rest)) =
          some (.done, after.append next :: outer) := by
        simp [parseFrom, hAfter, prepend, Operation.role]
      have hBody := ihBody _ _ _ hClosing
      rw [append_done] at hBody
      simp [operations, append, parseFrom, hBody, prepend, Operation.role]

/-- What parsing returns spells the operations. -/
theorem eq_of_parseFrom (operations : List Operation) :
    ∀ (code : Code) (outer : List Code), parseFrom operations = some (code, outer) →
      operations = code.operations ++
        outer.flatMap fun after => .jumpIfNonZero :: after.operations := by
  induction operations with
  | nil =>
      intro code outer h
      cases h
      rfl
  | cons operation rest ih =>
      intro code outer h
      rw [parseFrom] at h
      cases hRest : parseFrom rest with
      | none => simp [hRest] at h
      | some parsed =>
          obtain ⟨next, pending⟩ := parsed
          have hSpelled := ih next pending hRest
          simp only [hRest, prepend] at h
          obtain ⟨simple, rfl⟩ | rfl | rfl := operation.simple_or_jump
          · rw [SimpleOperation.role_operation] at h
            cases h
            rw [hSpelled]
            rfl
          · cases pending with
            | nil => simp [Operation.role] at h
            | cons after pending =>
                simp only [Operation.role, Option.some.injEq, Prod.mk.injEq] at h
                obtain ⟨rfl, rfl⟩ := h
                rw [hSpelled]
                simp [Code.operations]
          · simp only [Operation.role, Option.some.injEq, Prod.mk.injEq] at h
            obtain ⟨rfl, rfl⟩ := h
            rw [hSpelled]
            simp [Code.operations]

/-- Parsing undoes writing out, and nothing else parses to the same tree. -/
theorem parse_eq_some_iff {operations : List Operation} {code : Code} :
    parse operations = some code ↔ code.operations = operations := by
  constructor
  · intro h
    unfold parse at h
    split at h
    · next parsed hParsed =>
        cases h
        simpa using (eq_of_parseFrom operations code [] hParsed).symm
    · cases h
  · rintro rfl
    have h := parseFrom_operations_append code [] .done [] rfl
    rw [List.append_nil, append_done] at h
    simp [parse, h]

theorem operations_injective {code other : Code}
    (h : code.operations = other.operations) : code = other := by
  have hParse := parse_eq_some_iff.2 h
  rw [parse_eq_some_iff.2 rfl] at hParse
  exact (Option.some.inj hParse).symm

/-! ## Layout -/

/--
The instructions of code that starts at an address: the jumps of a loop point
at each other, and no other instruction has a target.
-/
def instructions : Code → (base : Nat) → List Instruction
  | done, _ => []
  | simple operation rest, base => ⟨operation.operation, 0⟩ :: rest.instructions (base + 1)
  | loop body rest, base =>
      ⟨.jumpIfZero, base + body.size + 1⟩ ::
        (body.instructions (base + 1) ++
          ⟨.jumpIfNonZero, base⟩ :: rest.instructions (base + body.size + 2))

/-- The program of code, laid out from the first address. -/
def program (code : Code) : Program := ⟨(code.instructions 0).toArray⟩

@[simp] theorem length_instructions (code : Code) :
    ∀ base : Nat, (code.instructions base).length = code.size := by
  induction code with
  | done => intro base; rfl
  | simple operation rest ih => intro base; simp [instructions, size, ih]
  | loop body rest ihBody ihRest =>
      intro base
      simp only [instructions, size, List.length_cons, List.length_append, ihBody, ihRest]
      omega

/-- A layout keeps the operations and their order. -/
@[simp] theorem map_operation_instructions (code : Code) :
    ∀ base : Nat, (code.instructions base).map Instruction.operation = code.operations := by
  induction code with
  | done => intro base; rfl
  | simple operation rest ih => intro base; simp [instructions, operations, ih]
  | loop body rest ihBody ihRest =>
      intro base
      simp [instructions, operations, ihBody, ihRest]

theorem instructions_append (code next : Code) :
    ∀ base : Nat, (code.append next).instructions base =
      code.instructions base ++ next.instructions (base + code.size) := by
  induction code with
  | done => intro base; rfl
  | simple operation rest ih =>
      intro base
      simp only [append, instructions, size, ih, List.cons_append]
      rw [Nat.add_right_comm base 1, Nat.add_assoc]
  | loop body rest _ ihRest =>
      intro base
      have hNext : base + body.size + 2 + rest.size = base + (body.size + rest.size + 2) := by
        omega
      simp [append, instructions, size, ihRest, hNext]

@[simp] theorem operations_program (code : Code) : code.program.operations = code.operations := by
  simp [program, Program.operations]

@[simp] theorem size_program (code : Code) : code.program.size = code.size := by
  simp [program, Program.size]

theorem get?_program (code : Code) (address : Nat) :
    code.program.get? address = (code.instructions 0)[address]? := by
  simp [program, Program.get?]

/-! ## Where a loop stands -/

/--
`code.LoopAt i body`: in the layout of `code` the opening jump of a loop with
this body is the instruction number `i`.
-/
inductive LoopAt : Code → Nat → Code → Prop where
  | here {body rest : Code} : LoopAt (.loop body rest) 0 body
  | inside {body rest inner : Code} {i : Nat} (h : LoopAt body i inner) :
      LoopAt (.loop body rest) (i + 1) inner
  | after {body rest inner : Code} {i : Nat} (h : LoopAt rest i inner) :
      LoopAt (.loop body rest) (body.size + 2 + i) inner
  | later {operation : SimpleOperation} {rest inner : Code} {i : Nat} (h : LoopAt rest i inner) :
      LoopAt (.simple operation rest) (i + 1) inner

/-- A loop ends within the code. -/
theorem LoopAt.lt_size {code body : Code} {i : Nat} (h : code.LoopAt i body) :
    i + body.size + 1 < code.size := by
  induction h with
  | here => simp only [size]; omega
  | inside _ ih => simp only [size]; omega
  | after _ ih => simp only [size]; omega
  | later _ ih => simp only [size]; omega

/-- The operations of a loop stand together, its opening jump at its place. -/
theorem LoopAt.split {code body : Code} {i : Nat} (h : code.LoopAt i body) :
    ∃ before after : List Operation, before.length = i ∧
      code.operations =
        before ++ .jumpIfZero :: (body.operations ++ .jumpIfNonZero :: after) := by
  induction h with
  | @here body rest => exact ⟨[], rest.operations, rfl, rfl⟩
  | @inside body rest inner i _ ih =>
      obtain ⟨before, after, hLength, hSplit⟩ := ih
      refine ⟨.jumpIfZero :: before, after ++ .jumpIfNonZero :: rest.operations, ?_, ?_⟩
      · rw [List.length_cons, hLength]
      · simp [operations, hSplit]
  | @after body rest inner i _ ih =>
      obtain ⟨before, after, hLength, hSplit⟩ := ih
      refine ⟨.jumpIfZero :: (body.operations ++ .jumpIfNonZero :: before), after, ?_, ?_⟩
      · simp only [List.length_cons, List.length_append, length_operations, hLength]
        omega
      · simp [operations, hSplit]
  | @later operation rest inner i _ ih =>
      obtain ⟨before, after, hLength, hSplit⟩ := ih
      exact ⟨operation.operation :: before, after, by rw [List.length_cons, hLength],
        by simp [operations, hSplit]⟩

/-! ### The layout of a loop, address by address -/

theorem getElem?_loop_inside (body rest : Code) (base i : Nat) (h : i < body.size) :
    ((loop body rest).instructions base)[i + 1]? = (body.instructions (base + 1))[i]? := by
  rw [instructions, List.getElem?_cons_succ]
  exact List.getElem?_append_left (by rw [length_instructions]; exact h)

theorem getElem?_loop_closing (body rest : Code) (base : Nat) :
    ((loop body rest).instructions base)[body.size + 1]? = some ⟨.jumpIfNonZero, base⟩ := by
  rw [instructions, List.getElem?_cons_succ, List.getElem?_append_right (by simp)]
  simp

theorem getElem?_loop_after (body rest : Code) (base i : Nat) :
    ((loop body rest).instructions base)[body.size + 2 + i]? =
      (rest.instructions (base + body.size + 2))[i]? := by
  rw [instructions, show body.size + 2 + i = (body.size + 1 + i) + 1 by omega,
    List.getElem?_cons_succ, List.getElem?_append_right (by simp; omega), length_instructions,
    show body.size + 1 + i - body.size = i + 1 by omega, List.getElem?_cons_succ]

/-- The opening jump of a loop names the address of the closing one. -/
theorem LoopAt.opening {code body : Code} {i : Nat} (h : code.LoopAt i body) :
    ∀ base : Nat,
      (code.instructions base)[i]? = some ⟨.jumpIfZero, base + (i + body.size + 1)⟩ := by
  induction h with
  | here =>
      intro base
      simp only [instructions, List.getElem?_cons_zero, Nat.zero_add, Nat.add_assoc]
  | @inside body rest inner i h ih =>
      intro base
      have hBound := h.lt_size
      rw [getElem?_loop_inside body rest base i (by omega), ih]
      congr 2
      omega
  | @after body rest inner i _ ih =>
      intro base
      rw [getElem?_loop_after, ih]
      congr 2
      omega
  | @later operation rest inner i _ ih =>
      intro base
      rw [instructions, List.getElem?_cons_succ, ih]
      congr 2
      omega

/-- The closing jump of a loop names the address of the opening one. -/
theorem LoopAt.closing {code body : Code} {i : Nat} (h : code.LoopAt i body) :
    ∀ base : Nat,
      (code.instructions base)[i + body.size + 1]? = some ⟨.jumpIfNonZero, base + i⟩ := by
  induction h with
  | @here body rest =>
      intro base
      rw [Nat.zero_add]
      exact getElem?_loop_closing body rest base
  | @inside body rest inner i h ih =>
      intro base
      have hBound := h.lt_size
      rw [show i + 1 + inner.size + 1 = (i + inner.size + 1) + 1 by omega,
        getElem?_loop_inside body rest base _ hBound, ih]
      congr 2
      omega
  | @after body rest inner i _ ih =>
      intro base
      rw [show body.size + 2 + i + inner.size + 1 = body.size + 2 + (i + inner.size + 1) by omega,
        getElem?_loop_after, ih]
      congr 2
      omega
  | @later operation rest inner i _ ih =>
      intro base
      rw [show i + 1 + inner.size + 1 = (i + inner.size + 1) + 1 by omega, instructions,
        List.getElem?_cons_succ, ih]
      congr 2
      omega

/--
What stands at an address of a loop's layout: the opening jump, something of
the body, the closing jump, or something after the loop.
-/
theorem lt_loop_cases (body : Code) (i : Nat) :
    i = 0 ∨ (∃ k, k < body.size ∧ i = k + 1) ∨ i = body.size + 1 ∨
      ∃ k, i = body.size + 2 + k := by
  rcases Nat.lt_trichotomy i (body.size + 1) with hLess | hEq | hGreater
  · cases i with
    | zero => exact .inl rfl
    | succ k => exact .inr (.inl ⟨k, by omega, rfl⟩)
  · exact .inr (.inr (.inl hEq))
  · exact .inr (.inr (.inr ⟨i - (body.size + 2), by omega⟩))

/-- Every opening jump of a layout opens a loop. -/
theorem exists_loopAt_of_opening (code : Code) :
    ∀ (base i : Nat) (jump : Instruction), (code.instructions base)[i]? = some jump →
      jump.operation = .jumpIfZero → ∃ body : Code, code.LoopAt i body := by
  induction code with
  | done => intro base i jump h; simp [instructions] at h
  | simple operation rest ih =>
      intro base i jump h hJump
      cases i with
      | zero =>
          simp only [instructions, List.getElem?_cons_zero, Option.some.injEq] at h
          subst h
          exact absurd hJump operation.operation_ne_jumpIfZero
      | succ i =>
          rw [instructions, List.getElem?_cons_succ] at h
          obtain ⟨inner, hInner⟩ := ih _ i jump h hJump
          exact ⟨inner, .later hInner⟩
  | loop body rest ihBody ihRest =>
      intro base i jump h hJump
      obtain rfl | ⟨k, hk, rfl⟩ | rfl | ⟨k, rfl⟩ := lt_loop_cases body i
      · exact ⟨body, .here⟩
      · rw [getElem?_loop_inside body rest base k hk] at h
        obtain ⟨inner, hInner⟩ := ihBody _ k jump h hJump
        exact ⟨inner, .inside hInner⟩
      · rw [getElem?_loop_closing] at h
        cases h
        cases hJump
      · rw [getElem?_loop_after] at h
        obtain ⟨inner, hInner⟩ := ihRest _ k jump h hJump
        exact ⟨inner, .after hInner⟩

/-- Every closing jump of a layout closes a loop. -/
theorem exists_loopAt_of_closing (code : Code) :
    ∀ (base j : Nat) (jump : Instruction), (code.instructions base)[j]? = some jump →
      jump.operation = .jumpIfNonZero →
        ∃ (i : Nat) (body : Code), code.LoopAt i body ∧ j = i + body.size + 1 := by
  induction code with
  | done => intro base j jump h; simp [instructions] at h
  | simple operation rest ih =>
      intro base j jump h hJump
      cases j with
      | zero =>
          simp only [instructions, List.getElem?_cons_zero, Option.some.injEq] at h
          subst h
          exact absurd hJump operation.operation_ne_jumpIfNonZero
      | succ j =>
          rw [instructions, List.getElem?_cons_succ] at h
          obtain ⟨i, inner, hInner, rfl⟩ := ih _ j jump h hJump
          exact ⟨i + 1, inner, .later hInner, by omega⟩
  | loop body rest ihBody ihRest =>
      intro base j jump h hJump
      obtain rfl | ⟨k, hk, rfl⟩ | rfl | ⟨k, rfl⟩ := lt_loop_cases body j
      · simp only [instructions, List.getElem?_cons_zero, Option.some.injEq] at h
        subst h
        cases hJump
      · rw [getElem?_loop_inside body rest base k hk] at h
        obtain ⟨i, inner, hInner, rfl⟩ := ihBody _ k jump h hJump
        exact ⟨i + 1, inner, .inside hInner, by omega⟩
      · exact ⟨0, body, .here, by omega⟩
      · rw [getElem?_loop_after] at h
        obtain ⟨i, inner, hInner, rfl⟩ := ihRest _ k jump h hJump
        exact ⟨body.size + 2 + i, inner, .after hInner, by omega⟩

/-- An instruction of a layout that is no jump has no target. -/
theorem target_eq_zero (code : Code) :
    ∀ (base : Nat) (instruction : Instruction), instruction ∈ code.instructions base →
      instruction.operation.isJump = false → instruction.target = 0 := by
  induction code with
  | done => intro base instruction h; simp [instructions] at h
  | simple operation rest ih =>
      intro base instruction h hJump
      rcases List.mem_cons.1 h with rfl | hRest
      · rfl
      · exact ih _ instruction hRest hJump
  | loop body rest ihBody ihRest =>
      intro base instruction h hJump
      rw [instructions, List.mem_cons, List.mem_append, List.mem_cons] at h
      obtain rfl | hBody | rfl | hRest := h
      · cases hJump
      · exact ihBody _ instruction hBody hJump
      · cases hJump
      · exact ihRest _ instruction hRest hJump

/-- Two loops are the same, or one ends before the other begins, or one lies within the other. -/
theorem LoopAt.apart_or_nested {code body : Code} {i : Nat} (h : code.LoopAt i body) :
    ∀ {i' : Nat} {body' : Code}, code.LoopAt i' body' →
      (i = i' ∧ body = body') ∨ i + body.size + 1 < i' ∨ i' + body'.size + 1 < i ∨
        (i < i' ∧ i' + body'.size + 1 < i + body.size + 1) ∨
        (i' < i ∧ i + body.size + 1 < i' + body'.size + 1) := by
  induction h with
  | @here body rest =>
      intro i' body' h'
      cases h' with
      | here => exact .inl ⟨rfl, rfl⟩
      | inside h' => have := h'.lt_size; omega
      | after h' => omega
  | @inside body rest inner i h ih =>
      intro i' body' h'
      have hBound := h.lt_size
      cases h' with
      | here => omega
      | inside h' =>
          obtain ⟨rfl, rfl⟩ | hRest := ih h'
          · exact .inl ⟨rfl, rfl⟩
          · omega
      | after h' => omega
  | @after body rest inner i h ih =>
      intro i' body' h'
      cases h' with
      | here => omega
      | inside h' => have := h'.lt_size; omega
      | after h' =>
          obtain ⟨rfl, rfl⟩ | hRest := ih h'
          · exact .inl ⟨rfl, rfl⟩
          · omega
  | @later operation rest inner i h ih =>
      intro i' body' h'
      cases h' with
      | later h' =>
          obtain ⟨rfl, rfl⟩ | hRest := ih h'
          · exact .inl ⟨rfl, rfl⟩
          · omega

end Code

end TapeLang
