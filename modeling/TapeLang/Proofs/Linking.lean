import TapeLang.Proofs.Assembly

/-!
# The links of a compiled program

Two jumps that name each other need not be partners: a program could link its
brackets crosswise and every jump could still be taken.  A compiled program is
linked by nesting.  The partner of an opening jump is the first later address
at which as many loops are closed as opened since, and so two loops never
cross.

## Main results

* `Code.get?_opening_iff`, `Code.get?_closing_iff` — the linked pairs of a
  program are the loops of its tree.
* `compile_links_by_nesting` — operations, targets and links of a compiled
  program, in terms of its source alone.
-/

namespace TapeLang

namespace Code

variable {code : Code}

/-- An opening jump and its target are the ends of a loop of the tree. -/
theorem get?_opening_iff {i j : Nat} :
    code.program.get? i = some ⟨.jumpIfZero, j⟩ ↔
      ∃ body : Code, code.LoopAt i body ∧ j = i + body.size + 1 := by
  rw [get?_program]
  constructor
  · intro h
    obtain ⟨body, hBody⟩ := code.exists_loopAt_of_opening 0 i _ h rfl
    have hOpening := hBody.opening 0
    rw [h] at hOpening
    exact ⟨body, hBody, by simpa using hOpening⟩
  · rintro ⟨body, hBody, rfl⟩
    simpa using hBody.opening 0

/-- A closing jump and its target are the ends of a loop of the tree. -/
theorem get?_closing_iff {i j : Nat} :
    code.program.get? j = some ⟨.jumpIfNonZero, i⟩ ↔
      ∃ body : Code, code.LoopAt i body ∧ j = i + body.size + 1 := by
  rw [get?_program]
  constructor
  · intro h
    obtain ⟨i', body, hBody, rfl⟩ := code.exists_loopAt_of_closing 0 j _ h rfl
    have hClosing := hBody.closing 0
    rw [h] at hClosing
    have hEq : i = i' := by simpa using hClosing
    subst hEq
    exact ⟨body, hBody, rfl⟩
  · rintro ⟨body, hBody, rfl⟩
    simpa using hBody.closing 0

/-- Links go both ways. -/
theorem get?_opening_iff_closing {i j : Nat} :
    code.program.get? i = some ⟨.jumpIfZero, j⟩ ↔
      code.program.get? j = some ⟨.jumpIfNonZero, i⟩ :=
  get?_opening_iff.trans get?_closing_iff.symm

/-- Every jump may be taken. -/
theorem linked_program {i : Nat} {jump : Instruction} (h : code.program.get? i = some jump)
    (hJump : jump.operation.isJump = true) : code.program.linked i jump = true := by
  obtain ⟨operation, target⟩ := jump
  obtain ⟨simple, rfl⟩ | rfl | rfl := operation.simple_or_jump
  · simp at hJump
  · exact Program.linked_iff.2 ⟨_, get?_opening_iff_closing.1 h, rfl, rfl⟩
  · exact Program.linked_iff.2 ⟨_, get?_opening_iff_closing.2 h, rfl, rfl⟩

/-- Two linked pairs are the same, apart, or one strictly within the other. -/
theorem links_apart_or_nested {i j i' j' : Nat}
    (h : code.program.get? i = some ⟨.jumpIfZero, j⟩)
    (h' : code.program.get? i' = some ⟨.jumpIfZero, j'⟩) :
    i = i' ∧ j = j' ∨ j < i' ∨ j' < i ∨ (i < i' ∧ j' < j) ∨ (i' < i ∧ j < j') := by
  obtain ⟨body, hBody, rfl⟩ := get?_opening_iff.1 h
  obtain ⟨body', hBody', rfl⟩ := get?_opening_iff.1 h'
  obtain ⟨rfl, rfl⟩ | hApart := hBody.apart_or_nested hBody'
  · exact .inl ⟨rfl, rfl⟩
  · exact .inr hApart

end Code

/--
**A compiled program is linked by nesting.**  Its operations are those that the
source spells, in order.  An instruction that is no jump has no target.  The
target of an opening jump is the first later address at which as many loops
have been closed as opened since, and there stands a closing jump that names
it.  Each closing jump is found so from exactly one opening jump.  Hence every
jump may be taken, two linked pairs are apart or strictly nested, and the
program depends on nothing but the operations spelled.
-/
theorem compile_links_by_nesting (alphabet : Alphabet) (source : String) (program : Program)
    (hCompile : compile alphabet source = .ok program) :
    program.operations = source.toList.filterMap alphabet.lookup ∧
    (∀ (i : Nat) (instruction : Instruction), program.get? i = some instruction →
      instruction.operation.isJump = false → instruction.target = 0) ∧
    (∀ (i : Nat) (jump : Instruction), program.get? i = some jump →
      jump.operation = .jumpIfZero → Matching program.operations i jump.target ∧
        program.get? jump.target = some ⟨.jumpIfNonZero, i⟩) ∧
    (∀ (j : Nat) (jump : Instruction), program.get? j = some jump →
      jump.operation = .jumpIfNonZero → ∃ i : Nat, Matching program.operations i j ∧
        ∀ i' : Nat, Matching program.operations i' j → i' = i) ∧
    (∀ (i : Nat) (jump : Instruction), program.get? i = some jump →
      jump.operation.isJump = true → program.linked i jump = true) ∧
    (∀ i j i' j' : Nat, program.get? i = some ⟨.jumpIfZero, j⟩ →
      program.get? i' = some ⟨.jumpIfZero, j'⟩ →
        i = i' ∧ j = j' ∨ j < i' ∨ j' < i ∨ (i < i' ∧ j' < j) ∨ (i' < i ∧ j < j')) ∧
    ∀ (alphabet' : Alphabet) (source' : String),
      source'.toList.filterMap alphabet'.lookup = source.toList.filterMap alphabet.lookup →
        compile alphabet' source' = .ok program := by
  obtain ⟨code, hCode, rfl⟩ := compile_eq_ok_iff.1 hCompile
  have hCanonical := code.canonical_program
  refine ⟨code.operations_program.trans hCode.symm, hCanonical.idle, ?_, ?_, ?_, ?_, ?_⟩
  · rintro i ⟨operation, target⟩ hJump rfl
    exact ⟨hCanonical.opening i _ hJump rfl, Code.get?_opening_iff_closing.1 hJump⟩
  · intro j jump hJump hOperation
    have hMatch := hCanonical.closing j jump hJump hOperation
    rw [Code.operations_program] at hMatch ⊢
    exact ⟨jump.target, hMatch, fun i' hOther => Code.matching_left_unique hOther hMatch⟩
  · intro i jump hJump hIs
    exact Code.linked_program hJump hIs
  · intro i j i' j' h h'
    exact Code.links_apart_or_nested h h'
  · intro alphabet' source' hSame
    exact compile_eq_ok_iff.2 ⟨code, hSame.trans hCode, rfl⟩

/-- Two nested loops among text that is not code, and the links between their four brackets. -/
theorem compile_links_by_nesting_two_loops :
    compile .ascii "a+[ >[-]é<-]" = .ok ⟨#[⟨.increment, 0⟩, ⟨.jumpIfZero, 8⟩, ⟨.forward, 0⟩,
      ⟨.jumpIfZero, 5⟩, ⟨.decrement, 0⟩, ⟨.jumpIfNonZero, 3⟩, ⟨.backward, 0⟩, ⟨.decrement, 0⟩,
      ⟨.jumpIfNonZero, 1⟩]⟩ ∧
    Matching [.increment, .jumpIfZero, .forward, .jumpIfZero, .decrement, .jumpIfNonZero,
      .backward, .decrement, .jumpIfNonZero] 1 8 :=
  ⟨rfl, ((compile_links_by_nesting .ascii "a+[ >[-]é<-]" _ rfl).2.2.1 1 _ rfl rfl).1⟩

end TapeLang
