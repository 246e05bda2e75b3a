import Mathlib.Data.List.TakeWhile
import TapeLang.Listing
import TapeLang.Proofs.Lockstep
import TapeLang.Proofs.Retranslation
import TapeLang.Stream.Script

/-!
# What a listing shows

A listing shows the operation of every instruction and the target of every jump.
It does not show the targets of other instructions, and it need not: no machine
ever looks at them.

That a listing can be read back rests on what stands where in a line.  A line has
no line end within it, its margin depends on the address alone, the indentation is
made of tabs and a body begins with none, and a name has no space in it.  So the
line, then the body, then the name are cut off one after the other, whatever the
widths are.  That the rest is idle is the lockstep of two runs on the same tape.

## Main results

* `Program.lines_listing` — the lines of a listing, one for each instruction.
* `Listing.shown_of_body_eq` — what can be read off the body of a line.
* `Program.text_listing_eq_iff` — which programs have the same listing.
* `listing_shows_what_runs` — and these run alike.
-/

namespace TapeLang

/-! ## The lines of a listing -/

namespace Listing

/-- The lines of instructions from an address on, where that many loops are open. -/
def linesFrom (n level : Nat) : List Instruction → List Line
  | [] => []
  | instruction :: rest =>
      line n (instruction.operation.shownLevel level) instruction ::
        linesFrom (n + 1) (instruction.operation.nextLevel level) rest

theorem feed_eq (layout : Layout) (n level : Nat) (instruction : Instruction) :
    State.feed ⟨layout, n, level⟩ instruction =
      ⟨layout.push (line n (instruction.operation.shownLevel level) instruction), n + 1,
        instruction.operation.nextLevel level⟩ := by
  obtain ⟨operation, target⟩ := instruction
  cases operation <;> rfl

theorem lines_foldl_feed (instructions : List Instruction) :
    ∀ (layout : Layout) (n level : Nat),
      (instructions.foldl State.feed ⟨layout, n, level⟩).layout.lines.toList =
        layout.lines.toList ++ linesFrom n level instructions := by
  induction instructions with
  | nil => intro layout n level; exact (List.append_nil _).symm
  | cons instruction rest ih =>
      intro layout n level
      rw [List.foldl_cons, feed_eq, ih, linesFrom, Layout.push, Array.toList_push,
        List.append_assoc, List.singleton_append]

end Listing

namespace Program

theorem lines_listing (program : Program) :
    program.listing.lines.toList = Listing.linesFrom 0 0 program.instructions.toList :=
  Listing.lines_foldl_feed program.instructions.toList {} 0 0

end Program

theorem Layout.toList_text (layout : Layout) :
    layout.text.toList =
      layout.lines.toList.flatMap fun line => line.marginChars ++ line.chars := by
  rw [text, pieces, String.toList_join, List.flatMap_assoc]
  apply congrArg List.flatten
  apply List.map_congr_left
  intro line _
  exact line.flatMap_toList_pieces_eq

/-! ## Cutting a text -/

/-- A separator that a part does not hold ends that part. -/
theorem takeWhile_separated {part rest : List Char} {separator : Char} (h : separator ∉ part) :
    (part ++ separator :: rest).takeWhile (· != separator) = part := by
  have hPart : ∀ c ∈ part, (c != separator) = true := by
    intro c hc
    exact bne_iff_ne.2 fun hEq => h (hEq ▸ hc)
  rw [List.takeWhile_append_of_pos hPart, List.takeWhile_cons_of_neg (by simp), List.append_nil]

/-- Two texts that begin with such a part and its separator begin with the same part. -/
theorem separated_inj {part part' rest rest' : List Char} {separator : Char}
    (h : separator ∉ part) (h' : separator ∉ part')
    (hEq : part ++ separator :: rest = part' ++ separator :: rest') :
    part = part' ∧ rest = rest' := by
  have hPart := congrArg (List.takeWhile (· != separator)) hEq
  rw [takeWhile_separated h, takeWhile_separated h'] at hPart
  subst hPart
  exact ⟨rfl, (List.cons.inj (List.append_cancel_left hEq)).2⟩

theorem newline_not_mem_digits (n : Nat) : '\n' ∉ Nat.toDigits 10 n := by
  intro hc
  have hDigit : '\n'.isDigit = true := Nat.isDigit_of_mem_toDigits (by decide) (by decide) hc
  cases hDigit

/-! ## Names -/

namespace Operation

theorem ofMnemonic?_mnemonic (operation : Operation) :
    ofMnemonic? operation.mnemonic = some operation := by
  cases operation <;> decide

theorem mnemonic_injective {operation other : Operation}
    (h : operation.mnemonic = other.mnemonic) : operation = other := by
  have hFound := ofMnemonic?_mnemonic operation
  rw [h, ofMnemonic?_mnemonic] at hFound
  exact (Option.some.inj hFound).symm

theorem not_mem_mnemonic (operation : Operation) {c : Char} (h : c ∈ [' ', '\t', '\n']) :
    c ∉ operation.mnemonic.toList := by
  simp only [List.mem_cons, List.not_mem_nil, or_false] at h
  obtain rfl | rfl | rfl := h <;> cases operation <;> decide

end Operation

/-! ## Reading a body -/

namespace Listing

/-- What a line shows of an instruction behind the name. -/
def shownTarget (instruction : Instruction) : List Char :=
  if instruction.operation.isJump then " -> ".toList ++ instruction.target.repr.toList else []

theorem toList_join_body (instruction : Instruction) :
    (String.join (body instruction)).toList =
      instruction.operation.mnemonic.toList ++ shownTarget instruction := by
  unfold body shownTarget
  rw [String.toList_join]
  split <;> simp

theorem newline_not_mem_body (instruction : Instruction) :
    '\n' ∉ (String.join (body instruction)).toList := by
  rw [toList_join_body, shownTarget, List.mem_append]
  have hName := instruction.operation.not_mem_mnemonic (c := '\n') (by decide)
  have hTarget := newline_not_mem_digits instruction.target
  split <;> simp [hName, hTarget]

/-- The name ends at the first space, or at the end of the body. -/
theorem takeWhile_body (instruction : Instruction) :
    (String.join (body instruction)).toList.takeWhile (· != ' ') =
      instruction.operation.mnemonic.toList := by
  have hName := instruction.operation.not_mem_mnemonic (c := ' ') (by decide)
  rw [toList_join_body, shownTarget]
  by_cases hJump : instruction.operation.isJump = true
  · rw [if_pos hJump]
    exact takeWhile_separated hName
  · rw [if_neg hJump, List.append_nil]
    apply List.takeWhile_eq_self_iff.2
    intro c hc
    exact bne_iff_ne.2 fun hEq => hName (hEq ▸ hc)

/-- The body of a line shows the operation and, for a jump, the target. -/
theorem shown_of_body_eq {instruction other : Instruction}
    (h : (String.join (body instruction)).toList = (String.join (body other)).toList) :
    instruction.Matches 0 other := by
  have hNames : instruction.operation.mnemonic.toList = other.operation.mnemonic.toList := by
    rw [← takeWhile_body, ← takeWhile_body, h]
  have hOperation : other.operation = instruction.operation :=
    Operation.mnemonic_injective (String.toList_injective hNames.symm)
  refine ⟨hOperation, fun hJump => ?_⟩
  rw [toList_join_body, toList_join_body, hNames] at h
  have hTargets : shownTarget instruction = shownTarget other := List.append_cancel_left h
  rw [shownTarget, shownTarget, hOperation, if_pos hJump, if_pos hJump] at hTargets
  have hDigits := List.append_cancel_left hTargets
  rw [Nat.toList_repr, Nat.toList_repr] at hDigits
  show other.target = instruction.target
  rw [← Nat.ofDigitChars_toDigits (b := 10) (n := other.target) (by decide) (by decide), ← hDigits,
    Nat.ofDigitChars_toDigits (by decide) (by decide)]

/-- Behind the indentation comes the body, since no name begins with a tab. -/
theorem dropWhile_indented (level : Nat) (instruction : Instruction) :
    (List.replicate level '\t' ++ (String.join (body instruction)).toList).dropWhile (· == '\t') =
      (String.join (body instruction)).toList := by
  rw [List.dropWhile_append_of_pos (by simp), toList_join_body]
  obtain ⟨operation, target⟩ := instruction
  cases operation <;> simp [Operation.mnemonic]

/-! ## Reading a line -/

/-- The characters of a line up to its end. -/
def lineText (n level : Nat) (instruction : Instruction) : List Char :=
  (String.join [address n, "  "]).toList ++
    (List.replicate level '\t' ++ (String.join (body instruction)).toList)

theorem line_eq (n level : Nat) (instruction : Instruction) :
    (line n level instruction).marginChars ++ (line n level instruction).chars =
      lineText n level instruction ++ ['\n'] := by
  simp [line, Line.marginChars, Line.chars, Line.bodyChars, lineText]

theorem newline_not_mem_lineText (n level : Nat) (instruction : Instruction) :
    '\n' ∉ lineText n level instruction := by
  have hBody := newline_not_mem_body instruction
  have hAddress := newline_not_mem_digits n
  simp only [lineText, address, List.mem_append, String.toList_join, List.mem_replicate,
    List.flatMap_cons, String.toList_append, String.toList_ofList, List.flatMap_nil] at hBody ⊢
  simp [hBody, hAddress]

/-- At the same address a line shows its instruction, at whatever level it stands. -/
theorem shown_of_lineText_eq {n level level' : Nat} {instruction other : Instruction}
    (h : lineText n level instruction = lineText n level' other) :
    instruction.Matches 0 other := by
  have hIndented := congrArg (List.dropWhile (· == '\t')) (List.append_cancel_left h)
  rw [dropWhile_indented, dropWhile_indented] at hIndented
  exact shown_of_body_eq hIndented

/-- The text of lines from an address on. -/
def textFrom (n level : Nat) (instructions : List Instruction) : List Char :=
  (linesFrom n level instructions).flatMap fun line => line.marginChars ++ line.chars

theorem textFrom_cons (n level : Nat) (instruction : Instruction) (rest : List Instruction) :
    textFrom n level (instruction :: rest) =
      lineText n (instruction.operation.shownLevel level) instruction ++
        '\n' :: textFrom (n + 1) (instruction.operation.nextLevel level) rest := by
  rw [textFrom, linesFrom, List.flatMap_cons, line_eq, List.append_assoc]
  rfl

/-- From the same address and level on, the text shows every instruction. -/
theorem shown_of_textFrom_eq (instructions : List Instruction) :
    ∀ {n level : Nat} {others : List Instruction},
      textFrom n level instructions = textFrom n level others →
        List.Forall₂ (Instruction.Matches 0) instructions others := by
  induction instructions with
  | nil =>
      intro n level others h
      cases others with
      | nil => exact .nil
      | cons other others =>
          rw [textFrom_cons] at h
          exact absurd h.symm (List.append_ne_nil_of_right_ne_nil _ (List.cons_ne_nil _ _))
  | cons instruction rest ih =>
      intro n level others h
      cases others with
      | nil =>
          rw [textFrom_cons] at h
          exact absurd h (List.append_ne_nil_of_right_ne_nil _ (List.cons_ne_nil _ _))
      | cons other others =>
          rw [textFrom_cons, textFrom_cons] at h
          obtain ⟨hLine, hRest⟩ := separated_inj (newline_not_mem_lineText _ _ instruction)
            (newline_not_mem_lineText _ _ other) h
          have hShown := shown_of_lineText_eq hLine
          rw [hShown.operation] at hRest
          exact .cons hShown (ih hRest)

theorem line_congr {instruction other : Instruction} (h : instruction.Matches 0 other)
    (n level : Nat) : line n level other = line n level instruction := by
  have hBody : body other = body instruction := by
    unfold body
    rw [h.operation]
    split
    · next hJump => rw [h.target hJump, Nat.add_zero]
    · rfl
  rw [line, line, hBody]

/-- What is not shown does not change the lines. -/
theorem linesFrom_congr {instructions others : List Instruction}
    (h : List.Forall₂ (Instruction.Matches 0) instructions others) :
    ∀ n level : Nat, linesFrom n level others = linesFrom n level instructions := by
  induction h with
  | nil => intro n level; rfl
  | cons hHead _ ih =>
      intro n level
      rw [linesFrom, linesFrom, hHead.operation, line_congr hHead, ih]

end Listing

/-! ## Programs with the same listing -/

namespace Program

variable {program other : Program}

/-- The same operations in the same order, and the same target at every jump. -/
structure SameCode (program other : Program) : Prop where
  operations : program.operations = other.operations
  targets : ∀ (i : Nat) (jump jump' : Instruction), program.get? i = some jump →
    other.get? i = some jump' → jump.operation.isJump = true → jump.target = jump'.target

/-- What is related one by one is related at every address. -/
theorem rel_getElem? {R : Instruction → Instruction → Prop} {first second : List Instruction}
    (h : List.Forall₂ R first second) : ∀ i : Nat, Option.Rel R first[i]? second[i]? := by
  induction h with
  | nil => intro i; exact .none
  | cons hHead _ ih =>
      intro i
      cases i with
      | zero => exact .some hHead
      | succ i => exact ih i

/-- Two programs with the same code match instruction by instruction, without a shift. -/
theorem SameCode.forall₂ (h : program.SameCode other) :
    List.Forall₂ (Instruction.Matches 0) program.instructions.toList
      other.instructions.toList := by
  have hLength := congrArg List.length h.operations
  simp only [Program.operations, List.length_map] at hLength
  refine List.forall₂_iff_get.2 ⟨hLength, fun i hi hi' => ?_⟩
  have hAt : program.get? i = some (program.instructions.toList.get ⟨i, hi⟩) :=
    Array.getElem?_eq_getElem hi
  have hAt' : other.get? i = some (other.instructions.toList.get ⟨i, hi'⟩) :=
    Array.getElem?_eq_getElem hi'
  have hOperations := congrArg (fun operations => operations[i]?) h.operations
  simp only [Program.operations, List.getElem?_map, List.getElem?_eq_getElem hi,
    List.getElem?_eq_getElem hi', Option.map_some, Option.some.injEq] at hOperations
  exact ⟨hOperations.symm, fun hJump => (h.targets i _ _ hAt hAt' hJump).symm⟩

theorem matches_of_forall₂ (h : List.Forall₂ (Instruction.Matches 0) program.instructions.toList
    other.instructions.toList) : program.Matches 0 other := by
  intro address
  have hRel := rel_getElem? h address
  rwa [Array.getElem?_toList, Array.getElem?_toList] at hRel

theorem map_operation_eq {first second : List Instruction}
    (h : List.Forall₂ (Instruction.Matches 0) first second) :
    first.map Instruction.operation = second.map Instruction.operation := by
  induction h with
  | nil => rfl
  | cons hHead _ ih => rw [List.map_cons, List.map_cons, hHead.operation, ih]

theorem sameCode_of_forall₂ (h : List.Forall₂ (Instruction.Matches 0)
    program.instructions.toList other.instructions.toList) : program.SameCode other where
  operations := map_operation_eq h
  targets := by
    intro i jump jump' hAt hAt' hJump
    obtain ⟨found, hFound, hMatches⟩ := (matches_of_forall₂ h).exists_get? hAt
    rw [Nat.add_zero, hAt', Option.some.injEq] at hFound
    subst hFound
    exact (hMatches.target hJump).symm

/-- Two programs have the same listing exactly if they have the same code. -/
theorem text_listing_eq_iff :
    program.listing.text = other.listing.text ↔ program.SameCode other := by
  have hText : ∀ shown : Program, shown.listing.text.toList =
      Listing.textFrom 0 0 shown.instructions.toList := by
    intro shown
    rw [Layout.toList_text, lines_listing]
    rfl
  constructor
  · intro h
    have hChars := congrArg String.toList h
    rw [hText, hText] at hChars
    exact sameCode_of_forall₂ (Listing.shown_of_textFrom_eq _ hChars)
  · intro h
    apply String.toList_injective
    rw [hText, hText, Listing.textFrom, Listing.textFrom, Listing.linesFrom_congr h.forall₂]

end Program

/-! ## The two runs -/

theorem Tape.eq_congruence : Tape.Congruence (· = ·) fun _ _ => True where
  get h := congrArg Tape.get h.symm
  set h value := congrArg (Tape.set · value) h
  forward h _ := congrArg Tape.forward h
  backward h _ := congrArg Tape.backward h

section Runs

variable {program other : Program}

namespace Machine

theorem Alike.eq {machine machine' : Machine} (h : Alike (· = ·) 0 machine machine') :
    machine = machine' :=
  Machine.ext h.tape h.pc.symm

end Machine

variable {σ : Type}

theorem Run.Alike.eq {run run' : Run σ} (h : run.Alike (Machine.Alike (· = ·) 0) 0 run') :
    run = run' := by
  obtain ⟨outcome, machine, terminal⟩ := run
  obtain ⟨outcome', machine', terminal'⟩ := run'
  have hOutcome : outcome' = outcome := h.outcome.trans (Outcome.later_zero outcome)
  have hMachine : machine = machine' := h.machine.eq
  have hTerminal : terminal' = terminal := h.terminal
  rw [hOutcome, hMachine, hTerminal]

namespace Machine

variable [Terminal σ]

/-- From the same machine, programs that match without a shift run alike to the end. -/
theorem run_eq_of_matches (h : program.Matches 0 other) (turns : Nat) (machine : Machine)
    (terminal : σ) : machine.run turns program terminal = machine.run turns other terminal := by
  have hRuns : (machine.run turns program terminal).Alike (Alike (· = ·) 0) 0
      (machine.run turns other terminal) :=
    runFrom_alike Tape.eq_congruence h turns ⟨rfl, rfl⟩ fun _ _ _ _ => trivial
  exact hRuns.eq

/-- And they take the same steps on the way. -/
theorem transitions_eq_of_matches (h : program.Matches 0 other) (turns : Nat) (machine : Machine)
    (terminal : σ) :
    transitions program turns machine terminal = transitions other turns machine terminal := by
  have hStart : Alike (· = ·) 0 machine machine := ⟨rfl, rfl⟩
  have hMoves : List.Forall₂ _ (transitions program turns machine terminal)
      (transitions other turns machine terminal) :=
    transitions_alike Tape.eq_congruence h turns hStart fun _ _ _ _ => trivial
  rw [← List.forall₂_eq_eq_eq]
  apply hMoves.imp
  rintro ⟨before, after⟩ ⟨before', after'⟩ ⟨hBefore, hAfter⟩
  exact congr (congrArg Transition.mk hBefore.eq) hAfter.eq

end Machine

end Runs

/--
**A listing shows exactly what matters to a run.**  Two programs, put together in
whatever way, have the same listing if and only if they have the same operations in
the same order and the same target at every jump.  If they do, then on any tape and
any terminal their runs go the same way: they take the same steps between the same
machines, make the same calls, and end alike or not at all.
-/
theorem listing_shows_what_runs (program other : Program) :
    (program.listing.text = other.listing.text ↔
      program.operations = other.operations ∧
      ∀ (i : Nat) (jump jump' : Instruction), program.get? i = some jump →
        other.get? i = some jump' → jump.operation.isJump = true →
          jump.target = jump'.target) ∧
    (program.listing.text = other.listing.text →
      ∀ (σ : Type) [Terminal σ] (terminal : σ) (length : TapeLength) (turns : Nat),
        (Machine.fresh length).run turns program terminal =
          (Machine.fresh length).run turns other terminal ∧
        Machine.transitions program turns (Machine.fresh length) terminal =
          Machine.transitions other turns (Machine.fresh length) terminal) := by
  constructor
  · rw [Program.text_listing_eq_iff]
    constructor
    · intro h
      exact ⟨h.operations, h.targets⟩
    · rintro ⟨hOperations, hTargets⟩
      exact ⟨hOperations, hTargets⟩
  · intro hText σ _ terminal length turns
    have hMatches := Program.matches_of_forall₂ (Program.text_listing_eq_iff.1 hText).forall₂
    exact ⟨Machine.run_eq_of_matches hMatches turns _ terminal,
      Machine.transitions_eq_of_matches hMatches turns _ terminal⟩

/-- The opening jump leads to no partner, and what target stands there does not show. -/
theorem listing_shows_what_runs_wrong_partner :
    (⟨#[⟨.jumpIfZero, 1⟩, ⟨.increment, 0⟩]⟩ : Program).listing.text =
      (⟨#[⟨.jumpIfZero, 1⟩, ⟨.increment, 7⟩]⟩ : Program).listing.text ∧
    (Machine.fresh ⟨1, by decide⟩).run 2 ⟨#[⟨.jumpIfZero, 1⟩, ⟨.increment, 0⟩]⟩ ({} : Script) =
      (Machine.fresh ⟨1, by decide⟩).run 2 ⟨#[⟨.jumpIfZero, 1⟩, ⟨.increment, 7⟩]⟩ {} := by
  have hText : (⟨#[⟨.jumpIfZero, 1⟩, ⟨.increment, 0⟩]⟩ : Program).listing.text =
      (⟨#[⟨.jumpIfZero, 1⟩, ⟨.increment, 7⟩]⟩ : Program).listing.text := by rfl
  exact ⟨hText, ((listing_shows_what_runs _ _).2 hText Script {} ⟨1, by decide⟩ 2).1⟩

end TapeLang
