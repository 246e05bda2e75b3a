import TapeLang.Machine

/-!
# Runs, step by step

A run is given a number of turns so that it can be carried out; what it means
for a run to end is that some number of turns suffices.  `Machine.Steps` is
the bridge: a chain of successful instructions, counted exactly and without
any turns.  A chain can be cut anywhere, two chains can be joined, and a run
that begins with a chain goes on behind it.

## Main results

* `Machine.Steps.runFrom` — a run passes along a chain of steps.
* `Machine.runFrom_unfinished_iff` — a run is cut off exactly if that many steps
  succeed.
* `Machine.runFrom_eq_of_ended` — how many turns a run is given does not matter
  once it ends.
-/

namespace TapeLang.Machine

variable {σ : Type} [Terminal σ] {program : Program}

/-- A number of instructions that succeed one after the other. -/
inductive Steps (program : Program) : Nat → Machine → σ → Machine → σ → Prop where
  | refl {machine : Machine} {terminal : σ} : Steps program 0 machine terminal machine terminal
  | head {n : Nat} {machine machine₁ machine₂ : Machine} {terminal terminal₁ terminal₂ : σ}
      (hStep : machine.step program terminal = ⟨.ok (), machine₁, terminal₁⟩)
      (hRest : Steps program n machine₁ terminal₁ machine₂ terminal₂) :
      Steps program (n + 1) machine terminal machine₂ terminal₂

namespace Steps

theorem single {machine next : Machine} {terminal terminal' : σ}
    (h : machine.step program terminal = ⟨.ok (), next, terminal'⟩) :
    Steps program 1 machine terminal next terminal' :=
  .head h .refl

theorem trans {n m : Nat} {machine machine₁ machine₂ : Machine}
    {terminal terminal₁ terminal₂ : σ} (h : Steps program n machine terminal machine₁ terminal₁)
    (h' : Steps program m machine₁ terminal₁ machine₂ terminal₂) :
    Steps program (n + m) machine terminal machine₂ terminal₂ := by
  induction h with
  | refl => rwa [Nat.zero_add]
  | head hStep _ ih =>
      rw [Nat.add_right_comm]
      exact .head hStep (ih h')

/-- A chain has a beginning of every smaller length. -/
theorem cut {n : Nat} {machine machine' : Machine} {terminal terminal' : σ}
    (h : Steps program n machine terminal machine' terminal') :
    ∀ {m : Nat}, m ≤ n → ∃ (reached : Machine) (terminal₁ : σ),
      Steps program m machine terminal reached terminal₁ := by
  induction h with
  | @refl machine terminal =>
      intro m hm
      rw [Nat.le_zero.1 hm]
      exact ⟨machine, terminal, .refl⟩
  | @head n machine _ _ terminal _ _ hStep _ ih =>
      intro m hm
      cases m with
      | zero => exact ⟨machine, terminal, .refl⟩
      | succ m =>
          obtain ⟨reached, terminal₁, hReached⟩ := ih (Nat.le_of_succ_le_succ hm)
          exact ⟨reached, terminal₁, .head hStep hReached⟩

end Steps

/-- Outside the program no step is possible. -/
theorem pc_lt_of_outcome (machine : Machine) (terminal : σ)
    (h : (machine.step program terminal).outcome ≠ .error (.inconsistent machine.pc)) :
    machine.pc < program.size := by
  apply Nat.lt_of_not_ge
  intro hGe
  have hNone : program.get? machine.pc = none := Array.getElem?_eq_none hGe
  apply h
  rw [step, act, hNone]

/-- An instruction that succeeds is an instruction of the program. -/
theorem pc_lt_of_step {machine next : Machine} {terminal terminal' : σ}
    (h : machine.step program terminal = ⟨.ok (), next, terminal'⟩) :
    machine.pc < program.size := by
  apply pc_lt_of_outcome machine terminal
  rw [h]
  exact nofun

/-- Steps are counted one by one or all at once, in 64 bits. -/
theorem count_succ (steps : UInt64) (n : Nat) :
    steps + 1 + UInt64.ofNat n = steps + UInt64.ofNat (n + 1) := by
  rw [UInt64.ofNat_add, UInt64.ofNat_one, UInt64.add_assoc, UInt64.add_comm 1]

/-- A run passes along a chain of steps. -/
theorem Steps.runFrom {n : Nat} {machine machine' : Machine} {terminal terminal' : σ}
    (h : Steps program n machine terminal machine' terminal') :
    ∀ (turns : Nat) (steps : UInt64),
      Machine.runFrom program (turns + n) steps machine terminal =
        Machine.runFrom program turns (steps + UInt64.ofNat n) machine' terminal' := by
  induction h with
  | refl =>
      intro turns steps
      exact congrArg (fun count => Machine.runFrom program turns count _ _) steps.add_zero.symm
  | @head n machine _ _ terminal _ _ hStep _ ih =>
      intro turns steps
      rw [← Nat.add_assoc, Machine.runFrom, if_pos (pc_lt_of_step hStep), hStep]
      dsimp only
      rw [ih turns (steps + 1), count_succ]

/-- A run is cut off exactly if as many steps succeed as it has turns. -/
theorem runFrom_unfinished_iff (turns : Nat) :
    ∀ {steps : UInt64} {machine : Machine} {terminal : σ},
      (runFrom program turns steps machine terminal).outcome = .unfinished ↔
        ∃ (machine' : Machine) (terminal' : σ),
          Steps program turns machine terminal machine' terminal' := by
  induction turns with
  | zero =>
      intro steps machine terminal
      exact ⟨fun _ => ⟨machine, terminal, .refl⟩, fun _ => rfl⟩
  | succ turns ih =>
      intro steps machine terminal
      constructor
      · intro h
        rw [runFrom] at h
        split at h
        · split at h
          · next machine₁ terminal₁ hStep =>
              obtain ⟨machine', terminal', hSteps⟩ := ih.1 h
              exact ⟨machine', terminal', .head hStep hSteps⟩
          · cases h
        · rw [finish] at h
          split at h <;> cases h
      · rintro ⟨machine', terminal', hSteps⟩
        cases hSteps with
        | head hStep hRest =>
            rw [runFrom, if_pos (pc_lt_of_step hStep), hStep]
            exact ih.2 ⟨machine', terminal', hRest⟩

/-- More turns change nothing in a run that ends. -/
theorem runFrom_add_of_ended (turns : Nat) :
    ∀ {steps : UInt64} {machine : Machine} {terminal : σ},
      (runFrom program turns steps machine terminal).outcome ≠ .unfinished → ∀ more : Nat,
        runFrom program (turns + more) steps machine terminal =
          runFrom program turns steps machine terminal := by
  induction turns with
  | zero =>
      intro steps machine terminal h
      exact absurd rfl h
  | succ turns ih =>
      intro steps machine terminal h more
      rw [Nat.add_right_comm, runFrom, runFrom]
      rw [runFrom] at h
      split
      · next hPc =>
          rw [if_pos hPc] at h
          split
          · next hStep =>
              rw [hStep] at h
              exact ih h more
          · rfl
      · rfl

/-- Two runs that end, on whatever turns, end alike. -/
theorem runFrom_eq_of_ended {turns turns' : Nat} {steps : UInt64} {machine : Machine} {terminal : σ}
    (h : (runFrom program turns steps machine terminal).outcome ≠ .unfinished)
    (h' : (runFrom program turns' steps machine terminal).outcome ≠ .unfinished) :
    runFrom program turns steps machine terminal =
      runFrom program turns' steps machine terminal := by
  rw [← runFrom_add_of_ended turns h turns', Nat.add_comm turns turns',
    runFrom_add_of_ended turns' h' turns]

/-- A run that has come to the end of its program is over. -/
theorem finish_outcome_ne_unfinished (steps : UInt64) (machine : Machine) (terminal : σ) :
    (machine.finish steps terminal).outcome ≠ .unfinished := by
  rw [finish]
  split <;> exact nofun

theorem reset_fresh (length : TapeLength) : (fresh length).reset = ⟨.blank length, 0⟩ := by
  simp [fresh, reset, Tape.clear, Tape.blank, Tape.size]

/-- A run on a fresh machine starts from the blank tape. -/
theorem run_fresh (length : TapeLength) (turns : Nat) (terminal : σ) :
    (fresh length).run turns program terminal =
      runFrom program turns 0 ⟨.blank length, 0⟩ terminal := by
  rw [run, reset_fresh]

end TapeLang.Machine
