/-!
# Loops

A loop is a step function on its state. One step goes on, returns, or faults; a run of
a loop takes a budget of steps, so that a result is always the result of finitely many.
-/
namespace Loop

inductive Step (σ ρ : Type) where
  | next (state : σ)
  | done (result : ρ)
  | fault
deriving DecidableEq, Repr

inductive Outcome (ρ : Type) where
  | done (result : ρ)
  | fault
  | running
deriving DecidableEq, Repr

variable {σ ρ : Type}

def run (step : σ → Step σ ρ) : Nat → σ → Outcome ρ
  | 0, _ => .running
  | budget + 1, state =>
    match step state with
    | .next state' => run step budget state'
    | .done result => .done result
    | .fault => .fault

theorem run_next {step : σ → Step σ ρ} {state state' : σ} (taken : step state = .next state')
    (budget : Nat) : run step (budget + 1) state = run step budget state' := by
  simp only [run, taken]

theorem run_done {step : σ → Step σ ρ} {state : σ} {result : ρ} (taken : step state = .done result)
    (budget : Nat) : run step (budget + 1) state = .done result := by
  simp only [run, taken]

theorem run_fault {step : σ → Step σ ρ} {state : σ} (taken : step state = .fault)
    (budget : Nat) : run step (budget + 1) state = .fault := by
  simp only [run, taken]

/-- A run that returns needs no more than its budget. -/
theorem run_mono {step : σ → Step σ ρ} {budget budget' : Nat} {state : σ} {result : ρ}
    (ran : run step budget state = .done result) (more : budget ≤ budget') :
    run step budget' state = .done result := by
  induction budget generalizing budget' state with
  | zero => cases ran
  | succ budget ih =>
    obtain ⟨larger, rfl⟩ : ∃ n, budget' = n + 1 := ⟨budget' - 1, by omega⟩
    cases taken : step state with
    | next second =>
      rw [run_next taken] at ran ⊢
      exact ih ran (by omega)
    | done other =>
      rw [run_done taken] at ran ⊢
      exact ran
    | fault =>
      rw [run_fault taken] at ran
      cases ran

/-- The states that a run passes. -/
inductive Passes (step : σ → Step σ ρ) (start : σ) : σ → Prop
  | start : Passes step start start
  | next {state state' : σ} (before : Passes step start state) (taken : step state = .next state') :
      Passes step start state'

theorem Passes.of_next {step : σ → Step σ ρ} {start second state : σ} (taken : step start = .next second)
    (later : Passes step second state) : Passes step start state := by
  induction later with
  | start => exact .next .start taken
  | next _ taken' ih => exact ih.next taken'

/-- A run that returns passes a state from which the step returns. -/
theorem passes_of_run {step : σ → Step σ ρ} {budget : Nat} {start : σ} {result : ρ}
    (ran : run step budget start = .done result) :
    ∃ last, Passes step start last ∧ step last = .done result := by
  induction budget generalizing start with
  | zero => cases ran
  | succ budget ih =>
    cases taken : step start with
    | next second =>
      rw [run_next taken] at ran
      obtain ⟨last, later, returns⟩ := ih ran
      exact ⟨last, later.of_next taken, returns⟩
    | done other =>
      rw [run_done taken] at ran
      cases ran
      exact ⟨start, .start, taken⟩
    | fault =>
      rw [run_fault taken] at ran
      cases ran

/-- A run that ends comes to its end from every state that it passes. -/
theorem run_of_passes {step : σ → Step σ ρ} {start state : σ} (passes : Passes step start state)
    {budget : Nat} (ends : run step budget start ≠ .running) :
    ∃ budget', run step budget' state = run step budget start := by
  induction passes with
  | start => exact ⟨budget, rfl⟩
  | next _ taken ih =>
    obtain ⟨budget', same⟩ := ih
    cases budget' with
    | zero => exact absurd same.symm ends
    | succ budget' => exact ⟨budget', by rw [← same, run_next taken]⟩

/-- Where a state that a run passes returns, the run does, if it ends. -/
theorem run_eq_done {step : σ → Step σ ρ} {start state : σ} (passes : Passes step start state)
    {result : ρ} (returns : step state = .done result) {budget : Nat}
    (ends : run step budget start ≠ .running) : run step budget start = .done result := by
  obtain ⟨budget', same⟩ := run_of_passes passes ends
  cases budget' with
  | zero => exact absurd same.symm ends
  | succ budget' => rw [← same, run_done returns]

end Loop
