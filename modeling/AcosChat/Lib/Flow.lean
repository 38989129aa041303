import AcosChat.Lib.Run

/-!
# What goes into a run and what comes out

Two laws of bookkeeping. Where every step passes on in order what it takes in, keeping the
rest in hand, so does a run. Where every step is paid for by a weight of the state, the weight
at the start bounds what a run can cost.
-/
namespace Run

variable {σ α ω β : Type} {step : Step σ α ω} {cond : σ → α → Prop} {start : σ}

/-- What has come in is what has gone out and what is in hand, in this order. -/
def Passes (inn out : ω → List β) (held : σ → List β) (s : σ) (did : List ω) (s' : σ) : Prop :=
  held s ++ did.flatMap inn = did.flatMap out ++ held s'

theorem Passes.refl (inn out : ω → List β) (held : σ → List β) (s : σ) : Passes inn out held s [] s := by
  simp [Passes]

theorem Passes.trans {inn out : ω → List β} {held : σ → List β} {s s' s'' : σ} {did did' : List ω}
    (first : Passes inn out held s did s') (second : Passes inn out held s' did' s'') :
    Passes inn out held s (did ++ did') s'' := by
  simp only [Passes, List.flatMap_append] at *
  rw [← List.append_assoc, first, List.append_assoc, second, List.append_assoc]

/-- A run passes on what each of its steps passes on. -/
theorem Ran.passes (inn out : ω → List β) (held : σ → List β)
    (each : ∀ trace s action did s', Ran step cond start trace s → cond s action →
      step s action = some (did, some s') → Passes inn out held s did s')
    {trace : List ω} {s : σ} (ran : Ran step cond start trace s) : Passes inn out held start trace s := by
  induction ran with
  | start => exact Passes.refl inn out held start
  | step before met taken ih => exact ih.trans (each _ _ _ _ _ before met taken)

/-- What goes out in a run, the weight of the start pays for. -/
theorem Ran.length_le (out : ω → List β) (weight : σ → Nat)
    (each : ∀ trace s action did s', Ran step cond start trace s → cond s action →
      step s action = some (did, some s') → (did.flatMap out).length + weight s' ≤ weight s)
    {trace : List ω} {s : σ} (ran : Ran step cond start trace s) :
    (trace.flatMap out).length + weight s ≤ weight start := by
  induction ran with
  | start => simp
  | step before met taken ih =>
    have paid := each _ _ _ _ _ before met taken
    rw [List.flatMap_append, List.length_append]
    omega

end Run
