import PrjOS.Library.Transition

namespace PrjOS.Transition

variable {σ ℓ τ κ ο : Type}

/-- Every step from related states is matched by a run of the other system, in
which the same is seen. -/
def Refines (step : σ → ℓ → σ → Prop) (step' : τ → κ → τ → Prop) (R : σ → τ → Prop)
    (seen : σ → List ο) (shown : κ → List ο) : Prop :=
  ∀ ⦃s s' : σ⦄ ⦃l : ℓ⦄ ⦃a : τ⦄, R s a → step s l s' →
    ∃ ls a', Run step' a ls a' ∧ R s' a' ∧ seen s' = seen s ++ ls.flatMap shown

variable {step : σ → ℓ → σ → Prop} {step' : τ → κ → τ → Prop} {R : σ → τ → Prop}
variable {seen : σ → List ο} {shown : κ → List ο}

theorem Refines.run (h : Refines step step' R seen shown) {s₀ s : σ} {a₀ : τ} {ls : List ℓ}
    (h₀ : R s₀ a₀) (hr : Run step s₀ ls s) :
    ∃ ls' a, Run step' a₀ ls' a ∧ R s a ∧ seen s = seen s₀ ++ ls'.flatMap shown := by
  induction hr with
  | nil => exact ⟨[], a₀, .nil, h₀, by simp⟩
  | snoc _ hl ih =>
    obtain ⟨ls', a, hrun, ha, hseen⟩ := ih
    obtain ⟨ls'', a', hrun', ha', hseen'⟩ := h ha hl
    refine ⟨ls' ++ ls'', a', hrun.trans hrun', ha', ?_⟩
    rw [hseen', hseen, List.append_assoc, List.flatMap_append]

end PrjOS.Transition
