import Mathlib.Order.Basic

/-! Content under a version number. Whoever changes the content raises the number, in the same step, so
that two states of one history with the same number have the same content, and so has every state
between them. -/

namespace Versioned

variable {σ γ ν : Type} [PartialOrder ν] {version : σ → ν} {content : σ → γ} {s s₁ s₂ : σ}

/-- The number does not fall, and while it stays the content stays. -/
structure Advances (version : σ → ν) (content : σ → γ) (s s' : σ) : Prop where
  le : version s ≤ version s'
  same : version s' = version s → content s' = content s

namespace Advances

theorem refl (s : σ) : Advances version content s s := ⟨le_rfl, fun _ => rfl⟩

/-- A step that raises the number may do anything to the content. -/
theorem of_lt (h : version s < version s₁) : Advances version content s s₁ := ⟨h.le, fun heq => absurd heq h.ne'⟩

theorem of_eq (hversion : version s₁ = version s) (hcontent : content s₁ = content s) : Advances version content s s₁ :=
  ⟨hversion.ge, fun _ => hcontent⟩

/-- Between two states with one number nothing has changed. -/
theorem between (h : Advances version content s s₁) (h' : Advances version content s₁ s₂) (heq : version s₂ = version s) :
    content s₁ = content s ∧ content s₂ = content s := by
  have h₁ : version s₁ = version s := le_antisymm (h'.le.trans_eq heq) h.le
  exact ⟨h.same h₁, (h'.same (heq.trans h₁.symm)).trans (h.same h₁)⟩

theorem trans (h : Advances version content s s₁) (h' : Advances version content s₁ s₂) : Advances version content s s₂ :=
  ⟨h.le.trans h'.le, fun heq => (h.between h' heq).2⟩

end Advances

end Versioned
