import Mathlib.Data.Option.Basic

/-! Machines that take one action at a time. An action may be disabled in a state. What every action preserves holds in
every state that a run reaches. -/

namespace Machine

variable {σ α : Type} (step : σ → α → Option σ)

def run (s : σ) : List α → Option σ
  | [] => some s
  | a :: as => (step s a).bind fun s' => run s' as

/-- Each action of the run is taken in a state in which it meets the condition. -/
def Along (condition : σ → α → Prop) (s : σ) : List α → Prop
  | [] => True
  | a :: as => condition s a ∧ ∀ s', step s a = some s' → Along condition s' as

variable {step} {s s' : σ} {a : α} {as bs : List α}

theorem run_cons : run step s (a :: as) = some s' ↔ ∃ s₁, step s a = some s₁ ∧ run step s₁ as = some s' := by
  rw [run, Option.bind_eq_some_iff]

theorem run_append : run step s (as ++ bs) = (run step s as).bind fun s₁ => run step s₁ bs := by
  induction as generalizing s with
  | nil => rfl
  | cons a as ih =>
    rw [List.cons_append, run, run, Option.bind_assoc]
    exact congrArg _ (funext fun s₁ => ih)

theorem invariant_along {condition : σ → α → Prop} (inv : σ → Prop)
    (hstep : ∀ s a s', inv s → condition s a → step s a = some s' → inv s') (hs : inv s) (halong : Along step condition s as)
    (h : run step s as = some s') : inv s' := by
  induction as generalizing s with
  | nil =>
    cases h
    exact hs
  | cons a as ih =>
    obtain ⟨s₁, hfirst, hrest⟩ := run_cons.1 h
    exact ih (hstep s a s₁ hs halong.1 hfirst) (halong.2 s₁ hfirst) hrest

theorem along_true : ∀ (as : List α) (s : σ), Along step (fun _ _ => True) s as
  | [], _ => trivial
  | _ :: as, _ => ⟨trivial, fun s' _ => along_true as s'⟩

theorem invariant {inv : σ → Prop} (hstep : ∀ s a s', inv s → step s a = some s' → inv s') (hs : inv s)
    (h : run step s as = some s') : inv s' :=
  invariant_along inv (fun s a s' hs _ => hstep s a s' hs) hs (along_true as s) h

end Machine
