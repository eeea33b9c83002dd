import Mathlib.Data.List.Basic

/-! Computations that change a state in atomic steps. A computation keeps the states it passes, so that one can ask
what is left when it is cut off between two steps. -/

/-- The states that the computation passes, the oldest first, and its answer. -/
def Traced (σ ε α : Type) : Type := σ → List σ × Except ε α

namespace Traced

variable {σ ε ε' α β : Type}

/-- The state at the end. -/
def last (x : Traced σ ε α) (s : σ) : σ := (x s).1.getLastD s

protected def pure (a : α) : Traced σ ε α := fun _ => ([], .ok a)

protected def bind (x : Traced σ ε α) (f : α → Traced σ ε β) : Traced σ ε β := fun s =>
  match (x s).2 with
  | .error e => ((x s).1, .error e)
  | .ok a => ((x s).1 ++ (f a (x.last s)).1, (f a (x.last s)).2)

instance : Monad (Traced σ ε) where
  pure := Traced.pure
  bind := Traced.bind

def fail (e : ε) : Traced σ ε α := fun _ => ([], .error e)

/-- Looks at the state without changing it. -/
def look (f : σ → Except ε α) : Traced σ ε α := fun s => ([], f s)

/-- One atomic step. -/
def step (f : σ → Except ε σ) : Traced σ ε Unit := fun s =>
  match f s with
  | .ok s' => ([s'], .ok ())
  | .error e => ([], .error e)

/-- Runs the computation and hands over its answer, an error as well. -/
def attempt (x : Traced σ ε α) : Traced σ ε' (Except ε α) := fun s => ((x s).1, .ok (x s).2)

/-- Cut off at some point, the computation leaves `s'`. -/
def Leaves (x : Traced σ ε α) (s s' : σ) : Prop := s' ∈ s :: (x s).1

/-- The computation ends with the answer `a` in the state `s'`. -/
def Gives (x : Traced σ ε α) (s : σ) (a : α) (s' : σ) : Prop := (x s).2 = .ok a ∧ x.last s = s'

/-! ### The parts of a computation -/

variable {s s' : σ} {a : α} {e : ε} {f : α → Traced σ ε β} {x : Traced σ ε α}

@[simp] theorem gives_pure {b : α} : (pure a : Traced σ ε α).Gives s b s' ↔ a = b ∧ s = s' := by
  constructor
  · rintro ⟨h, rfl⟩
    exact ⟨Except.ok.inj h, rfl⟩
  · rintro ⟨rfl, rfl⟩
    exact ⟨rfl, rfl⟩

@[simp] theorem gives_fail : ¬(fail e : Traced σ ε α).Gives s a s' := by
  rintro ⟨h, -⟩
  cases h

@[simp] theorem gives_look {f : σ → Except ε α} : (look f).Gives s a s' ↔ f s = .ok a ∧ s = s' := Iff.rfl

@[simp] theorem gives_step {f : σ → Except ε σ} {u : Unit} : (step f).Gives s u s' ↔ f s = .ok s' := by
  unfold Gives last step
  cases f s <;> simp

@[simp] theorem gives_attempt {r : Except ε α} :
    (attempt x : Traced σ ε' (Except ε α)).Gives s r s' ↔ (x s).2 = r ∧ x.last s = s' := by
  constructor
  · rintro ⟨h, hlast⟩
    exact ⟨Except.ok.inj h, hlast⟩
  · rintro ⟨rfl, hlast⟩
    exact ⟨rfl, hlast⟩

theorem getLastD_append (l m : List σ) (s : σ) : (l ++ m).getLastD s = m.getLastD (l.getLastD s) := by
  induction l generalizing s with
  | nil => rfl
  | cons a l ih => rw [List.cons_append, List.getLastD_cons, List.getLastD_cons, ih]

theorem bind_ok (h : (x s).2 = .ok a) : (x >>= f) s = ((x s).1 ++ (f a (x.last s)).1, (f a (x.last s)).2) := by
  show Traced.bind x f s = _
  rw [Traced.bind, h]

theorem bind_error (h : (x s).2 = .error e) : (x >>= f) s = ((x s).1, .error e) := by
  show Traced.bind x f s = _
  rw [Traced.bind, h]

theorem last_bind (h : (x s).2 = .ok a) : (x >>= f).last s = (f a).last (x.last s) := by
  rw [last, bind_ok h, getLastD_append]
  rfl

@[simp] theorem gives_bind {b : β} : (x >>= f).Gives s b s' ↔ ∃ a s₁, x.Gives s a s₁ ∧ (f a).Gives s₁ b s' := by
  constructor
  · rintro ⟨hb, hlast⟩
    cases ha : (x s).2 with
    | error e =>
      rw [bind_error ha] at hb
      cases hb
    | ok a =>
      rw [bind_ok ha] at hb
      rw [last_bind ha] at hlast
      exact ⟨a, x.last s, ⟨ha, rfl⟩, hb, hlast⟩
  · rintro ⟨a, s₁, ⟨ha, rfl⟩, hb, hlast⟩
    refine ⟨?_, (last_bind ha).trans hlast⟩
    rw [bind_ok ha]
    exact hb

@[simp] theorem leaves_pure : (pure a : Traced σ ε α).Leaves s s' ↔ s' = s := List.mem_singleton

@[simp] theorem leaves_fail : (fail e : Traced σ ε α).Leaves s s' ↔ s' = s := List.mem_singleton

@[simp] theorem leaves_look {f : σ → Except ε α} : (look f).Leaves s s' ↔ s' = s := List.mem_singleton

@[simp] theorem leaves_step {f : σ → Except ε σ} : (step f).Leaves s s' ↔ s' = s ∨ f s = .ok s' := by
  unfold Leaves step
  cases f s with
  | error e => simp
  | ok t => simp [eq_comm]

@[simp] theorem leaves_attempt : (attempt x : Traced σ ε' (Except ε α)).Leaves s s' ↔ x.Leaves s s' := Iff.rfl

@[simp] theorem leaves_bind : (x >>= f).Leaves s s' ↔ x.Leaves s s' ∨ ∃ a s₁, x.Gives s a s₁ ∧ (f a).Leaves s₁ s' := by
  unfold Leaves
  cases ha : (x s).2 with
  | error e =>
    rw [bind_error ha]
    refine ⟨.inl, ?_⟩
    rintro (h | ⟨a, s₁, ⟨hok, -⟩, -⟩)
    · exact h
    · cases ha.symm.trans hok
  | ok a =>
    rw [bind_ok ha]
    constructor
    · intro h
      rw [List.mem_cons, List.mem_append] at h
      rcases h with h | h | h
      · exact .inl (h ▸ List.mem_cons_self)
      · exact .inl (List.mem_cons_of_mem s h)
      · exact .inr ⟨a, x.last s, ⟨ha, rfl⟩, List.mem_cons_of_mem _ h⟩
    · rintro (h | ⟨b, s₁, ⟨hok, rfl⟩, h⟩)
      · exact List.mem_cons.2 ((List.mem_cons.1 h).imp_right fun h => List.mem_append_left _ h)
      · cases ha.symm.trans hok
        rcases List.mem_cons.1 h with rfl | h
        · exact List.mem_cons.2 ((List.mem_cons.1 List.getLastD_mem_cons).imp_right fun h => List.mem_append_left _ h)
        · exact List.mem_cons_of_mem s (List.mem_append_right _ h)

end Traced
