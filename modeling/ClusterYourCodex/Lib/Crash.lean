import ClusterYourCodex.Lib.Trace

/-! Triples for computations that may be cut off. Beside what holds at the end, a triple states what holds of every state
that the computation leaves when it is cut off between two steps. -/

namespace Traced

variable {σ ε ε' α β : Type} {P P' C C' : σ → Prop} {Q Q' : α → σ → Prop} {E E' : ε → σ → Prop}

/-- From a state with `P` the computation ends with an answer and `Q`, or with an error and `E`; cut off anywhere, it leaves
a state with `C`. -/
structure Triple (P : σ → Prop) (x : Traced σ ε α) (Q : α → σ → Prop) (E : ε → σ → Prop) (C : σ → Prop) : Prop where
  gives : ∀ s a s', P s → x.Gives s a s' → Q a s'
  fails : ∀ s e, P s → (x s).2 = .error e → E e (x.last s)
  leaves : ∀ s s', P s → x.Leaves s s' → C s'

variable {x : Traced σ ε α} {M : α → σ → Prop}

/-- The triple of a computation that can be run. -/
theorem triple_of_run (h : ∀ s, P s → C s ∧ ∃ passed r, x s = (passed, r) ∧ (∀ s' ∈ passed, C s') ∧
    match r with
    | .ok a => Q a (passed.getLastD s)
    | .error e => E e (passed.getLastD s)) : Triple P x Q E C where
  gives s a s' hs hx := by
    obtain ⟨-, passed, r, hrun, -, hr⟩ := h s hs
    obtain ⟨ha, rfl⟩ := hx
    unfold last
    rw [hrun] at ha ⊢
    cases ha
    exact hr
  fails s e hs he := by
    obtain ⟨-, passed, r, hrun, -, hr⟩ := h s hs
    unfold last
    rw [hrun] at he ⊢
    cases he
    exact hr
  leaves s s' hs hx := by
    obtain ⟨hfirst, passed, r, hrun, hpassed, -⟩ := h s hs
    unfold Leaves at hx
    rw [hrun] at hx
    rcases List.mem_cons.1 hx with rfl | hx
    · exact hfirst
    · exact hpassed s' hx

theorem Triple.weaken (h : Triple P x Q E C) (hP : ∀ s, P' s → P s) (hQ : ∀ a s, Q a s → Q' a s)
    (hE : ∀ e s, E e s → E' e s) : Triple P' x Q' E' C where
  gives s a s' hs hx := hQ a s' (h.gives s a s' (hP s hs) hx)
  fails s e hs he := hE e _ (h.fails s e (hP s hs) he)
  leaves s s' hs hx := h.leaves s s' (hP s hs) hx

theorem triple_pure {a : α} (h : ∀ s, P s → Q a s ∧ C s) : Triple P (pure a) Q E C where
  gives s b s' hs hx := by
    obtain ⟨rfl, rfl⟩ := gives_pure.1 hx
    exact (h s hs).1
  fails s e hs he := by cases he
  leaves s s' hs hx := by
    rw [leaves_pure.1 hx]
    exact (h s hs).2

theorem triple_fail {e : ε} (h : ∀ s, P s → E e s ∧ C s) : Triple P (fail e : Traced σ ε α) Q E C where
  gives s a s' hs hx := absurd hx gives_fail
  fails s e' hs he := by
    cases he
    exact (h s hs).1
  leaves s s' hs hx := by
    rw [leaves_fail.1 hx]
    exact (h s hs).2

/-- A look that cannot fail. -/
theorem triple_look {f : σ → α} (h : ∀ s, P s → Q (f s) s ∧ C s) : Triple P (look fun s => (.ok (f s) : Except ε α)) Q E C where
  gives s a s' hs hx := by
    obtain ⟨hf, rfl⟩ := gives_look.1 hx
    cases hf
    exact (h s hs).1
  fails s e hs he := by cases he
  leaves s s' hs hx := by
    rw [leaves_look.1 hx]
    exact (h s hs).2

theorem triple_step {f : σ → Except ε σ} {Q : Unit → σ → Prop} (hbefore : ∀ s, P s → C s)
    (hstep : ∀ s s', P s → f s = .ok s' → Q () s' ∧ C s') (herror : ∀ s e, P s → f s = .error e → E e s) :
    Triple P (step f) Q E C where
  gives s a s' hs hx := (hstep s s' hs (gives_step.1 hx)).1
  fails s e hs he := by
    cases hf : f s with
    | ok s' => simp [step, hf] at he
    | error e' =>
      have hlast : (step f).last s = s := by simp [last, step, hf]
      rw [hlast]
      simp only [step, hf, Except.error.injEq] at he
      exact he ▸ herror s e' hs hf
  leaves s s' hs hx := by
    rcases leaves_step.1 hx with rfl | hf
    · exact hbefore s' hs
    · exact (hstep s s' hs hf).2

theorem triple_bind {f : α → Traced σ ε β} {Q : β → σ → Prop} (hx : Triple P x M E C)
    (hf : ∀ a, Triple (M a) (f a) Q E C) : Triple P (x >>= f) Q E C where
  gives s b s' hs h := by
    obtain ⟨a, s₁, ha, hb⟩ := gives_bind.1 h
    exact (hf a).gives s₁ b s' (hx.gives s a s₁ hs ha) hb
  fails s e hs he := by
    cases ha : (x s).2 with
    | error e' =>
      rw [bind_error ha] at he
      cases he
      have hlast : (x >>= f).last s = x.last s := by rw [last, bind_error ha]; rfl
      rw [hlast]
      exact hx.fails s e hs ha
    | ok a =>
      rw [bind_ok ha] at he
      rw [last_bind ha]
      exact (hf a).fails _ e (hx.gives s a _ hs ⟨ha, rfl⟩) he
  leaves s s' hs h := by
    rcases leaves_bind.1 h with h | ⟨a, s₁, ha, h⟩
    · exact hx.leaves s s' hs h
    · exact (hf a).leaves s₁ s' (hx.gives s a s₁ hs ha) h

/-- An attempt hands on what the computation ends with. -/
theorem triple_attempt {Q : Except ε α → σ → Prop} {E : ε' → σ → Prop}
    (h : Triple P x (fun a => Q (.ok a)) (fun e => Q (.error e)) C) : Triple P (attempt x) Q E C where
  gives s r s' hs hx := by
    obtain ⟨rfl, rfl⟩ := gives_attempt.1 hx
    cases hr : (x s).2 with
    | ok a => exact h.gives s a _ hs ⟨hr, rfl⟩
    | error e => exact h.fails s e hs hr
  fails s e hs he := by cases he
  leaves s s' hs hx := h.leaves s s' hs (leaves_attempt.1 hx)

/-- What follows an attempt is proved for the answer and for the error. -/
theorem triple_try {f : Except ε α → Traced σ ε' β} {N : ε → σ → Prop} {Q : β → σ → Prop}
    {E : ε' → σ → Prop} (hx : Triple P x M N C) (hok : ∀ a, Triple (M a) (f (.ok a)) Q E C)
    (herror : ∀ e, Triple (N e) (f (.error e)) Q E C) : Triple P (attempt x >>= f) Q E C := by
  refine triple_bind (M := fun r s => r.rec (fun e => N e s) fun a => M a s) (triple_attempt hx) ?_
  rintro (e | a)
  · exact herror e
  · exact hok a

end Traced
