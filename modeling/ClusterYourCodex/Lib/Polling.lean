import Mathlib.Order.Lattice

/-! Programs that wait. A program makes calls, each of which takes some time and may be an observation, and a polling
loop asks again after a pause until it has an answer or its deadline has passed. Such a loop always ends, and ends
soon after its deadline or after the moment from which it is bound to be answered. -/

/-- The number of calls made so far, the present instant, and the observations with their instants, the newest first. -/
structure Moment (ο : Type) where
  calls : Nat
  now : Nat
  seen : List (Nat × ο)
  deriving DecidableEq

namespace Moment

variable {ο : Type}

/-- One call later. -/
def after (m : Moment ο) (elapsed : Nat) : Moment ο := { m with calls := m.calls + 1, now := m.now + elapsed }

def see (m : Moment ο) (o : ο) : Moment ο := { m with seen := (m.now, o) :: m.seen }

/-- Time does not go back, and what was seen stays. -/
structure Onward (m m' : Moment ο) : Prop where
  now : m.now ≤ m'.now
  seen : ∃ recent, m'.seen = recent ++ m.seen

theorem Onward.refl (m : Moment ο) : m.Onward m := ⟨le_rfl, [], rfl⟩

theorem Onward.trans {m₁ m₂ m₃ : Moment ο} (h : m₁.Onward m₂) (h' : m₂.Onward m₃) : m₁.Onward m₃ := by
  obtain ⟨recent, hseen⟩ := h.seen
  obtain ⟨recent', hseen'⟩ := h'.seen
  exact ⟨h.now.trans h'.now, recent' ++ recent, by rw [hseen', hseen, List.append_assoc]⟩

theorem onward_after (m : Moment ο) (elapsed : Nat) : m.Onward (m.after elapsed) := ⟨Nat.le_add_right _ _, [], rfl⟩

theorem onward_see (m : Moment ο) (o : ο) : m.Onward (m.see o) := ⟨le_rfl, [_], rfl⟩

end Moment

structure Timed (ο ε α : Type) where
  run : Moment ο → Except ε α × Moment ο
  onward : ∀ m : Moment ο, m.Onward (run m).2

namespace Timed

variable {ο ε α β : Type}

protected def pure (a : α) : Timed ο ε α := ⟨fun m => (.ok a, m), Moment.Onward.refl⟩

def fail (e : ε) : Timed ο ε α := ⟨fun m => (.error e, m), Moment.Onward.refl⟩

protected def bind (x : Timed ο ε α) (f : α → Timed ο ε β) : Timed ο ε β where
  run m := match x.run m with
    | (.ok a, m') => (f a).run m'
    | (.error e, m') => (.error e, m')
  onward m := by
    have hx := x.onward m
    split
    · next a m' h =>
      rw [h] at hx
      exact hx.trans ((f a).onward m')
    · next e m' h =>
      rw [h] at hx
      exact hx

instance : Monad (Timed ο ε) where
  pure := Timed.pure
  bind := Timed.bind

/-- One call: how long each call takes beyond its pause, the pause, and the answer, by the number of the call and the
instant at which it returns. -/
def ask (pace : Nat → Nat) (pause : Nat) (answer : Nat → Nat → Except ε α) : Timed ο ε α where
  run m := (answer m.calls (m.now + (pause + pace m.calls)), m.after (pause + pace m.calls))
  onward m := m.onward_after _

/-- A call whose answer is an observation. -/
def watch (pace : Nat → Nat) (answer : Nat → Nat → Except ε ο) : Timed ο ε ο where
  run m := match answer m.calls (m.now + pace m.calls) with
    | .ok o => (.ok o, (m.after (pace m.calls)).see o)
    | .error e => (.error e, m.after (pace m.calls))
  onward m := by
    split
    · exact (m.onward_after _).trans (Moment.onward_see _ _)
    · exact m.onward_after _

def clock (pace : Nat → Nat) : Timed ο ε Nat := ask pace 0 fun _ now => .ok now

def sleep (pace : Nat → Nat) (pause : Nat) : Timed ο ε Unit := ask pace pause fun _ _ => .ok ()

/-! ### What a program gives -/

def Gives (x : Timed ο ε α) (m : Moment ο) (a : α) (m' : Moment ο) : Prop := x.run m = (.ok a, m')

variable {x : Timed ο ε α} {m m' : Moment ο} {a : α} {f : α → Timed ο ε β} {pace : Nat → Nat} {c d t δ : Nat}

theorem Gives.onward (h : x.Gives m a m') : m.Onward m' := by
  have := x.onward m
  rw [h] at this
  exact this

@[simp] theorem gives_pure {b : α} : (pure a : Timed ο ε α).Gives m b m' ↔ b = a ∧ m' = m := by
  constructor
  · intro h
    cases h
    exact ⟨rfl, rfl⟩
  · rintro ⟨rfl, rfl⟩
    rfl

@[simp] theorem not_gives_fail {e : ε} : ¬(fail e : Timed ο ε α).Gives m a m' := by
  intro h
  cases h

theorem run_bind : (x >>= f).run m = match x.run m with
    | (.ok a, m') => (f a).run m'
    | (.error e, m') => (.error e, m') := rfl

@[simp] theorem gives_bind {b : β} : (x >>= f).Gives m b m' ↔ ∃ a m₁, x.Gives m a m₁ ∧ (f a).Gives m₁ b m' := by
  unfold Gives
  rw [run_bind]
  constructor
  · intro h
    split at h
    · next a m₁ hx => exact ⟨a, m₁, hx, h⟩
    · cases h
  · rintro ⟨a, m₁, hx, hf⟩
    rw [hx]
    exact hf

@[simp] theorem gives_ask {pause : Nat} {answer : Nat → Nat → Except ε α} : (ask pace pause answer).Gives m a m' ↔
      answer m.calls (m.now + (pause + pace m.calls)) = .ok a ∧ m' = m.after (pause + pace m.calls) := by
  unfold Gives ask
  rw [Prod.mk.injEq, eq_comm (a := m')]

@[simp] theorem gives_watch {answer : Nat → Nat → Except ε ο} {o : ο} : (watch pace answer).Gives m o m' ↔
      answer m.calls (m.now + pace m.calls) = .ok o ∧ m' = (m.after (pace m.calls)).see o := by
  unfold Gives watch
  dsimp only
  constructor
  · intro h
    split at h
    · next hanswer =>
      cases h
      exact ⟨hanswer, rfl⟩
    · cases h
  · rintro ⟨hanswer, rfl⟩
    rw [hanswer]

@[simp] theorem gives_clock {now : Nat} :
    (clock pace : Timed ο ε Nat).Gives m now m' ↔ now = m'.now ∧ m' = m.after (pace m.calls) := by
  unfold clock
  rw [gives_ask, Nat.zero_add, Except.ok.injEq]
  constructor
  · rintro ⟨rfl, rfl⟩
    exact ⟨rfl, rfl⟩
  · rintro ⟨rfl, rfl⟩
    exact ⟨rfl, rfl⟩

/-! ### How long a program takes -/

/-- Whatever the program ends with, it ends after `c` at the latest. -/
def Within (x : Timed ο ε α) (c : Nat) : Prop := ∀ m, (x.run m).2.now ≤ m.now + c

theorem Within.mono (h : x.Within c) (hcd : c ≤ d) : x.Within d :=
  fun m => (h m).trans (Nat.add_le_add_left hcd _)

theorem within_pure (a : α) (c : Nat) : (pure a : Timed ο ε α).Within c := fun _ => Nat.le_add_right _ _

theorem within_fail (e : ε) (c : Nat) : (fail e : Timed ο ε α).Within c := fun _ => Nat.le_add_right _ _

/-- A program ends by the time its second part ends, or with its first. -/
theorem now_bind_le (hx : (x.run m).2.now ≤ t)
    (hf : ∀ a m₁, x.Gives m a m₁ → ((f a).run m₁).2.now ≤ t) : ((x >>= f).run m).2.now ≤ t := by
  rw [run_bind]
  split
  · next a m₁ h => exact hf a m₁ h
  · next h =>
    rw [h] at hx
    exact hx

theorem Gives.now_le (h : x.Gives m a m') (hx : (x.run m).2.now ≤ t) : m'.now ≤ t := by
  rw [h] at hx
  exact hx

theorem Within.bind (hx : x.Within c) (hf : ∀ a, (f a).Within d) : (x >>= f).Within (c + d) := by
  intro m
  refine now_bind_le ((hx m).trans (by omega)) fun a m₁ h => ?_
  have hfirst := h.now_le (hx m)
  have hsecond := hf a m₁
  omega

theorem within_ask (hpace : ∀ n, pace n ≤ δ) (pause : Nat) (answer : Nat → Nat → Except ε α) :
    (ask pace pause answer : Timed ο ε α).Within (pause + δ) := by
  intro m
  have := hpace m.calls
  show m.now + (pause + pace m.calls) ≤ m.now + (pause + δ)
  omega

theorem within_clock (hpace : ∀ n, pace n ≤ δ) : (clock pace : Timed ο ε Nat).Within δ :=
  (within_ask hpace 0 _).mono (Nat.zero_add δ).le

theorem within_watch (hpace : ∀ n, pace n ≤ δ) (answer : Nat → Nat → Except ε ο) : (watch pace answer).Within δ := by
  intro m
  have := hpace m.calls
  unfold watch
  dsimp only
  split
  · exact Nat.add_le_add_left this _
  · exact Nat.add_le_add_left this _

/-! ### Polling -/

section Polling

variable {σ : Type} (pace : Nat → Nat) (check : σ → Timed ο ε (σ ⊕ α)) (deadline pause : Nat)

def pollFor : Nat → σ → Timed ο ε (σ ⊕ α)
  | 0, s => pure (.inl s)
  | fuel + 1, s => do
    match ← check s with
    | .inr a => pure (.inr a)
    | .inl s' => do
      let now ← clock pace
      if deadline ≤ now then pure (.inl s') else do
        sleep pace pause
        pollFor fuel s'

/-- Checks until there is an answer or the deadline has passed, with a pause between two checks; what a check without
answer leaves is there for the next one. Each round takes one unit of time at least, so that the rounds until the
deadline are enough (`pollUntil_run`). -/
def pollUntil (s : σ) : Timed ο ε (σ ⊕ α) where
  run m := (pollFor pace check deadline pause (deadline - m.now + 1) s).run m
  onward m := (pollFor pace check deadline pause (deadline - m.now + 1) s).onward m

/-- What a loop does after a check without answer. -/
def again (rest : σ → Timed ο ε (σ ⊕ α)) (s : σ) : Timed ο ε (σ ⊕ α) := do
  let now ← clock pace
  if deadline ≤ now then pure (.inl s) else do
    sleep pace pause
    rest s

variable {pace check deadline pause}

variable {s : σ} {m : Moment ο} {rest : σ → Timed ο ε (σ ⊕ α)} {t : Nat}

theorem pollFor_succ_run {fuel : Nat} : (pollFor pace check deadline pause (fuel + 1) s).run m =
    match (check s).run m with
    | (.ok (.inr a), m') => (.ok (.inr a), m')
    | (.ok (.inl s'), m') => (again pace deadline pause (pollFor pace check deadline pause fuel) s').run m'
    | (.error e, m') => (.error e, m') := by
  rw [pollFor, run_bind]
  rcases (check s).run m with ⟨_ | _ | a, m'⟩ <;> rfl

theorem again_run : (again pace deadline pause rest s).run m =
    if deadline ≤ (m.after (pace m.calls)).now then (.ok (.inl s), m.after (pace m.calls))
    else (rest s).run ((m.after (pace m.calls)).after (pause + pace (m.calls + 1))) := by
  have hclock : (clock pace : Timed ο ε Nat).run m = (.ok (m.after (pace m.calls)).now, m.after (pace m.calls)) :=
    gives_clock.2 ⟨rfl, rfl⟩
  rw [again, run_bind, hclock]
  dsimp only
  split_ifs
  · rfl
  · rfl

theorem pollFor_run_congr (hpause : 0 < pause) : ∀ {fuel fuel' : Nat} {s : σ} {m : Moment ο}, deadline - m.now < fuel →
    deadline - m.now < fuel' →
    (pollFor pace check deadline pause fuel s).run m = (pollFor pace check deadline pause fuel' s).run m := by
  intro fuel
  induction fuel with
  | zero => intro _ _ m h; omega
  | succ fuel ih =>
    intro fuel' s m h h'
    obtain ⟨fuel', rfl⟩ : ∃ k, fuel' = k + 1 := ⟨fuel' - 1, by omega⟩
    have honward := ((check s).onward m).now
    rw [pollFor_succ_run, pollFor_succ_run]
    generalize (check s).run m = out at honward
    rcases out with ⟨_ | s' | a, m'⟩
    · rfl
    · dsimp only at honward ⊢
      rw [again_run, again_run]
      split_ifs with hdeadline
      · rfl
      · -- the pause brings the deadline closer
        have hlater : m.now < ((m'.after (pace m'.calls)).after (pause + pace (m'.calls + 1))).now := by
          show m.now < m'.now + pace m'.calls + (pause + pace (m'.calls + 1))
          omega
        have hbefore : m'.now + pace m'.calls < deadline := not_le.1 hdeadline
        exact ih (by omega) (by omega)
    · rfl

/-- The loop as it is written. -/
theorem pollUntil_run (hpause : 0 < pause) : (pollUntil pace check deadline pause s).run m =
    match (check s).run m with
    | (.ok (.inr a), m') => (.ok (.inr a), m')
    | (.ok (.inl s'), m') => (again pace deadline pause (pollUntil pace check deadline pause) s').run m'
    | (.error e, m') => (.error e, m') := by
  show (pollFor pace check deadline pause (deadline - m.now + 1) s).run m = _
  have honward := ((check s).onward m).now
  rw [pollFor_succ_run]
  generalize (check s).run m = out at honward
  rcases out with ⟨_ | s' | a, m'⟩
  · rfl
  · dsimp only at honward ⊢
    rw [again_run, again_run]
    split_ifs with hdeadline
    · rfl
    · refine pollFor_run_congr hpause ?_ (Nat.lt_succ_self _)
      have hbefore : m'.now + pace m'.calls < deadline := not_le.1 hdeadline
      show deadline - (m'.now + pace m'.calls + (pause + pace (m'.calls + 1))) < deadline - m.now
      omega
  · rfl

/-- A round without an answer, before the deadline. -/
def Round (pace : Nat → Nat) (check : σ → Timed ο ε (σ ⊕ α)) (deadline pause : Nat) (s : σ) (m : Moment ο) (s' : σ)
    (m' : Moment ο) : Prop :=
  ∃ m₁, (check s).Gives m (.inl s') m₁ ∧ m₁.now + pace m₁.calls < deadline ∧
    m' = (m₁.after (pace m₁.calls)).after (pause + pace (m₁.calls + 1))

/-- Induction over the rounds of a loop: the rest of the loop starts one round later. -/
theorem pollUntil_induct (pace : Nat → Nat) (check : σ → Timed ο ε (σ ⊕ α)) (deadline : Nat) (hpause : 0 < pause)
    {motive : σ → Moment ο → Prop}
    (h : ∀ s m, (∀ s' m', Round pace check deadline pause s m s' m' → motive s' m') → motive s m) (s : σ) (m : Moment ο) :
    motive s m := by
  obtain ⟨left, hleft⟩ : ∃ left, left = deadline - m.now := ⟨_, rfl⟩
  induction left using Nat.strongRecOn generalizing s m with
  | ind left ih =>
    refine h s m ?_
    rintro s' m' ⟨m₁, hcheck, hbefore, rfl⟩
    have honward := hcheck.onward.now
    refine ih (deadline - (m₁.now + pace m₁.calls + (pause + pace (m₁.calls + 1)))) ?_ s' _ rfl
    omega

/-- What a loop gives, it gives after some rounds, each of which keeps the invariant. -/
theorem pollUntil_gives (inv : σ → Moment ο → Prop) (hpause : 0 < pause)
    (hround : ∀ s m s' m', inv s m → Round pace check deadline pause s m s' m' → inv s' m') {m' : Moment ο}
    {r : σ ⊕ α} (hm : inv s m) (h : (pollUntil pace check deadline pause s).Gives m r m') : ∃ s₀ m₀, inv s₀ m₀ ∧
      ((∃ a, r = .inr a ∧ (check s₀).Gives m₀ (.inr a) m') ∨
        ∃ s₁ m₁, r = .inl s₁ ∧ (check s₀).Gives m₀ (.inl s₁) m₁ ∧ m' = m₁.after (pace m₁.calls) ∧ deadline ≤ m'.now) := by
  induction s, m using pollUntil_induct pace check deadline hpause with
  | h s m ih =>
    unfold Gives at h
    rw [pollUntil_run hpause] at h
    cases hcheck : (check s).run m with
    | mk answer m₁ =>
      rw [hcheck] at h
      cases answer with
      | error e => cases h
      | ok answer =>
        cases answer with
        | inr a =>
          cases h
          exact ⟨s, m, hm, .inl ⟨a, rfl, hcheck⟩⟩
        | inl s₁ =>
          dsimp only at h
          rw [again_run] at h
          split_ifs at h with hdeadline
          · cases h
            exact ⟨s, m, hm, .inr ⟨s₁, m₁, rfl, hcheck, rfl, hdeadline⟩⟩
          · have hnext : Round pace check deadline pause s m s₁ _ := ⟨m₁, hcheck, not_le.1 hdeadline, rfl⟩
            exact ih s₁ _ hnext (hround s m s₁ _ hm hnext) h

variable {δ c : Nat}

theorem now_again_le (hpace : ∀ n, pace n ≤ δ) (hm : m.now + δ ≤ t)
    (hrest : ∀ m' : Moment ο, m'.now ≤ m.now + δ + pause + δ → m'.now ≤ deadline + pause + δ →
      m' = (m.after (pace m.calls)).after (pause + pace (m.calls + 1)) → m.now + pace m.calls < deadline →
      ((rest s).run m').2.now ≤ t) :
    ((again pace deadline pause rest s).run m).2.now ≤ t := by
  have hfirst := hpace m.calls
  have hsecond := hpace (m.calls + 1)
  rw [again_run]
  split_ifs with hdeadline
  · show m.now + pace m.calls ≤ t
    omega
  · have hbefore : m.now + pace m.calls < deadline := not_le.1 hdeadline
    refine hrest _ ?_ ?_ rfl hbefore
    all_goals
      show m.now + pace m.calls + (pause + pace (m.calls + 1)) ≤ _
      omega

/-- The instant at which a loop ends is bounded by its first check and by what it does if it goes on. -/
theorem now_pollUntil_le_of_again {deadline pause : Nat} (hpause : 0 < pause) (hcheck : (check s).Within c) (hm : m.now + c ≤ t)
    (hagain : ∀ s' m₁, (check s).Gives m (.inl s') m₁ → m₁.now ≤ m.now + c →
      ((again pace deadline pause (pollUntil pace check deadline pause) s').run m₁).2.now ≤ t) :
    ((pollUntil pace check deadline pause s).run m).2.now ≤ t := by
  have hfirst := hcheck m
  rw [pollUntil_run hpause]
  rcases hrun : (check s).run m with ⟨_ | s' | a, m₁⟩ <;> rw [hrun] at hfirst
  · exact hfirst.trans hm
  · exact hagain s' m₁ hrun hfirst
  · exact hfirst.trans hm

/-- A loop ends with its first check, or one round after its deadline. -/
theorem now_pollUntil_le (deadline : Nat) {pause : Nat} (hpause : 0 < pause) (hpace : ∀ n, pace n ≤ δ)
    (hcheck : ∀ s, (check s).Within c) (s : σ) (m : Moment ο) :
    ((pollUntil pace check deadline pause s).run m).2.now ≤ max (m.now + c + δ) (deadline + pause + c + 2 * δ) := by
  induction s, m using pollUntil_induct pace check deadline hpause with
  | h s m ih =>
    refine now_pollUntil_le_of_again hpause (hcheck s) (by omega) fun s' m₁ hrun hfirst => ?_
    refine now_again_le hpace (by omega) fun m' _ hlate hm' hbefore => ?_
    exact (ih s' m' ⟨m₁, hrun, hbefore, hm'⟩).trans (by omega)

/-- A loop with a timeout, and what follows it. -/
theorem within_pollUntil {β : Type} {d : Nat} {rest : σ ⊕ α → Timed ο ε β} (timeout : Nat) {pause : Nat} (hpause : 0 < pause)
    (hpace : ∀ n, pace n ≤ δ) (hcheck : ∀ s, (check s).Within c) (hrest : ∀ a, (rest a).Within d) (s : σ) :
    (clock pace >>= fun now => pollUntil pace check (now + timeout) pause s >>= rest).Within
      (timeout + pause + c + 3 * δ + d) := by
  intro m
  have hclock := (within_clock hpace : (clock pace : Timed ο ε Nat).Within δ) m
  refine now_bind_le (by omega) fun now m₁ h₁ => ?_
  obtain ⟨rfl, -⟩ := gives_clock.1 h₁
  have hm₁ := h₁.now_le hclock
  have hloop := now_pollUntil_le (m₁.now + timeout) hpause hpace hcheck s m₁
  refine now_bind_le (by omega) fun answer m₂ h₂ => ?_
  have hm₂ := h₂.now_le hloop
  exact (hrest answer m₂).trans (by omega)

/-- If every check from `t` on has an answer, the loop ends with its first check or one round after `t`. -/
theorem now_pollUntil_le_of_due (deadline : Nat) {pause : Nat} (hpause : 0 < pause) (hpace : ∀ n, pace n ≤ δ)
    (hcheck : ∀ s, (check s).Within c)
    (hdue : ∀ s s' (m m' : Moment ο), t ≤ m.now → ¬(check s).Gives m (.inl s') m') (s : σ) (m : Moment ο) :
    ((pollUntil pace check deadline pause s).run m).2.now ≤ max (m.now + c) (t + pause + 2 * c + 2 * δ) := by
  induction s, m using pollUntil_induct pace check deadline hpause with
  | h s m ih =>
    refine now_pollUntil_le_of_again hpause (hcheck s) (by omega) fun s' m₁ hrun hfirst => ?_
    have hearly : m.now < t := not_le.1 fun h => hdue s s' m m₁ h hrun
    refine now_again_le hpace (by omega) fun m' hsoon _ hm' hbefore => ?_
    exact (ih s' m' ⟨m₁, hrun, hbefore, hm'⟩).trans (by omega)

end Polling

end Timed
