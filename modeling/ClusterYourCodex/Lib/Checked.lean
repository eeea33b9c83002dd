import Mathlib.Data.List.Forall2

/-! Fallible computations in `Except`: a check that returns an error unless it holds, what a
successful sequence of steps says about each step, and the induction rule for a fallible loop. -/

namespace Checked

variable {ε ε' α β σ : Type}

/-- Returns `e` unless the check holds. -/
def ensure (check : Bool) (e : ε) : Except ε Unit := if check then .ok () else .error e

variable {check : Bool} {e e' : ε} {u : Unit} {o : Option α} {a : α} {x : Except ε α} {f : α → Except ε β} {b : β}
  {as : List α} {bs : List β} {step : σ → α → Except ε σ} {s s' : σ}

@[simp] theorem ensure_eq_ok : ensure check e = .ok u ↔ check = true := by
  cases check <;> simp [ensure]

theorem ensure_true (e : ε) : ensure true e = .ok () := rfl

theorem ensure_eq_error : ensure check e = .error e' ↔ check = false ∧ e = e' := by
  cases check <;> simp [ensure]

instance decidableEqError [DecidableEq ε] (x : Except ε α) (e : ε) : Decidable (x = .error e) :=
  match x with
  | .ok _ => isFalse nofun
  | .error e' => decidable_of_iff (e' = e) (by rw [Except.error.injEq])

/-- Checks a value that may be absent. -/
def checkSome (o : Option α) (check : α → Except ε Unit) : Except ε Unit :=
  match o with
  | none => .ok ()
  | some a => check a

@[simp] theorem checkSome_some (a : α) (check : α → Except ε Unit) : checkSome (some a) check = check a := rfl

/-- The value of an option that has to be there. -/
def required (o : Option α) (e : ε) : Except ε α :=
  match o with
  | none => .error e
  | some a => .ok a

@[simp] theorem required_eq_ok : required o e = .ok a ↔ o = some a := by
  cases o <;> simp [required]

/-- A sequence succeeds exactly when its first step does and the rest does on its result. -/
@[simp] theorem bind_eq_ok : (x >>= f) = .ok b ↔ ∃ a, x = .ok a ∧ f a = .ok b := by
  cases x with
  | error e =>
    refine ⟨nofun, ?_⟩
    rintro ⟨_, h, _⟩
    cases h
  | ok a =>
    refine ⟨fun h => ⟨a, rfl, h⟩, ?_⟩
    rintro ⟨_, h, hf⟩
    cases h
    exact hf

/-- The same after a step that returns nothing. -/
@[simp high] theorem seq_eq_ok {x : Except ε Unit} {f : Unit → Except ε β} :
    (x >>= f) = .ok b ↔ x = .ok () ∧ f () = .ok b := by
  rw [bind_eq_ok]
  exact ⟨fun ⟨_, hx, hf⟩ => ⟨hx, hf⟩, fun ⟨hx, hf⟩ => ⟨(), hx, hf⟩⟩

/-- A sequence fails exactly when its first step does, or the rest does on its result. -/
theorem bind_eq_error : (x >>= f) = .error e ↔ x = .error e ∨ ∃ a, x = .ok a ∧ f a = .error e := by
  cases x with
  | error e' =>
    refine ⟨fun h => .inl (by cases h; rfl), ?_⟩
    rintro (h | ⟨_, h, _⟩)
    · cases h; rfl
    · cases h
  | ok a =>
    refine ⟨fun h => .inr ⟨a, rfl, h⟩, ?_⟩
    rintro (h | ⟨_, h, hf⟩)
    · cases h
    · cases h; exact hf

theorem ok_bind (a : α) (f : α → Except ε β) : ((Except.ok a : Except ε α) >>= f) = f a := rfl

@[simp] theorem pure_eq_ok {b : α} : (pure a : Except ε α) = .ok b ↔ a = b :=
  ⟨fun h => by cases h; rfl, fun h => by rw [h]; rfl⟩

theorem pair_eq_ok {a' : α} {b b' : β} : (pure (a, b) : Except ε (α × β)) = .ok (a', b') ↔ a = a' ∧ b = b' := by
  rw [pure_eq_ok, Prod.mk.injEq]

@[simp] theorem mapError_eq_ok {f : ε → ε'} : x.mapError f = .ok a ↔ x = .ok a := by
  cases x with
  | error e => exact ⟨nofun, nofun⟩
  | ok b => exact ⟨fun h => by cases h; rfl, fun h => by cases h; rfl⟩

theorem mapError_eq_error {f : ε → ε'} {e : ε'} : x.mapError f = .error e ↔ ∃ e₀, x = .error e₀ ∧ f e₀ = e := by
  cases x with
  | error e₀ => exact ⟨fun h => ⟨e₀, rfl, by cases h; rfl⟩, fun ⟨_, h, hf⟩ => by cases h; rw [← hf]; rfl⟩
  | ok b => exact ⟨nofun, fun ⟨_, h, _⟩ => by cases h⟩

theorem required_eq_error : required o e = .error e' ↔ o = none ∧ e = e' := by
  cases o <;> simp [required]

theorem exists_ok_of_isOk (h : x.isOk = true) : ∃ a, x = .ok a := by
  cases x with
  | error e => cases h
  | ok a => exact ⟨a, rfl⟩

/-- A check of every element, in order, succeeds exactly when each one does. -/
theorem forM_eq_ok {check : α → Except ε Unit} : as.forM check = .ok u ↔ ∀ a ∈ as, check a = .ok () := by
  induction as with
  | nil => simp [List.forM]
  | cons a as ih =>
    have : (a :: as).forM check = (do check a; as.forM check) := rfl
    rw [this, seq_eq_ok, ih, List.forall_mem_cons]

/-- The results of a fallible function on every element, in order. -/
def collect (f : α → Except ε β) : List α → Except ε (List β)
  | [] => .ok []
  | a :: as => do
    let b ← f a
    let bs ← collect f as
    return b :: bs

theorem collect_eq_ok : collect f as = .ok bs ↔ List.Forall₂ (fun a b => f a = .ok b) as bs := by
  induction as generalizing bs with
  | nil =>
    rw [List.forall₂_nil_left_iff]
    exact ⟨fun h => by cases h; rfl, fun h => by rw [h]; rfl⟩
  | cons a as ih =>
    simp only [collect, bind_eq_ok, pure_eq_ok, List.forall₂_cons_left_iff, ih]
    constructor
    · rintro ⟨b, hb, bs', hbs, rfl⟩
      exact ⟨b, bs', hb, hbs, rfl⟩
    · rintro ⟨b, bs', hb, hbs, rfl⟩
      exact ⟨b, hb, bs', hbs, rfl⟩

/-- A function that does not fail on any element is a map. -/
theorem collect_of_forall {g : α → β} (h : ∀ a ∈ as, f a = .ok (g a)) : collect f as = .ok (as.map g) := by
  rw [collect_eq_ok, List.forall₂_map_right_iff, List.forall₂_same]
  exact h

theorem collect_isOk : (∃ bs, collect f as = .ok bs) ↔ ∀ a ∈ as, ∃ b, f a = .ok b := by
  induction as with
  | nil => exact ⟨fun _ => nofun, fun _ => ⟨[], rfl⟩⟩
  | cons a as ih =>
    simp only [collect, bind_eq_ok, pure_eq_ok, List.forall_mem_cons, ← ih]
    constructor
    · rintro ⟨_, b, hb, bs, hbs, -⟩
      exact ⟨⟨b, hb⟩, bs, hbs⟩
    · rintro ⟨⟨b, hb⟩, bs, hbs⟩
      exact ⟨_, b, hb, bs, hbs, rfl⟩

/-- Every collected result is the result of an element. -/
theorem exists_of_mem_collect (h : collect f as = .ok bs) (hb : b ∈ bs) : ∃ a ∈ as, f a = .ok b := by
  rw [collect_eq_ok] at h
  induction h with
  | nil => cases hb
  | @cons a b' as bs hab _ ih =>
    rcases List.mem_cons.1 hb with rfl | hb
    · exact ⟨a, List.mem_cons_self, hab⟩
    · obtain ⟨a', ha', hf⟩ := ih hb
      exact ⟨a', List.mem_cons_of_mem a ha', hf⟩

/-- And every element has its result. -/
theorem exists_of_collect_mem (h : collect f as = .ok bs) (ha : a ∈ as) : ∃ b ∈ bs, f a = .ok b := by
  rw [collect_eq_ok] at h
  induction h with
  | nil => cases ha
  | @cons x y as bs hxy _ ih =>
    rcases List.mem_cons.1 ha with rfl | ha
    · exact ⟨y, List.mem_cons_self, hxy⟩
    · obtain ⟨b, hb, hab⟩ := ih ha
      exact ⟨b, List.mem_cons_of_mem y hb, hab⟩

/-- A loop whose rounds all leave a state as it is. -/
theorem foldlM_eq_self (h : ∀ a ∈ as, step s a = .ok s) : as.foldlM step s = .ok s := by
  induction as with
  | nil => rfl
  | cons a as ih =>
    rw [List.foldlM_cons, h a List.mem_cons_self, ok_bind]
    exact ih fun b hb => h b (List.mem_cons_of_mem a hb)

/-- What one round of a loop keeps, the loop keeps. -/
theorem foldlM_induction {P : σ → Prop} (h : as.foldlM step s = .ok s') (hs : P s)
    (hstep : ∀ a ∈ as, ∀ s s', P s → step s a = .ok s' → P s') : P s' := by
  induction as generalizing s with
  | nil => cases h; exact hs
  | cons a as ih =>
    rw [List.foldlM_cons, bind_eq_ok] at h
    obtain ⟨s₁, h₁, h⟩ := h
    exact ih h (hstep a List.mem_cons_self s s₁ hs h₁) fun b hb => hstep b (List.mem_cons_of_mem a hb)

/-- What every round of a loop checks of its element holds of all elements. -/
theorem forall_of_foldlM {Q : α → Prop}
    (h : as.foldlM step s = .ok s') (hstep : ∀ a s s', step s a = .ok s' → Q a) : ∀ a ∈ as, Q a := by
  induction as generalizing s with
  | nil => exact nofun
  | cons a as ih =>
    rw [List.foldlM_cons, bind_eq_ok] at h
    obtain ⟨s₁, h₁, h⟩ := h
    exact List.forall_mem_cons.2 ⟨hstep a s s₁ h₁, ih h⟩

end Checked
