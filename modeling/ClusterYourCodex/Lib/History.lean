import Mathlib.Data.List.Basic

/-! Histories of a system that serves one call after another. A call is served between two readings of
a clock, and a condition may be required of every call in the state it finds. What holds at the start and
is kept by each call holds after the whole history. -/

namespace History

variable {σ κ : Type}

/-- The state after the calls. -/
def after (step : σ → κ → σ) (s : σ) (calls : List κ) : σ := calls.foldl step s

/-- The calls follow one another in time, from `t` on. -/
def Chronological (start finish : κ → Int) : Int → List κ → Prop
  | _, [] => True
  | t, c :: cs => t ≤ start c ∧ Chronological start finish (finish c) cs

/-- Every call meets the condition in the state it finds. -/
def Along (step : σ → κ → σ) (ok : σ → κ → Prop) : σ → List κ → Prop
  | _, [] => True
  | s, c :: cs => ok s c ∧ Along step ok (step s c) cs

instance (start finish : κ → Int) : ∀ t cs, Decidable (Chronological start finish t cs)
  | _, [] => inferInstanceAs (Decidable True)
  | t, c :: cs =>
    have := instDecidableChronological start finish (finish c) cs
    inferInstanceAs (Decidable (t ≤ start c ∧ _))

instance instDecidableAlong (step : σ → κ → σ) (ok : σ → κ → Prop) [∀ s c, Decidable (ok s c)] : ∀ s cs, Decidable (Along step ok s cs)
  | _, [] => inferInstanceAs (Decidable True)
  | s, c :: cs =>
    have := instDecidableAlong step ok (step s c) cs
    inferInstanceAs (Decidable (ok s c ∧ _))

section

variable {step : σ → κ → σ} {ok : σ → κ → Prop} {P : σ → Prop}

theorem after_append (s : σ) (xs ys : List κ) : after step s (xs ++ ys) = after step (after step s xs) ys :=
  List.foldl_append ..

variable {calls xs ys : List κ} {s : σ} {ε : Type} {emit : σ → κ → Option ε}

/-- The invariant rule. -/
theorem invariant_along (ha : Along step ok s calls) (h0 : P s)
    (hstep : ∀ s c, P s → ok s c → P (step s c)) : P (after step s calls) := by
  induction calls generalizing s with
  | nil => exact h0
  | cons c cs ih => exact ih ha.2 (hstep s c h0 ha.1)

theorem along_true : Along step (fun _ _ => True) s calls := by
  induction calls generalizing s with
  | nil => trivial
  | cons c cs ih => exact ⟨trivial, ih⟩

theorem along_append : Along step ok s (xs ++ ys) ↔ Along step ok s xs ∧ Along step ok (after step s xs) ys := by
  induction xs generalizing s with
  | nil => exact (and_iff_right trivial).symm
  | cons c xs ih => simp only [List.cons_append, Along, ih, and_assoc]; rfl

/-- The invariant rule when nothing is required of the calls. -/
theorem invariant (calls : List κ) (h0 : P s) (hstep : ∀ s c, P s → P (step s c)) : P (after step s calls) :=
  invariant_along along_true h0 fun s c hp _ => hstep s c hp

/-- What the calls bring forth, in order; a call need not bring forth anything. -/
def emitted {ε : Type} (step : σ → κ → σ) (emit : σ → κ → Option ε) : σ → List κ → List ε
  | _, [] => []
  | s, c :: cs => (emit s c).toList ++ emitted step emit (step s c) cs

/-- What is brought forth is in order if the state keeps a mark: what has been brought forth stays behind
the mark, and what comes next is ahead of everything behind it. -/
theorem pairwise_emitted {I : σ → Prop} {B : ε → σ → Prop} {R : ε → ε → Prop} (ha : Along step ok s calls) (hs : I s)
    (hstep : ∀ s c, I s → ok s c → I (step s c) ∧ ∀ e, B e s → B e (step s c))
    (hemit : ∀ s c e, I s → ok s c → emit s c = some e → B e (step s c) ∧ ∀ e₀, B e₀ s → R e₀ e) :
    (emitted step emit s calls).Pairwise R ∧ ∀ e ∈ emitted step emit s calls, ∀ e₀, B e₀ s → R e₀ e := by
  induction calls generalizing s with
  | nil => exact ⟨.nil, nofun⟩
  | cons c cs ih =>
    obtain ⟨hpairwise, hahead⟩ := ih ha.2 (hstep s c hs ha.1).1
    have hlater : ∀ e ∈ emitted step emit (step s c) cs, ∀ e₀, B e₀ s → R e₀ e := fun e he e₀ he₀ =>
      hahead e he e₀ ((hstep s c hs ha.1).2 e₀ he₀)
    unfold emitted
    cases hc : emit s c with
    | none => exact ⟨hpairwise, hlater⟩
    | some e₁ =>
      obtain ⟨hbehind, hfirst⟩ := hemit s c e₁ hs ha.1 hc
      refine ⟨List.pairwise_cons.2 ⟨fun e he => hahead e he e₁ hbehind, hpairwise⟩, fun e he => ?_⟩
      rcases List.mem_cons.1 he with rfl | he
      · exact hfirst
      · exact hlater e he

end

/-! ### Logs

A log lists what has happened, the latest first. -/

section Log

variable {ε : Type} {p q b : ε → Bool} {l l' : List ε}

/-- Something with `p` has happened, and nothing with `b` since. -/
def Since (p b : ε → Bool) : List ε → Prop
  | [] => False
  | e :: l => p e = true ∨ b e = false ∧ Since p b l

instance instDecidableSince (p b : ε → Bool) : ∀ l, Decidable (Since p b l)
  | [] => inferInstanceAs (Decidable False)
  | e :: l =>
    have := instDecidableSince p b l
    inferInstanceAs (Decidable (p e = true ∨ b e = false ∧ Since p b l))

/-- What has happened since is still so after more events, unless one of them ends it. -/
theorem Since.append (h : Since p b l) (hb : ∀ e ∈ l', b e = false) : Since p b (l' ++ l) := by
  induction l' with
  | nil => exact h
  | cons e l' ih =>
    exact .inr ⟨hb e List.mem_cons_self, ih fun e' he' => hb e' (List.mem_cons_of_mem e he')⟩

/-- Every event stands in the given relation to the log before it. -/
def EachAfter (R : ε → List ε → Prop) : List ε → Prop
  | [] => True
  | e :: l => R e l ∧ EachAfter R l

theorem EachAfter.append {R : ε → List ε → Prop} {o : Option ε} (h : EachAfter R l) (ho : ∀ e ∈ o, R e l) :
    EachAfter R (o.toList ++ l) := by
  cases o with
  | none => exact h
  | some e => exact ⟨ho e rfl, h⟩

end Log

end History
